import LibCxxRt.Guard.Impl
import LibCxxRt.Util.Reach

/-!
This module contains the lemmas about guards that do not depend on how many words they consist of:
the bits of the words, and the steps outside of the functions.
-/

namespace LibCxxRt

open Util

namespace GuardLayout

variable {w : Nat} (layout : GuardLayout w)

theorem getLsbD_locked (i : Nat)
    : layout.locked.getLsbD i = decide (layout.lockedBit = i) := by
  have htwo : layout.locked = BitVec.twoPow w layout.lockedBit := by
    rfl
  rw [htwo, BitVec.getLsbD_twoPow]
  simp [layout.lockedBit_lt]

theorem getLsbD_initialised (i : Nat)
    : layout.initialised.getLsbD i = decide (layout.initBit = i) := by
  have htwo : layout.initialised = BitVec.twoPow w layout.initBit := by
    rfl
  rw [htwo, BitVec.getLsbD_twoPow]
  simp [layout.initBit_lt]

theorem isInitialised_eq (word : BitVec w) : layout.isInitialised word = word.getLsbD layout.initBit := by
  unfold isInitialised
  rw [Bool.eq_iff_iff, beq_iff_eq]
  constructor
  . intro heq
    have hbit := congrArg (BitVec.getLsbD · layout.initBit) heq
    simpa [getLsbD_initialised] using hbit
  . intro hword
    apply BitVec.eq_of_getLsbD_eq
    intro i _
    rw [BitVec.getLsbD_and, getLsbD_initialised]
    by_cases hi : layout.initBit = i
    . subst hi
      simp [hword]
    . simp [hi]

@[simp]
theorem isInitialised_zero : layout.isInitialised 0#w = false := by
  rw [isInitialised_eq]
  simp

@[simp]
theorem isInitialised_locked : layout.isInitialised layout.locked = false := by
  rw [isInitialised_eq, getLsbD_locked]
  simp [layout.lockedBit_ne]

@[simp]
theorem isInitialised_initialised : layout.isInitialised layout.initialised = true := by
  rw [isInitialised_eq, getLsbD_initialised]
  simp

@[simp]
theorem locked_ne_zero : layout.locked ≠ 0#w := by
  intro heq
  have hbit := congrArg (BitVec.getLsbD · layout.lockedBit) heq
  simp [getLsbD_locked] at hbit

@[simp]
theorem initialised_ne_zero : layout.initialised ≠ 0#w := by
  intro heq
  have hbit := layout.isInitialised_initialised
  simp [heq] at hbit

@[simp]
theorem locked_ne_initialised : layout.locked ≠ layout.initialised := by
  intro heq
  have hbit := layout.isInitialised_initialised
  simp [← heq] at hbit

@[simp]
theorem byte_zero : layout.byte 0#w = 0#8 := by
  simp [byte]

-- the byte that the generated code looks at tells whether the variable is initialised
@[simp]
theorem byte_initialised : layout.byte layout.initialised ≠ 0#8 := by
  intro heq
  have hbit := congrArg (BitVec.getLsbD · (layout.initBit - layout.firstByte)) heq
  have hle := layout.firstByte_le
  have hlt := layout.lt_firstByte
  simp only [byte, BitVec.getLsbD_setWidth, BitVec.getLsbD_ushiftRight, getLsbD_initialised] at hbit
  simp at hbit
  omega

end GuardLayout

namespace GuardPc

-- `__cxa_guard_acquire` has returned 1, and the release or the abort is not finished
def mustInit : GuardPc → Bool
  | .initialising | .unlocking _ | .unlockingSecond _ => true
  | .idle | .checking | .locking | .rechecking | .yielding | .asserting _ => false

-- where the owner of the guard can be in a phase
def OwnerIn (pc : GuardPc) : OncePhase Nat → Prop
  | .owned _ => pc = .initialising
  | .releasing _ => pc = .unlocking true
  | .aborting _ => pc = .unlocking false ∨ pc = .unlockingSecond false
  | .stored _ => pc = .unlockingSecond true
  | .free | .done => False

theorem OwnerIn.mustInit {pc : GuardPc} {p : OncePhase Nat} (hpc : pc.OwnerIn p) : pc.mustInit := by
  cases p with
  | free => exact hpc.elim
  | owned t =>
    cases hpc
    rfl
  | releasing t =>
    cases hpc
    rfl
  | aborting t => rcases hpc with rfl | rfl <;> rfl
  | stored t =>
    cases hpc
    rfl
  | done => exact hpc.elim

end GuardPc

structure GuardOwner (p : OncePhase Nat) (pcs : Nat → GuardPc) : Prop where
  owner : ∀ t, p.owner = some t → (pcs t).OwnerIn p
  others : ∀ t, p.owner ≠ some t → (pcs t).mustInit = false

namespace GuardOwner

variable {p q : OncePhase Nat} {pcs : Nat → GuardPc} {t : Nat} {pc : GuardPc}

theorem owner_eq (hinv : GuardOwner p pcs) (hpc : (pcs t).mustInit) : p.owner = some t := by
  by_contra hne
  rw [hinv.others t hne] at hpc
  contradiction

theorem owner_ne (hinv : GuardOwner p pcs) (hpc : (pcs t).mustInit = false) : p.owner ≠ some t := by
  intro heq
  rw [(hinv.owner t heq).mustInit] at hpc
  contradiction

-- a thread that is not the owner goes on
theorem keep (hinv : GuardOwner p pcs) (hold : (pcs t).mustInit = false)
    (hnew : pc.mustInit = false) : GuardOwner p (Function.update pcs t pc) := by
  have hne := hinv.owner_ne hold
  constructor
  . intro u hu
    rw [Function.update_of_ne]
    . exact hinv.owner u hu
    . rintro rfl
      exact hne hu
  . intro u hu
    by_cases heq : u = t
    . rw [heq, Function.update_self]
      exact hnew
    . rw [Function.update_of_ne heq]
      exact hinv.others u hu

-- a thread becomes the owner, or the owner goes on
theorem change (hinv : GuardOwner p pcs) (hold : p.owner = none ∨ p.owner = some t)
    (hnew : q.owner = some t ∧ pc.OwnerIn q ∨ q.owner = none ∧ pc.mustInit = false)
    : GuardOwner q (Function.update pcs t pc) := by
  constructor
  . intro u hu
    rcases hnew with ⟨howner, hpc⟩ | ⟨hnone, _⟩
    . rw [howner, Option.some.injEq] at hu
      rw [← hu, Function.update_self]
      exact hpc
    . rw [hnone] at hu
      contradiction
  . intro u hu
    by_cases heq : u = t
    . rw [heq, Function.update_self]
      rcases hnew with ⟨howner, _⟩ | ⟨_, hpc⟩
      . rw [heq] at hu
        exact absurd howner hu
      . exact hpc
    . rw [Function.update_of_ne heq]
      apply hinv.others u
      rcases hold with hnone | howner
      . simp [hnone]
      . simpa [howner] using Ne.symm heq

theorem phase_of_initialising (hinv : GuardOwner p pcs) (hpc : pcs t = .initialising)
    : p = .owned t := by
  have heq := hinv.owner_eq (t := t) (by simp [hpc, GuardPc.mustInit])
  have howner := hinv.owner t heq
  rw [hpc] at howner
  cases p <;> simp_all [GuardPc.OwnerIn, OncePhase.owner]

theorem phase_of_unlocking {isInitialised : Bool} (hinv : GuardOwner p pcs)
    (hpc : pcs t = .unlocking isInitialised)
    : p = if isInitialised then .releasing t else .aborting t := by
  have heq := hinv.owner_eq (t := t) (by simp [hpc, GuardPc.mustInit])
  have howner := hinv.owner t heq
  rw [hpc] at howner
  cases p <;> simp_all [GuardPc.OwnerIn, OncePhase.owner]

theorem phase_of_unlockingSecond {isInitialised : Bool} (hinv : GuardOwner p pcs)
    (hpc : pcs t = .unlockingSecond isInitialised)
    : p = if isInitialised then .stored t else .aborting t := by
  have heq := hinv.owner_eq (t := t) (by simp [hpc, GuardPc.mustInit])
  have howner := hinv.owner t heq
  rw [hpc] at howner
  cases p <;> simp_all [GuardPc.OwnerIn, OncePhase.owner]

end GuardOwner

section

variable {γ : Type} {run : GuardProcess γ → Nat → Bool → Option (GuardProcess γ)}
variable {s s' : GuardProcess γ} {t : Nat} {action : GuardAction}

theorem guardStep_acquire (hpc : s.pcs t = .idle)
    : guardStep run s (t, .acquire) = some (s.goto t .checking) := by
  simp [guardStep, hpc]

theorem guardStep_abort (hpc : s.pcs t = .initialising)
    : guardStep run s (t, .abort)
        =
      some ((s.goto t (.unlocking false)).record [.aborting t]) := by
  simp [guardStep, hpc]

-- what a thread does outside of the functions, and the phases before and after it
theorem guardStep_cases (hstep : guardStep run s (t, action) = some s')
    : s.pcs t = .idle ∧ s' = s.goto t .checking
      ∨ s.pcs t = .initialising ∧ action = .release
        ∧ s' = (s.goto t (.unlocking true)).record [.releasing t]
      ∨ s.pcs t = .initialising ∧ s' = (s.goto t (.unlocking false)).record [.aborting t]
      ∨ ∃ spurious, action = .run spurious ∧ run s t spurious = some s' := by
  unfold guardStep at hstep
  cases action with
  | acquire =>
    dsimp only at hstep
    split at hstep
    . next hpc =>
      cases hstep
      exact .inl ⟨hpc, rfl⟩
    . contradiction
  | release =>
    dsimp only at hstep
    split at hstep
    . next hpc =>
      cases hstep
      exact .inr (.inl ⟨hpc, rfl, rfl⟩)
    . contradiction
  | abort =>
    dsimp only at hstep
    split at hstep
    . next hpc =>
      cases hstep
      exact .inr (.inr (.inl ⟨hpc, rfl⟩))
    . contradiction
  | run spurious => exact .inr (.inr (.inr ⟨spurious, rfl, hstep⟩))

end

end LibCxxRt
