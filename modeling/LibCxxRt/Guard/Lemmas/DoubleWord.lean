import LibCxxRt.Guard.Refinement

/-!
This module contains the proof that `DoubleWordGuard` refines the automaton. The init word tells
whether the initialisation is published, the lock word whether there is a thread between the
`compare_exchange` and the store that gives the lock up. This thread is the owner, or it finds out
that it does not have to initialise the variable.
-/

namespace LibCxxRt

open Util

namespace GuardPc

def holdsLock : GuardPc → Bool
  | .rechecking | .yielding | .initialising | .unlocking _ | .unlockingSecond _ => true
  | .idle | .checking | .locking | .asserting _ => false

theorem holdsLock_of_mustInit {pc : GuardPc} (hpc : pc.mustInit) : pc.holdsLock := by
  cases pc <;> simp_all [mustInit, holdsLock]

end GuardPc

namespace DoubleWordGuard

variable {layout : GuardLayout 32}

def LockHeld (layout : GuardLayout 32) (lockWord : BitVec 32) (pcs : Nat → GuardPc) : Prop :=
  ∃ holder : Option Nat, (lockWord = if holder = none then 0 else layout.locked)
    ∧ ∀ t, (pcs t).holdsLock ↔ holder = some t

namespace LockHeld

variable {lockWord : BitVec 32} {pcs : Nat → GuardPc} {t u : Nat} {pc : GuardPc}

theorem unique (hlock : LockHeld layout lockWord pcs) (ht : (pcs t).holdsLock)
    (hu : (pcs u).holdsLock) : t = u := by
  rcases hlock with ⟨holder, _, hholder⟩
  rw [hholder] at ht hu
  rw [ht] at hu
  exact Option.some.inj hu

theorem eq_false_of_zero (hlock : LockHeld layout lockWord pcs) (hzero : lockWord = 0)
    : (pcs t).holdsLock = false := by
  rcases hlock with ⟨holder, hword, hholder⟩
  cases holder with
  | none => simpa using hholder t
  | some u =>
    rw [hzero, if_neg (by simp)] at hword
    exact absurd hword.symm layout.locked_ne_zero

theorem keep (hlock : LockHeld layout lockWord pcs) (hpc : pc.holdsLock = (pcs t).holdsLock)
    : LockHeld layout lockWord (Function.update pcs t pc) := by
  rcases hlock with ⟨holder, hword, hholder⟩
  refine ⟨holder, hword, ?_⟩
  intro u
  by_cases heq : u = t
  . rw [heq, Function.update_self, hpc]
    exact hholder t
  . rw [Function.update_of_ne heq]
    exact hholder u

theorem take (hlock : LockHeld layout lockWord pcs) (hzero : lockWord = 0) (hpc : pc.holdsLock)
    : LockHeld layout layout.locked (Function.update pcs t pc) := by
  refine ⟨some t, by simp, ?_⟩
  intro u
  by_cases heq : u = t
  . rw [heq, Function.update_self]
    simp [hpc]
  . rw [Function.update_of_ne heq, hlock.eq_false_of_zero hzero]
    simpa using Ne.symm heq

theorem give (hlock : LockHeld layout lockWord pcs) (ht : (pcs t).holdsLock)
    (hpc : pc.holdsLock = false) : LockHeld layout 0 (Function.update pcs t pc) := by
  refine ⟨none, by simp, ?_⟩
  intro u
  by_cases heq : u = t
  . rw [heq, Function.update_self]
    simp [hpc]
  . rw [Function.update_of_ne heq]
    refine iff_of_false ?_ (by simp)
    intro hu
    exact heq (hlock.unique hu ht)

end LockHeld

structure Refines (layout : GuardLayout 32) (p : OncePhase Nat) (s : GuardProcess DoubleWordGuard) :
    Prop where
  initWord : s.guard.initWord = if p.isStored then layout.initialised else 0
  owner : GuardOwner p s.pcs
  lockHeld : LockHeld layout s.guard.lockWord s.pcs
  -- what these threads have seen stays true
  stored : ∀ t, s.pcs t = .yielding ∨ s.pcs t = .asserting true → p.isStored

variable {p q : OncePhase Nat} {s s' : GuardProcess DoubleWordGuard} {t : Nat} {pc : GuardPc}

namespace Refines

theorem goto (hs : Refines layout p s) (hpcs : s'.pcs = Function.update s.pcs t pc)
    (hinit : s'.guard.initWord = if q.isStored then layout.initialised else 0)
    (howner : GuardOwner q (Function.update s.pcs t pc))
    (hlock : LockHeld layout s'.guard.lockWord (Function.update s.pcs t pc))
    (hmono : p.isStored → q.isStored) (hpc : pc = .yielding ∨ pc = .asserting true → q.isStored)
    : Refines layout q s' := by
  constructor
  . exact hinit
  . rw [hpcs]
    exact howner
  . rw [hpcs]
    exact hlock
  . intro u hu
    rw [hpcs] at hu
    by_cases heq : u = t
    . rw [heq, Function.update_self] at hu
      exact hpc hu
    . rw [Function.update_of_ne heq] at hu
      exact hmono (hs.stored u hu)

-- a thread that is not the owner goes on, the words and the phase stay the same
theorem keep (hs : Refines layout p s) (hpcs : s'.pcs = Function.update s.pcs t pc)
    (hguard : s'.guard = s.guard) (hold : (s.pcs t).mustInit = false) (hnew : pc.mustInit = false)
    (hlock : pc.holdsLock = (s.pcs t).holdsLock)
    (hpc : pc = .yielding ∨ pc = .asserting true → p.isStored) : Refines layout p s' := by
  apply hs.goto hpcs
  . rw [hguard]
    exact hs.initWord
  . exact hs.owner.keep hold hnew
  . rw [hguard]
    exact hs.lockHeld.keep hlock
  . exact id
  . exact hpc

theorem isInitialised_eq (hs : Refines layout p s)
    : layout.isInitialised s.guard.initWord = p.isStored := by
  rw [hs.initWord]
  cases p.isStored <;> simp

-- the thread that has the lock is the only one that can be the owner
theorem owner_eq_none (hs : Refines layout p s) (hlock : (s.pcs t).holdsLock)
    (hout : (s.pcs t).mustInit = false) : p.owner = none := by
  cases howner : p.owner with
  | none => rfl
  | some u =>
    have hu := (hs.owner.owner u howner).mustInit
    have heq := hs.lockHeld.unique hlock (GuardPc.holdsLock_of_mustInit hu)
    rw [heq, hu] at hout
    contradiction

theorem acquired_zero (hs : Refines layout p s) (hlog : OnceHistory s.log p) (hstored : p.isStored)
    : OnceHistory (s.log ++ [.acquired t false]) p := by
  cases p with
  | stored u => exact hlog.snoc (.skipStored u t)
  | done => exact hlog.snoc (.skipDone t)
  | free => contradiction
  | owned u => contradiction
  | releasing u => contradiction
  | aborting u => contradiction

theorem acquired_one (hs : Refines layout p s) (hlog : OnceHistory s.log p)
    (hpc : s.pcs t = .rechecking) (hinit : layout.isInitialised s.guard.initWord = false)
    : OnceHistory (guardAcquired s t .initLockSucceeded).log (.owned t)
      ∧ Refines layout (.owned t) (guardAcquired s t .initLockSucceeded) := by
  rw [hs.isInitialised_eq] at hinit
  have hnone := hs.owner_eq_none (t := t) (by rw [hpc]; rfl) (by rw [hpc]; rfl)
  have hfree : p = .free := by
    cases p <;> simp_all [OncePhase.owner, OncePhase.isStored]
  subst hfree
  refine ⟨hlog.snoc (.acquire t), ?_⟩
  apply hs.goto rfl
  . exact hs.initWord
  . exact hs.owner.change (.inl rfl) (.inl ⟨rfl, rfl⟩)
  . exact hs.lockHeld.keep (by rw [hpc]; rfl)
  . exact fun h => absurd h (by simp [OncePhase.isStored])
  . simp

-- the first store of `unlock`
theorem unlocking (hs : Refines layout p s) (hlog : OnceHistory s.log p) {isInitialised : Bool}
    (hpc : s.pcs t = .unlocking isInitialised)
    : ∃ q, OnceHistory (s.log ++ if isInitialised then [.stored t] else []) q
      ∧ Refines layout q (((s.setGuard {
          s.guard with initWord := if isInitialised then layout.initialised else 0
        }).goto t (.unlockingSecond isInitialised)).record
          (if isInitialised then [.stored t] else [])) := by
  have hphase := hs.owner.phase_of_unlocking hpc
  have hlock : LockHeld layout s.guard.lockWord
      (Function.update s.pcs t (.unlockingSecond isInitialised)) :=
    hs.lockHeld.keep (by rw [hpc]; rfl)
  cases isInitialised with
  | true =>
    subst hphase
    refine ⟨.stored t, hlog.snoc (.store t), ?_⟩
    apply hs.goto rfl
    . rfl
    . exact hs.owner.change (.inr rfl) (.inl ⟨rfl, rfl⟩)
    . exact hlock
    . exact fun _ => rfl
    . simp
  | false =>
    subst hphase
    refine ⟨.aborting t, by simpa using hlog, ?_⟩
    apply hs.goto rfl
    . rfl
    . exact hs.owner.change (.inr rfl) (.inl ⟨rfl, .inr rfl⟩)
    . exact hlock
    . exact id
    . simp

-- the second one
theorem unlockingSecond (hs : Refines layout p s) (hlog : OnceHistory s.log p)
    {isInitialised : Bool} (hpc : s.pcs t = .unlockingSecond isInitialised)
    : OnceHistory (s.log ++ [.left t]) (if isInitialised then .done else .free)
      ∧ Refines layout (if isInitialised then .done else .free)
        (((s.setGuard { s.guard with lockWord := 0 }).goto t (.asserting isInitialised)).record
          [.left t]) := by
  have hphase := hs.owner.phase_of_unlockingSecond hpc
  have hlock : LockHeld layout 0 (Function.update s.pcs t (.asserting isInitialised)) :=
    hs.lockHeld.give (by rw [hpc]; rfl) rfl
  cases isInitialised with
  | true =>
    subst hphase
    refine ⟨hlog.snoc (.leaveDone t), ?_⟩
    apply hs.goto rfl
    . exact hs.initWord
    . exact hs.owner.change (.inr rfl) (.inr ⟨rfl, rfl⟩)
    . exact hlock
    . exact fun _ => rfl
    . exact fun _ => rfl
  | false =>
    subst hphase
    refine ⟨hlog.snoc (.leaveFree t), ?_⟩
    apply hs.goto rfl
    . exact hs.initWord
    . exact hs.owner.change (.inr rfl) (.inr ⟨rfl, rfl⟩)
    . exact hlock
    . exact id
    . simp

theorem run (hs : Refines layout p s) (hlog : OnceHistory s.log p) {spurious : Bool}
    (hrun : run layout s t spurious = some s')
    : s.log <+: s'.log ∧ ∃ q, OnceHistory s'.log q ∧ Refines layout q s' := by
  unfold DoubleWordGuard.run at hrun
  dsimp only at hrun
  split at hrun
  . next hpc =>
    split at hrun
    . next hinit =>
      rw [hs.isInitialised_eq] at hinit
      cases hrun
      refine ⟨List.prefix_append .., p, hs.acquired_zero hlog hinit, ?_⟩
      exact hs.keep rfl rfl (by rw [hpc]; rfl) rfl (by rw [hpc]; rfl) (by simp)
    . cases hrun
      refine ⟨List.prefix_refl _, p, hlog, ?_⟩
      exact hs.keep rfl rfl (by rw [hpc]; rfl) rfl (by rw [hpc]; rfl) (by simp)
  . next hpc =>
    unfold compareExchange at hrun
    by_cases hswap : s.guard.lockWord = 0 ∧ ¬ spurious
    . rw [if_pos hswap] at hrun
      cases hrun
      refine ⟨List.prefix_refl _, p, hlog, ?_⟩
      apply hs.goto rfl
      . exact hs.initWord
      . exact hs.owner.keep (by rw [hpc]; rfl) rfl
      . exact hs.lockHeld.take hswap.1 rfl
      . exact id
      . simp
    . rw [if_neg hswap] at hrun
      cases hrun
      refine ⟨List.prefix_refl _, p, hlog, ?_⟩
      exact hs.keep rfl rfl (by rw [hpc]; rfl) rfl (by rw [hpc]) (by simp)
  . next hpc =>
    split at hrun
    . next hinit =>
      rw [hs.isInitialised_eq] at hinit
      cases hrun
      refine ⟨List.prefix_refl _, p, hlog, ?_⟩
      exact hs.keep rfl rfl (by rw [hpc]; rfl) rfl (by rw [hpc]; rfl) fun _ => hinit
    . next hinit =>
      cases hrun
      exact ⟨List.prefix_append .., .owned t, hs.acquired_one hlog hpc (by simpa using hinit)⟩
  . next hpc =>
    have hstored := hs.stored t (.inl hpc)
    cases hrun
    refine ⟨List.prefix_append .., p, hs.acquired_zero hlog hstored, ?_⟩
    apply hs.goto rfl
    . exact hs.initWord
    . exact hs.owner.keep (by rw [hpc]; rfl) rfl
    . exact hs.lockHeld.give (by rw [hpc]; rfl) rfl
    . exact id
    . simp
  . next isInitialised hpc =>
    cases hrun
    exact ⟨List.prefix_append .., hs.unlocking hlog hpc⟩
  . next isInitialised hpc =>
    cases hrun
    exact ⟨List.prefix_append .., _, hs.unlockingSecond hlog hpc⟩
  . next isInitialised hpc =>
    split at hrun
    . cases hrun
      refine ⟨List.prefix_refl _, p, hlog, ?_⟩
      exact hs.keep rfl rfl (by rw [hpc]; rfl) rfl (by simp [hpc, GuardPc.holdsLock]) (by simp)
    . contradiction
  . contradiction

theorem step (hs : Refines layout p s) (hlog : OnceHistory s.log p) {l : Nat × GuardAction}
    (hstep : step layout s l = some s')
    : s.log <+: s'.log ∧ ∃ q, OnceHistory s'.log q ∧ Refines layout q s' := by
  rcases l with ⟨t, action⟩
  rcases guardStep_cases hstep with
    ⟨hpc, rfl⟩ | ⟨hpc, _, rfl⟩ | ⟨hpc, rfl⟩ | ⟨spurious, _, hrun⟩
  . refine ⟨List.prefix_refl _, p, hlog, ?_⟩
    exact hs.keep rfl rfl (by rw [hpc]; rfl) rfl (by rw [hpc]; rfl) (by simp)
  . have hphase := hs.owner.phase_of_initialising hpc
    subst hphase
    refine ⟨List.prefix_append .., .releasing t, hlog.snoc (.release t), ?_⟩
    apply hs.goto rfl
    . exact hs.initWord
    . exact hs.owner.change (.inr rfl) (.inl ⟨rfl, rfl⟩)
    . exact hs.lockHeld.keep (by rw [hpc]; rfl)
    . exact id
    . simp
  . have hphase := hs.owner.phase_of_initialising hpc
    subst hphase
    refine ⟨List.prefix_append .., .aborting t, hlog.snoc (.abort t), ?_⟩
    apply hs.goto rfl
    . exact hs.initWord
    . exact hs.owner.change (.inr rfl) (.inl ⟨rfl, .inl rfl⟩)
    . exact hs.lockHeld.keep (by rw [hpc]; rfl)
    . exact id
    . simp
  . exact hs.run hlog hrun

-- one more step, which is not a release
theorem extend (hs : Refines layout p s) (hlog : OnceHistory s.log p) {l : Nat × GuardAction}
    (hstep : DoubleWordGuard.step layout s l = some s') (hlog' : OnceHistory s'.log q)
    : Refines layout q s' := by
  rcases (hs.step hlog hstep).2 with ⟨q', hq', hrefines⟩
  rwa [hq'.unique hlog'] at hrefines

theorem abort_unlockingSecond (hs : Refines layout p s) (hlog : OnceHistory s.log p)
    (hpc : s.pcs t = .unlockingSecond false)
    : ∃ s', Reach s (DoubleWordGuard.step layout) (fun _ l => l.2 ≠ .release) s'
      ∧ Refines layout .free s' ∧ OnceHistory s'.log .free ∧ s'.guard.lockWord = 0 := by
  have hstep : DoubleWordGuard.step layout s (t, .run false) = some
      (((s.setGuard { s.guard with lockWord := 0 }).goto t (.asserting false)).record [.left t]) := by
    simp [DoubleWordGuard.step, guardStep, DoubleWordGuard.run, hpc]
  rcases hs.unlockingSecond hlog hpc with ⟨hlog', hrefines⟩
  exact ⟨_, .step .init (by simp) hstep, hrefines, hlog', rfl⟩

theorem abort_unlocking (hs : Refines layout (.aborting t) s)
    (hlog : OnceHistory s.log (.aborting t)) (hpc : s.pcs t = .unlocking false)
    : ∃ s', Reach s (DoubleWordGuard.step layout) (fun _ l => l.2 ≠ .release) s'
      ∧ Refines layout .free s' ∧ OnceHistory s'.log .free ∧ s'.guard.lockWord = 0 := by
  have hstep : DoubleWordGuard.step layout s (t, .run false) = some
      (((s.setGuard { s.guard with initWord := 0 }).goto t (.unlockingSecond false)).record []) := by
    simp [DoubleWordGuard.step, guardStep, DoubleWordGuard.run, hpc]
  rcases (hs.step hlog hstep).2 with ⟨q, hlog', hrefines⟩
  rcases hrefines.abort_unlockingSecond hlog' (Function.update_self ..) with ⟨s', hs', hfree⟩
  exact ⟨s', Reach.trans (.step .init (by simp) hstep) hs', hfree⟩

theorem abort_initialising (hs : Refines layout (.owned t) s)
    (hlog : OnceHistory s.log (.owned t)) (hpc : s.pcs t = .initialising)
    : ∃ s', Reach s (DoubleWordGuard.step layout) (fun _ l => l.2 ≠ .release) s'
      ∧ Refines layout .free s' ∧ OnceHistory s'.log .free ∧ s'.guard.lockWord = 0 := by
  have hstep : DoubleWordGuard.step layout s (t, .abort) = some _ := guardStep_abort hpc
  have hlog' := hlog.snoc (.abort t)
  have hrefines := hs.extend hlog hstep hlog'
  rcases hrefines.abort_unlocking hlog' (Function.update_self ..) with ⟨s', hs', hfree⟩
  exact ⟨s', Reach.trans (.step .init (by simp) hstep) hs', hfree⟩

-- whoever has the lock gives it up without a release
theorem abort (hs : Refines layout p s) (hlog : OnceHistory s.log p) (hp : p.isReleased = false)
    : ∃ s', Reach s (DoubleWordGuard.step layout) (fun _ l => l.2 ≠ .release) s'
      ∧ Refines layout .free s' ∧ OnceHistory s'.log .free ∧ s'.guard.lockWord = 0 := by
  cases p with
  | free =>
    rcases hs.lockHeld with ⟨holder, hword, hholder⟩
    cases holder with
    | none => exact ⟨s, .init, hs, hlog, hword⟩
    | some t =>
      have hlock : (s.pcs t).holdsLock := (hholder t).mpr rfl
      have hout : (s.pcs t).mustInit = false := hs.owner.others t (by simp [OncePhase.owner])
      have hyielding : s.pcs t ≠ .yielding := by
        intro hpc
        exact absurd (hs.stored t (.inl hpc)) (by simp [OncePhase.isStored])
      have hpc : s.pcs t = .rechecking := by
        cases hpc : s.pcs t <;> simp_all [GuardPc.holdsLock, GuardPc.mustInit]
      have hinit : layout.isInitialised s.guard.initWord = false := hs.isInitialised_eq
      have hstep : DoubleWordGuard.step layout s (t, .run false)
          = some (guardAcquired s t .initLockSucceeded) := by
        simp [DoubleWordGuard.step, guardStep, DoubleWordGuard.run, hpc, hinit]
      rcases hs.acquired_one hlog hpc hinit with ⟨hlog', hrefines⟩
      rcases hrefines.abort_initialising hlog' (Function.update_self ..) with ⟨s', hs', hfree⟩
      exact ⟨s', Reach.trans (.step .init (by simp) hstep) hs', hfree⟩
  | owned t => exact hs.abort_initialising hlog (hs.owner.owner t rfl)
  | aborting t =>
    rcases hs.owner.owner t rfl with hpc | hpc
    . exact hs.abort_unlocking hlog hpc
    . exact hs.abort_unlockingSecond hlog hpc
  | releasing t => contradiction
  | stored t => contradiction
  | done => contradiction

-- any thread can become the owner of a guard that is free
theorem acquire (hs : Refines layout .free s) (hlock : s.guard.lockWord = 0) (u : Nat)
    : ∃ s', Reach s (DoubleWordGuard.step layout) (fun _ l => l.2 ≠ .release) s'
      ∧ s'.log = s.log ++ [.acquired u true] := by
  have hinit {s : GuardProcess DoubleWordGuard} (hs : Refines layout .free s)
      : s.guard.initWord = 0 := hs.initWord
  have hlocking {s : GuardProcess DoubleWordGuard} (hs : Refines layout .free s)
      (hlock : s.guard.lockWord = 0) (hpc : s.pcs u = .locking)
      : ∃ s', Reach s (DoubleWordGuard.step layout) (fun _ l => l.2 ≠ .release) s'
        ∧ s'.log = s.log ++ [.acquired u true] := by
    have hstep : DoubleWordGuard.step layout s (u, .run false) = some
        ((s.setGuard { s.guard with lockWord := layout.locked }).goto u .rechecking) := by
      simp [DoubleWordGuard.step, guardStep, DoubleWordGuard.run, hpc, compareExchange, hlock]
    refine ⟨guardAcquired ((s.setGuard { s.guard with lockWord := layout.locked }).goto u
      .rechecking) u .initLockSucceeded,
      .step (l := (u, .run false)) (.step .init (by simp) hstep) (by simp) ?_, rfl⟩
    simp [DoubleWordGuard.step, guardStep, DoubleWordGuard.run, hinit hs]
  have hchecking {s : GuardProcess DoubleWordGuard} (hs : Refines layout .free s)
      (hlock : s.guard.lockWord = 0) (hpc : s.pcs u = .checking)
      : ∃ s', Reach s (DoubleWordGuard.step layout) (fun _ l => l.2 ≠ .release) s'
        ∧ s'.log = s.log ++ [.acquired u true] := by
    have hstep : DoubleWordGuard.step layout s (u, .run false) = some (s.goto u .locking) := by
      simp [DoubleWordGuard.step, guardStep, DoubleWordGuard.run, hpc, hinit hs]
    have hkeep : Refines layout .free (s.goto u .locking) :=
      hs.keep rfl rfl (by rw [hpc]; rfl) rfl (by rw [hpc]; rfl) (by simp)
    rcases hlocking hkeep hlock (Function.update_self ..) with ⟨s', hs', hlog'⟩
    exact ⟨s', Reach.trans (.step .init (by simp) hstep) hs', hlog'⟩
  have hidle {s : GuardProcess DoubleWordGuard} (hs : Refines layout .free s)
      (hlock : s.guard.lockWord = 0) (hpc : s.pcs u = .idle)
      : ∃ s', Reach s (DoubleWordGuard.step layout) (fun _ l => l.2 ≠ .release) s'
        ∧ s'.log = s.log ++ [.acquired u true] := by
    have hstep : DoubleWordGuard.step layout s (u, .acquire) = some (s.goto u .checking) :=
      guardStep_acquire hpc
    have hkeep : Refines layout .free (s.goto u .checking) :=
      hs.keep rfl rfl (by rw [hpc]; rfl) rfl (by rw [hpc]; rfl) (by simp)
    rcases hchecking hkeep hlock (Function.update_self ..) with ⟨s', hs', hlog'⟩
    exact ⟨s', Reach.trans (.step .init (by simp) hstep) hs', hlog'⟩
  have hout := hs.lockHeld.eq_false_of_zero (t := u) hlock
  cases hpc : s.pcs u with
  | idle => exact hidle hs hlock hpc
  | checking => exact hchecking hs hlock hpc
  | locking => exact hlocking hs hlock hpc
  | asserting isInitialised =>
    have hfalse : isInitialised = false := by
      by_contra htrue
      rw [Bool.not_eq_false] at htrue
      rw [htrue] at hpc
      exact absurd (hs.stored u (.inr hpc)) (by simp [OncePhase.isStored])
    subst hfalse
    have hstep : DoubleWordGuard.step layout s (u, .run false) = some (s.goto u .idle) := by
      simp [DoubleWordGuard.step, guardStep, DoubleWordGuard.run, hpc, hinit hs]
    have hkeep : Refines layout .free (s.goto u .idle) :=
      hs.keep rfl rfl (by rw [hpc]; rfl) rfl (by simp [hpc, GuardPc.holdsLock]) (by simp)
    rcases hidle hkeep hlock (Function.update_self ..) with ⟨s', hs', hlog'⟩
    exact ⟨s', Reach.trans (.step .init (by simp) hstep) hs', hlog'⟩
  | rechecking => simp [hpc, GuardPc.holdsLock] at hout
  | yielding => simp [hpc, GuardPc.holdsLock] at hout
  | initialising => simp [hpc, GuardPc.holdsLock] at hout
  | unlocking isInitialised => simp [hpc, GuardPc.holdsLock] at hout
  | unlockingSecond isInitialised => simp [hpc, GuardPc.holdsLock] at hout

end Refines

theorem init_refines : Refines layout .free init := by
  constructor
  . rfl
  . constructor
    . simp [OncePhase.owner]
    . intro t _
      rfl
  . exact ⟨none, rfl, fun t => by simp [init, GuardPc.holdsLock]⟩
  . simp [init]

theorem refinement (layout : GuardLayout 32)
    : GuardRefinement init (step layout) (Refines layout) := by
  constructor
  . exact ⟨init_refines, rfl⟩
  . intro p s l s' hs hlog hstep
    exact hs.step hlog hstep
  . intro p s hs
    exact hs.owner
  . intro p s hs hlog hp
    rcases hs.abort hlog hp with ⟨s', hs', hrefines, hlog', hlock⟩
    refine ⟨s', hs', hrefines, hlog', ?_⟩
    intro u
    rcases hrefines.acquire hlock u with ⟨s'', hs'', hlog''⟩
    exact ⟨s'', hs'', [], by simpa using hlog''⟩

end DoubleWordGuard

end LibCxxRt
