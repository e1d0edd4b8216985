import LibCxxRt.Emergency.Isolation
import LibCxxRt.Emergency.Lemmas.Runs
import LibCxxRt.Util.Census

/-!
This module contains the number of emergency buffers of a thread. `emergency_malloc` counts the buffers
that a thread obtains, but nobody counts those that it gives back.
-/

namespace LibCxxRt

open Util

namespace Emergency

/--
The emergency buffers that the thread has obtained and that have not been freed.
-/
noncomputable def State.outstanding (s : State) (t : Nat) : Nat :=
  census s.holder fun holder => holder == some t

-- the last step of `emergency_malloc_free` for a buffer that `t` has obtained
def Frees (t : Nat) (s : State) (l : Nat × Action) : Prop :=
  ∃ i woken, l.2 = .release woken ∧ s.pcs l.1 = .releasing i ∧ s.holder i = some t

-- the thread has passed the check of its quota, or it still has to
def Pc.isAdmitted : Pc → Bool
  | .waiting _ | .woken _ | .counting _ _ => true
  | _ => false

structure Quota (s : State) : Prop where
  held : ∀ t, s.emergencyBuffersHeld t = s.outstanding t + s.freed t
  holder : ∀ i, s.holder i ≠ none
    → s.bufferAllocated i = true ∧ ∀ t size, s.pcs t ≠ .counting size i
  bound : ∀ t, s.emergencyBuffersHeld t ≤ 4
  admitted : ∀ t, (s.pcs t).isAdmitted → s.emergencyBuffersHeld t ≤ 3

variable {emergencyBuffer : Nat} {slots : Fin 16 → Slot} {s s' : State} {t : Nat} {pc : Pc}
  {action : Action}

theorem finite_holder (s : State) (t : Nat)
    : FinitelyMany s.holder fun holder => holder == some t :=
  Set.toFinite _

theorem outstanding_release (s : State) (t u : Nat) (i : Fin 16)
    : (s.release t i).outstanding u + (s.release t i).freed u = s.outstanding u + s.freed u := by
  have hcensus := census_update (finite_holder s u) i none
  unfold State.outstanding
  rw [State.release_holder, State.release_freed]
  by_cases hu : s.holder i = some u
  . simp [hu] at hcensus ⊢
    omega
  . have hne : (s.holder i == some u) = false := by simpa using hu
    simp [hu, hne] at hcensus ⊢
    omega

theorem outstanding_hold (s : State) (t u : Nat) {i : Fin 16} (hnone : s.holder i = none)
    : (s.hold t i).outstanding u = s.outstanding u + if u = t then 1 else 0 := by
  have hcensus := census_update (finite_holder s u) i (some t)
  unfold State.outstanding
  rw [State.hold_holder]
  by_cases hu : u = t
  . simp [hu, hnone] at hcensus ⊢
    omega
  . have hne : (t == u) = false := by simpa using Ne.symm hu
    simp [hu, hnone, hne] at hcensus ⊢
    omega

namespace Quota

-- a thread goes on that does not update the number
theorem goto (h : Quota s) (hpcs : s'.pcs = Function.update s.pcs t pc)
    (hheld : s'.emergencyBuffersHeld = s.emergencyBuffersHeld) (hholder : s'.holder = s.holder)
    (hfreed : s'.freed = s.freed) (hallocated : ∀ i, s.bufferAllocated i = true → s'.bufferAllocated i = true)
    (hcounting : ∀ size i, pc = .counting size i → s.bufferAllocated i = false)
    (hadmitted : pc.isAdmitted → s.emergencyBuffersHeld t ≤ 3) : Quota s' := by
  constructor
  . intro u
    unfold State.outstanding
    rw [hheld, hholder, hfreed]
    exact h.held u
  . intro i hi
    rw [hholder] at hi
    rcases h.holder i hi with ⟨hmarked, hother⟩
    refine ⟨hallocated i hmarked, ?_⟩
    intro u size
    rw [hpcs]
    by_cases heq : u = t
    . subst heq
      rw [Function.update_self]
      intro hpc
      rw [hcounting size i hpc] at hmarked
      contradiction
    . rw [Function.update_of_ne heq]
      exact hother u size
  . rw [hheld]
    exact h.bound
  . intro u
    rw [hpcs, hheld]
    by_cases heq : u = t
    . subst heq
      rw [Function.update_self]
      exact hadmitted
    . rw [Function.update_of_ne heq]
      exact h.admitted u

theorem hold (h : Quota s) (hinv : Inv emergencyBuffer slots s) {size : Nat} {i : Fin 16}
    (hpc : s.pcs t = .counting size i) (b : Block) : Quota ((s.hold t i).obtain b) := by
  have hnone : s.holder i = none := by
    by_contra hne
    exact (h.holder i hne).2 t size hpc
  have hbuffer : (s.pcs t).buffer = some (i, false) := by
    rw [hpc]
    rfl
  constructor
  . intro u
    have houtstanding : ((s.hold t i).obtain b).outstanding u
        = s.outstanding u + if u = t then 1 else 0 := outstanding_hold s t u hnone
    rw [houtstanding, State.obtain_emergencyBuffersHeld, State.hold_emergencyBuffersHeld,
      State.obtain_freed, State.hold_freed]
    have hheld := h.held u
    by_cases heq : u = t
    . subst heq
      rw [Function.update_self, if_pos rfl]
      omega
    . rw [Function.update_of_ne heq, if_neg heq]
      omega
  . intro j hj
    rw [State.obtain_holder, State.hold_holder] at hj
    rw [State.obtain_bufferAllocated, State.hold_bufferAllocated, State.obtain_pcs, State.hold_pcs]
    by_cases heq : j = i
    . subst heq
      refine ⟨(hinv.allocated_iff j).mpr (.inr ⟨t, false, hbuffer⟩), ?_⟩
      intro u size' hu
      have hne : u ≠ t := by
        rintro rfl
        rw [Function.update_self] at hu
        contradiction
      rw [Function.update_of_ne hne] at hu
      exact hne ((hinv.exclusive hbuffer).2 u false (by rw [hu]; rfl))
    . rw [Function.update_of_ne heq] at hj
      refine ⟨(h.holder j hj).1, ?_⟩
      intro u size'
      by_cases hu : u = t
      . rw [hu, Function.update_self]
        simp
      . rw [Function.update_of_ne hu]
        exact (h.holder j hj).2 u size'
  . intro u
    rw [State.obtain_emergencyBuffersHeld, State.hold_emergencyBuffersHeld]
    by_cases heq : u = t
    . have hquota := h.admitted t (by rw [hpc]; rfl)
      rw [heq, Function.update_self]
      omega
    . rw [Function.update_of_ne heq]
      exact h.bound u
  . intro u hu
    rw [State.obtain_pcs, State.hold_pcs] at hu
    rw [State.obtain_emergencyBuffersHeld, State.hold_emergencyBuffersHeld]
    by_cases heq : u = t
    . rw [heq, Function.update_self] at hu
      contradiction
    . rw [Function.update_of_ne heq] at hu ⊢
      exact h.admitted u hu

theorem release (h : Quota s) (t : Nat) (i : Fin 16) : Quota (s.release t i) := by
  constructor
  . intro u
    rw [outstanding_release, State.release_emergencyBuffersHeld]
    exact h.held u
  . intro j hj
    rw [State.release_holder] at hj
    rw [State.release_bufferAllocated, State.release_pcs]
    have heq : j ≠ i := by
      rintro rfl
      rw [Function.update_self] at hj
      contradiction
    rw [Function.update_of_ne heq] at hj ⊢
    refine ⟨(h.holder j hj).1, ?_⟩
    intro u size
    by_cases hu : u = t
    . rw [hu, Function.update_self]
      simp
    . rw [Function.update_of_ne hu]
      exact (h.holder j hj).2 u size
  . exact h.bound
  . intro u hu
    rw [State.release_pcs] at hu
    by_cases heq : u = t
    . rw [heq, Function.update_self] at hu
      contradiction
    . rw [Function.update_of_ne heq] at hu
      exact h.admitted u hu

theorem wake (h : Quota s) {size : Nat} (hpc : s.pcs t = .waiting size)
    : Quota (s.wake t size) := by
  refine h.goto (State.wake_pcs s t size) rfl rfl rfl (fun _ hi => hi) (by simp) ?_
  intro _
  exact h.admitted t (by rw [hpc]; rfl)

theorem of_admitted (h : Quota s) {size : Nat} (hadmitted : Admitted s t size)
    : s.emergencyBuffersHeld t ≤ 3 := by
  rcases hadmitted with ⟨_, _, hheld⟩ | hpc
  . exact hheld
  . exact h.admitted t (by rw [hpc]; rfl)

theorem step (h : Quota s) (hinv : Inv emergencyBuffer slots s)
    (htransition : Transition emergencyBuffer s t action s') : Quota s' := by
  cases htransition with
  | request | calloc | enter | refuse =>
    exact h.goto rfl rfl rfl rfl (fun _ hi => hi) (by simp) (by simp [Pc.isAdmitted])
  | emergencyCalloc =>
    exact h.goto rfl rfl rfl rfl (fun _ hi => hi) (by simp) (by simp [Pc.isAdmitted])
  | @take size i hadmitted hfind =>
    refine h.goto rfl rfl rfl rfl ?_ ?_ (fun _ => h.of_admitted hadmitted)
    . intro j hj
      by_cases heq : j = i <;> simp [heq, hj]
    . intro size' j hj
      cases hj
      exact findFree_eq_some hfind
  | wait hadmitted _ =>
    exact h.goto rfl rfl rfl rfl (fun _ hi => hi) (by simp) (fun _ => h.of_admitted hadmitted)
  | count hpc => exact h.hold hinv hpc _
  | write => exact ⟨h.held, h.holder, h.bound, h.admitted⟩
  | free _ hb =>
    rcases hinv.freeException_cases hb with ⟨i, _, _, hfree⟩ | ⟨_, hfree⟩
    . rw [hfree]
      exact h.goto rfl rfl rfl rfl (fun _ hi => hi) (by simp) (by simp [Pc.isAdmitted])
    . rw [hfree]
      exact ⟨h.held, h.holder, h.bound, h.admitted⟩
  | clear =>
    refine h.goto rfl rfl rfl rfl (fun _ hi => hi) ?_ ?_
    . intro size i hpc
      split at hpc <;> contradiction
    . intro hpc
      split at hpc <;> contradiction
  | release => exact h.release t _
  | @signal i u size hpc hwaiting _ =>
    apply (h.release t i).wake
    rw [State.release_pcs, Function.update_of_ne]
    . exact hwaiting
    . rintro rfl
      rw [hwaiting] at hpc
      contradiction
  | wake hpc => exact h.wake hpc

theorem init : Quota State.init := by
  constructor
  . intro t
    have houtstanding : State.init.outstanding t = 0 := by
      apply (census_eq_zero (finite_holder _ t)).mpr
      intro i
      rfl
    rw [houtstanding]
    rfl
  . intro i hi
    exact absurd rfl hi
  . intro t
    exact Nat.zero_le 4
  . intro t _
    exact Nat.zero_le 3

theorem of_reach (hs : Reach State.init (Emergency.step emergencyBuffer) (fun _ _ => True) s)
    : Quota s := by
  have hboth : (∃ slots, Inv emergencyBuffer slots s) ∧ Quota s := by
    apply hs.invariant
    . exact ⟨⟨_, Inv.init emergencyBuffer⟩, init⟩
    . rintro s ⟨t, action⟩ s' ⟨⟨slots, hinv⟩, h⟩ _ hstep
      exact ⟨hinv.step hstep, h.step hinv (transition_of_step hstep)⟩
  exact hboth.2

end Quota

theorem Admitted.not_releasing {size : Nat} (hadmitted : Admitted s t size) (i : Fin 16)
    : s.pcs t ≠ .releasing i := by
  rcases hadmitted with ⟨hpc, _⟩ | hpc <;> simp [hpc]

theorem Admitted.held {size size' : Nat} (hadmitted : Admitted s t size)
    (hpc : s.pcs t = .entering size') : s.emergencyBuffersHeld t ≤ 3 := by
  rcases hadmitted with ⟨_, _, hheld⟩ | hwoken
  . exact hheld
  . rw [hpc] at hwoken
    contradiction

theorem freeException_freed (emergencyBuffer : Nat) (s : State) (t e : Nat)
    : (freeException emergencyBuffer s t e).freed = s.freed := by
  unfold freeException
  split
  . split <;> rfl
  . split <;> rfl

theorem freed_release (s : State) (t u : Nat) (i : Fin 16)
    : (s.holder i = some u ∧ (s.release t i).freed u = s.freed u + 1)
      ∨ (s.holder i ≠ some u ∧ (s.release t i).freed u = s.freed u) := by
  rw [State.release_freed]
  by_cases hu : s.holder i = some u <;> simp [hu]

theorem freed_of_transition (htransition : Transition emergencyBuffer s t action s') (u : Nat)
    : (Frees u s (t, action) ∧ s'.freed u = s.freed u + 1)
      ∨ (¬ Frees u s (t, action) ∧ s'.freed u = s.freed u) := by
  -- a step of another kind
  have hother (hpc : ∀ i, s.pcs t ≠ .releasing i) (hfreed : s'.freed = s.freed)
      : ¬ Frees u s (t, action) ∧ s'.freed u = s.freed u := by
    refine ⟨?_, congrFun hfreed u⟩
    rintro ⟨i, _, _, hreleasing, _⟩
    exact hpc i hreleasing
  have hrelease {i : Fin 16} {woken : Option Nat} (hpc : s.pcs t = .releasing i)
      (haction : action = .release woken) (hfreed : s'.freed = (s.release t i).freed)
      : (Frees u s (t, action) ∧ s'.freed u = s.freed u + 1)
        ∨ (¬ Frees u s (t, action) ∧ s'.freed u = s.freed u) := by
    rw [hfreed]
    rcases freed_release s t u i with ⟨hholder, hone⟩ | ⟨hholder, hsame⟩
    . exact .inl ⟨⟨i, woken, haction, hpc, hholder⟩, hone⟩
    . refine .inr ⟨?_, hsame⟩
      rintro ⟨j, _, _, hpc', hholder'⟩
      rw [hpc] at hpc'
      cases hpc'
      exact hholder hholder'
  cases htransition with
  | request _ hpc _ => exact .inr (hother (by simp [hpc]) rfl)
  | calloc hpc _ => exact .inr (hother (by simp [hpc]) rfl)
  | enter hpc => exact .inr (hother (by simp [hpc]) rfl)
  | refuse _ hpc _ => exact .inr (hother (by simp [hpc]) rfl)
  | emergencyCalloc hadmitted _ => exact .inr (hother hadmitted.not_releasing rfl)
  | take hadmitted _ => exact .inr (hother hadmitted.not_releasing rfl)
  | wait hadmitted _ => exact .inr (hother hadmitted.not_releasing rfl)
  | count hpc => exact .inr (hother (by simp [hpc]) rfl)
  | write _ hpc _ _ => exact .inr (hother (by simp [hpc]) rfl)
  | free hpc _ => exact .inr (hother (by simp [hpc]) (freeException_freed ..))
  | clear hpc _ => exact .inr (hother (by simp [hpc]) rfl)
  | release hpc _ => exact hrelease hpc rfl rfl
  | signal hpc _ _ => exact hrelease hpc rfl rfl
  | wake hpc => exact .inr (hother (by simp [hpc]) rfl)

-- the buffers of a thread that have been freed are a matter of the steps of the run
theorem freed_eq_zero_iff (hs : Reach State.init (step emergencyBuffer) (fun _ _ => True) s) (t : Nat)
    : s.freed t = 0 ↔ Reach State.init (step emergencyBuffer) (fun s l => ¬ Frees t s l) s := by
  constructor
  . induction hs with
    | init => exact fun _ => .init
    | @step s s' l hs _ hstep ih =>
      intro hfreed
      rcases freed_of_transition (transition_of_step hstep) t with ⟨_, hone⟩ | ⟨hfrees, hsame⟩
      . omega
      . exact (ih (by omega)).step hfrees hstep
  . intro hrestricted
    apply hrestricted.invariant
    . rfl
    . intro s l s' hfreed hfrees hstep
      rcases freed_of_transition (transition_of_step hstep) t with ⟨hreturned, _⟩ | ⟨_, hsame⟩
      . exact absurd hreturned hfrees
      . omega

theorem refused_iff {size : Nat} {result : Option Nat} (hpc : s.pcs t = .entering size)
    (hsize : size ≤ 1024) (hstep : step emergencyBuffer s (t, .emergencyMalloc result) = some s')
    : s'.pcs t = .terminated ↔ 3 < s.emergencyBuffersHeld t := by
  cases transition_of_step hstep with
  | request _ hidle _ =>
    rw [hpc] at hidle
    contradiction
  | refuse _ hpc' hrefuse =>
    rw [hpc] at hpc'
    cases hpc'
    simp only [State.goto_pcs, Function.update_self, true_iff]
    omega
  | take hadmitted _ | wait hadmitted _ | emergencyCalloc hadmitted _ =>
    have hheld := hadmitted.held hpc
    simpa using hheld

/--
The counter is right for exactly those threads none of whose emergency buffers has been freed.
-/
theorem emergencyBuffersHeld_eq_iff
    (hs : Reach State.init (step emergencyBuffer) (fun _ _ => True) s) (t : Nat)
    : (s.emergencyBuffersHeld t = s.outstanding t
        ↔ Reach State.init (step emergencyBuffer) (fun s l => ¬ Frees t s l) s)
      ∧ s.outstanding t ≤ 4
      ∧ ∀ size result s', s.pcs t = .entering size → size ≤ 1024
        → step emergencyBuffer s (t, .emergencyMalloc result) = some s'
        → (s'.pcs t = .terminated ↔ 4 ≤ s.outstanding t + s.freed t) := by
  have h := Quota.of_reach hs
  have hheld := h.held t
  have hbound := h.bound t
  refine ⟨?_, by omega, ?_⟩
  . rw [← freed_eq_zero_iff hs t]
    omega
  . intro size result s' hpc hsize hstep
    rw [refused_iff hpc hsize hstep]
    omega

theorem emergencyBuffersHeld_eq_iff_one
    : ∃ s, s.emergencyBuffersHeld 0 = 1
      ∧ (s.emergencyBuffersHeld 0 = s.outstanding 0
        ↔ Reach State.init (step 0x4000) (fun s l => ¬ Frees 0 s l) s) := by
  have hrun : ∃ s, Reach State.init (step 0x4000) (fun _ _ => True) s
      ∧ s.emergencyBuffersHeld 0 = 1 :=
    ⟨_, (reach_obtained (t := 0) (i := 0) rfl (by decide) rfl).mono fun _ _ _ => trivial, rfl⟩
  rcases hrun with ⟨s, hs, hheld⟩
  exact ⟨s, hheld, (emergencyBuffersHeld_eq_iff hs 0).1⟩

-- thread 0 has obtained a buffer and freed it `k` times
structure Returned (k : Nat) (s : State) : Prop where
  allocated : ∀ i, s.bufferAllocated i = false
  held : s.emergencyBuffersHeld 0 = k
  pcs : ∀ t, s.pcs t = .idle
  waiters : s.waiters = []
  holder : ∀ i, s.holder i = none

namespace Returned

theorem succ {k : Nat} (h : Returned k s) (hk : k ≤ 3)
    : ∃ s', Reach s (step 0x4000) CallocFails s' ∧ Returned (k + 1) s' := by
  have hfind : findFree s = some 0 := by
    have hnone : s.bufferAllocated = fun _ => false := funext h.allocated
    unfold findFree
    rw [hnone]
    rfl
  have hobtained : Reach s (step 0x4000) CallocFails _ :=
    reach_obtained (h.pcs 0) (by rw [h.held]; exact hk) hfind
  have hreleasing := hobtained.trans (reach_releasing (t := 0) (i := 0) (by simp) List.mem_cons_self)
  have hreleased := hreleasing.step (by simp [CallocFails])
    (step_release_none (t := 0) (i := 0) (by simp) h.waiters)
  refine ⟨_, hreleased, ?_⟩
  constructor
  . intro i
    by_cases hi : i = 0 <;> simp [hi, h.allocated]
  . simp [h.held]
  . intro t
    by_cases ht : t = 0 <;> simp [ht, h.pcs]
  . exact h.waiters
  . intro i
    by_cases hi : i = 0 <;> simp [hi, h.holder]

theorem reach {k : Nat} (hk : k ≤ 4)
    : ∃ s, Reach State.init (step 0x4000) CallocFails s ∧ Returned k s := by
  induction k with
  | zero => exact ⟨_, .init, fun _ => rfl, rfl, fun _ => rfl, rfl, fun _ => rfl⟩
  | succ k ih =>
    rcases ih (by omega) with ⟨s, hs, h⟩
    rcases h.succ (by omega) with ⟨s', hs', h'⟩
    exact ⟨s', hs.trans hs', h'⟩

end Returned

-- a thread that has no emergency buffer is refused one
theorem reach_refused
    : ∃ s s', Reach State.init (step 0x4000) (fun _ _ => True) s
      ∧ s.pcs 0 = .entering headerSize ∧ s.outstanding 0 = 0 ∧ s.emergencyBuffersHeld 0 = 4
      ∧ step 0x4000 s (0, .emergencyMalloc none) = some s' ∧ s'.pcs 0 = .terminated := by
  rcases Returned.reach (Nat.le_refl 4) with ⟨s, hs, h⟩
  have houtstanding : (s.goto 0 (.entering headerSize)).outstanding 0 = 0 := by
    apply (census_eq_zero (finite_holder _ 0)).mpr
    simp [h.holder]
  have hrefused : step 0x4000 (s.goto 0 (.entering headerSize)) (0, .emergencyMalloc none)
      = some ((s.goto 0 (.entering headerSize)).goto 0 .terminated) := by
    simp [step, h.held]
  exact ⟨_, _, (hs.trans (reach_entering (h.pcs 0))).mono fun _ _ _ => trivial, by simp, houtstanding, h.held, hrefused,
    by simp⟩

end Emergency

end LibCxxRt
