import LibCxxRt.Emergency.Lemmas.Sleepers

/-!
This module contains the threads that sleep in `emergency_malloc`. A thread that is woken takes memory
from `calloc` if it can, and the buffer for which it has been woken stays free. Nobody wakes another
thread then.
-/

namespace LibCxxRt

open Util

namespace Emergency

namespace Pc

-- in `emergency_malloc` and not asleep, or in `emergency_malloc_free`
def isActive : Pc → Bool
  | .entering _ | .woken _ | .counting _ _ | .clearing _ _ | .releasing _ => true
  | .idle | .allocating _ | .waiting _ | .terminated | .failed => false

end Pc

namespace State

noncomputable def asleep (s : State) : Nat :=
  census s.pcs Pc.isWaiting

noncomputable def woken (s : State) : Nat :=
  census s.pcs Pc.isWoken

noncomputable def freeing (s : State) : Nat :=
  census s.pcs Pc.isFreeing

noncomputable def unused (s : State) : Nat :=
  census s.bufferAllocated fun allocated => !allocated

end State

/--
A thread sleeps, there is a free buffer, and no thread is left that could do something about it.
-/
def Lost (s : State) : Prop :=
  (∃ t, (s.pcs t).isWaiting) ∧ (∃ i, s.bufferAllocated i = false) ∧ ∀ t, (s.pcs t).isActive = false

/--
A thread that has been woken takes memory from `calloc`. The threads that free buffers are too few to
wake all the others, and none of the free buffers is left over by the threads that are woken.
-/
def Steals (s : State) (l : Nat × Action) : Prop :=
  (∃ size a, l.2 = .emergencyMalloc (some a) ∧ s.pcs l.1 = .woken size)
    ∧ s.freeing < s.asleep ∧ s.woken ≤ s.unused

def Enough (s : State) : Prop :=
  s.freeing < s.asleep → s.unused ≤ s.woken

variable {emergencyBuffer : Nat} {s s' : State} {t : Nat} {pc : Pc} {action : Action}

namespace Sleepers

theorem finite_of_idle (h : Sleepers s) {p : Pc → Bool} (hp : p .idle = false)
    : FinitelyMany s.pcs p := by
  apply h.finite.subset
  intro t ht
  have hne : s.pcs t ≠ .idle := by
    intro hidle
    simp [hidle, hp] at ht
  simpa using hne

theorem census_goto (h : Sleepers s) (hpcs : s'.pcs = Function.update s.pcs t pc)
    : s'.asleep + (s.pcs t).isWaiting.toNat = s.asleep + pc.isWaiting.toNat
      ∧ s'.woken + (s.pcs t).isWoken.toNat = s.woken + pc.isWoken.toNat
      ∧ s'.freeing + (s.pcs t).isFreeing.toNat = s.freeing + pc.isFreeing.toNat := by
  unfold State.asleep State.woken State.freeing
  rw [hpcs]
  exact ⟨census_update (h.finite_of_idle rfl) t pc, census_update (h.finite_of_idle rfl) t pc,
    census_update (h.finite_of_idle rfl) t pc⟩

theorem asleep_eq_zero (h : Sleepers s) (hwaiters : s.waiters = []) : s.asleep = 0 := by
  apply (census_eq_zero (h.finite_of_idle rfl)).mpr
  intro t
  have hmem := h.waiters t
  rw [hwaiters] at hmem
  simpa using hmem

end Sleepers

theorem finite_unused (s : State) : FinitelyMany s.bufferAllocated fun allocated => !allocated :=
  Set.toFinite _

theorem unused_take {i : Fin 16} {size : Nat} (hfree : s.bufferAllocated i = false)
    : (s.take t size i).unused + 1 = s.unused := by
  have hcensus := census_update (finite_unused s) i true
  rw [hfree] at hcensus
  exact hcensus

theorem unused_release (s : State) (t : Nat) (i : Fin 16)
    : (s.release t i).unused ≤ s.unused + 1 := by
  have hcensus := census_update (finite_unused s) i false
  simp only [Bool.not_false, Bool.toNat_true] at hcensus
  unfold State.unused
  rw [State.release_bufferAllocated]
  omega

namespace Enough

variable {old : Pc}

-- a thread goes on that has not been woken and does not free a buffer
theorem goto (henough : Enough s) (h : Sleepers s) (hpc : s.pcs t = old)
    (hold : old.isWaiting = false ∧ old.isWoken = false ∧ old.isFreeing = false)
    (hnew : pc.isWaiting = false) (hpcs : s'.pcs = Function.update s.pcs t pc)
    (hunused : s'.unused ≤ s.unused) : Enough s' := by
  have hcensus := h.census_goto hpcs
  simp only [hpc, hold, hnew, Bool.toNat_false] at hcensus
  unfold Enough at *
  omega

theorem wait {size : Nat} (hfind : findFree s = none)
    : Enough (s.wait t size) := by
  have hunused : (s.wait t size).unused = 0 := by
    apply (census_eq_zero (finite_unused _)).mpr
    intro i
    simp [findFree_eq_none hfind i]
  intro _
  omega

theorem take (henough : Enough s) (h : Sleepers s) {size : Nat} {i : Fin 16}
    (hadmitted : Admitted s t size) (hfind : findFree s = some i) : Enough (s.take t size i) := by
  have hunused : (s.take t size i).unused + 1 = s.unused := unused_take (findFree_eq_some hfind)
  rcases hadmitted with ⟨hpc, _⟩ | hpc
  . exact henough.goto h hpc ⟨rfl, rfl, rfl⟩ rfl rfl (by omega)
  . have hcensus := h.census_goto (State.take_pcs s t size i)
    simp only [hpc, Pc.isWaiting, Pc.isWoken, Pc.isFreeing, Bool.toNat_true, Bool.toNat_false]
      at hcensus
    unfold Enough at *
    omega

theorem emergencyCalloc (henough : Enough s) (h : Sleepers s) {a size : Nat}
    (hadmitted : Admitted s t size) (hsteals : ¬ Steals s (t, .emergencyMalloc (some a)))
    : Enough (s.callocated t ⟨a, size⟩) := by
  have hunused : (s.callocated t ⟨a, size⟩).unused = s.unused := rfl
  rcases hadmitted with ⟨hpc, _⟩ | hpc
  . exact henough.goto h hpc ⟨rfl, rfl, rfl⟩ rfl rfl (Nat.le_refl _)
  . have hcensus := h.census_goto (State.callocated_pcs s t ⟨a, size⟩)
    simp only [hpc, Pc.isWaiting, Pc.isWoken, Pc.isFreeing, Bool.toNat_true, Bool.toNat_false]
      at hcensus
    have hspared : ¬ (s.freeing < s.asleep ∧ s.woken ≤ s.unused) :=
      fun hspare => hsteals ⟨⟨size, a, rfl, hpc⟩, hspare⟩
    unfold Enough at *
    omega

theorem clear (henough : Enough s) (h : Sleepers s) {i : Fin 16} {cleared : Nat}
    (hpc : s.pcs t = .clearing i cleared) (hnew : pc.isWaiting = false) (hfreeing : pc.isFreeing)
    (hpcs : s'.pcs = Function.update s.pcs t pc) (hunused : s'.unused = s.unused)
    : Enough s' := by
  have hcensus := h.census_goto hpcs
  have hold : (Pc.clearing i cleared).isWaiting = false ∧ (Pc.clearing i cleared).isFreeing = true :=
    ⟨rfl, rfl⟩
  simp only [hpc, hold, hnew, hfreeing, Bool.toNat_true, Bool.toNat_false] at hcensus
  have hwoken : (Pc.clearing i cleared).isWoken.toNat = 0 := rfl
  unfold Enough at *
  omega

theorem release (h : Sleepers s) {i : Fin 16} (hpc : s.pcs t = .releasing i)
    (hwaiters : s.waiters = []) : Enough (s.release t i) := by
  have hasleep : (s.release t i).asleep = 0 := by
    have hreleased : Sleepers (s.release t i) := h.goto (by rw [hpc]; rfl) rfl rfl rfl
    exact hreleased.asleep_eq_zero hwaiters
  unfold Enough
  omega

-- the thread that is woken makes up for the buffer
theorem signal (henough : Enough s) (h : Sleepers s) {i : Fin 16} {u size : Nat}
    (hpc : s.pcs t = .releasing i) (hwaiting : s.pcs u = .waiting size)
    : Enough ((s.release t i).wake u size) := by
  have hreleased : Sleepers (s.release t i) := h.goto (by rw [hpc]; rfl) rfl rfl rfl
  have hcensus := h.census_goto (State.release_pcs s t i)
  have hcensus' := hreleased.census_goto (State.wake_pcs (s.release t i) u size)
  have hwaiting' : (s.release t i).pcs u = .waiting size := by
    rw [State.release_pcs, Function.update_of_ne]
    . exact hwaiting
    . rintro rfl
      rw [hwaiting] at hpc
      contradiction
  simp only [hpc, hwaiting', Pc.isWaiting, Pc.isWoken, Pc.isFreeing, Bool.toNat_true,
    Bool.toNat_false] at hcensus hcensus'
  have hunused := unused_release s t i
  have hsame : ((s.release t i).wake u size).unused = (s.release t i).unused := rfl
  unfold Enough at *
  omega

theorem wake (henough : Enough s) (h : Sleepers s) {size : Nat} (hpc : s.pcs t = .waiting size)
    : Enough (s.wake t size) := by
  have hcensus := h.census_goto (State.wake_pcs s t size)
  simp only [hpc, Pc.isWaiting, Pc.isWoken, Pc.isFreeing, Bool.toNat_true, Bool.toNat_false]
    at hcensus
  have hunused : (s.wake t size).unused = s.unused := rfl
  unfold Enough at *
  omega

theorem init : Enough State.init := by
  intro hasleep
  rw [Sleepers.init.asleep_eq_zero rfl] at hasleep
  contradiction

theorem step (henough : Enough s) (h : Sleepers s)
    (htransition : Transition emergencyBuffer s t action s') (hsteals : ¬ Steals s (t, action))
    : Enough s' := by
  cases htransition with
  | request _ hpc _ => exact henough.goto h hpc ⟨rfl, rfl, rfl⟩ rfl rfl (Nat.le_refl _)
  | calloc hpc _ => exact henough.goto h hpc ⟨rfl, rfl, rfl⟩ rfl rfl (Nat.le_refl _)
  | emergencyCalloc hadmitted _ => exact henough.emergencyCalloc h hadmitted hsteals
  | enter hpc => exact henough.goto h hpc ⟨rfl, rfl, rfl⟩ rfl rfl (Nat.le_refl _)
  | refuse _ hpc _ => exact henough.goto h hpc ⟨rfl, rfl, rfl⟩ rfl rfl (Nat.le_refl _)
  | take hadmitted hfind => exact henough.take h hadmitted hfind
  | wait _ hfind => exact .wait hfind
  | count hpc => exact henough.goto h hpc ⟨rfl, rfl, rfl⟩ rfl rfl (Nat.le_refl _)
  | write => exact henough
  | @free b hpc _ =>
    rcases freeException_frame (s := { s with live := s.live.erase b }) emergencyBuffer b.addr hpc
      with ⟨pc, hwaiting, _, hpcs, _, hallocated⟩
    apply henough.goto h hpc ⟨rfl, rfl, rfl⟩ hwaiting hpcs
    unfold State.unused
    rw [hallocated]
  | clear hpc _ => exact henough.clear h hpc (by split <;> rfl) (by split <;> rfl) rfl rfl
  | release hpc hwaiters => exact .release h hpc hwaiters
  | signal hpc hwaiting _ => exact henough.signal h hpc hwaiting
  | wake hpc => exact henough.wake h hpc

theorem not_lost (henough : Enough s) (h : Sleepers s) : ¬ Lost s := by
  rintro ⟨hasleep, hfree, hactive⟩
  have hnone {p : Pc → Bool} (hp : ∀ pc, p pc → pc.isActive) (hidle : p .idle = false)
      : census s.pcs p = 0 := by
    apply (census_eq_zero (h.finite_of_idle hidle)).mpr
    intro t
    have hinactive := hactive t
    cases hpc : p (s.pcs t) with
    | false => rfl
    | true =>
      rw [hp _ hpc] at hinactive
      contradiction
  have hfreeing : s.freeing = 0 := hnone (fun pc hpc => by cases pc <;> first | rfl | contradiction) rfl
  have hwoken : s.woken = 0 := hnone (fun pc hpc => by cases pc <;> first | rfl | contradiction) rfl
  have hsleeper : 0 < s.asleep := (census_pos (h.finite_of_idle rfl)).mpr hasleep
  have hunused : 0 < s.unused := by
    apply (census_pos (finite_unused s)).mpr
    rcases hfree with ⟨i, hi⟩
    exact ⟨i, by simp [hi]⟩
  unfold Enough at henough
  omega

end Enough

/--
As long as no thread that is woken leaves the buffer to nobody, no thread sleeps beside a free buffer.
-/
theorem not_lost_of_not_steals
    (hs : Reach State.init (step emergencyBuffer) (fun s l => ¬ Steals s l) s) : ¬ Lost s := by
  have hinv : Sleepers s ∧ Enough s := by
    apply hs.invariant
    . exact ⟨.init, .init⟩
    . rintro s ⟨t, action⟩ s' ⟨h, henough⟩ hsteals hstep
      have htransition := transition_of_step hstep
      exact ⟨h.step htransition, henough.step h htransition hsteals⟩
  exact hinv.2.not_lost hinv.1

-- each of the first `k` threads has one emergency buffer
structure Exhausted (k : Nat) (s : State) : Prop where
  allocated : ∀ i, s.bufferAllocated i = decide (i.val < k)
  held : ∀ t, k ≤ t → s.emergencyBuffersHeld t = 0
  pcs : ∀ t, s.pcs t = .idle
  waiters : s.waiters = []
  heap : s.heap = []
  live : 0 < k → ⟨0x4000, headerSize⟩ ∈ s.live

namespace Exhausted

theorem findFree_eq_some {k : Fin 16} (h : Exhausted k s) : findFree s = some k := by
  have hallocated : s.bufferAllocated = fun i => decide (i.val < k.val) := funext h.allocated
  have hfirst : ∀ k : Fin 16,
      ((List.finRange 16).find? fun i => !decide (i.val < k.val)) = some k := by
    decide
  unfold findFree
  rw [hallocated]
  exact hfirst k

theorem succ {k : Fin 16} (h : Exhausted k s)
    : ∃ s', Reach s (step 0x4000) CallocFails s' ∧ Exhausted (k + 1) s' := by
  have hheld := h.held k (Nat.le_refl _)
  refine ⟨_, reach_obtained (h.pcs k) (by omega) h.findFree_eq_some, ?_⟩
  constructor
  . intro i
    simp only [State.obtain_bufferAllocated, State.hold_bufferAllocated,
      State.take_bufferAllocated, State.goto_bufferAllocated]
    by_cases heq : i = k
    . simp [heq]
    . have hne : i.val ≠ k.val := fun hval => heq (Fin.ext hval)
      rw [Function.update_of_ne heq, h.allocated, decide_eq_decide]
      omega
  . intro t ht
    simp only [State.obtain_emergencyBuffersHeld, State.hold_emergencyBuffersHeld,
      State.take_emergencyBuffersHeld, State.goto_emergencyBuffersHeld]
    rw [Function.update_of_ne (by omega), h.held t (by omega)]
  . intro t
    by_cases heq : t = k <;> simp [heq, h.pcs]
  . exact h.waiters
  . exact h.heap
  . intro _
    by_cases hk : k.val = 0
    . simp [hk, bufferAddr]
    . exact List.mem_cons_of_mem _ (h.live (by omega))

theorem reach {k : Nat} (hk : k ≤ 16)
    : ∃ s, Reach State.init (step 0x4000) CallocFails s ∧ Exhausted k s := by
  induction k with
  | zero => exact ⟨_, .init, by simp [State.init], by simp [State.init], fun _ => rfl, rfl, rfl,
      fun hpos => absurd hpos (Nat.lt_irrefl 0)⟩
  | succ k ih =>
    rcases ih (by omega) with ⟨s, hs, h⟩
    rcases succ (k := ⟨k, hk⟩) h with ⟨s', hs', h'⟩
    exact ⟨s', hs.trans hs', h'⟩

end Exhausted

-- threads 16 and 17 sleep, and thread 0 has the first buffer
structure Crowded (s : State) : Prop where
  pcs : s.pcs = Function.update (Function.update (fun _ => .idle) 16 (.waiting headerSize)) 17
    (.waiting headerSize)
  waiters : s.waiters = [16, 17]
  heap : s.heap = []
  live : ⟨0x4000, headerSize⟩ ∈ s.live

theorem reach_crowded
    : ∃ s, Reach State.init (step 0x4000) CallocFails s ∧ Crowded s := by
  rcases Exhausted.reach (Nat.le_refl 16) with ⟨s, hs, h⟩
  have hfull (i : Fin 16) : s.bufferAllocated i = true := by
    simp [h.allocated]
  have hfirst : Reach s (step 0x4000) CallocFails _ :=
    reach_waiting (h.pcs 16) (h.held 16 (by omega)) hfull
  have hsecond : Reach _ (step 0x4000) CallocFails _ :=
    reach_waiting (t := 17) (s := (s.goto 16 (.entering headerSize)).wait 16 headerSize)
      (by simp [h.pcs]) (h.held 17 (by omega)) hfull
  refine ⟨_, (hs.trans hfirst).trans hsecond, ?_, ?_, h.heap, h.live (by omega)⟩
  . funext t
    by_cases h16 : t = 16 <;> by_cases h17 : t = 17 <;> simp [h16, h17, h.pcs]
  . simp [h.waiters]

theorem CallocFails.not_steals {l : Nat × Action} (h : CallocFails s l) : ¬ Steals s l := by
  rintro ⟨⟨_, a, haction, _⟩, _⟩
  exact h a haction

-- two threads sleep, and the first one is woken and takes the buffer that thread 0 frees
theorem not_lost_of_not_steals_one
    : ∃ s s', s.waiters = [16, 17] ∧ Reach s (step 0x4000) CallocFails s' ∧ s'.waiters = [17]
      ∧ s'.pcs 16 = .idle ∧ s'.holder 0 = some 16 ∧ ¬ Lost s ∧ ¬ Lost s' := by
  rcases reach_crowded with ⟨s, hs, h⟩
  rcases reach_woken (i := 0) (t := 0) (u := 16) (by simp [h.pcs]) h.live (by simp [h.pcs]; rfl)
    (by simp [h.waiters]) with ⟨s₁, hs₁, _, hallocated, hwaiters, hpcs⟩
  have hwoken : s₁.pcs 16 = .woken headerSize := by
    simp [hpcs]
  have hfind : findFree s₁ = some 0 := by
    unfold findFree
    rw [List.finRange_succ, List.find?_cons_of_pos]
    simp [hallocated]
  have htake : step 0x4000 s₁ (16, .emergencyMalloc none) = some (s₁.take 16 headerSize 0) := by
    simp [step, hwoken, criticalSection, hfind]
  have hcount : step 0x4000 (s₁.take 16 headerSize 0) (16, .count)
      = some (((s₁.take 16 headerSize 0).hold 16 0).obtain ⟨bufferAddr 0x4000 0, headerSize⟩) := by
    simp [step]
  have hs' := (hs₁.step (by simp [CallocFails]) htake).step (by simp [CallocFails]) hcount
  refine ⟨s, _, h.waiters, hs', ?_, by simp, by simp, ?_, ?_⟩
  . simp [hwaiters, h.waiters]
  . exact not_lost_of_not_steals (hs.mono fun _ _ hl => hl.not_steals)
  . exact not_lost_of_not_steals ((hs.trans hs').mono fun _ _ hl => hl.not_steals)

-- the thread that is woken takes memory from `calloc`, and the other one sleeps beside the buffer
theorem reach_lost
    : ∃ s, Reach State.init (step 0x4000) (fun _ _ => True) s ∧ Lost s := by
  rcases reach_crowded with ⟨s, hs, h⟩
  rcases reach_woken (i := 0) (t := 0) (u := 16) (by simp [h.pcs]) h.live (by simp [h.pcs]; rfl)
    (by simp [h.waiters]) with ⟨s', hs', hheap, hallocated, _, hpcs⟩
  have hwoken : s'.pcs 16 = .woken headerSize := by
    simp [hpcs]
  have hreturns : CallocReturns 0x4000 s' ⟨0x80000, headerSize⟩ := by
    refine ⟨by decide, ?_⟩
    simp [hheap, h.heap]
  have hcalloc : step 0x4000 s' (16, .emergencyMalloc (some 0x80000))
      = some (s'.callocated 16 ⟨0x80000, headerSize⟩) := by
    simp [step, hwoken, criticalSection, calloc, hreturns]
  refine ⟨_, ((hs.trans hs').mono fun _ _ _ => trivial).step trivial hcalloc, ⟨17, ?_⟩, ⟨0, hallocated⟩, ?_⟩
  . simp [hpcs, h.pcs, Pc.isWaiting]
  . intro t
    by_cases h16 : t = 16 <;> by_cases h17 : t = 17
      <;> simp [hpcs, h.pcs, h16, h17, Pc.isActive]

end Emergency

end LibCxxRt
