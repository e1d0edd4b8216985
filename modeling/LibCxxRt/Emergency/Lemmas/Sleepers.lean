import LibCxxRt.Emergency.Lemmas.Runs
import LibCxxRt.Util.Census

/-!
This module contains the threads that wait on `emergency_malloc_wait`: the list of the waiters has
these threads and no others.
-/

namespace LibCxxRt

open Util

namespace Emergency

namespace Pc

def isWaiting : Pc → Bool
  | .waiting _ => true
  | _ => false

def isWoken : Pc → Bool
  | .woken _ => true
  | _ => false

def isFreeing : Pc → Bool
  | .clearing _ _ | .releasing _ => true
  | _ => false

end Pc

structure Sleepers (s : State) : Prop where
  finite : FinitelyMany s.pcs fun pc => pc != .idle
  nodup : s.waiters.Nodup
  waiters : ∀ t, t ∈ s.waiters ↔ (s.pcs t).isWaiting

variable {emergencyBuffer : Nat} {s s' : State} {t : Nat} {pc : Pc} {action : Action}

theorem isWaiting_of_admitted {size : Nat} (hadmitted : Admitted s t size)
    : (s.pcs t).isWaiting = false ∧ (s.pcs t).isFreeing = false := by
  rcases hadmitted with ⟨hpc, _⟩ | hpc <;> rw [hpc] <;> exact ⟨rfl, rfl⟩

-- what `free_exception` does to the thread that calls it
theorem freeException_frame (emergencyBuffer e : Nat) (hpc : s.pcs t = .idle)
    : ∃ pc, pc.isWaiting = false ∧ pc.isWoken = false
      ∧ (freeException emergencyBuffer s t e).pcs = Function.update s.pcs t pc
      ∧ (freeException emergencyBuffer s t e).waiters = s.waiters
      ∧ (freeException emergencyBuffer s t e).bufferAllocated = s.bufferAllocated := by
  unfold freeException
  split
  . split
    . next i _ => exact ⟨.clearing i 0, rfl, rfl, rfl, rfl, rfl⟩
    . exact ⟨.failed, rfl, rfl, rfl, rfl, rfl⟩
  . split
    . refine ⟨.idle, rfl, rfl, ?_, rfl, rfl⟩
      rw [← hpc, Function.update_eq_self]
    . exact ⟨.failed, rfl, rfl, rfl, rfl, rfl⟩

namespace Sleepers

-- a thread goes on that neither falls asleep nor wakes up
theorem goto (h : Sleepers s) (hold : (s.pcs t).isWaiting = false) (hnew : pc.isWaiting = false)
    (hpcs : s'.pcs = Function.update s.pcs t pc) (hwaiters : s'.waiters = s.waiters)
    : Sleepers s' := by
  constructor
  . rw [hpcs]
    exact h.finite.update t pc
  . rw [hwaiters]
    exact h.nodup
  . intro u
    rw [hwaiters, hpcs, h.waiters]
    by_cases heq : u = t
    . subst heq
      simp [hold, hnew]
    . rw [Function.update_of_ne heq]

theorem wait (h : Sleepers s) {size : Nat} (hpc : (s.pcs t).isWaiting = false)
    : Sleepers (s.wait t size) := by
  constructor
  . exact h.finite.update t _
  . rw [State.wait_waiters, List.nodup_append]
    refine ⟨h.nodup, List.nodup_singleton t, ?_⟩
    intro u hu v hv
    rw [List.mem_singleton] at hv
    rintro rfl
    rw [h.waiters, hv, hpc] at hu
    contradiction
  . intro u
    rw [State.wait_waiters, State.wait_pcs, List.mem_append, List.mem_singleton, h.waiters]
    by_cases heq : u = t
    . simp [heq, Pc.isWaiting]
    . simp [heq]

theorem wake (h : Sleepers s) {size : Nat} : Sleepers (s.wake t size) := by
  constructor
  . exact h.finite.update t _
  . exact h.nodup.erase t
  . intro u
    rw [State.wake_waiters, State.wake_pcs, h.nodup.mem_erase_iff, h.waiters]
    by_cases heq : u = t
    . simp [heq, Pc.isWaiting]
    . simp [heq]

theorem init : Sleepers State.init := by
  constructor
  . apply Set.finite_empty.subset
    intro t ht
    simp [State.init] at ht
  . exact List.nodup_nil
  . simp [State.init, Pc.isWaiting]

theorem step (h : Sleepers s) (htransition : Transition emergencyBuffer s t action s')
    : Sleepers s' := by
  cases htransition with
  | request _ hpc _ => exact h.goto (by rw [hpc]; rfl) rfl rfl rfl
  | calloc hpc _ => exact h.goto (by rw [hpc]; rfl) rfl rfl rfl
  | emergencyCalloc hadmitted _ => exact h.goto (isWaiting_of_admitted hadmitted).1 rfl rfl rfl
  | enter hpc => exact h.goto (by rw [hpc]; rfl) rfl rfl rfl
  | refuse _ hpc _ => exact h.goto (by rw [hpc]; rfl) rfl rfl rfl
  | take hadmitted _ => exact h.goto (isWaiting_of_admitted hadmitted).1 rfl rfl rfl
  | wait hadmitted _ => exact h.wait (isWaiting_of_admitted hadmitted).1
  | count hpc => exact h.goto (by rw [hpc]; rfl) rfl rfl rfl
  | write => exact ⟨h.finite, h.nodup, h.waiters⟩
  | @free b hpc _ =>
    rcases freeException_frame (s := { s with live := s.live.erase b }) emergencyBuffer b.addr hpc
      with ⟨pc, hwaiting, _, hpcs, hwaiters, _⟩
    exact h.goto (by rw [hpc]; rfl) hwaiting hpcs hwaiters
  | clear hpc _ => exact h.goto (by rw [hpc]; rfl) (by split <;> rfl) rfl rfl
  | release hpc _ => exact h.goto (by rw [hpc]; rfl) rfl rfl rfl
  | @signal i _ _ hpc _ _ =>
    have hreleased : Sleepers (s.release t i) := h.goto (by rw [hpc]; rfl) rfl rfl rfl
    exact hreleased.wake
  | wake => exact h.wake

theorem of_reach {allowed : State → Nat × Action → Prop}
    (hs : Reach State.init (Emergency.step emergencyBuffer) allowed s) : Sleepers s := by
  apply hs.invariant init
  rintro s ⟨t, action⟩ s' h _ hstep
  exact h.step (transition_of_step hstep)

-- there is a thread that can be woken if there is one that waits
theorem exists_release (h : Sleepers s) (emergencyBuffer : Nat) {i : Fin 16}
    (hpc : s.pcs t = .releasing i)
    : ∃ woken s', Emergency.step emergencyBuffer s (t, .release woken) = some s' := by
  cases hwaiters : s.waiters with
  | nil => exact ⟨none, _, step_release_none hpc hwaiters⟩
  | cons u waiters =>
    have hu : u ∈ s.waiters := by
      rw [hwaiters]
      exact List.mem_cons_self
    have hwaiting := (h.waiters u).mp hu
    cases hpcu : s.pcs u with
    | waiting size => exact ⟨some u, _, step_release hpc hpcu hu⟩
    | idle | allocating | entering | woken | counting | clearing | releasing | terminated | failed =>
      rw [hpcu] at hwaiting
      contradiction

end Sleepers

end Emergency

end LibCxxRt
