import LibCxxRt.Emergency.Lemmas.Basic
import LibCxxRt.Util.Reach

/-!
This module contains what a thread does that runs without an interruption while `calloc` fails.
-/

namespace LibCxxRt

open Util

namespace Emergency

-- no thread in `emergency_malloc` gets memory from `calloc`
def CallocFails (_ : State) (l : Nat × Action) : Prop :=
  ∀ a, l.2 ≠ .emergencyMalloc (some a)

variable {emergencyBuffer : Nat} {s : State} {t : Nat}

theorem reach_entering (hpc : s.pcs t = .idle)
    : Reach s (step emergencyBuffer) CallocFails (s.goto t (.entering headerSize)) := by
  have hrequest : step emergencyBuffer s (t, .allocateDependentException)
      = some (s.goto t (.allocating headerSize)) := by
    simp [step, hpc]
  have hcalloc : step emergencyBuffer (s.goto t (.allocating headerSize)) (t, .calloc none)
      = some (s.goto t (.entering headerSize)) := by
    simp [step, State.goto]
  exact ((Reach.init).step (by simp [CallocFails]) hrequest).step (by simp [CallocFails]) hcalloc

-- the thread gets a buffer
theorem reach_obtained {i : Fin 16} (hpc : s.pcs t = .idle) (hheld : s.emergencyBuffersHeld t ≤ 3)
    (hfind : findFree s = some i)
    : Reach s (step emergencyBuffer) CallocFails
        ((((s.goto t (.entering headerSize)).take t headerSize i).hold t i).obtain
          ⟨bufferAddr emergencyBuffer i, headerSize⟩) := by
  have hfind' : findFree (s.goto t (.entering headerSize)) = some i := hfind
  have hsize : ¬ headerSize > 1024 := by decide
  have hquota : ¬ s.emergencyBuffersHeld t > 3 := by omega
  have htake : step emergencyBuffer (s.goto t (.entering headerSize)) (t, .emergencyMalloc none)
      = some ((s.goto t (.entering headerSize)).take t headerSize i) := by
    simp [step, criticalSection, hfind', hquota, hsize]
  have hcount : step emergencyBuffer ((s.goto t (.entering headerSize)).take t headerSize i)
      (t, .count) = some ((((s.goto t (.entering headerSize)).take t headerSize i).hold t i).obtain
          ⟨bufferAddr emergencyBuffer i, headerSize⟩) := by
    simp [step]
  exact ((reach_entering hpc).step (by simp [CallocFails]) htake).step (by simp [CallocFails]) hcount

-- the thread falls asleep
theorem reach_waiting (hpc : s.pcs t = .idle) (hheld : s.emergencyBuffersHeld t = 0)
    (hfull : ∀ i, s.bufferAllocated i = true)
    : Reach s (step emergencyBuffer) CallocFails
        ((s.goto t (.entering headerSize)).wait t headerSize) := by
  apply (reach_entering hpc).step (by simp [CallocFails]) (l := (t, .emergencyMalloc none))
  have hfind : findFree (s.goto t (.entering headerSize)) = none := by
    unfold findFree
    rw [List.find?_eq_none]
    simp [hfull]
  have hsize : ¬ headerSize > 1024 := by decide
  simp [step, criticalSection, hfind, hheld, hsize]

theorem step_clear (emergencyBuffer cleared : Nat) {i : Fin 16}
    (hpc : s.pcs t = .clearing i cleared)
    (hlt : cleared < 1024)
    : step emergencyBuffer s (t, .clear (1024 - cleared))
        =
      some ((s.zero ⟨bufferAddr emergencyBuffer i + cleared, 1024 - cleared⟩).goto t
        (.releasing i)) := by
  have hpos : 0 < 1024 - cleared ∧ cleared + (1024 - cleared) ≤ 1024 := by omega
  have heq : cleared + (1024 - cleared) = 1024 := by omega
  simp [step, hpc, hpos, heq]

theorem step_release {i : Fin 16} {size u : Nat} (hpc : s.pcs t = .releasing i)
    (hwaiting : s.pcs u = .waiting size) (hu : u ∈ s.waiters)
    : step emergencyBuffer s (t, .release (some u)) = some ((s.release t i).wake u size) := by
  have hne : u ≠ t := by
    rintro rfl
    rw [hwaiting] at hpc
    contradiction
  simp [step, hpc, signal, hne, hwaiting, hu]

theorem step_release_none {i : Fin 16} (hpc : s.pcs t = .releasing i) (hwaiters : s.waiters = [])
    : step emergencyBuffer s (t, .release none) = some (s.release t i) := by
  simp [step, hpc, signal, hwaiters]

theorem releasing_of_step {woken : Option Nat} {s' : State}
    (hstep : step emergencyBuffer s (t, .release woken) = some s') : ∃ i, s.pcs t = .releasing i := by
  unfold step at hstep
  dsimp only at hstep
  cases hpc : s.pcs t with
  | releasing i => exact ⟨i, rfl⟩
  | idle | allocating | entering | waiting | woken | counting | clearing | terminated | failed =>
    rw [hpc] at hstep
    contradiction

-- the thread that is woken is another one
theorem release_of_step {i : Fin 16} {woken : Option Nat} {s' : State} (hpc : s.pcs t = .releasing i)
    (hstep : step emergencyBuffer s (t, .release woken) = some s')
    : s'.bufferAllocated = Function.update s.bufferAllocated i false ∧ s'.pcs t = .idle
      ∧ s'.live = s.live := by
  unfold step at hstep
  dsimp only at hstep
  rw [hpc] at hstep
  rcases signal_cases hstep with ⟨_, _, rfl⟩ | ⟨u, size, _, hwaiting, _, rfl⟩
  . exact ⟨rfl, Function.update_self .., rfl⟩
  . refine ⟨rfl, ?_, rfl⟩
    rw [State.wake_pcs, Function.update_of_ne, State.release_pcs, Function.update_self]
    rintro rfl
    rw [State.release_pcs, Function.update_self] at hwaiting
    contradiction

-- the thread frees its buffer
theorem reach_releasing {i : Fin 16} {size : Nat} (hpc : s.pcs t = .idle)
    (hlive : ⟨bufferAddr emergencyBuffer i, size⟩ ∈ s.live)
    : Reach s (step emergencyBuffer) CallocFails
        ((({ s with live := s.live.erase ⟨bufferAddr emergencyBuffer i, size⟩ }.goto t
          (.clearing i 0)).zero ⟨bufferAddr emergencyBuffer i, 1024⟩).goto t (.releasing i)) := by
  have hfree : step emergencyBuffer s (t, .free ⟨bufferAddr emergencyBuffer i, size⟩)
      = some ({ s with live := s.live.erase ⟨bufferAddr emergencyBuffer i, size⟩ }.goto t
          (.clearing i 0)) := by
    simp [step, hpc, hlive, freeException_bufferAddr]
  exact (Reach.init.step (by simp [CallocFails]) hfree).step (by simp [CallocFails])
    (step_clear emergencyBuffer 0 (by simp) (by decide))

-- it also wakes another thread
theorem reach_woken {i : Fin 16} {size size' u : Nat} (hpc : s.pcs t = .idle)
    (hlive : ⟨bufferAddr emergencyBuffer i, size⟩ ∈ s.live) (hwaiting : s.pcs u = .waiting size')
    (hu : u ∈ s.waiters)
    : ∃ s', Reach s (step emergencyBuffer) CallocFails s' ∧ s'.heap = s.heap
      ∧ s'.bufferAllocated i = false ∧ s'.waiters = s.waiters.erase u
      ∧ s'.pcs = Function.update s.pcs u (.woken size') := by
  have hne : u ≠ t := by
    rintro rfl
    rw [hwaiting] at hpc
    contradiction
  have hreleased := (reach_releasing hpc hlive).step (by simp [CallocFails]) (step_release (t := t) (i := i) (u := u)
    (by simp) (by simp [hne, hwaiting]; rfl) (by simp [hu]))
  refine ⟨_, hreleased, rfl, by simp, rfl, ?_⟩
  funext v
  by_cases hv : v = u
  . simp [hv]
  . by_cases hv' : v = t <;> simp [hv, hv', hpc, Ne.symm hne]

end Emergency

end LibCxxRt
