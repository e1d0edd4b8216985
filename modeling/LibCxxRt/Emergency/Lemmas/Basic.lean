import LibCxxRt.Emergency.Impl

/-!
This module contains what a step of the allocator can do.
-/

namespace LibCxxRt

namespace Emergency

section

variable {s s' : State} {t : Nat}

theorem findFree_eq_some {i : Fin 16} (hfind : findFree s = some i)
    : s.bufferAllocated i = false := by
  have hprop := List.find?_some hfind
  simpa using hprop

theorem findFree_eq_none (hfind : findFree s = none) (i : Fin 16) : s.bufferAllocated i = true := by
  unfold findFree at hfind
  rw [List.find?_eq_none] at hfind
  simpa using hfind i (List.mem_finRange i)

theorem bufferAddr_inj {emergencyBuffer : Nat} {i j : Fin 16}
    (hij : bufferAddr emergencyBuffer i = bufferAddr emergencyBuffer j)
    : i = j := by
  unfold bufferAddr at hij
  omega

-- the search in `emergency_malloc_free` finds the buffer
theorem findBuffer_bufferAddr (emergencyBuffer : Nat) (i : Fin 16)
    : findBuffer emergencyBuffer (bufferAddr emergencyBuffer i) = some i := by
  unfold findBuffer
  cases hfind : (List.finRange 16).find? fun j =>
      bufferAddr emergencyBuffer i == bufferAddr emergencyBuffer j with
  | none =>
    rw [List.find?_eq_none] at hfind
    simpa using hfind i (List.mem_finRange i)
  | some j =>
    have hprop := List.find?_some hfind
    rw [beq_iff_eq] at hprop
    rw [bufferAddr_inj hprop]

theorem freeException_bufferAddr (emergencyBuffer : Nat) (s : State) (t : Nat) (i : Fin 16)
    : freeException emergencyBuffer s t (bufferAddr emergencyBuffer i) = s.goto t (.clearing i 0) := by
  unfold freeException
  rw [if_pos, findBuffer_bufferAddr]
  unfold bufferAddr
  omega

theorem signal_cases {woken : Option Nat} (hsignal : signal s woken = some s')
    : (woken = none ∧ s.waiters = [] ∧ s' = s)
      ∨ ∃ u size, woken = some u ∧ s.pcs u = .waiting size ∧ u ∈ s.waiters ∧ s' = s.wake u size := by
  unfold signal at hsignal
  cases woken with
  | none =>
    dsimp only at hsignal
    split at hsignal
    . next hwaiters =>
      cases hsignal
      exact .inl ⟨rfl, hwaiters, rfl⟩
    . contradiction
  | some u =>
    dsimp only at hsignal
    split at hsignal
    . next size hpc =>
      split at hsignal
      . next hu =>
        cases hsignal
        exact .inr ⟨u, size, rfl, hpc, hu, rfl⟩
      . contradiction
    . contradiction

end

/--
`emergency_malloc` has made its checks.
-/
def Admitted (s : State) (t size : Nat) : Prop :=
  (s.pcs t = .entering size ∧ size ≤ 1024 ∧ s.emergencyBuffersHeld t ≤ 3) ∨ s.pcs t = .woken size

inductive Transition (emergencyBuffer : Nat) (s : State) (t : Nat) : Action → State → Prop where
  | request {size : Nat} (action : Action) (hpc : s.pcs t = .idle) (hsize : 0 < size)
    : Transition emergencyBuffer s t action (s.goto t (.allocating size))
  | calloc {a size : Nat} (hpc : s.pcs t = .allocating size)
    (hreturns : CallocReturns emergencyBuffer s ⟨a, size⟩)
    : Transition emergencyBuffer s t (.calloc (some a)) (s.callocated t ⟨a, size⟩)
  | emergencyCalloc {a size : Nat} (hadmitted : Admitted s t size)
    (hreturns : CallocReturns emergencyBuffer s ⟨a, size⟩)
    : Transition emergencyBuffer s t (.emergencyMalloc (some a)) (s.callocated t ⟨a, size⟩)
  | enter {size : Nat} (hpc : s.pcs t = .allocating size)
    : Transition emergencyBuffer s t (.calloc none) (s.goto t (.entering size))
  | refuse {size : Nat} (result : Option Nat) (hpc : s.pcs t = .entering size)
    (hrefuse : size > 1024 ∨ s.emergencyBuffersHeld t > 3)
    : Transition emergencyBuffer s t (.emergencyMalloc result) (s.goto t .terminated)
  | take {size : Nat} {i : Fin 16} (hadmitted : Admitted s t size) (hfind : findFree s = some i)
    : Transition emergencyBuffer s t (.emergencyMalloc none) (s.take t size i)
  | wait {size : Nat} (hadmitted : Admitted s t size) (hfind : findFree s = none)
    : Transition emergencyBuffer s t (.emergencyMalloc none) (s.wait t size)
  | count {size : Nat} {i : Fin 16} (hpc : s.pcs t = .counting size i)
    : Transition emergencyBuffer s t .count
        ((s.hold t i).obtain ⟨bufferAddr emergencyBuffer i, size⟩)
  | write {b : Block} {a : Nat} (value : BitVec 8) (hpc : s.pcs t = .idle) (hb : b ∈ s.live)
    (ha : b.contains a)
    : Transition emergencyBuffer s t (.write a value)
        { s with mem := Function.update s.mem a value }
  | free {b : Block} (hpc : s.pcs t = .idle) (hb : b ∈ s.live)
    : Transition emergencyBuffer s t (.free b)
        (freeException emergencyBuffer { s with live := s.live.erase b } t b.addr)
  | clear {i : Fin 16} {cleared n : Nat} (hpc : s.pcs t = .clearing i cleared)
    (hn : 0 < n ∧ cleared + n ≤ 1024)
    : Transition emergencyBuffer s t (.clear n)
        ((s.zero ⟨bufferAddr emergencyBuffer i + cleared, n⟩).goto t
          (if cleared + n = 1024 then .releasing i else .clearing i (cleared + n)))
  | release {i : Fin 16} (hpc : s.pcs t = .releasing i) (hwaiters : s.waiters = [])
    : Transition emergencyBuffer s t (.release none) (s.release t i)
  | signal {i : Fin 16} {u size : Nat} (hpc : s.pcs t = .releasing i)
    (hwaiting : s.pcs u = .waiting size) (hu : u ∈ s.waiters)
    : Transition emergencyBuffer s t (.release (some u)) ((s.release t i).wake u size)
  | wake {size : Nat} (hpc : s.pcs t = .waiting size)
    : Transition emergencyBuffer s t .wake (s.wake t size)

variable {emergencyBuffer : Nat} {s s' : State} {t : Nat} {action : Action}

theorem calloc_cases {b : Block} (hcalloc : calloc emergencyBuffer s t b = some s')
    : CallocReturns emergencyBuffer s b ∧ s' = s.callocated t b := by
  unfold calloc at hcalloc
  split at hcalloc
  . next hreturns =>
    cases hcalloc
    exact ⟨hreturns, rfl⟩
  . contradiction

theorem criticalSection_transition {size : Nat} {result : Option Nat} (hadmitted : Admitted s t size)
    (hstep : criticalSection emergencyBuffer s t size result = some s')
    : Transition emergencyBuffer s t (.emergencyMalloc result) s' := by
  unfold criticalSection at hstep
  cases result with
  | some a =>
    rcases calloc_cases hstep with ⟨hreturns, rfl⟩
    exact .emergencyCalloc hadmitted hreturns
  | none =>
    cases hfind : findFree s with
    | some i =>
      rw [hfind] at hstep
      cases hstep
      exact .take hadmitted hfind
    | none =>
      rw [hfind] at hstep
      cases hstep
      exact .wait hadmitted hfind

theorem transition_of_step (hstep : step emergencyBuffer s (t, action) = some s')
    : Transition emergencyBuffer s t action s' := by
  unfold step at hstep
  dsimp only at hstep
  split at hstep
  . next hpc =>
    split at hstep
    . cases hstep
      apply Transition.request _ hpc
      unfold headerSize
      omega
    . contradiction
  . next hpc =>
    cases hstep
    exact .request _ hpc (Nat.zero_lt_succ 127)
  . next hpc =>
    split at hstep
    . rcases calloc_cases hstep with ⟨hreturns, rfl⟩
      exact .calloc hpc hreturns
    . cases hstep
      exact .enter hpc
  . next hpc =>
    split at hstep
    . next hrefuse =>
      cases hstep
      exact .refuse _ hpc hrefuse
    . next hadmit => exact criticalSection_transition (.inl ⟨hpc, by omega, by omega⟩) hstep
  . next hpc => exact criticalSection_transition (.inr hpc) hstep
  . next hpc =>
    cases hstep
    exact .count hpc
  . next hpc =>
    split at hstep
    . next hany =>
      cases hstep
      rw [List.any_eq_true] at hany
      rcases hany with ⟨b, hb, ha⟩
      exact .write _ hpc hb (of_decide_eq_true ha)
    . contradiction
  . next hpc =>
    split at hstep
    . next hb =>
      cases hstep
      exact .free hpc hb
    . contradiction
  . next hpc =>
    split at hstep
    . next hn =>
      cases hstep
      exact .clear hpc hn
    . contradiction
  . next i hpc =>
    rcases signal_cases hstep with ⟨rfl, hwaiters, rfl⟩ | ⟨u, size, rfl, hwaiting, hu, rfl⟩
    . exact .release hpc hwaiters
    . apply Transition.signal hpc _ hu
      rw [State.release_pcs] at hwaiting
      by_cases heq : u = t
      . simp [heq] at hwaiting
      . simpa [heq] using hwaiting
  . next hpc =>
    cases hstep
    exact .wake hpc
  . contradiction

end Emergency

end LibCxxRt
