import LibCxxRt.Emergency.Lemmas.Runs
import LibCxxRt.Emergency.Lemmas.Sleepers
import LibCxxRt.Emergency.Lemmas.Slots
import Mathlib.Data.List.Pairwise

/-!
This module shows that the allocations that are in use do not share memory, that they begin with zeros
and that every one of them is given back to where it comes from.
-/

namespace LibCxxRt

open Util

namespace Emergency

/--
What holds between the steps of the threads.
-/
structure Isolated (emergencyBuffer : Nat) (s : State) : Prop where
  disjoint : s.live.Pairwise Block.Disjoint
  positive : ∀ b ∈ s.live, 0 < b.size
  slot : ∀ b ∈ s.live, b.Disjoint (arena emergencyBuffer)
    ∨ ∃ i, b.addr = bufferAddr emergencyBuffer i ∧ b.size ≤ 1024
  -- a buffer is marked if it is live, on its way to the caller of `emergency_malloc` or freed
  allocated : ∀ i, s.bufferAllocated i = true
    ↔ (∃ size, ⟨bufferAddr emergencyBuffer i, size⟩ ∈ s.live)
      ∨ ∃ t f, (s.pcs t).buffer = some (i, f)
  exclusive : ∀ i t f, (s.pcs t).buffer = some (i, f)
    → (∀ size, ⟨bufferAddr emergencyBuffer i, size⟩ ∉ s.live)
      ∧ ∀ u f', (s.pcs u).buffer = some (i, f') → u = t
  safe : ∀ t, s.pcs t ≠ .failed
  -- the thread that frees a buffer can go on until the buffer is free, whatever the others do
  finishes : ∀ t i, (s.pcs t).buffer = some (i, true)
    → ∃ (actions : List Action) (s' : State),
      run (step emergencyBuffer) s (actions.map fun action => (t, action)) = some s'
      ∧ s'.bufferAllocated = Function.update s.bufferAllocated i false ∧ s'.pcs t = .idle
      ∧ s'.live = s.live

/--
What a step of one thread does.
-/
structure IsolatedStep (emergencyBuffer : Nat) (s : State) (t : Nat) (action : Action) (s' : State)
    : Prop where
  zeroed : ∀ b, s'.live = b :: s.live → Zeroed s'.mem b.addr b.size
  free_slot : ∀ b i, action = .free b → b.addr = bufferAddr emergencyBuffer i
    → s' = { s with live := s.live.erase b }.goto t (.clearing i 0)
  free_heap : ∀ b, action = .free b → b.Disjoint (arena emergencyBuffer)
    → b ∈ s.heap ∧ s' = { s with live := s.live.erase b, heap := s.heap.erase b }
  -- the thread that frees a buffer keeps it until it releases this buffer and no other one
  freeing : ∀ u i, (s.pcs u).buffer = some (i, true) → (s'.pcs u).buffer = some (i, true)
    ∨ u = t ∧ s'.bufferAllocated = Function.update s.bufferAllocated i false ∧ s'.pcs t = .idle
  released : ∀ i, s.bufferAllocated i = true → s'.bufferAllocated i = false
    → s.pcs t = .releasing i
  -- it is the last thing that `emergency_malloc_free` does
  releases : ∀ woken, action = .release woken → ∃ i, s.pcs t = .releasing i
    ∧ s'.bufferAllocated = Function.update s.bufferAllocated i false ∧ s'.pcs t = .idle
    ∧ s'.live = s.live

variable {emergencyBuffer : Nat} {slots : Fin 16 → Slot} {s s' : State} {t : Nat} {action : Action}

namespace Inv

variable {i : Fin 16}

theorem slot_of_live (hinv : Inv emergencyBuffer slots s) {b : Block} (hb : b ∈ s.live)
    (haddr : b.addr = bufferAddr emergencyBuffer i) : slots i = .live b.size := by
  rcases hinv.live_or_slot hb with ⟨_, harena⟩ | ⟨j, heq, hslot, _⟩
  . have hpos := hinv.positive b (List.mem_append_right _ hb)
    unfold Block.Disjoint arena at harena
    unfold bufferAddr at haddr
    dsimp only at harena
    omega
  . rw [heq] at haddr
    rw [← bufferAddr_inj haddr]
    exact hslot

theorem buffer_of_worker (hinv : Inv emergencyBuffer slots s) {f : Bool}
    (hworker : (slots i).worker = some (t, f)) : (s.pcs t).buffer = some (i, f) := by
  exact (hinv.matched t i f).mpr hworker

theorem exists_run (hinv : Inv emergencyBuffer slots s) (hsleepers : Sleepers s)
    (hbuffer : (s.pcs t).buffer = some (i, true))
    : ∃ (actions : List Action) (s' : State),
      run (Emergency.step emergencyBuffer) s (actions.map fun action => (t, action)) = some s'
      ∧ s'.bufferAllocated = Function.update s.bufferAllocated i false ∧ s'.pcs t = .idle
      ∧ s'.live = s.live := by
  cases hpc : s.pcs t with
  | releasing j =>
    rw [hpc] at hbuffer
    cases hbuffer
    rcases hsleepers.exists_release emergencyBuffer hpc with ⟨woken, s', hstep⟩
    refine ⟨[.release woken], s', ?_, release_of_step hpc hstep⟩
    simp [run, hstep]
  | clearing j cleared =>
    have hvalid := hinv.valid t
    rw [hpc] at hbuffer hvalid
    cases hbuffer
    have hclear := step_clear emergencyBuffer _ hpc hvalid.1
    generalize hcleared : (s.zero ⟨bufferAddr emergencyBuffer i + cleared, 1024 - cleared⟩).goto t
      (.releasing i) = s₁ at hclear
    have hreleasing : s₁.pcs t = .releasing i := by
      rw [← hcleared, State.goto_pcs, Function.update_self]
    have hsleepers' : Sleepers s₁ := by
      rw [← hcleared]
      exact hsleepers.goto (by rw [hpc]; rfl) rfl rfl rfl
    rcases hsleepers'.exists_release emergencyBuffer hreleasing with ⟨woken, s', hstep⟩
    have hrelease := release_of_step hreleasing hstep
    rw [← hcleared] at hrelease
    refine ⟨[.clear (1024 - cleared), .release woken], s', ?_, hrelease⟩
    simp [run, hclear, hstep]
  | idle | allocating | entering | waiting | woken | counting | terminated | failed =>
    rw [hpc] at hbuffer
    simp [Pc.buffer] at hbuffer

theorem allocated_iff (hinv : Inv emergencyBuffer slots s) (i : Fin 16)
    : s.bufferAllocated i = true
        ↔
      (∃ size, ⟨bufferAddr emergencyBuffer i, size⟩ ∈ s.live)
        ∨ ∃ t f, (s.pcs t).buffer = some (i, f) := by
  rw [hinv.allocated]
  constructor
  . intro hne
    cases hslot : slots i with
    | free => exact absurd hslot hne
    | live size => exact .inl ⟨size, hinv.slots i size hslot⟩
    | counting t =>
      exact .inr ⟨t, false, hinv.buffer_of_worker (by rw [hslot]; rfl)⟩
    | freeing t =>
      exact .inr ⟨t, true, hinv.buffer_of_worker (by rw [hslot]; rfl)⟩
  . rintro (⟨size, hlive⟩ | ⟨t, f, hbuffer⟩)
    . rw [hinv.slot_of_live hlive rfl]
      simp
    . rw [hinv.slot_of_buffer hbuffer]
      split <;> simp

-- nobody else has a buffer that a thread works on
theorem exclusive (hinv : Inv emergencyBuffer slots s) {f : Bool}
    (hbuffer : (s.pcs t).buffer = some (i, f))
    : (∀ size, ⟨bufferAddr emergencyBuffer i, size⟩ ∉ s.live)
      ∧ ∀ u f', (s.pcs u).buffer = some (i, f') → u = t := by
  have hslot := hinv.slot_of_buffer hbuffer
  constructor
  . intro size hlive
    rw [hinv.slot_of_live hlive rfl] at hslot
    split at hslot <;> contradiction
  . intro u f' hbuffer'
    have hslot' := hinv.slot_of_buffer hbuffer'
    rw [hslot] at hslot'
    cases f <;> cases f' <;> simp_all

theorem isolated (hinv : Inv emergencyBuffer slots s) (hsleepers : Sleepers s)
    : Isolated emergencyBuffer s := by
  constructor
  . exact hinv.disjoint
  . intro b hb
    exact hinv.positive b (List.mem_append_right _ hb)
  . intro b hb
    rcases hinv.live_or_slot hb with ⟨_, harena⟩ | ⟨i, heq, _, hsize⟩
    . exact .inl harena
    . exact .inr ⟨i, congrArg Block.addr heq, hsize⟩
  . exact hinv.allocated_iff
  . intro i t f hbuffer
    exact hinv.exclusive hbuffer
  . intro t hpc
    have hvalid := hinv.valid t
    rw [hpc] at hvalid
    exact hvalid
  . intro t i hbuffer
    exact hinv.exists_run hsleepers hbuffer

theorem eq_of_addr (hinv : Inv emergencyBuffer slots s) {b b' : Block} (hb : b ∈ s.heap)
    (hb' : b' ∈ s.heap) (haddr : b'.addr = b.addr) : b' = b := by
  by_contra hne
  have hdisjoint := hinv.heap.1.forall hb' hb hne
  have hpos := hinv.positive b (List.mem_append_left _ hb)
  have hpos' := hinv.positive b' (List.mem_append_left _ hb')
  unfold Block.Disjoint at hdisjoint
  omega

theorem eraseP_addr (hinv : Inv emergencyBuffer slots s) {b : Block} (hb : b ∈ s.heap)
    : (s.heap.eraseP fun b' => b'.addr == b.addr) = s.heap.erase b := by
  have hunique : ∀ b' ∈ s.heap, b'.addr = b.addr → b' = b := fun b' hb' => hinv.eq_of_addr hb hb'
  rw [List.erase_eq_eraseP']
  generalize s.heap = heap at hunique
  induction heap with
  | nil => rfl
  | cons b' heap ih =>
    by_cases haddr : b'.addr = b.addr
    . have heq := hunique b' List.mem_cons_self haddr
      subst heq
      simp
    . have hne : b' ≠ b := by
        rintro rfl
        exact haddr rfl
      rw [List.eraseP_cons_of_neg (by simpa using haddr), List.eraseP_cons_of_neg (by simpa using hne),
        ih fun b'' hb'' => hunique b'' (List.mem_cons_of_mem b' hb'')]

end Inv

theorem zeroed_callocated (s : State) (t : Nat) (b : Block)
    : Zeroed (s.callocated t b).mem b.addr b.size := by
  intro j hj
  have hin : b.contains (b.addr + j) := by
    unfold Block.contains
    omega
  exact if_pos hin

theorem zeroed_of_transition (htransition : Transition emergencyBuffer s t action s')
    (hinv : Inv emergencyBuffer slots s) {b : Block} (hlive : s'.live = b :: s.live)
    : Zeroed s'.mem b.addr b.size := by
  cases htransition with
  | request | enter | refuse | take | wait | write | clear | release | signal | wake =>
    simp at hlive
  | calloc | emergencyCalloc =>
    rw [State.callocated_live] at hlive
    cases hlive
    exact zeroed_callocated s t _
  | @count size i hpc =>
    have heq : ⟨bufferAddr emergencyBuffer i, size⟩ = b := (List.cons.inj hlive).1
    subst heq
    have hvalid := hinv.valid t
    rw [hpc] at hvalid
    have hslot : slots i = .counting t := hinv.slot_of_buffer (f := false) (by rw [hpc]; rfl)
    have hzero := hinv.zeroed i (by rw [hslot]; rfl)
    intro j hj
    apply hzero
    dsimp only at hj
    have hsize := hvalid.2
    omega
  | @free b' _ hb =>
    have herase : s.live.erase b' = b :: s.live := by
      rcases hinv.freeException_cases hb with ⟨i, _, _, hfree⟩ | ⟨_, hfree⟩
      . rw [hfree] at hlive
        exact hlive
      . rw [hfree] at hlive
        exact hlive
    have hle := List.length_erase_le (a := b') (l := s.live)
    rw [herase, List.length_cons] at hle
    omega

theorem free_of_step {b : Block} (hstep : step emergencyBuffer s (t, .free b) = some s')
    : s.pcs t = .idle ∧ b ∈ s.live
      ∧ s' = freeException emergencyBuffer { s with live := s.live.erase b } t b.addr := by
  unfold step at hstep
  dsimp only at hstep
  cases hpc : s.pcs t with
  | idle =>
    rw [hpc] at hstep
    dsimp only at hstep
    split at hstep
    . next hb =>
      cases hstep
      exact ⟨rfl, hb, rfl⟩
    . contradiction
  | allocating | entering | waiting | woken | counting | clearing | releasing | terminated | failed =>
    rw [hpc] at hstep
    contradiction

theorem freeing_of_transition (htransition : Transition emergencyBuffer s t action s')
    (hinv : Inv emergencyBuffer slots s) {u : Nat} {i : Fin 16}
    (hbuffer : (s.pcs u).buffer = some (i, true))
    : (s'.pcs u).buffer = some (i, true)
      ∨ u = t ∧ s'.bufferAllocated = Function.update s.bufferAllocated i false
        ∧ s'.pcs t = .idle := by
  -- a thread that is not in `emergency_malloc_free` leaves those alone that are
  have hother {pcs : Nat → Pc} {v : Nat} {pc : Pc} (hnone : (s.pcs v).buffer = none)
      (hpcs : (pcs u).buffer = some (i, true))
      : (Function.update pcs v pc u).buffer = some (i, true) := by
    rw [Function.update_of_ne]
    . exact hpcs
    . rintro rfl
      rw [hnone] at hbuffer
      contradiction
  cases htransition with
  | request _ hpc _ => exact .inl (hother (by rw [hpc]; rfl) hbuffer)
  | calloc hpc _ => exact .inl (hother (by rw [hpc]; rfl) hbuffer)
  | emergencyCalloc hadmitted _ => exact .inl (hother (Inv.buffer_of_admitted hadmitted) hbuffer)
  | enter hpc => exact .inl (hother (by rw [hpc]; rfl) hbuffer)
  | refuse _ hpc => exact .inl (hother (by rw [hpc]; rfl) hbuffer)
  | take hadmitted => exact .inl (hother (Inv.buffer_of_admitted hadmitted) hbuffer)
  | wait hadmitted => exact .inl (hother (Inv.buffer_of_admitted hadmitted) hbuffer)
  | @count size j hpc =>
    left
    rw [State.obtain_pcs, State.hold_pcs, Function.update_of_ne]
    . exact hbuffer
    . rintro rfl
      rw [hpc] at hbuffer
      simp [Pc.buffer] at hbuffer
  | write => exact .inl hbuffer
  | free hpc hb =>
    left
    rcases hinv.freeException_cases hb with ⟨j, _, _, hfree⟩ | ⟨_, hfree⟩
    . rw [hfree]
      exact hother (by rw [hpc]; rfl) hbuffer
    . rw [hfree]
      exact hbuffer
  | clear hpc hn =>
    left
    rw [State.goto_pcs, State.zero_pcs]
    by_cases heq : u = t
    . subst heq
      rw [hpc] at hbuffer
      rw [Function.update_self]
      split <;> exact hbuffer
    . rw [Function.update_of_ne heq]
      exact hbuffer
  | @release j hpc _ =>
    by_cases heq : u = t
    . subst heq
      rw [hpc] at hbuffer
      cases hbuffer
      exact .inr ⟨rfl, rfl, Function.update_self ..⟩
    . left
      rw [State.release_pcs, Function.update_of_ne heq]
      exact hbuffer
  | @signal j v size hpc hwaiting _ =>
    by_cases heq : u = t
    . subst heq
      rw [hpc] at hbuffer
      cases hbuffer
      refine .inr ⟨rfl, rfl, ?_⟩
      rw [State.wake_pcs, State.release_pcs, Function.update_of_ne, Function.update_self]
      rintro rfl
      rw [hwaiting] at hpc
      contradiction
    . left
      apply hother (by rw [hwaiting]; rfl)
      rw [State.release_pcs, Function.update_of_ne heq]
      exact hbuffer
  | wake hpc => exact .inl (hother (by rw [hpc]; rfl) hbuffer)

theorem released_of_transition (htransition : Transition emergencyBuffer s t action s')
    (hinv : Inv emergencyBuffer slots s) {i : Fin 16} (hold : s.bufferAllocated i = true)
    (hnew : s'.bufferAllocated i = false) : s.pcs t = .releasing i := by
  have hreleased {j : Fin 16} (hupdate : Function.update s.bufferAllocated j false i = false)
      : j = i := by
    by_contra hne
    rw [Function.update_of_ne (Ne.symm hne), hold] at hupdate
    contradiction
  cases htransition with
  | release hpc _ =>
    rw [hpc, hreleased hnew]
  | signal hpc _ _ =>
    rw [hpc, hreleased hnew]
  | @take size j _ _ =>
    rw [State.take_bufferAllocated] at hnew
    by_cases heq : i = j
    . simp [heq] at hnew
    . rw [Function.update_of_ne heq, hold] at hnew
      contradiction
  | free _ hb =>
    rcases hinv.freeException_cases hb with ⟨j, _, _, hfree⟩ | ⟨_, hfree⟩
    . rw [hfree] at hnew
      exact absurd hnew (by simp [hold])
    . rw [hfree] at hnew
      exact absurd hnew (by simp [hold])
  | request | calloc | emergencyCalloc | enter | refuse | wait | count | write | clear | wake =>
    exact absurd hnew (by simp [hold])

theorem isolatedStep_of_inv (hinv : Inv emergencyBuffer slots s)
    (hstep : step emergencyBuffer s (t, action) = some s')
    : IsolatedStep emergencyBuffer s t action s' := by
  have htransition := transition_of_step hstep
  constructor
  . intro b hlive
    exact zeroed_of_transition htransition hinv hlive
  . intro b i haction haddr
    subst haction
    rcases free_of_step hstep with ⟨_, hb, rfl⟩
    rcases hinv.freeException_cases hb with ⟨j, heq, _, hfree⟩ | ⟨hheap, _⟩
    . rw [heq] at haddr
      rw [hfree, bufferAddr_inj haddr]
    . have harena := hinv.heap.2 b hheap
      have hpos := hinv.positive b (List.mem_append_left _ hheap)
      unfold Block.Disjoint arena at harena
      unfold bufferAddr at haddr
      dsimp only at harena
      omega
  . intro b haction harena
    subst haction
    rcases free_of_step hstep with ⟨_, hb, rfl⟩
    rcases hinv.freeException_cases hb with ⟨j, heq, _, _⟩ | ⟨hheap, hfree⟩
    . have hpos := hinv.positive b (List.mem_append_right _ hb)
      have haddr : b.addr = bufferAddr emergencyBuffer j := congrArg Block.addr heq
      unfold Block.Disjoint arena at harena
      unfold bufferAddr at haddr
      dsimp only at harena
      omega
    . refine ⟨hheap, ?_⟩
      rw [hfree, hinv.eraseP_addr hheap]
  . intro u i hbuffer
    exact freeing_of_transition htransition hinv hbuffer
  . intro i hold hnew
    exact released_of_transition htransition hinv hold hnew
  . intro woken haction
    subst haction
    rcases releasing_of_step hstep with ⟨i, hpc⟩
    exact ⟨i, hpc, release_of_step hpc hstep⟩

/--
The isolation of the emergency allocator, for every order of the steps of the threads.
-/
theorem emergencyAllocator_isolated
    (hs : Reach State.init (step emergencyBuffer) (fun _ _ => True) s)
    : Isolated emergencyBuffer s
      ∧ ∀ t action s', step emergencyBuffer s (t, action) = some s'
        → IsolatedStep emergencyBuffer s t action s' := by
  rcases Inv.of_reach hs with ⟨slots, hinv⟩
  refine ⟨hinv.isolated (.of_reach hs), ?_⟩
  intro t action s' hstep
  exact isolatedStep_of_inv hinv hstep

-- a thread has an emergency buffer and frees it, while another one has memory from `calloc`
theorem emergencyAllocator_isolated_two
    : ∃ s s', s.live = [⟨0x80000, 136⟩, ⟨0x4000, 128⟩] ∧ s.bufferAllocated 0 = true
      ∧ run (step 0x4000) s [(0, .free ⟨0x4000, 128⟩), (0, .clear 1000), (0, .clear 24),
        (0, .release none)] = some s'
      ∧ s'.live = [⟨0x80000, 136⟩] ∧ s'.bufferAllocated 0 = false
      ∧ Isolated 0x4000 s ∧ Isolated 0x4000 s'
      ∧ ∀ t action s'', step 0x4000 s' (t, action) = some s''
        → IsolatedStep 0x4000 s' t action s'' := by
  have hrun : ∃ s, Reach State.init (step 0x4000) (fun _ _ => True) s
      ∧ ∃ s', run (step 0x4000) s [(0, .free ⟨0x4000, 128⟩), (0, .clear 1000), (0, .clear 24),
        (0, .release none)] = some s'
      ∧ (s.live = [⟨0x80000, 136⟩, ⟨0x4000, 128⟩] ∧ s.bufferAllocated 0 = true)
      ∧ s'.live = [⟨0x80000, 136⟩] ∧ s'.bufferAllocated 0 = false :=
    ⟨_, Reach.of_run .init (fun _ _ _ => trivial)
      (rfl : run _ _ [(0, .allocateDependentException), (0, .calloc none), (0, .emergencyMalloc none),
        (0, .count), (1, .allocateException 8), (1, .calloc (some 0x80000))] = some _),
      _, rfl, ⟨rfl, rfl⟩, rfl, rfl⟩
  rcases hrun with ⟨s, hs, s', hfree, ⟨hlive, hallocated⟩, hlive', hallocated'⟩
  have hs' := Reach.of_run hs (fun _ _ _ => trivial) hfree
  exact ⟨s, s', hlive, hallocated, hfree, hlive', hallocated', (emergencyAllocator_isolated hs).1,
    emergencyAllocator_isolated hs'⟩

end Emergency

end LibCxxRt
