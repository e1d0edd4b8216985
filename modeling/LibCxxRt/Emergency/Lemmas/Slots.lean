import LibCxxRt.Emergency.Lemmas.Basic
import LibCxxRt.Util.Matching
import LibCxxRt.Util.Reach

/-!
This module contains the invariant of the allocator. Each of the emergency buffers is free, in use,
or on its way between the two in the hands of one thread. A buffer that is free is zero, and it stays
zero until it is returned.
-/

namespace LibCxxRt

open Util

namespace Emergency

inductive Slot where
  | free
  | counting (t : Nat)
  | live (size : Nat)
  | freeing (t : Nat)
  deriving DecidableEq, Repr

-- the thread that works on the buffer, and whether it frees it
def Slot.worker : Slot → Option (Nat × Bool)
  | .free | .live _ => none
  | .counting t => some (t, false)
  | .freeing t => some (t, true)

def Slot.isZero : Slot → Bool
  | .free | .counting _ => true
  | .live _ | .freeing _ => false

def Pc.buffer : Pc → Option (Fin 16 × Bool)
  | .counting _ i => some (i, false)
  | .clearing i _ | .releasing i => some (i, true)
  | .idle | .allocating _ | .entering _ | .waiting _ | .woken _ | .terminated | .failed => none

def Zeroed (mem : Nat → BitVec 8) (a n : Nat) : Prop :=
  ∀ j, j < n → mem (a + j) = 0

def Pc.Valid (emergencyBuffer : Nat) (mem : Nat → BitVec 8) : Pc → Prop
  | .idle | .terminated => True
  | .allocating size | .entering size => 0 < size
  | .waiting size | .woken size | .counting size _ => 0 < size ∧ size ≤ 1024
  | .clearing i cleared => cleared < 1024 ∧ Zeroed mem (bufferAddr emergencyBuffer i) cleared
  | .releasing i => Zeroed mem (bufferAddr emergencyBuffer i) 1024
  | .failed => False

structure Inv (emergencyBuffer : Nat) (slots : Fin 16 → Slot) (s : State) : Prop where
  allocated : ∀ i, s.bufferAllocated i = true ↔ slots i ≠ .free
  matched : Matched (fun t => (s.pcs t).buffer) (fun i => (slots i).worker)
  valid : ∀ t, (s.pcs t).Valid emergencyBuffer s.mem
  zeroed : ∀ i, (slots i).isZero → Zeroed s.mem (bufferAddr emergencyBuffer i) 1024
  positive : ∀ b ∈ s.heap ++ s.live, 0 < b.size
  heap : s.heap.Pairwise Block.Disjoint ∧ ∀ b ∈ s.heap, b.Disjoint (arena emergencyBuffer)
  live : ∀ b ∈ s.live, b ∈ s.heap
    ∨ ∃ i, b.addr = bufferAddr emergencyBuffer i ∧ slots i = .live b.size ∧ b.size ≤ 1024
  disjoint : s.live.Pairwise Block.Disjoint
  slots : ∀ i size, slots i = .live size → ⟨bufferAddr emergencyBuffer i, size⟩ ∈ s.live

variable {emergencyBuffer : Nat} {slots : Fin 16 → Slot} {s s' : State} {t : Nat}

theorem Zeroed.congr {mem mem' : Nat → BitVec 8} {a n : Nat} (h : Zeroed mem a n)
    (hmem : ∀ b, a ≤ b → b < a + n → mem' b = mem b ∨ mem' b = 0) : Zeroed mem' a n := by
  intro j hj
  rcases hmem (a + j) (by omega) (by omega) with hsame | hzero
  . rw [hsame]
    exact h j hj
  . exact hzero

theorem Pc.Valid.congr {mem mem' : Nat → BitVec 8} {pc : Pc}
    (h : pc.Valid emergencyBuffer mem)
    (hmem : ∀ i f, pc.buffer = some (i, f) → f = true → ∀ b, bufferAddr emergencyBuffer i ≤ b
      → b < bufferAddr emergencyBuffer i + 1024 → mem' b = mem b ∨ mem' b = 0)
    : pc.Valid emergencyBuffer mem' := by
  cases pc with
  | clearing i cleared =>
    refine ⟨h.1, h.2.congr ?_⟩
    intro b hb hlt
    have hcleared := h.1
    exact hmem i true rfl rfl b hb (by omega)
  | releasing i => exact Zeroed.congr h (hmem i true rfl rfl)
  | idle => exact h
  | allocating size => exact h
  | entering size => exact h
  | waiting size => exact h
  | woken size => exact h
  | counting size i => exact h
  | terminated => exact h
  | failed => exact h

theorem Block.Disjoint.symm {b b' : Block} (h : b.Disjoint b') : b'.Disjoint b := by
  exact Or.symm h

instance : Std.Symm Block.Disjoint :=
  ⟨fun _ _ h => h.symm⟩

theorem buffer_update (pcs : Nat → Pc) (t : Nat) (pc : Pc)
    : (fun u => (Function.update pcs t pc u).buffer)
        =
      Function.update (fun u => (pcs u).buffer) t pc.buffer := by
  funext u
  exact Function.apply_update (fun _ => Pc.buffer) pcs t pc u

theorem worker_update (slots : Fin 16 → Slot) (i : Fin 16) (slot : Slot)
    : (fun j => (Function.update slots i slot j).worker)
        =
      Function.update (fun j => (slots j).worker) i slot.worker := by
  funext j
  exact Function.apply_update (fun _ => Slot.worker) slots i slot j

namespace Inv

variable {pc : Pc} {i : Fin 16} {slot : Slot}

theorem valid_update (hinv : Inv emergencyBuffer slots s) (hpc : pc.Valid emergencyBuffer s.mem)
    (u : Nat) : (Function.update s.pcs t pc u).Valid emergencyBuffer s.mem := by
  by_cases heq : u = t
  . rw [heq, Function.update_self]
    exact hpc
  . rw [Function.update_of_ne heq]
    exact hinv.valid u

-- a thread that has no buffer goes on
theorem move (hinv : Inv emergencyBuffer slots s) (hold : (s.pcs t).buffer = none)
    (hnew : pc.buffer = none) (hpc : pc.Valid emergencyBuffer s.mem)
    (hpcs : s'.pcs = Function.update s.pcs t pc) (hmem : s'.mem = s.mem)
    (hallocated : s'.bufferAllocated = s.bufferAllocated) (hheap : s'.heap = s.heap)
    (hlive : s'.live = s.live) : Inv emergencyBuffer slots s' := by
  constructor
  . rw [hallocated]
    exact hinv.allocated
  . rw [hpcs, buffer_update, hnew, ← hold, Function.update_eq_self]
    exact hinv.matched
  . rw [hpcs, hmem]
    exact hinv.valid_update hpc
  . rw [hmem]
    exact hinv.zeroed
  . rw [hheap, hlive]
    exact hinv.positive
  . rw [hheap]
    exact hinv.heap
  . rw [hlive, hheap]
    exact hinv.live
  . rw [hlive]
    exact hinv.disjoint
  . rw [hlive]
    exact hinv.slots

-- a buffer and the thread that works on it change
theorem change (hinv : Inv emergencyBuffer slots s)
    (hpcs : s'.pcs = Function.update s.pcs t pc) (hmem : s'.mem = s.mem) (hheap : s'.heap = s.heap)
    (hworker : ∀ j f, (s.pcs t).buffer = some (j, f) → j = i)
    (hslot : ∀ u f, (slots i).worker = some (u, f) → u = t)
    (hpc : ∀ j f, pc.buffer = some (j, f) → j = i)
    (hslot' : ∀ u f, slot.worker = some (u, f) → u = t)
    (hmatched : ∀ f, pc.buffer = some (i, f) ↔ slot.worker = some (t, f))
    (hvalid : pc.Valid emergencyBuffer s.mem)
    (hzeroed : slot.isZero → Zeroed s.mem (bufferAddr emergencyBuffer i) 1024)
    (hallocated : ∀ j, s'.bufferAllocated j = true ↔ Function.update slots i slot j ≠ .free)
    (hpositive : ∀ b ∈ s'.live, 0 < b.size)
    (hlive : ∀ b ∈ s'.live, b ∈ s.heap ∨ ∃ j, b.addr = bufferAddr emergencyBuffer j
      ∧ Function.update slots i slot j = .live b.size ∧ b.size ≤ 1024)
    (hdisjoint : s'.live.Pairwise Block.Disjoint)
    (hslots : ∀ j size, Function.update slots i slot j = .live size
      → ⟨bufferAddr emergencyBuffer j, size⟩ ∈ s'.live)
    : Inv emergencyBuffer (Function.update slots i slot) s' := by
  constructor
  . exact hallocated
  . rw [hpcs, buffer_update, worker_update]
    exact hinv.matched.update hworker hslot hpc hslot' hmatched
  . rw [hpcs, hmem]
    exact hinv.valid_update hvalid
  . intro j hj
    rw [hmem]
    by_cases heq : j = i
    . subst heq
      rw [Function.update_self] at hj
      exact hzeroed hj
    . rw [Function.update_of_ne heq] at hj
      exact hinv.zeroed j hj
  . intro b hb
    rw [hheap, List.mem_append] at hb
    rcases hb with hb | hb
    . exact hinv.positive b (List.mem_append_left _ hb)
    . exact hpositive b hb
  . rw [hheap]
    exact hinv.heap
  . rw [hheap]
    exact hlive
  . exact hdisjoint
  . exact hslots

theorem slot_of_buffer (hinv : Inv emergencyBuffer slots s) {f : Bool}
    (hpc : (s.pcs t).buffer = some (i, f)) : slots i = if f then .freeing t else .counting t := by
  have hworker : (slots i).worker = some (t, f) := (hinv.matched t i f).mp hpc
  cases hslot : slots i <;> simp_all [Slot.worker]

-- the block of a slot does not overlap the ones that come from `calloc`
theorem disjoint_of_heap {b : Block} (hb : b.Disjoint (arena emergencyBuffer)) (i : Fin 16)
    {size : Nat} (hsize : size ≤ 1024) : b.Disjoint ⟨bufferAddr emergencyBuffer i, size⟩ := by
  unfold Block.Disjoint arena bufferAddr at *
  dsimp only at *
  omega

theorem disjoint_of_slot {i j : Fin 16} (hij : i ≠ j) {size size' : Nat} (hsize : size ≤ 1024)
    (hsize' : size' ≤ 1024)
    : Block.Disjoint ⟨bufferAddr emergencyBuffer i, size⟩ ⟨bufferAddr emergencyBuffer j, size'⟩ := by
  unfold Block.Disjoint bufferAddr
  dsimp only
  omega

-- the buffers of `__cxa_allocate_exception` in the emergency area are the slots in use
theorem live_or_slot (hinv : Inv emergencyBuffer slots s) {b : Block} (hb : b ∈ s.live)
    : b ∈ s.heap ∧ b.Disjoint (arena emergencyBuffer)
      ∨ ∃ i, b = ⟨bufferAddr emergencyBuffer i, b.size⟩ ∧ slots i = .live b.size ∧ b.size ≤ 1024 := by
  rcases hinv.live b hb with hheap | ⟨i, haddr, hslot, hsize⟩
  . exact .inl ⟨hheap, hinv.heap.2 b hheap⟩
  . right
    refine ⟨i, ?_, hslot, hsize⟩
    rw [← haddr]

theorem calloc (hinv : Inv emergencyBuffer slots s) {b : Block} (hpc : (s.pcs t).buffer = none)
    (hsize : 0 < b.size) (hreturns : CallocReturns emergencyBuffer s b)
    : Inv emergencyBuffer slots (s.callocated t b) := by
  have hmem (a : Nat) : (if b.contains a then 0 else s.mem a) = s.mem a
      ∨ (if b.contains a then 0 else s.mem a) = 0 := by
    split
    . exact .inr rfl
    . exact .inl rfl
  constructor
  . exact hinv.allocated
  . rw [State.callocated_pcs, buffer_update]
    have hnone : Pc.buffer .idle = (s.pcs t).buffer := by
      rw [hpc]
      rfl
    rw [hnone]
    erw [Function.update_eq_self]
    exact hinv.matched
  . intro u
    have hidle : Pc.Valid emergencyBuffer s.mem .idle := trivial
    exact (hinv.valid_update hidle u).congr fun _ _ _ _ a _ _ => hmem a
  . intro i hi
    exact (hinv.zeroed i hi).congr fun a _ _ => hmem a
  . intro b' hb'
    simp only [State.callocated_heap, State.callocated_live, List.mem_append, List.mem_cons] at hb'
    rcases hb' with (rfl | hb') | rfl | hb'
    . exact hsize
    . exact hinv.positive b' (List.mem_append_left _ hb')
    . exact hsize
    . exact hinv.positive b' (List.mem_append_right _ hb')
  . refine ⟨List.pairwise_cons.mpr ⟨hreturns.2, hinv.heap.1⟩, ?_⟩
    intro b' hb'
    rcases List.mem_cons.mp hb' with rfl | hb'
    . exact hreturns.1
    . exact hinv.heap.2 b' hb'
  . intro b' hb'
    rcases List.mem_cons.mp hb' with rfl | hb'
    . exact .inl List.mem_cons_self
    . exact (hinv.live b' hb').imp_left (List.mem_cons_of_mem b)
  . refine List.pairwise_cons.mpr ⟨?_, hinv.disjoint⟩
    intro b' hb'
    rcases hinv.live_or_slot hb' with ⟨hheap, _⟩ | ⟨i, heq, _, hle⟩
    . exact hreturns.2 b' hheap
    . rw [heq]
      exact disjoint_of_heap hreturns.1 i hle
  . intro i size hi
    exact List.mem_cons_of_mem b (hinv.slots i size hi)

theorem take (hinv : Inv emergencyBuffer slots s) {i : Fin 16} {size : Nat}
    (hpc : (s.pcs t).buffer = none) (hfree : s.bufferAllocated i = false)
    (hsize : 0 < size ∧ size ≤ 1024)
    : Inv emergencyBuffer (Function.update slots i (.counting t)) (s.take t size i) := by
  have hslot : slots i = .free := by
    by_contra hne
    rw [(hinv.allocated i).mpr hne] at hfree
    contradiction
  have hother {j : Fin 16} {size : Nat} (hj : slots j = .live size) : j ≠ i := by
    rintro rfl
    rw [hslot] at hj
    contradiction
  have hpcs : (s.take t size i).pcs = Function.update s.pcs t (.counting size i) := rfl
  apply hinv.change hpcs rfl rfl
  . simp [hpc]
  . simp [hslot, Slot.worker]
  . simp +contextual [Pc.buffer, eq_comm]
  . simp +contextual [Slot.worker, eq_comm]
  . simp [Pc.buffer, Slot.worker]
  . exact hsize
  . intro _
    exact hinv.zeroed i (by simp [hslot, Slot.isZero])
  . intro j
    rw [State.take_bufferAllocated]
    by_cases heq : j = i
    . simp [heq]
    . simp [heq, hinv.allocated j]
  . intro b hb
    rw [State.take_live] at hb
    exact hinv.positive b (List.mem_append_right _ hb)
  . intro b hb
    rw [State.take_live] at hb
    rcases hinv.live b hb with hb | ⟨j, haddr, hj, hle⟩
    . exact .inl hb
    . refine .inr ⟨j, haddr, ?_, hle⟩
      rw [Function.update_of_ne (hother hj)]
      exact hj
  . rw [State.take_live]
    exact hinv.disjoint
  . intro j size hj
    rw [State.take_live]
    by_cases heq : j = i
    . simp [heq] at hj
    . rw [Function.update_of_ne heq] at hj
      exact hinv.slots j size hj

theorem count (hinv : Inv emergencyBuffer slots s) {i : Fin 16} {size : Nat}
    (hpc : s.pcs t = .counting size i)
    : Inv emergencyBuffer (Function.update slots i (.live size))
        ((s.hold t i).obtain ⟨bufferAddr emergencyBuffer i, size⟩) := by
  have hbuffer : (s.pcs t).buffer = some (i, false) := by
    rw [hpc]
    rfl
  have hslot : slots i = .counting t := hinv.slot_of_buffer hbuffer
  have hvalid := hinv.valid t
  rw [hpc] at hvalid
  have hother {j : Fin 16} {size : Nat} (hj : slots j = .live size) : j ≠ i := by
    rintro rfl
    rw [hslot] at hj
    contradiction
  have hpcs : ((s.hold t i).obtain ⟨bufferAddr emergencyBuffer i, size⟩).pcs
      = Function.update s.pcs t .idle := rfl
  apply hinv.change hpcs rfl rfl
  . simp +contextual [hbuffer, eq_comm]
  . simp +contextual [hslot, Slot.worker, eq_comm]
  . simp [Pc.buffer]
  . simp [Slot.worker]
  . simp [Pc.buffer, Slot.worker]
  . trivial
  . simp [Slot.isZero]
  . intro j
    rw [State.obtain_bufferAllocated, State.hold_bufferAllocated]
    by_cases heq : j = i
    . simp [heq, hinv.allocated i, hslot]
    . simp [heq, hinv.allocated j]
  . intro b hb
    rw [State.obtain_live, State.hold_live, List.mem_cons] at hb
    rcases hb with rfl | hb
    . exact hvalid.1
    . exact hinv.positive b (List.mem_append_right _ hb)
  . intro b hb
    rw [State.obtain_live, State.hold_live, List.mem_cons] at hb
    rcases hb with rfl | hb
    . exact .inr ⟨i, rfl, Function.update_self .., hvalid.2⟩
    . rcases hinv.live b hb with hb | ⟨j, haddr, hj, hle⟩
      . exact .inl hb
      . refine .inr ⟨j, haddr, ?_, hle⟩
        rw [Function.update_of_ne (hother hj)]
        exact hj
  . rw [State.obtain_live, State.hold_live]
    refine List.pairwise_cons.mpr ⟨?_, hinv.disjoint⟩
    intro b hb
    rcases hinv.live_or_slot hb with ⟨_, harena⟩ | ⟨j, heq, hj, hle⟩
    . exact (disjoint_of_heap harena i hvalid.2).symm
    . rw [heq]
      exact disjoint_of_slot (hother hj).symm hvalid.2 hle
  . intro j size' hj
    rw [State.obtain_live, State.hold_live]
    by_cases heq : j = i
    . subst heq
      rw [Function.update_self, Slot.live.injEq] at hj
      subst hj
      exact List.mem_cons_self
    . rw [Function.update_of_ne heq] at hj
      exact List.mem_cons_of_mem _ (hinv.slots j size' hj)

theorem write (hinv : Inv emergencyBuffer slots s) {b : Block} (hb : b ∈ s.live) {a : Nat}
    (ha : b.contains a) (value : BitVec 8)
    : Inv emergencyBuffer slots { s with mem := Function.update s.mem a value } := by
  -- the write is not into a buffer that has to be zero
  have hmem (i : Fin 16) (hi : ∀ size, slots i ≠ .live size) (a' : Nat)
      (hle : bufferAddr emergencyBuffer i ≤ a') (hlt : a' < bufferAddr emergencyBuffer i + 1024)
      : Function.update s.mem a value a' = s.mem a' := by
    rw [Function.update_of_ne]
    rintro rfl
    have hdisjoint : b.Disjoint ⟨bufferAddr emergencyBuffer i, 1024⟩ := by
      rcases hinv.live_or_slot hb with ⟨_, harena⟩ | ⟨j, heq, hj, hsize⟩
      . exact disjoint_of_heap harena i (Nat.le_refl _)
      . rw [heq]
        apply disjoint_of_slot _ hsize (Nat.le_refl _)
        rintro rfl
        exact hi _ hj
    unfold Block.Disjoint at hdisjoint
    unfold Block.contains at ha
    dsimp only at hdisjoint
    omega
  constructor
  . exact hinv.allocated
  . exact hinv.matched
  . intro t
    apply (hinv.valid t).congr
    intro i f hbuffer hf a' hle hlt
    left
    apply hmem i _ a' hle hlt
    intro size
    rw [hinv.slot_of_buffer hbuffer, if_pos hf]
    simp
  . intro i hi
    apply (hinv.zeroed i hi).congr
    intro a' hle hlt
    left
    apply hmem i _ a' hle hlt
    intro size hsize
    rw [hsize] at hi
    contradiction
  . exact hinv.positive
  . exact hinv.heap
  . exact hinv.live
  . exact hinv.disjoint
  . exact hinv.slots

theorem not_mem_erase_live (hinv : Inv emergencyBuffer slots s) {b b' : Block} (hb : b ∈ s.live)
    (hb' : b' ∈ s.live.erase b) : b'.Disjoint b := by
  have hperm := List.perm_cons_erase hb
  have hpairwise := hinv.disjoint.perm hperm fun h => h.symm
  exact ((List.pairwise_cons.mp hpairwise).1 b' hb').symm

theorem free_heap (hinv : Inv emergencyBuffer slots s) {b : Block} (hb : b ∈ s.live)
    (hheap : b ∈ s.heap)
    : Inv emergencyBuffer slots
        { s with live := s.live.erase b, heap := s.heap.eraseP fun b' => b'.addr == b.addr } := by
  constructor
  . exact hinv.allocated
  . exact hinv.matched
  . exact hinv.valid
  . exact hinv.zeroed
  . intro b' hb'
    apply hinv.positive
    rw [List.mem_append] at hb' ⊢
    exact hb'.imp List.mem_of_mem_eraseP List.mem_of_mem_erase
  . refine ⟨hinv.heap.1.sublist List.eraseP_sublist, ?_⟩
    intro b' hb'
    exact hinv.heap.2 b' (List.mem_of_mem_eraseP hb')
  . intro b' hb'
    have hdisjoint := hinv.not_mem_erase_live hb hb'
    apply (hinv.live b' (List.mem_of_mem_erase hb')).imp_left
    intro hheap'
    rw [List.mem_eraseP_of_neg]
    . exact hheap'
    . rw [beq_iff_eq]
      intro haddr
      have hpos := hinv.positive b (List.mem_append_left _ hheap)
      have hpos' := hinv.positive b' (List.mem_append_left _ hheap')
      unfold Block.Disjoint at hdisjoint
      omega
  . exact hinv.disjoint.sublist List.erase_sublist
  . intro i size hi
    have hmem := hinv.slots i size hi
    rw [List.mem_erase_of_ne]
    . exact hmem
    . rintro rfl
      have harena := hinv.heap.2 _ hheap
      have hpos := hinv.positive _ (List.mem_append_right _ hmem)
      unfold Block.Disjoint arena bufferAddr at harena
      dsimp only at harena hpos
      omega

theorem free_slot (hinv : Inv emergencyBuffer slots s) {i : Fin 16} {size : Nat}
    (hslot : slots i = .live size) (hpc : s.pcs t = .idle)
    (hpcs : s'.pcs = Function.update s.pcs t (.clearing i 0)) (hmem : s'.mem = s.mem)
    (hheap : s'.heap = s.heap) (hallocated : s'.bufferAllocated = s.bufferAllocated)
    (hlive : s'.live = s.live.erase ⟨bufferAddr emergencyBuffer i, size⟩)
    : Inv emergencyBuffer (Function.update slots i (.freeing t)) s' := by
  have hblock := hinv.slots i size hslot
  have hpos := hinv.positive _ (List.mem_append_right _ hblock)
  have hne {j : Fin 16} {size' : Nat}
      (hj : ⟨bufferAddr emergencyBuffer j, size'⟩
        ∈ s.live.erase ⟨bufferAddr emergencyBuffer i, size⟩) : j ≠ i := by
    rintro rfl
    have hdisjoint := hinv.not_mem_erase_live hblock hj
    have hpos' := hinv.positive _ (List.mem_append_right _ (List.mem_of_mem_erase hj))
    unfold Block.Disjoint at hdisjoint
    dsimp only at hdisjoint hpos hpos'
    omega
  apply hinv.change hpcs hmem hheap
  . simp [hpc, Pc.buffer]
  . simp [hslot, Slot.worker]
  . simp +contextual [Pc.buffer, eq_comm]
  . simp +contextual [Slot.worker, eq_comm]
  . simp [Pc.buffer, Slot.worker]
  . exact ⟨by omega, fun j hj => absurd hj (Nat.not_lt_zero j)⟩
  . simp [Slot.isZero]
  . intro j
    rw [hallocated]
    by_cases heq : j = i
    . simp [heq, hinv.allocated i, hslot]
    . simp [heq, hinv.allocated j]
  . intro b hb
    rw [hlive] at hb
    exact hinv.positive b (List.mem_append_right _ (List.mem_of_mem_erase hb))
  . intro b hb
    rw [hlive] at hb
    rcases hinv.live b (List.mem_of_mem_erase hb) with hb | ⟨j, haddr, hj, hle⟩
    . exact .inl hb
    . refine .inr ⟨j, haddr, ?_, hle⟩
      have heq : b = ⟨bufferAddr emergencyBuffer j, b.size⟩ := by
        rw [← haddr]
      rw [heq] at hb
      rw [Function.update_of_ne (hne hb)]
      exact hj
  . rw [hlive]
    exact hinv.disjoint.sublist List.erase_sublist
  . intro j size' hj
    rw [hlive]
    by_cases heq : j = i
    . simp [heq] at hj
    . rw [Function.update_of_ne heq] at hj
      have hmem' := hinv.slots j size' hj
      apply (List.mem_erase_of_ne ?_).mpr hmem'
      intro hblock
      rw [Block.mk.injEq] at hblock
      exact heq (bufferAddr_inj hblock.1)

theorem clear (hinv : Inv emergencyBuffer slots s) {i : Fin 16} {cleared n : Nat}
    (hpc : s.pcs t = .clearing i cleared) (hn : cleared + n ≤ 1024)
    : Inv emergencyBuffer slots ((s.zero ⟨bufferAddr emergencyBuffer i + cleared, n⟩).goto t
        (if cleared + n = 1024 then .releasing i else .clearing i (cleared + n))) := by
  have hvalid := hinv.valid t
  rw [hpc] at hvalid
  have hzeroed : Zeroed (s.zero ⟨bufferAddr emergencyBuffer i + cleared, n⟩).mem
      (bufferAddr emergencyBuffer i) (cleared + n) := by
    intro j hj
    rw [State.zero_mem]
    by_cases hin : Block.contains ⟨bufferAddr emergencyBuffer i + cleared, n⟩
        (bufferAddr emergencyBuffer i + j)
    . exact if_pos hin
    . dsimp only
      rw [if_neg hin]
      apply hvalid.2
      unfold Block.contains at hin
      dsimp only at hin
      omega
  have hmem (a : Nat) : (s.zero ⟨bufferAddr emergencyBuffer i + cleared, n⟩).mem a = s.mem a
      ∨ (s.zero ⟨bufferAddr emergencyBuffer i + cleared, n⟩).mem a = 0 := by
    simp only [State.zero_mem]
    split
    . exact .inr rfl
    . exact .inl rfl
  have hbuffer : (if cleared + n = 1024 then Pc.releasing i else .clearing i (cleared + n)).buffer
      = (s.pcs t).buffer := by
    rw [hpc]
    split <;> rfl
  constructor
  . exact hinv.allocated
  . simp only [State.goto_pcs, State.zero_pcs]
    rw [buffer_update, hbuffer, Function.update_eq_self (f := fun u => (s.pcs u).buffer)]
    exact hinv.matched
  . intro u
    by_cases heq : u = t
    . rw [heq]
      simp only [State.goto_pcs, Function.update_self]
      split
      . next hfull =>
        rw [hfull] at hzeroed
        exact hzeroed
      . exact ⟨by omega, hzeroed⟩
    . simp only [State.goto_pcs, State.zero_pcs, Function.update_of_ne heq]
      exact (hinv.valid u).congr fun _ _ _ _ a _ _ => hmem a
  . intro j hj
    exact (hinv.zeroed j hj).congr fun a _ _ => hmem a
  . exact hinv.positive
  . exact hinv.heap
  . exact hinv.live
  . exact hinv.disjoint
  . exact hinv.slots

theorem release (hinv : Inv emergencyBuffer slots s) {i : Fin 16}
    (hpc : s.pcs t = .releasing i)
    : Inv emergencyBuffer (Function.update slots i .free) (s.release t i) := by
  have hbuffer : (s.pcs t).buffer = some (i, true) := by
    rw [hpc]
    rfl
  have hslot : slots i = .freeing t := hinv.slot_of_buffer hbuffer
  have hvalid := hinv.valid t
  rw [hpc] at hvalid
  have hother {j : Fin 16} {size : Nat} (hj : slots j = .live size) : j ≠ i := by
    rintro rfl
    rw [hslot] at hj
    contradiction
  have hpcs : (s.release t i).pcs = Function.update s.pcs t .idle := rfl
  apply hinv.change hpcs rfl rfl
  . simp +contextual [hbuffer, eq_comm]
  . simp +contextual [hslot, Slot.worker, eq_comm]
  . simp [Pc.buffer]
  . simp [Slot.worker]
  . simp [Pc.buffer, Slot.worker]
  . trivial
  . exact fun _ => hvalid
  . intro j
    rw [State.release_bufferAllocated]
    by_cases heq : j = i
    . simp [heq]
    . simp [heq, hinv.allocated j]
  . intro b hb
    rw [State.release_live] at hb
    exact hinv.positive b (List.mem_append_right _ hb)
  . intro b hb
    rw [State.release_live] at hb
    rcases hinv.live b hb with hb | ⟨j, haddr, hj, hle⟩
    . exact .inl hb
    . refine .inr ⟨j, haddr, ?_, hle⟩
      rw [Function.update_of_ne (hother hj)]
      exact hj
  . rw [State.release_live]
    exact hinv.disjoint
  . intro j size hj
    rw [State.release_live]
    by_cases heq : j = i
    . simp [heq] at hj
    . rw [Function.update_of_ne heq] at hj
      exact hinv.slots j size hj

-- `free_exception` tells apart where the block comes from
theorem freeException_cases (hinv : Inv emergencyBuffer slots s) {b : Block} (hb : b ∈ s.live)
    : (∃ i, b = ⟨bufferAddr emergencyBuffer i, b.size⟩ ∧ slots i = .live b.size
        ∧ freeException emergencyBuffer { s with live := s.live.erase b } t b.addr
          = { s with live := s.live.erase b }.goto t (.clearing i 0))
      ∨ b ∈ s.heap
        ∧ freeException emergencyBuffer { s with live := s.live.erase b } t b.addr
          = { s with live := s.live.erase b, heap := s.heap.eraseP fun b' => b'.addr == b.addr } := by
  have hpos := hinv.positive b (List.mem_append_right _ hb)
  rcases hinv.live_or_slot hb with ⟨hheap, harena⟩ | ⟨i, heq, hslot, hsize⟩
  . right
    refine ⟨hheap, ?_⟩
    unfold freeException
    have hout : ¬ (emergencyBuffer ≤ b.addr ∧ b.addr < emergencyBuffer + 16384) := by
      unfold Block.Disjoint arena at harena
      dsimp only at harena
      omega
    rw [if_neg hout, if_pos]
    rw [List.any_eq_true]
    exact ⟨b, hheap, by simp⟩
  . left
    have haddr : b.addr = bufferAddr emergencyBuffer i := congrArg Block.addr heq
    refine ⟨i, heq, hslot, ?_⟩
    rw [haddr, freeException_bufferAddr]

theorem size_of_admitted (hinv : Inv emergencyBuffer slots s) {size : Nat}
    (hadmitted : Admitted s t size) : 0 < size ∧ size ≤ 1024 := by
  have hvalid := hinv.valid t
  rcases hadmitted with ⟨hpc, hsize, _⟩ | hpc
  . rw [hpc] at hvalid
    exact ⟨hvalid, hsize⟩
  . rw [hpc] at hvalid
    exact hvalid

theorem buffer_of_admitted {size : Nat} (hadmitted : Admitted s t size)
    : (s.pcs t).buffer = none := by
  rcases hadmitted with ⟨hpc, _⟩ | hpc <;> rw [hpc] <;> rfl

theorem wake (hinv : Inv emergencyBuffer slots s) {size : Nat} (hpc : s.pcs t = .waiting size)
    : Inv emergencyBuffer slots (s.wake t size) := by
  have hvalid := hinv.valid t
  rw [hpc] at hvalid
  have hwoken : Pc.Valid emergencyBuffer s.mem (.woken size) := hvalid
  exact hinv.move (by rw [hpc]; rfl) rfl hwoken rfl rfl rfl rfl rfl

theorem step (hinv : Inv emergencyBuffer slots s) {action : Action}
    (hstep : step emergencyBuffer s (t, action) = some s')
    : ∃ slots', Inv emergencyBuffer slots' s' := by
  have hvalid := hinv.valid t
  cases transition_of_step hstep with
  | @request size _ hpc hsize =>
    have hnew : Pc.Valid emergencyBuffer s.mem (.allocating size) := hsize
    exact ⟨slots, hinv.move (by rw [hpc]; rfl) rfl hnew rfl rfl rfl rfl rfl⟩
  | calloc hpc hreturns =>
    rw [hpc] at hvalid
    exact ⟨slots, hinv.calloc (by rw [hpc]; rfl) hvalid hreturns⟩
  | emergencyCalloc hadmitted hreturns =>
    have hsize := hinv.size_of_admitted hadmitted
    exact ⟨slots, hinv.calloc (buffer_of_admitted hadmitted) hsize.1 hreturns⟩
  | @enter size hpc =>
    rw [hpc] at hvalid
    have hnew : Pc.Valid emergencyBuffer s.mem (.entering size) := hvalid
    exact ⟨slots, hinv.move (by rw [hpc]; rfl) rfl hnew rfl rfl rfl rfl rfl⟩
  | refuse _ hpc _ =>
    have hnew : Pc.Valid emergencyBuffer s.mem .terminated := trivial
    exact ⟨slots, hinv.move (by rw [hpc]; rfl) rfl hnew rfl rfl rfl rfl rfl⟩
  | take hadmitted hfind =>
    have hsize := hinv.size_of_admitted hadmitted
    have hfree := findFree_eq_some hfind
    exact ⟨_, hinv.take (buffer_of_admitted hadmitted) hfree hsize⟩
  | @wait size hadmitted _ =>
    have hnew : Pc.Valid emergencyBuffer s.mem (.waiting size) := hinv.size_of_admitted hadmitted
    exact ⟨slots, hinv.move (buffer_of_admitted hadmitted) rfl hnew rfl rfl rfl rfl rfl⟩
  | count hpc => exact ⟨_, hinv.count hpc⟩
  | write value _ hb ha => exact ⟨slots, hinv.write hb ha value⟩
  | free hpc hb =>
    rcases hinv.freeException_cases hb with ⟨i, heq, hslot, hfree⟩ | ⟨hheap, hfree⟩
    . rw [hfree]
      exact ⟨_, hinv.free_slot hslot hpc rfl rfl rfl rfl (congrArg s.live.erase heq)⟩
    . rw [hfree]
      exact ⟨slots, hinv.free_heap hb hheap⟩
  | clear hpc hn => exact ⟨slots, hinv.clear hpc hn.2⟩
  | release hpc _ => exact ⟨_, hinv.release hpc⟩
  | @signal i u size hpc hwaiting _ =>
    have hne : u ≠ t := by
      rintro rfl
      rw [hwaiting] at hpc
      contradiction
    have hwaiting' : (s.release t i).pcs u = .waiting size := by
      rw [State.release_pcs, Function.update_of_ne hne]
      exact hwaiting
    exact ⟨_, (hinv.release hpc).wake hwaiting'⟩
  | wake hpc => exact ⟨slots, hinv.wake hpc⟩

theorem init (emergencyBuffer : Nat) : Inv emergencyBuffer (fun _ => .free) State.init := by
  constructor
  . intro i
    simp [State.init]
  . intro t i f
    simp [State.init, Pc.buffer, Slot.worker]
  . intro t
    trivial
  . intro i _ j _
    rfl
  . simp [State.init]
  . simp [State.init]
  . simp [State.init]
  . simp [State.init]
  . simp

theorem of_reach {allowed : State → Nat × Action → Prop}
    (hs : Reach State.init (Emergency.step emergencyBuffer) allowed s)
    : ∃ slots, Inv emergencyBuffer slots s := by
  apply hs.invariant
  . exact ⟨_, init emergencyBuffer⟩
  . rintro s ⟨t, action⟩ s' ⟨slots, hinv⟩ _ hstep
    exact hinv.step hstep

end Inv

end Emergency

end LibCxxRt
