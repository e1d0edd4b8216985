import LibCxxRt.Emergency.Impl.Allocation
import LibCxxRt.Emergency.Lemmas.Slots

/-!
This module determines which requests for an exception survive that there is no memory: the record of the
thread may not be missing when an emergency buffer is asked for, and the size may not wrap.
-/

namespace LibCxxRt

namespace Emergency

variable {emergencyBuffer : Nat}

-- a pointer to a thrown object with its header in front of it
structure Fits (thrownSize thrown : Nat) (buffer : Buffer) : Prop where
  header : buffer.block.addr + headerSize = thrown
  zeroed : Zeroed buffer.mem buffer.block.addr headerSize
  size : thrown + thrownSize ≤ buffer.block.addr + buffer.block.size

namespace OutOfMemory

-- `calloc` fails each time and another thread holds each of the buffers
def Waits (oom : OutOfMemory emergencyBuffer) : Prop :=
  ∀ r ∈ oom.rounds, r.result = none ∧ findFree r.state = none

def Refuses (oom : OutOfMemory emergencyBuffer) (info : Option Nat) (size : Nat) : Prop :=
  oom.exception.result = none ∧ (size > 1024 ∨ info.getD 0 > 3 ∨ oom.Waits)

-- an emergency buffer is asked for and there can be no record of the thread
def NoThreadInfo (oom : OutOfMemory emergencyBuffer) (info : Option Nat) (size : Nat) : Prop :=
  oom.exception.result = none ∧ size ≤ 1024 ∧ info = none ∧ oom.threadInfoSucceeds = false

/--
A request ends with enough memory or in `std::terminate`. If it does not end it waits for an emergency
buffer.
-/
def Survives (oom : OutOfMemory emergencyBuffer) (thrownSize : Nat)
    (result : Res (Nat × Buffer × Option Nat)) : Prop :=
  match result with
  | .ok (thrown, buffer, _) => Fits thrownSize thrown buffer
  | .error .terminate => True
  | .error .outOfFuel => oom.Waits
  | .error _ => False

end OutOfMemory

-- the memory that a request of `size` bytes leads to
structure Buffer.Provides (buffer : Buffer) (size : Nat) : Prop where
  zeroed : Zeroed buffer.mem buffer.block.addr buffer.block.size
  le : size ≤ buffer.block.size
  le_max : buffer.block.size ≤ max size 1024

theorem Round.calloced_provides (r : Round emergencyBuffer) (a size : Nat)
    : (r.calloced a size).Provides size := by
  refine ⟨?_, le_rfl, le_max_left _ _⟩
  intro j hj
  have hin : (⟨a, size⟩ : Block).contains (a + j) := ⟨Nat.le_add_right a j, Nat.add_lt_add_left hj a⟩
  exact if_pos hin

-- a buffer that is not in use is zero
theorem Round.taken_provides (r : Round emergencyBuffer) {buffer : Fin 16} {size : Nat}
    (hfind : findFree r.state = some buffer) (hsize : size ≤ 1024)
    : (r.taken buffer).Provides size := by
  refine ⟨?_, hsize, le_max_right _ _⟩
  rcases Inv.of_reach r.reach with ⟨slots, hinv⟩
  have hfree : slots buffer = .free := by
    have hiff := hinv.allocated buffer
    rw [findFree_eq_some hfind] at hiff
    simpa using hiff
  apply hinv.zeroed buffer
  rw [hfree]
  rfl

/--
An iteration is a critical section of the transition system. The thread obtains the memory that is
there after the critical section, or it waits.
-/
theorem emergencyMalloc.go_criticalSection (r : Round emergencyBuffer)
    (rounds : List (Round emergencyBuffer)) (t size held : Nat)
    (hcalloc : ∀ a, r.result = some a → CallocReturns emergencyBuffer r.state ⟨a, size⟩)
    : ∃ s', criticalSection emergencyBuffer r.state t size r.result = some s'
        ∧ match s'.pcs t with
          | .idle => ∃ a, emergencyMalloc.go size held (r :: rounds)
              =
            .ok (some ⟨⟨a, size⟩, s'.mem⟩, some held)
          | .counting _ i => emergencyMalloc.go size held (r :: rounds)
              =
            .ok (some ⟨⟨bufferAddr emergencyBuffer i, 1024⟩, s'.mem⟩, some (held + 1))
          | .waiting _ => emergencyMalloc.go size held (r :: rounds)
              =
            emergencyMalloc.go size held rounds
          | _ => False := by
  rw [emergencyMalloc.go]
  unfold criticalSection
  cases hresult : r.result with
  | some a =>
    refine ⟨_, if_pos (hcalloc a hresult), ?_⟩
    simp only [State.callocated_pcs, Function.update_self]
    exact ⟨a, rfl⟩
  | none =>
    cases hfind : findFree r.state with
    | some i =>
      refine ⟨_, rfl, ?_⟩
      simp only [State.take_pcs, Function.update_self]
      rfl
    | none =>
      refine ⟨_, rfl, ?_⟩
      simp only [State.wait_pcs, Function.update_self]

theorem threadInfo_eq_none {info : Option Nat} {succeeds : Bool}
    : threadInfo info succeeds = none ↔ info = none ∧ succeeds = false := by
  unfold threadInfo
  cases info <;> simp

theorem getD_of_threadInfo {info : Option Nat} {succeeds : Bool} {held : Nat}
    (hinfo : threadInfo info succeeds = some held) : info.getD 0 = held := by
  unfold threadInfo at hinfo
  cases info with
  | some held' => simpa using hinfo
  | none => simpa using (Option.ite_none_right_eq_some.1 hinfo).2

theorem emergencyMalloc.go_cases (size held : Nat) (rounds : List (Round emergencyBuffer))
    (hsize : size ≤ 1024)
    : (emergencyMalloc.go size held rounds = .error .outOfFuel
          ∧ ∀ r ∈ rounds, r.result = none ∧ findFree r.state = none)
        ∨ (¬ (∀ r ∈ rounds, r.result = none ∧ findFree r.state = none)
          ∧ ∃ buffer info, emergencyMalloc.go size held rounds = .ok (some buffer, info)
            ∧ buffer.Provides size) := by
  induction rounds with
  | nil => exact .inl ⟨rfl, by simp⟩
  | cons r rounds ih =>
    unfold emergencyMalloc.go
    cases hresult : r.result with
    | some a => exact .inr ⟨by simp [hresult], _, _, rfl, r.calloced_provides a size⟩
    | none =>
      cases hfind : findFree r.state with
      | some buffer => exact .inr ⟨by simp [hfind], _, _, rfl, r.taken_provides hfind hsize⟩
      | none => simpa [hresult, hfind] using ih

namespace OutOfMemory

variable (oom : OutOfMemory emergencyBuffer) (info : Option Nat)

inductive AllocOrDie (size : Nat) : Res (Buffer × Option Nat) → Prop where
  | noThreadInfo (hinfo : oom.NoThreadInfo info size) : AllocOrDie size (.error .fault)
  | terminate (hinfo : ¬ oom.NoThreadInfo info size) (hrefuses : oom.Refuses info size)
    : AllocOrDie size (.error .terminate)
  | wait (hinfo : ¬ oom.NoThreadInfo info size) (hrefuses : oom.Refuses info size)
    (hwaits : oom.Waits) : AllocOrDie size (.error .outOfFuel)
  | obtain {buffer : Buffer} {info' : Option Nat} (hinfo : ¬ oom.NoThreadInfo info size)
    (hrefuses : ¬ oom.Refuses info size) (hprovides : buffer.Provides size)
    : AllocOrDie size (.ok (buffer, info'))

theorem allocOrDie_cases (size : Nat)
    : oom.AllocOrDie info size (allocOrDie oom info size) := by
  unfold allocOrDie
  cases hexception : oom.exception.result with
  | some a =>
    refine .obtain ?_ ?_ (oom.exception.calloced_provides a size)
    . simp [NoThreadInfo, hexception]
    . simp [Refuses, hexception]
  | none =>
    dsimp only
    unfold emergencyMalloc
    by_cases hsize : size > 1024
    . rw [if_pos hsize]
      refine .terminate ?_ ⟨hexception, .inl hsize⟩
      intro hinfo
      exact absurd hsize (Nat.not_lt.2 hinfo.2.1)
    . rw [if_neg hsize]
      cases hthread : threadInfo info oom.threadInfoSucceeds with
      | none =>
        exact .noThreadInfo ⟨hexception, by omega, threadInfo_eq_none.1 hthread⟩
      | some held =>
        have hinfo : ¬ oom.NoThreadInfo info size := by
          rintro ⟨_, _, hfails⟩
          rw [threadInfo_eq_none.2 hfails] at hthread
          contradiction
        have hheld : info.getD 0 = held := getD_of_threadInfo hthread
        dsimp only
        by_cases hquota : held > 3
        . rw [if_pos hquota]
          exact .terminate hinfo ⟨hexception, .inr (.inl (by omega))⟩
        . rw [if_neg hquota]
          rcases emergencyMalloc.go_cases size held oom.rounds (by omega) with
            ⟨hgo, hwaits⟩ | ⟨hwaits, buffer, info', hgo, hprovides⟩
          . rw [hgo]
            exact .wait hinfo ⟨hexception, .inr (.inr hwaits)⟩ hwaits
          . rw [hgo]
            refine .obtain hinfo ?_ hprovides
            rintro ⟨_, hlarge | hmany | hall⟩
            . exact hsize hlarge
            . omega
            . exact hwaits hall

variable {oom info}

-- the thrown object follows the header
def returned (x : Res (Buffer × Option Nat)) : Res (Nat × Buffer × Option Nat) := do
  let (buffer, info) ← x
  return (buffer.block.addr + headerSize, buffer, info)

theorem AllocOrDie.survives_iff {size thrownSize : Nat} {x : Res (Buffer × Option Nat)}
    (h : oom.AllocOrDie info size x) (hsize : size = thrownSize + headerSize)
    : oom.Survives thrownSize (returned x) ↔ ¬ oom.NoThreadInfo info size := by
  cases h with
  | noThreadInfo hinfo => exact iff_of_false id (not_not_intro hinfo)
  | terminate hinfo _ => exact iff_of_true trivial hinfo
  | wait hinfo _ hwaits => exact iff_of_true hwaits hinfo
  | obtain hinfo _ hprovides =>
    have hle := hprovides.le
    refine iff_of_true ⟨rfl, ?_, ?_⟩ hinfo
    . intro j hj
      exact hprovides.zeroed j (by omega)
    . omega

-- the request is larger than what any block for `size` bytes has
theorem AllocOrDie.survives_iff_of_lt {size thrownSize : Nat} {x : Res (Buffer × Option Nat)}
    (h : oom.AllocOrDie info size x) (hsize : max size 1024 < thrownSize + headerSize)
    : oom.Survives thrownSize (returned x)
        ↔
      ¬ oom.NoThreadInfo info size ∧ oom.Refuses info size := by
  cases h with
  | noThreadInfo hinfo => exact iff_of_false id fun h => h.1 hinfo
  | terminate hinfo hrefuses => exact iff_of_true trivial ⟨hinfo, hrefuses⟩
  | wait hinfo hrefuses hwaits => exact iff_of_true hwaits ⟨hinfo, hrefuses⟩
  | obtain hinfo hrefuses hprovides =>
    have hle := hprovides.le_max
    refine iff_of_false ?_ fun h => hrefuses h.2
    intro hfits
    have hroom := hfits.size
    omega

theorem survives_cxaAllocateException (thrownSize : BitVec 64)
    : oom.Survives thrownSize.toNat (cxaAllocateException oom info thrownSize)
        ↔
      ¬ oom.NoThreadInfo info ((thrownSize.toNat + headerSize) % 2 ^ 64)
        ∧ (thrownSize.toNat + headerSize < 2 ^ 64
          ∨ oom.Refuses info ((thrownSize.toNat + headerSize) % 2 ^ 64)) := by
  have hcases := oom.allocOrDie_cases info ((thrownSize.toNat + headerSize) % 2 ^ 64)
  have hsize : (thrownSize + BitVec.ofNat 64 headerSize).toNat
        =
      (thrownSize.toNat + headerSize) % 2 ^ 64 := by
    rw [BitVec.toNat_add, BitVec.toNat_ofNat]
    rfl
  have hlt := thrownSize.isLt
  unfold cxaAllocateException
  dsimp only
  rw [hsize]
  by_cases hwrap : thrownSize.toNat + headerSize < 2 ^ 64
  . rw [← returned, hcases.survives_iff (Nat.mod_eq_of_lt hwrap)]
    simp only [hwrap, true_or, and_true]
  . have hmod : (thrownSize.toNat + headerSize) % 2 ^ 64 < headerSize := by omega
    have hmax : max ((thrownSize.toNat + headerSize) % 2 ^ 64) 1024
        < thrownSize.toNat + headerSize := by
      unfold headerSize at *
      omega
    rw [← returned, hcases.survives_iff_of_lt hmax]
    simp only [hwrap, false_or]

end OutOfMemory

theorem cxaAllocate_survives_iff (oom : OutOfMemory emergencyBuffer) (info : Option Nat)
    (thrownSize : BitVec 64)
    : (oom.Survives thrownSize.toNat (cxaAllocateException oom info thrownSize)
          ↔
        ¬ oom.NoThreadInfo info ((thrownSize.toNat + headerSize) % 2 ^ 64)
          ∧ (thrownSize.toNat + headerSize < 2 ^ 64
            ∨ oom.Refuses info ((thrownSize.toNat + headerSize) % 2 ^ 64)))
        ∧ (oom.Survives 0 (cxaAllocateDependentException oom info)
          ↔
        ¬ oom.NoThreadInfo info headerSize) := by
  refine ⟨OutOfMemory.survives_cxaAllocateException thrownSize, ?_⟩
  exact (oom.allocOrDie_cases info headerSize).survives_iff (Nat.zero_add headerSize).symm

namespace OutOfMemory

-- each call of `calloc` fails
def exhausted : OutOfMemory 0x2000 where
  exception := ⟨State.init, .init, none⟩
  threadInfoSucceeds := false
  rounds := []

-- the first call of `calloc` succeeds
def ample : OutOfMemory 0x2000 where
  exception := ⟨State.init, .init, some 0x10000⟩
  threadInfoSucceeds := true
  rounds := []

-- a thread without a record, and the size of an object that is larger than the address space
theorem not_survives
    : cxaAllocateException exhausted none 8 = .error .fault
        ∧ ¬ exhausted.Survives 8 (cxaAllocateException exhausted none 8)
        ∧ cxaAllocateDependentException exhausted none = .error .fault
        ∧ cxaAllocateException ample (some 0) (-1)
          =
        .ok (0x10080, ample.exception.calloced 0x10000 127, some 0)
        ∧ ¬ ample.Survives (2 ^ 64 - 1) (cxaAllocateException ample (some 0) (-1)) := by
  have hwrap : cxaAllocateException ample (some 0) (-1)
        =
      .ok (0x10080, ample.exception.calloced 0x10000 127, some 0) := by rfl
  refine ⟨rfl, id, rfl, hwrap, ?_⟩
  rw [hwrap]
  intro hfits
  exact absurd hfits.size (by decide)

end OutOfMemory

end Emergency

end LibCxxRt
