import Mathlib.Algebra.Group.Nat.Defs
import Mathlib.Data.List.FinRange
import Mathlib.Data.Fintype.Basic
import Mathlib.Logic.Function.Basic
import Mathlib.Tactic.Simps.Basic

/-!
This module contains the allocation of exceptions, `alloc_or_die`, `emergency_malloc` and the
functions that free, as a transition system of any number of threads. A step is a call of `calloc`,
a critical section under `emergency_malloc_lock`, or code of one thread between them. The checks with
which `emergency_malloc` begins only look at the thread itself, they belong to its first critical
section. The wait on the condition variable ends a critical section, and the thread that is woken
enters another one. `memset` can be interrupted after each byte.

The environment of the functions consists of the memory, the allocator behind `calloc` and `free`,
and the user code, which writes into the allocations that it has. `live` contains these allocations.
`holder` and `freed` are about the past: which thread has obtained an emergency buffer that is in
use, and how many buffers that a thread has obtained have been freed.
-/

namespace LibCxxRt

namespace Emergency

structure Block where
  addr : Nat
  size : Nat
  deriving DecidableEq, Repr

namespace Block

def Disjoint (b b' : Block) : Prop :=
  b.addr + b.size ≤ b'.addr ∨ b'.addr + b'.size ≤ b.addr

instance (b b' : Block) : Decidable (b.Disjoint b') :=
  inferInstanceAs (Decidable (_ ∨ _))

def contains (b : Block) (a : Nat) : Prop :=
  b.addr ≤ a ∧ a < b.addr + b.size

instance (b : Block) (a : Nat) : Decidable (b.contains a) :=
  inferInstanceAs (Decidable (_ ∧ _))

end Block

inductive Pc where
  | idle
  -- `alloc_or_die`
  | allocating (size : Nat)
  -- `emergency_malloc`, before its first critical section
  | entering (size : Nat)
  | waiting (size : Nat)
  | woken (size : Nat)
  -- the thread has a buffer, but it has not updated `emergencyBuffersHeld`
  | counting (size : Nat) (buffer : Fin 16)
  -- `emergency_malloc_free`, `cleared` bytes are zero
  | clearing (buffer : Fin 16) (cleared : Nat)
  | releasing (buffer : Fin 16)
  | terminated
  -- `free` is called for something that does not come from `calloc`, or the assertion fails
  | failed
  deriving DecidableEq, Repr

structure State where
  mem : Nat → BitVec 8
  bufferAllocated : Fin 16 → Bool
  emergencyBuffersHeld : Nat → Nat
  -- the threads that wait on `emergency_malloc_wait`
  waiters : List Nat
  pcs : Nat → Pc
  -- what `calloc` has returned and `free` has not got back
  heap : List Block
  live : List Block
  holder : Fin 16 → Option Nat
  freed : Nat → Nat

namespace State

def init : State where
  mem := fun _ => 0
  bufferAllocated := fun _ => false
  emergencyBuffersHeld := fun _ => 0
  waiters := []
  pcs := fun _ => .idle
  heap := []
  live := []
  holder := fun _ => none
  freed := fun _ => 0

@[simps -fullyApplied]
def goto (s : State) (t : Nat) (pc : Pc) : State :=
  { s with pcs := Function.update s.pcs t pc }

-- the allocation is returned to the caller
@[simps -fullyApplied]
def obtain (s : State) (b : Block) : State :=
  { s with live := b :: s.live }

@[simps -fullyApplied]
def zero (s : State) (b : Block) : State :=
  { s with mem := fun a => if b.contains a then 0 else s.mem a }

-- `calloc` has returned the block
@[simps -fullyApplied]
def callocated (s : State) (t : Nat) (b : Block) : State :=
  { s with
    mem := fun a => if b.contains a then 0 else s.mem a
    pcs := Function.update s.pcs t .idle
    heap := b :: s.heap
    live := b :: s.live
  }

-- `buffer_allocated[buffer] = true`
@[simps -fullyApplied]
def take (s : State) (t size : Nat) (buffer : Fin 16) : State :=
  { s with
    bufferAllocated := Function.update s.bufferAllocated buffer true
    pcs := Function.update s.pcs t (.counting size buffer)
  }

@[simps -fullyApplied]
def wait (s : State) (t size : Nat) : State :=
  { s with
    waiters := s.waiters ++ [t]
    pcs := Function.update s.pcs t (.waiting size)
  }

@[simps -fullyApplied]
def wake (s : State) (t size : Nat) : State :=
  { s with
    waiters := s.waiters.erase t
    pcs := Function.update s.pcs t (.woken size)
  }

-- `info->emergencyBuffersHeld++`
@[simps -fullyApplied]
def hold (s : State) (t : Nat) (buffer : Fin 16) : State :=
  { s with
    emergencyBuffersHeld := Function.update s.emergencyBuffersHeld t (s.emergencyBuffersHeld t + 1)
    pcs := Function.update s.pcs t .idle
    holder := Function.update s.holder buffer (some t)
  }

-- `buffer_allocated[buffer] = false`
@[simps -fullyApplied]
def release (s : State) (t : Nat) (buffer : Fin 16) : State :=
  { s with
    bufferAllocated := Function.update s.bufferAllocated buffer false
    pcs := Function.update s.pcs t .idle
    holder := Function.update s.holder buffer none
    freed := fun u => if s.holder buffer = some u then s.freed u + 1 else s.freed u
  }

end State

inductive Action where
  | allocateException (thrownSize : Nat)
  | allocateDependentException
  -- what `calloc` returns
  | calloc (result : Option Nat)
  | emergencyMalloc (result : Option Nat)
  | count
  | write (a : Nat) (value : BitVec 8)
  | free (b : Block)
  | clear (n : Nat)
  -- which thread `pthread_cond_signal` wakes
  | release (woken : Option Nat)
  -- `pthread_cond_wait` may return without a signal
  | wake
  deriving DecidableEq, Repr

-- `sizeof(__cxa_exception)`
def headerSize : Nat := 128

section

-- the address of `emergency_buffer`
variable (emergencyBuffer : Nat)

def bufferAddr (buffer : Fin 16) : Nat :=
  emergencyBuffer + 1024 * buffer

def arena : Block :=
  ⟨emergencyBuffer, 16384⟩

def findFree (s : State) : Option (Fin 16) :=
  (List.finRange 16).find? fun i => !s.bufferAllocated i

def findBuffer (ptr : Nat) : Option (Fin 16) :=
  (List.finRange 16).find? fun i => ptr == bufferAddr emergencyBuffer i

-- a block that `calloc` can return
def CallocReturns (s : State) (b : Block) : Prop :=
  b.Disjoint (arena emergencyBuffer) ∧ ∀ b' ∈ s.heap, b.Disjoint b'

instance (s : State) (b : Block) : Decidable (CallocReturns emergencyBuffer s b) :=
  inferInstanceAs (Decidable (_ ∧ _))

def calloc (s : State) (t : Nat) (b : Block) : Option State :=
  if CallocReturns emergencyBuffer s b then
    some (s.callocated t b)
  else
    none

-- one iteration of the loop in `emergency_malloc`
def criticalSection (s : State) (t size : Nat) (result : Option Nat) : Option State :=
  match result with
  | some a => calloc emergencyBuffer s t ⟨a, size⟩
  | none =>
    match findFree s with
    | some i => some (s.take t size i)
    | none => some (s.wait t size)

def freeException (s : State) (t : Nat) (e : Nat) : State :=
  if emergencyBuffer ≤ e ∧ e < emergencyBuffer + 16384 then
    match findBuffer emergencyBuffer e with
    | some i => s.goto t (.clearing i 0)
    | none => s.goto t .failed
  else if s.heap.any fun b => b.addr == e then
    { s with heap := s.heap.eraseP fun b => b.addr == e }
  else
    s.goto t .failed

-- `pthread_cond_signal` wakes one of the threads that wait, if there is one
def signal (s : State) (woken : Option Nat) : Option State :=
  match woken with
  | none => if s.waiters = [] then some s else none
  | some u =>
    match s.pcs u with
    | .waiting size =>
      if u ∈ s.waiters then
        some (s.wake u size)
      else
        none
    | _ => none

def step (s : State) (l : Nat × Action) : Option State :=
  let t := l.1
  match l.2, s.pcs t with
  | .allocateException thrownSize, .idle =>
    -- no object is larger than that
    if thrownSize < 2 ^ 63 then
      some (s.goto t (.allocating ((thrownSize + headerSize) % 2 ^ 64)))
    else
      none
  | .allocateDependentException, .idle => some (s.goto t (.allocating headerSize))
  | .calloc result, .allocating size =>
    match result with
    | some a => calloc emergencyBuffer s t ⟨a, size⟩
    | none => some (s.goto t (.entering size))
  | .emergencyMalloc result, .entering size =>
    if size > 1024 ∨ s.emergencyBuffersHeld t > 3 then
      some (s.goto t .terminated)
    else
      criticalSection emergencyBuffer s t size result
  | .emergencyMalloc result, .woken size => criticalSection emergencyBuffer s t size result
  | .count, .counting size i => some ((s.hold t i).obtain ⟨bufferAddr emergencyBuffer i, size⟩)
  | .write a value, .idle =>
    if s.live.any fun b => decide (b.contains a) then
      some { s with mem := Function.update s.mem a value }
    else
      none
  | .free b, .idle =>
    if b ∈ s.live then
      some (freeException emergencyBuffer { s with live := s.live.erase b } t b.addr)
    else
      none
  | .clear n, .clearing i cleared =>
    if 0 < n ∧ cleared + n ≤ 1024 then
      some ((s.zero ⟨bufferAddr emergencyBuffer i + cleared, n⟩).goto t
        (if cleared + n = 1024 then .releasing i else .clearing i (cleared + n)))
    else
      none
  | .release woken, .releasing i => signal (s.release t i) woken
  | .wake, .waiting size => some (s.wake t size)
  | _, _ => none

end

end Emergency

end LibCxxRt
