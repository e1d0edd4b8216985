import LibCxxRt.Basic
import LibCxxRt.Emergency.Impl
import LibCxxRt.Util.Reach

/-!
This module contains the allocation of exceptions as one thread sees it, including the allocation of the
record of the thread, `thread_info`, `emergency_malloc`, `alloc_or_die`, `__cxa_allocate_exception` and
`__cxa_allocate_dependent_exception` of `exception.cc`. The other threads bring the emergency buffers
into some state that the transition system can reach whenever the thread comes to a call of `calloc`.
-/

namespace LibCxxRt

open Util

namespace Emergency

-- what a call of `calloc` finds and what it returns
structure Round (emergencyBuffer : Nat) where
  state : State
  reach : Reach State.init (step emergencyBuffer) (fun _ _ => True) state
  result : Option Nat

structure OutOfMemory (emergencyBuffer : Nat) where
  exception : Round emergencyBuffer
  -- whether the record of the thread can be allocated
  threadInfoSucceeds : Bool
  -- the iterations of the loop in `emergency_malloc`
  rounds : List (Round emergencyBuffer)

-- the memory that is behind a returned pointer
structure Buffer where
  block : Block
  mem : Nat → BitVec 8

variable {emergencyBuffer : Nat}

def Round.calloced (r : Round emergencyBuffer) (a size : Nat) : Buffer where
  block := ⟨a, size⟩
  mem := (r.state.zero ⟨a, size⟩).mem

def Round.taken (r : Round emergencyBuffer) (buffer : Fin 16) : Buffer where
  block := ⟨bufferAddr emergencyBuffer buffer, 1024⟩
  mem := r.state.mem

/--
Of the record of the thread there is only `emergencyBuffersHeld`, `none` stands for a null pointer.
The functions return the record as the last component.
-/
def threadInfo (info : Option Nat) (succeeds : Bool) : Option Nat :=
  match info with
  | some held => some held
  | none => if succeeds then some 0 else none

def emergencyMalloc (oom : OutOfMemory emergencyBuffer) (info : Option Nat) (size : Nat) :
    Res (Option Buffer × Option Nat) :=
  if size > 1024 then
    .ok (none, info)
  else
    match threadInfo info oom.threadInfoSucceeds with
    | none => .error .fault
    | some held =>
      -- Only 4 emergency buffers allowed per thread!
      if held > 3 then
        .ok (none, some held)
      else
        go held oom.rounds
where
  go (held : Nat) : List (Round emergencyBuffer) → Res (Option Buffer × Option Nat)
    | [] => .error .outOfFuel
    | r :: rounds =>
      match r.result with
      | some a => .ok (some (r.calloced a size), some held)
      | none =>
        match findFree r.state with
        | some buffer => .ok (some (r.taken buffer), some (held + 1))
        | none => go held rounds

def allocOrDie (oom : OutOfMemory emergencyBuffer) (info : Option Nat) (size : Nat) :
    Res (Buffer × Option Nat) :=
  match oom.exception.result with
  | some a => .ok (oom.exception.calloced a size, info)
  | none => do
    let (buffer, info) ← emergencyMalloc oom info size
    match buffer with
    | some buffer => return (buffer, info)
    | none => .error .terminate

def cxaAllocateException (oom : OutOfMemory emergencyBuffer) (info : Option Nat)
    (thrownSize : BitVec 64) : Res (Nat × Buffer × Option Nat) := do
  let size := thrownSize + BitVec.ofNat 64 headerSize
  let (buffer, info) ← allocOrDie oom info size.toNat
  return (buffer.block.addr + headerSize, buffer, info)

-- the two kinds of headers have the same size
def cxaAllocateDependentException (oom : OutOfMemory emergencyBuffer) (info : Option Nat) :
    Res (Nat × Buffer × Option Nat) := do
  let (buffer, info) ← allocOrDie oom info headerSize
  return (buffer.block.addr + headerSize, buffer, info)

end Emergency

end LibCxxRt
