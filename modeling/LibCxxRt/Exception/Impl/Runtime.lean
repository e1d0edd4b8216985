import Mathlib.Algebra.Group.Nat.Defs
import LibCxxRt.Exception.Basic

/-!
This module contains the functions of `exception.cc` that throw, catch, count and destroy exceptions.
They take the thread that calls them and the state of the process, which they return changed.

The model of a function that raises an exception ends at the call of the unwinder, it returns the
`_Unwind_Exception` that it raises. A function that allocates takes the block that the allocator
hands out. The process also keeps a log of what is done to the exceptions. User code that a function
calls, such as the destructor of a thrown object, does not call back into the runtime. The counters
have no upper limit, only the decrement of one that is zero wraps.

`releaseException` and `cxaFreeDependentException` call each other. A dependent exception has a
primary one, which has no other, so a call gets by with `depth` 4.
-/

namespace LibCxxRt

inductive ForeignExceptionState where
  | none
  | caught
  | rethrown
  deriving DecidableEq, Repr

structure CxaThreadInfo where
  terminateHandler : Addr
  unexpectedHandler : Addr
  foreignExceptionState : ForeignExceptionState
  caughtExceptions : Option Ptr
  uncaughtExceptions : Nat
  deriving DecidableEq, Repr

namespace CxaThreadInfo

def zero : CxaThreadInfo where
  terminateHandler := 0
  unexpectedHandler := 0
  foreignExceptionState := .none
  caughtExceptions := .none
  uncaughtExceptions := 0

end CxaThreadInfo

-- `--n` for an unsigned integer of `bits` bits
def decrement (bits n : Nat) : Nat :=
  if n = 0 then 2 ^ bits - 1 else n - 1

inductive Event where
  | released (ex : Ptr)
  | destroyed (ex : Ptr)
  | freed (ex : Ptr)
  | cleanedUp (ex : Ptr)
  deriving DecidableEq, Repr

structure Process where
  heap : Heap
  threads : Nat → CxaThreadInfo
  terminateHandler : Addr
  unexpectedHandler : Addr
  log : List Event

namespace Heap

def setCxa (h : Heap) (p : Ptr) (e : CxaException) : Heap :=
  h.set p.block (.cxx e)

/--
The value of `exceptionType` for a `__cxa_exception*`. A pointer to the `unwindHeader` field is not
one, but where it is used as one this reads `nextException`.
-/
def exceptionTypeAt (img : Image) (h : Heap) (p : Ptr) : Res Addr :=
  if p.off = 32 then do
    let t ← h.tail (p.add (-32))
    return (t.nextException.map img.addr).getD 0
  else do
    let e ← h.cxa p
    return e.exceptionType

end Heap

namespace Process

def setThread (w : Process) (i : Nat) (ti : CxaThreadInfo) : Process :=
  { w with threads := fun j => if j = i then ti else w.threads j }

def setTail (w : Process) (ex : Ptr) (t : CxaTail) : Process :=
  { w with heap := w.heap.setTail ex t }

def setCxa (w : Process) (ex : Ptr) (e : CxaException) : Process :=
  { w with heap := w.heap.setCxa ex e }

def record (w : Process) (e : Event) : Process :=
  { w with log := w.log ++ [e] }

end Process

def cxaAllocateException (block : Nat) (w : Process) : Res (Ptr × Process) :=
  match w.heap block with
  | none => .ok (⟨block, 128⟩, { w with heap := w.heap.set block (.cxx .zero) })
  | some _ => .error .fault

def freeException (e : Ptr) (w : Process) : Res Process := do
  let _ ← w.heap.cxa e
  return { w with heap := w.heap.free e.block }.record (.freed e)

def cxaFreeException (thrownException : Ptr) (w : Process) : Res Process := do
  let ex := thrownException.add (-128)
  let e ← w.heap.cxa ex
  let w := if e.exceptionDestructor ≠ 0 then w.record (.destroyed ex) else w
  freeException ex w

-- `__sync_add_and_fetch` and `__sync_sub_and_fetch` on the reference count
def addReference (ex : Ptr) (w : Process) : Res Process := do
  let e ← w.heap.cxa ex
  match e.countWord with
  | .referenceCount n => return w.setCxa ex { e with countWord := .referenceCount (n + 1) }
  | .primaryException _ => .error .fault

def subReference (ex : Ptr) (w : Process) : Res (Nat × Process) := do
  let e ← w.heap.cxa ex
  match e.countWord with
  | .referenceCount n =>
    let n := decrement 64 n
    return (n, w.setCxa ex { e with countWord := .referenceCount n })
  | .primaryException _ => .error .fault

mutual

def releaseException (depth : Nat) (exception : Ptr) (w : Process) : Res Process :=
  match depth with
  | 0 => .error .outOfFuel
  | depth + 1 => do
    let t ← w.heap.tail exception
    let w := w.record (.released exception)
    if isDependentException t.unwindHeader.exceptionClass then
      cxaFreeDependentException depth (exception.add 128) w
    else
      let (n, w) ← subReference exception w
      if n = 0 then
        cxaFreeException (exception.add 128) w
      else
        return w

def cxaFreeDependentException (depth : Nat) (thrownException : Ptr) (w : Process) : Res Process :=
  match depth with
  | 0 => .error .outOfFuel
  | depth + 1 => do
    let ex := thrownException.add (-128)
    let e ← w.heap.cxa ex
    if !isDependentException e.unwindHeader.exceptionClass then
      .error .assertion
    else if e.countWord ≠ .primaryException none then
      let real ← realExceptionFromException w.heap ex
      let w ← releaseException depth real w
      freeException ex w
    else
      freeException ex w

end

def exceptionCleanup (ex : Ptr) (w : Process) : Res Process :=
  cxaFreeException (ex.add 32) w

def dependentExceptionCleanup (ex : Ptr) (w : Process) : Res Process :=
  cxaFreeDependentException 4 (ex.add 32) w

-- the call `e->exception_cleanup(_URC_FOREIGN_EXCEPTION_CAUGHT, e)`, if there is a function to call
def callExceptionCleanup (e : Ptr) (w : Process) : Res Process := do
  let header ← w.heap.unwindException e
  match header.exceptionCleanup with
  | none => return w
  | some .exceptionCleanup => exceptionCleanup e w
  | some .dependentExceptionCleanup => dependentExceptionCleanup e w
  | some (.foreign _) => return { w with heap := w.heap.free e.block }.record (.cleanedUp e)

def freeExceptionList (fuel : Nat) (ex : Ptr) (w : Process) : Res Process :=
  match fuel with
  | 0 => .error .outOfFuel
  | fuel + 1 => do
    let t ← w.heap.tail ex
    match t.nextException with
    | some next =>
      let w ← freeExceptionList fuel next w
      cxaFreeException (ex.add 128) w
    | none => cxaFreeException (ex.add 128) w

def threadCleanup (fuel : Nat) (i : Nat) (w : Process) : Res Process :=
  let info := w.threads i
  match info.caughtExceptions with
  | none => .ok (w.setThread i .zero)
  | some ex =>
    if info.foreignExceptionState ≠ .none then do
      let w ← callExceptionCleanup ex w
      return w.setThread i .zero
    else do
      let w ← freeExceptionList fuel ex w
      return w.setThread i .zero

def throwException (i : Nat) (ex : Ptr) (w : Process) : Res (Ptr × Process) := do
  let t ← w.heap.tail ex
  let info := w.threads i
  let w := w.setTail ex {
    t with
    unexpectedHandler :=
      if info.unexpectedHandler = 0 then w.unexpectedHandler else info.unexpectedHandler
    terminateHandler :=
      if info.terminateHandler = 0 then w.terminateHandler else info.terminateHandler
  }
  let w := w.setThread i { info with uncaughtExceptions := info.uncaughtExceptions + 1 }
  return (ex.add 96, w)

def cxaInitPrimaryException (object : Ptr) (tinfo dest : Addr) (w : Process) :
    Res (Ptr × Process) := do
  let ex := object.add (-128)
  let e ← w.heap.cxa ex
  let w := w.setCxa ex {
    e with
    countWord := .referenceCount 0
    exceptionType := tinfo
    exceptionDestructor := dest
    unwindHeader := ⟨exceptionClass, some .exceptionCleanup⟩
  }
  return (ex, w)

def cxaThrow (i : Nat) (thrownException : Ptr) (tinfo dest : Addr) (w : Process) :
    Res (Ptr × Process) := do
  let (ex, w) ← cxaInitPrimaryException thrownException tinfo dest w
  let e ← w.heap.cxa ex
  throwException i ex (w.setCxa ex { e with countWord := .referenceCount 1 })

def cxaIncrementExceptionRefcount (thrownException : Option Ptr) (w : Process) : Res Process :=
  match thrownException with
  | none => .ok w
  | some thrownException => do
    let ex := thrownException.add (-128)
    let e ← w.heap.cxa ex
    if isDependentException e.unwindHeader.exceptionClass then
      return w
    else
      addReference ex w

def cxaDecrementExceptionRefcount (thrownException : Option Ptr) (w : Process) : Res Process :=
  match thrownException with
  | none => .ok w
  | some thrownException => releaseException 4 (thrownException.add (-128)) w

def cxaRethrowPrimaryException (img : Image) (i block : Nat) (thrownException : Option Ptr)
    (w : Process) : Res (Option Ptr × Process) :=
  match thrownException with
  | none => .ok (none, w)
  | some thrownException => do
    let original := exceptionFromPointer thrownException
    let (object, w) ← cxaAllocateException block w
    let ex := object.add (-128)
    let e ← w.heap.cxa ex
    let e := { e with countWord := .primaryException (some thrownException) }
    let w ← cxaIncrementExceptionRefcount (some thrownException) (w.setCxa ex e)
    let type ← w.heap.exceptionTypeAt img original
    let w := w.setCxa ex {
      e with
      exceptionType := type
      unwindHeader := ⟨dependentExceptionClass, some .dependentExceptionCleanup⟩
    }
    let (raised, w) ← throwException i ex w
    return (some raised, w)

def cxaCurrentPrimaryException (i : Nat) (w : Process) : Res (Option Ptr × Process) :=
  match (w.threads i).caughtExceptions with
  | none => .ok (none, w)
  | some ex => do
    let ex ← realExceptionFromException w.heap ex
    let w ← addReference ex w
    return (some (ex.add 128), w)

def cxaRethrow (i : Nat) (w : Process) : Res (Ptr × Process) :=
  let ti := w.threads i
  match ti.caughtExceptions with
  | none => .error .terminate
  | some ex =>
    if ti.foreignExceptionState ≠ .none then
      .ok (ex, w.setThread i { ti with foreignExceptionState := .rethrown })
    else do
      let t ← w.heap.tail ex
      if t.handlerCount > 0 then
        let w := w.setThread i { ti with uncaughtExceptions := ti.uncaughtExceptions + 1 }
        return (ex.add 96, w.setTail ex { t with handlerCount := -t.handlerCount })
      else
        .error .assertion

-- the changes that `__cxa_begin_catch` makes to the header of a C++ exception
def caughtTail (ti : CxaThreadInfo) (t : CxaTail) : CxaTail :=
  let t := if t.handlerCount = 0 then { t with nextException := ti.caughtExceptions } else t
  if t.handlerCount < 0 then
    { t with handlerCount := -t.handlerCount + 1 }
  else
    { t with handlerCount := t.handlerCount + 1 }

def cxaBeginCatch (img : Image) (i : Nat) (exceptionObject : Ptr) (w : Process) :
    Res (Addr × Process) := do
  let ti := w.threads i
  let header ← w.heap.unwindException exceptionObject
  if isCxxException header.exceptionClass then
    let ex := exceptionFromPointer exceptionObject
    let t ← w.heap.tail ex
    let ti' := {
      ti with
      uncaughtExceptions := decrement 32 ti.uncaughtExceptions
      caughtExceptions := if t.handlerCount = 0 then some ex else ti.caughtExceptions
      foreignExceptionState := .none
    }
    return (t.adjustedPtr, (w.setTail ex (caughtTail ti t)).setThread i ti')
  else if ti.caughtExceptions ≠ none then
    .error .terminate
  else
    let ti' := { ti with caughtExceptions := some exceptionObject, foreignExceptionState := .caught }
    return (img.addr (exceptionObject.add 32), w.setThread i ti')

-- the part of `__cxa_end_catch` for a foreign exception
def endCatchForeign (i : Nat) (ex : Ptr) (w : Process) : Res Process :=
  let ti := w.threads i
  let ti' := { ti with caughtExceptions := none, foreignExceptionState := .none }
  if ti.foreignExceptionState ≠ .rethrown then do
    let w ← callExceptionCleanup ex w
    return w.setThread i ti'
  else
    .ok (w.setThread i ti')

def cxaEndCatch (i : Nat) (w : Process) : Res Process :=
  let ti := w.threads i
  match ti.caughtExceptions with
  | none => .error .assertion
  | some ex =>
    if ti.foreignExceptionState ≠ .none then
      endCatchForeign i ex w
    else do
      let t ← w.heap.tail ex
      let deleteException := ¬ t.handlerCount < 0
      let handlerCount := if t.handlerCount < 0 then t.handlerCount + 1 else t.handlerCount - 1
      let w := w.setTail ex { t with handlerCount }
      if handlerCount = 0 then
        let w := w.setThread i { ti with caughtExceptions := t.nextException }
        if deleteException then
          releaseException 4 ex w
        else
          return w
      else
        return w

inductive UnexpectedCall where
  | unexpectedHandler (fn : Addr)
  | stdUnexpected
  deriving DecidableEq, Repr

-- which function is called after the exception has been caught
def cxaCallUnexpected (img : Image) (i : Nat) (exception : Ptr) (w : Process) :
    Res (UnexpectedCall × Process) := do
  let (_, w) ← cxaBeginCatch img i exception w
  let header ← w.heap.unwindException exception
  if header.exceptionClass = exceptionClass then
    let t ← w.heap.tail (exceptionFromPointer exception)
    return (if t.unexpectedHandler ≠ 0 then .unexpectedHandler t.unexpectedHandler else .stdUnexpected,
      w)
  else
    return (.stdUnexpected, w)

end LibCxxRt
