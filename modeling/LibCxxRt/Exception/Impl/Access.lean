import LibCxxRt.Exception.Impl.Runtime
import LibCxxRt.Util.Traced

/-!
This module contains the functions that work on the exception at the head of `caughtExceptions`, with
a record of the memory of exceptions that they access, and the functions that are called when no
handler is found. A destructor or a cleanup function of another runtime may access what it likes.

`private1` is what the unwinder keeps in the word at offset 16 of a foreign exception, where a C++
exception has its `exceptionType`.
-/

namespace LibCxxRt

open Util

structure Access where
  ptr : Ptr
  size : Nat
  isWrite : Bool
  deriving DecidableEq, Repr

namespace Access

abbrev Run := Traced Access Stop

def read (p : Ptr) (size : Nat) : Run Unit :=
  .note ⟨p, size, false⟩

def write (p : Ptr) (size : Nat) : Run Unit :=
  .note ⟨p, size, true⟩

-- the offsets of the fields of `__cxa_exception`
def referenceCount : Int := 8
def exceptionType : Int := 16
def exceptionDestructor : Int := 24
def nextException : Int := 48
def handlerCount : Int := 56
def adjustedPtr : Int := 88
def unwindHeader : Int := 96

-- the offsets of the fields of `_Unwind_Exception`
def exceptionClass : Int := 0
def exceptionCleanup : Int := 8

def realExceptionFromException (h : Heap) (ex : Ptr) : Run Ptr := do
  read ((ex.add unwindHeader).add exceptionClass) 8
  let tail ← h.tail ex
  if !isDependentException tail.unwindHeader.exceptionClass then
    return ex
  else
    -- `primaryException`
    read (ex.add referenceCount) 8
    let cxa ← h.cxa ex
    match cxa.countWord with
    | .primaryException (some p) => return p.add (-128)
    | _ => .lift (.error .fault)

def addReference (ex : Ptr) (w : Process) : Run Process := do
  read (ex.add referenceCount) 8
  write (ex.add referenceCount) 8
  LibCxxRt.addReference ex w

def subReference (ex : Ptr) (w : Process) : Run (Nat × Process) := do
  read (ex.add referenceCount) 8
  write (ex.add referenceCount) 8
  LibCxxRt.subReference ex w

def cxaFreeException (thrownException : Ptr) (w : Process) : Run Process := do
  let ex := thrownException.add (-128)
  read (ex.add exceptionDestructor) 8
  LibCxxRt.cxaFreeException thrownException w

mutual

def releaseException (depth : Nat) (exception : Ptr) (w : Process) : Run Process :=
  match depth with
  | 0 => .lift (.error .outOfFuel)
  | depth + 1 => do
    read ((exception.add unwindHeader).add exceptionClass) 8
    let t ← w.heap.tail exception
    let w := w.record (.released exception)
    if isDependentException t.unwindHeader.exceptionClass then
      cxaFreeDependentException depth (exception.add 128) w
    else
      let (n, w) ← subReference exception w
      if n = 0 then
        cxaFreeException (exception.add 128) w
      else
        return w

def cxaFreeDependentException (depth : Nat) (thrownException : Ptr) (w : Process) : Run Process :=
  match depth with
  | 0 => .lift (.error .outOfFuel)
  | depth + 1 => do
    let ex := thrownException.add (-128)
    read ((ex.add unwindHeader).add exceptionClass) 8
    let e ← w.heap.cxa ex
    if !isDependentException e.unwindHeader.exceptionClass then
      .lift (.error .assertion)
    else
      -- `primaryException`
      read (ex.add referenceCount) 8
      if e.countWord ≠ .primaryException none then
        let real ← realExceptionFromException w.heap ex
        let w ← releaseException depth real w
        freeException ex w
      else
        freeException ex w

end

def callExceptionCleanup (e : Ptr) (w : Process) : Run Process := do
  read (e.add exceptionCleanup) 8
  let header ← w.heap.unwindException e
  match header.exceptionCleanup with
  | none => return w
  | some .exceptionCleanup => cxaFreeException (e.add 32) w
  | some .dependentExceptionCleanup => cxaFreeDependentException 4 (e.add 32) w
  | some (.foreign _) => return { w with heap := w.heap.free e.block }.record (.cleanedUp e)

def freeExceptionList (fuel : Nat) (ex : Ptr) (w : Process) : Run Process :=
  match fuel with
  | 0 => .lift (.error .outOfFuel)
  | fuel + 1 => do
    read (ex.add nextException) 8
    let t ← w.heap.tail ex
    match t.nextException with
    | some next =>
      let w ← freeExceptionList fuel next w
      cxaFreeException (ex.add 128) w
    | none => cxaFreeException (ex.add 128) w

def threadCleanup (fuel : Nat) (i : Nat) (w : Process) : Run Process :=
  let info := w.threads i
  match info.caughtExceptions with
  | none => return w.setThread i .zero
  | some ex =>
    if info.foreignExceptionState ≠ .none then do
      let w ← callExceptionCleanup ex w
      return w.setThread i .zero
    else do
      let w ← freeExceptionList fuel ex w
      return w.setThread i .zero

def cxaCurrentPrimaryException (i : Nat) (w : Process) : Run (Option Ptr × Process) :=
  match (w.threads i).caughtExceptions with
  | none => return (none, w)
  | some ex => do
    let ex ← realExceptionFromException w.heap ex
    let w ← addReference ex w
    return (some (ex.add 128), w)

-- `ex->exceptionType`
def exceptionTypeOf (private1 : Nat → Addr) (h : Heap) (ex : Ptr) : Run Addr := do
  read (ex.add exceptionType) 8
  match h ex.block with
  | some (.foreign ..) => return private1 ex.block
  | _ =>
    let e ← h.cxa ex
    return e.exceptionType

def cxaCurrentExceptionType (private1 : Nat → Addr) (i : Nat) (w : Process) : Run Addr :=
  match (w.threads i).caughtExceptions with
  | none => return 0
  | some ex => exceptionTypeOf private1 w.heap ex

def cxaBeginCatch (img : Image) (i : Nat) (exceptionObject : Ptr) (w : Process) :
    Run (Addr × Process) := do
  read (exceptionObject.add exceptionClass) 8
  let header ← w.heap.unwindException exceptionObject
  if isCxxException header.exceptionClass then
    let ex := exceptionFromPointer exceptionObject
    read (ex.add handlerCount) 4
    let t ← w.heap.tail ex
    if t.handlerCount = 0 then
      write (ex.add nextException) 8
    write (ex.add handlerCount) 4
    read (ex.add adjustedPtr) 8
    LibCxxRt.cxaBeginCatch img i exceptionObject w
  else
    LibCxxRt.cxaBeginCatch img i exceptionObject w

def cxaEndCatch (i : Nat) (w : Process) : Run Process :=
  let ti := w.threads i
  match ti.caughtExceptions with
  | none => .lift (.error .assertion)
  | some ex =>
    if ti.foreignExceptionState ≠ .none then
      let ti' := { ti with caughtExceptions := none, foreignExceptionState := .none }
      if ti.foreignExceptionState ≠ .rethrown then do
        let w ← callExceptionCleanup ex w
        return w.setThread i ti'
      else
        return w.setThread i ti'
    else do
      read (ex.add handlerCount) 4
      let t ← w.heap.tail ex
      let deleteException := ¬ t.handlerCount < 0
      let handlerCount' := if t.handlerCount < 0 then t.handlerCount + 1 else t.handlerCount - 1
      write (ex.add handlerCount) 4
      let w := w.setTail ex { t with handlerCount := handlerCount' }
      if handlerCount' = 0 then
        read (ex.add nextException) 8
        let w := w.setThread i { ti with caughtExceptions := t.nextException }
        if deleteException then
          releaseException 4 ex w
        else
          return w
      else
        return w

/--
The unwinder has returned with an error, which it does not do if it finds a handler.
-/
def reportFailure (img : Image) (i : Nat) (err : UnwindReasonCode) (thrownException : Ptr)
    (w : Process) : Run (Ptr × Process) :=
  match err with
  | .endOfStack => do
    let _ ← cxaBeginCatch img i (thrownException.add unwindHeader) w
    .lift (.error .terminate)
  | _ => .lift (.error .terminate)

-- the change of the handler count of a C++ exception in `__cxa_rethrow`
def negateHandlerCount (ti : CxaThreadInfo) (ex : Ptr) (w : Process) : Run Unit :=
  if ti.foreignExceptionState ≠ .none then
    return
  else do
    read (ex.add handlerCount) 4
    let t ← w.heap.tail ex
    if t.handlerCount > 0 then
      write (ex.add handlerCount) 4
    else
      return

-- `err` is what the unwinder returns, if it returns
def cxaRethrow (img : Image) (i : Nat) (err : Option UnwindReasonCode) (w : Process) :
    Run (Ptr × Process) :=
  match (w.threads i).caughtExceptions with
  | none => .lift (.error .terminate)
  | some ex => do
    negateHandlerCount (w.threads i) ex w
    let (raised, w) ← LibCxxRt.cxaRethrow i w
    match err with
    | none => return (raised, w)
    | some err => reportFailure img i err ex w

-- `stdException` is the address of `typeid(std::exception)`
def terminateWithDiagnostics (img : Image) (private1 : Nat → Addr) (stdException : Addr) (i : Nat)
    (w : Process) : Run Unit :=
  match (w.threads i).caughtExceptions with
  | none => .lift (.error .abort)
  | some ex => do
    let ex ← realExceptionFromException w.heap ex
    let type ← exceptionTypeOf private1 w.heap ex
    let throwTi ← img.typeInfo type
    -- `cast_to` returns an object for this type only, and `what` is called for it
    if throwTi.self = stdException then
      read (ex.add 128) 8
    .lift (.error .abort)

end Access

end LibCxxRt
