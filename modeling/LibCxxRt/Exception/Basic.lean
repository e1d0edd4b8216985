import LibCxxRt.TypeInfo.Impl
import LibCxxRt.Unwind

/-!
This module contains the exception headers of `cxxabi.h`, the heap that they live in, and the part
of the process image that does not change while exceptions are handled.

`__cxa_exception` and `__cxa_dependent_exception` have the same fields at the same offsets, with one
exception: the word at offset 8 is `referenceCount` in the former and `primaryException` in the
latter. A `CxaTail` consists of the fields from offset 32 on, which is the size of an
`_Unwind_Exception`.

The heap contains the live allocations that an exception pointer can point into. For an exception of
another runtime `beyond` is what a `__cxa_exception*` with the same address reads behind the
`_Unwind_Exception`.
-/

namespace LibCxxRt

def exceptionClass : BitVec 64 := 0x474e5543432b2b00

def dependentExceptionClass : BitVec 64 := 0x474e5543432b2b01

def isCxxException (cls : BitVec 64) : Bool :=
  cls == exceptionClass || cls == dependentExceptionClass

def isDependentException (cls : BitVec 64) : Bool :=
  cls == dependentExceptionClass

structure CxaTail where
  unexpectedHandler : Addr
  terminateHandler : Addr
  nextException : Option Ptr
  handlerCount : Int
  handlerSwitchValue : BitVec 32
  actionRecord : Addr
  languageSpecificData : Addr
  catchTemp : Addr
  adjustedPtr : Addr
  unwindHeader : UnwindException
  deriving DecidableEq, Repr

inductive CountWord where
  | referenceCount (n : Nat)
  | primaryException (p : Option Ptr)
  deriving DecidableEq, Repr

structure CxaException extends CxaTail where
  countWord : CountWord
  exceptionType : Addr
  exceptionDestructor : Addr
  deriving DecidableEq, Repr

namespace CxaException

-- the header as `calloc` leaves it
def zero : CxaException where
  unexpectedHandler := 0
  terminateHandler := 0
  nextException := none
  handlerCount := 0
  handlerSwitchValue := 0
  actionRecord := 0
  languageSpecificData := 0
  catchTemp := 0
  adjustedPtr := 0
  unwindHeader := ⟨0, none⟩
  countWord := .referenceCount 0
  exceptionType := 0
  exceptionDestructor := 0

end CxaException

inductive Obj where
  | cxx (ex : CxaException)
  | foreign (unwindHeader : UnwindException) (beyond : CxaTail)
  deriving DecidableEq, Repr

abbrev Heap := Nat → Option Obj

namespace Heap

def set (h : Heap) (b : Nat) (o : Obj) : Heap :=
  fun b' => if b' = b then some o else h b'

def free (h : Heap) (b : Nat) : Heap :=
  fun b' => if b' = b then none else h b'

@[simp]
theorem set_self (h : Heap) (b : Nat) (o : Obj) : h.set b o b = some o := by
  simp [set]

theorem set_of_ne {b b' : Nat} (h : Heap) (o : Obj) (hb : b' ≠ b) : h.set b o b' = h b' := by
  simp [set, hb]

@[simp]
theorem free_self (h : Heap) (b : Nat) : h.free b b = none := by
  simp [free]

theorem free_of_ne {b b' : Nat} (h : Heap) (hb : b' ≠ b) : h.free b b' = h b' := by
  simp [free, hb]

def cxa (h : Heap) (p : Ptr) : Res CxaException :=
  if p.off = 0 then
    match h p.block with
    | some (.cxx ex) => .ok ex
    | _ => .error .fault
  else
    .error .fault

def tail (h : Heap) (p : Ptr) : Res CxaTail :=
  if p.off = 0 then
    match h p.block with
    | some (.cxx ex) => .ok ex.toCxaTail
    | some (.foreign _ beyond) => .ok beyond
    | none => .error .fault
  else
    .error .fault

-- a write through a `__cxa_exception*` to fields behind offset 32
def setTail (h : Heap) (p : Ptr) (t : CxaTail) : Heap :=
  if p.off = 0 then
    match h p.block with
    | some (.cxx ex) => h.set p.block (.cxx { ex with toCxaTail := t })
    | some (.foreign header _) => h.set p.block (.foreign header t)
    | none => h
  else
    h

def unwindException (h : Heap) (p : Ptr) : Res UnwindException :=
  if p.off = 96 then
    match h p.block with
    | some (.cxx ex) => .ok ex.unwindHeader
    | some (.foreign _ beyond) => .ok beyond.unwindHeader
    | none => .error .fault
  else if p.off = 0 then
    match h p.block with
    | some (.foreign header _) => .ok header
    | _ => .error .fault
  else
    .error .fault

end Heap

def exceptionFromPointer (ex : Ptr) : Ptr :=
  ex.add (-96)

-- `ex + 1`
def thrownObject (ex : Ptr) : Ptr :=
  ex.add 128

def realExceptionFromException (h : Heap) (ex : Ptr) : Res Ptr := do
  let tail ← h.tail ex
  if !isDependentException tail.unwindHeader.exceptionClass then
    return ex
  else
    let cxa ← h.cxa ex
    match cxa.countWord with
    | .primaryException (some p) => return p.add (-128)
    | _ => .error .fault

structure Image where
  mem : Mem
  types : Addr → Option TypeInfo
  -- the name of `typeid(void)`
  voidName : Addr
  -- where the allocations of the heap are
  blockBase : Nat → Addr
  types_self : ∀ a t, types a = some t → t.self = a

namespace Image

def typeInfo (img : Image) (a : Addr) : Res TypeInfo :=
  match img.types a with
  | some t => .ok t
  | none => .error .fault

-- the value of a pointer to an exception as a `void*`
def addr (img : Image) (p : Ptr) : Addr :=
  img.blockBase p.block + BitVec.ofInt 64 p.off

end Image

end LibCxxRt
