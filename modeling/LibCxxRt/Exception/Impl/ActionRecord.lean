import LibCxxRt.DwarfEh.Impl.Lsda
import LibCxxRt.Exception.Basic

/-!
This module contains the part of `exception.cc` that matches an exception against the action records
of a call site. A `__cxa_exception*` that can be null is an `Option Ptr`.

The functions take the values that their output parameters `*selector` and `adjustedPtr` have before
the call and return the ones that they have afterwards. `checkExceptionSpec` is the loop over the
types of an exception specification, its result is `matched`. In `checkActionRecord` the number of
action records and the length of every exception specification are bounded by `fuel`.
-/

namespace LibCxxRt

inductive HandlerType where
  | handlerNone
  | handlerCleanup
  | handlerCatch
  deriving DecidableEq, Repr

def getTypeInfoEntry (m : Mem) (context : UnwindContext) (lsda : DwarfEhLsda)
    (filter : BitVec 32) : Res Addr := do
  let size ← dwarfSizeOfFixedSizeField lsda.typeTableEncoding
  let record := lsda.typeTable - (size * filter).signExtend 64
  let start := record
  let (offset, _) ← readValue m lsda.typeTableEncoding record
  if offset = 0 then
    return 0
  else
    resolveIndirectValue m context lsda.typeTableEncoding offset start

def exceptionPtr (img : Image) (exType : TypeInfo) (ex : Ptr) : Res Addr :=
  if exType.isPointerP then
    img.mem.loadPtr (img.addr (thrownObject ex))
  else
    .ok (img.addr (thrownObject ex))

def checkTypeSignature (img : Image) (h : Heap) (ex : Option Ptr) (type : Addr)
    (adjustedPtr : Addr) : Res (Bool × Addr) :=
  match ex with
  | none => .ok (type == 0, adjustedPtr)
  | some ex => do
    let exType ← img.typeInfo (← h.cxa ex).exceptionType
    let exceptionPtr ← exceptionPtr img exType ex
    if type = 0 then
      return (true, exceptionPtr)
    else
      let type ← img.typeInfo type
      if type.eq exType then
        return (true, exceptionPtr)
      else
        let (caught, exceptionPtr) ← type.doCatch img.mem img.voidName exType exceptionPtr 1
        if caught then
          return (true, exceptionPtr)
        else
          return (false, adjustedPtr)

def checkExceptionSpec (img : Image) (h : Heap) (context : UnwindContext) (lsda : DwarfEhLsda)
    (ex : Option Ptr) (fuel : Nat) (typeIndex : Addr) (adjustedPtr : Addr) : Res (Bool × Addr) :=
  match fuel with
  | 0 => .error .outOfFuel
  | fuel + 1 => do
    let index ← img.mem.byte typeIndex
    if index = 0 then
      return (false, adjustedPtr)
    else
      let handlerType ← getTypeInfoEntry img.mem context lsda (index.setWidth 32)
      let (matched, adjustedPtr) ← checkTypeSignature img h ex handlerType adjustedPtr
      if matched then
        return (true, adjustedPtr)
      else
        checkExceptionSpec img h context lsda ex fuel (typeIndex + 1) adjustedPtr

def checkActionRecord (img : Image) (h : Heap) (fuel : Nat) (context : UnwindContext)
    (lsda : DwarfEhLsda) (actionRecord : Addr) (ex : Option Ptr) (selector : BitVec 64)
    (adjustedPtr : Addr) : Res (HandlerType × BitVec 64 × Addr) :=
  if actionRecord = 0 then
    .ok (.handlerCleanup, selector, adjustedPtr)
  else
    go fuel actionRecord .handlerNone selector adjustedPtr
where
  go (steps : Nat) (actionRecord : Addr) (found : HandlerType) (selector : BitVec 64)
      (adjustedPtr : Addr) : Res (HandlerType × BitVec 64 × Addr) :=
    if actionRecord = 0 then
      .ok (found, selector, adjustedPtr)
    else
      match steps with
      | 0 => .error .outOfFuel
      | steps + 1 => do
        let (filter, actionRecord) ← readSleb128 img.mem actionRecord
        let filter := filter.setWidth 32
        let actionRecordOffsetBase := actionRecord
        let (displacement, _) ← readSleb128 img.mem actionRecord
        let displacement := displacement.setWidth 32
        let actionRecord :=
          if displacement ≠ 0 then actionRecordOffsetBase + displacement.signExtend 64 else 0
        if (0 : BitVec 32).slt filter then
          let handlerType ← getTypeInfoEntry img.mem context lsda filter
          let (matched, adjustedPtr) ← checkTypeSignature img h ex handlerType adjustedPtr
          if matched then
            return (.handlerCatch, filter.signExtend 64, adjustedPtr)
          else
            go steps actionRecord found selector adjustedPtr
        else if filter.slt 0 ∧ ex.isSome then
          let selector := filter.signExtend 64
          let typeIndex := lsda.typeTable - filter.signExtend 64 - 1
          let (matched, adjustedPtr) ←
            checkExceptionSpec img h context lsda ex fuel typeIndex adjustedPtr
          if matched then
            go steps actionRecord found selector adjustedPtr
          else
            return (.handlerCatch, selector, adjustedPtr)
        else if filter = 0 then
          go steps actionRecord .handlerCleanup (filter.signExtend 64) adjustedPtr
        else
          go steps actionRecord found selector adjustedPtr

end LibCxxRt
