import LibCxxRt.Exception.Impl.ActionRecord
import LibCxxRt.Util.Traced

/-!
This module contains the loop over the types of an exception specification once more, with a record
of the entries of the type table that it tests.
-/

namespace LibCxxRt

open Util

namespace SpecScan

def checkExceptionSpec (img : Image) (h : Heap) (context : UnwindContext) (lsda : DwarfEhLsda)
    (ex : Option Ptr) (fuel : Nat) (typeIndex : Addr) (adjustedPtr : Addr) :
    Traced Nat Stop (Bool × Addr) :=
  match fuel with
  | 0 => .lift (.error .outOfFuel)
  | fuel + 1 => do
    let index ← img.mem.byte typeIndex
    if index = 0 then
      return (false, adjustedPtr)
    else
      .note index.toNat
      let handlerType ← getTypeInfoEntry img.mem context lsda (index.setWidth 32)
      let (matched, adjustedPtr) ← checkTypeSignature img h ex handlerType adjustedPtr
      if matched then
        return (true, adjustedPtr)
      else
        checkExceptionSpec img h context lsda ex fuel (typeIndex + 1) adjustedPtr

end SpecScan

end LibCxxRt
