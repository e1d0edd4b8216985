import LibCxxRt.DwarfEh.Impl.Leb128
import LibCxxRt.Util.Traced

/-!
This module contains the readers for the variable length integers once more, with a record of the
shifts that they execute: the width of the left operand and the count.
-/

namespace LibCxxRt

open Util

structure Shift where
  width : Nat
  count : Nat
  deriving DecidableEq, Repr

namespace Shift

-- otherwise the behaviour is undefined
def Defined (s : Shift) : Prop :=
  s.count < s.width

abbrev Run := Traced Shift Stop

def readLeb128 (m : Mem) (data : Addr) : Run (BitVec 64 × Nat × Addr) :=
  go 11 0 0 data
where
  go (fuel : Nat) (uleb : BitVec 64) (bit : Nat) (data : Addr) : Run (BitVec 64 × Nat × Addr) :=
    match fuel with
    | 0 => .lift (.error .outOfFuel)
    | fuel + 1 =>
      if bit < 64 then do
        let byte ← m.byte data
        let digit := byte &&& 0x7f
        .note ⟨32, bit⟩
        let uleb := uleb + shiftDigit digit bit
        if byte = digit then
          return (uleb, bit + 7, data + 1)
        else
          go fuel uleb (bit + 7) (data + 1)
      else
        .lift (.error .assertion)

def readSleb128 (m : Mem) (data : Addr) : Run (BitVec 64 × Addr) := do
  let (uleb, bits, data) ← readLeb128 m data
  .note ⟨64, bits - 1⟩
  if uleb >>> ((bits - 1) % 64) = 1 then
    .note ⟨64, bits⟩
    return (uleb ||| (-1 <<< (bits % 64)), data)
  else
    return (uleb, data)

end Shift

end LibCxxRt
