import LibCxxRt.Basic

/-!
This module contains the readers for the variable length integers of the DWARF exception tables,
`read_leb128`, `read_uleb128` and `read_sleb128` of `dwarf_eh.h`. Where the source advances `*data`
they return the new pointer as the last component.
-/

namespace LibCxxRt

/--
The value of `digit << bit` as it is added to the accumulator: `digit` is promoted to a 32-bit `int`
before the shift, the processor uses the low five bits of the count, and the `int` that comes out is
sign extended to the width of the accumulator.
-/
def shiftDigit (digit : BitVec 8) (bit : Nat) : BitVec 64 :=
  (digit.setWidth 32 <<< (bit % 32)).signExtend 64

def readLeb128 (m : Mem) (data : Addr) : Res (BitVec 64 × Nat × Addr) :=
  go 11 0 0 data
where
  go (fuel : Nat) (uleb : BitVec 64) (bit : Nat) (data : Addr) : Res (BitVec 64 × Nat × Addr) :=
    match fuel with
    | 0 => .error .outOfFuel
    | fuel + 1 =>
      -- `bit` grows by 7, so the assertion stops the loop before the 11th byte is read
      if bit < 64 then do
        let byte ← m.byte data
        let digit := byte &&& 0x7f
        let uleb := uleb + shiftDigit digit bit
        if byte = digit then
          return (uleb, bit + 7, data + 1)
        else
          go fuel uleb (bit + 7) (data + 1)
      else
        .error .assertion

def readUleb128 (m : Mem) (data : Addr) : Res (BitVec 64 × Addr) := do
  let (uleb, _, data) ← readLeb128 m data
  return (uleb, data)

def readSleb128 (m : Mem) (data : Addr) : Res (BitVec 64 × Addr) := do
  let (uleb, bits, data) ← readLeb128 m data
  -- the processor uses the low six bits of the two shift counts
  if uleb >>> ((bits - 1) % 64) = 1 then
    return (uleb ||| (-1 <<< (bits % 64)), data)
  else
    return (uleb, data)

end LibCxxRt
