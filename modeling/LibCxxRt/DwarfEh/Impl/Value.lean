import LibCxxRt.DwarfEh.Impl.Leb128
import LibCxxRt.Unwind

/-!
This module contains the encodings of the values in the DWARF exception tables and the functions of
`dwarf_eh.h` that read and resolve such a value. Where the source advances `*data` they return the
new pointer as the last component.
-/

namespace LibCxxRt

inductive DwarfDataEncoding where
  | absptr
  | uleb128
  | udata2
  | udata4
  | udata8
  | sleb128
  | sdata2
  | sdata4
  | sdata8
  | unknown
  deriving DecidableEq, Repr

inductive DwarfDataRelative where
  | absolute
  | pcrel
  | textrel
  | datarel
  | funcrel
  | aligned
  | unknown
  deriving DecidableEq, Repr

def dwEhPeOmit : BitVec 8 := 0xff

def getEncoding (x : BitVec 8) : DwarfDataEncoding :=
  match (x &&& 0xf).toNat with
  | 0x0 => .absptr
  | 0x1 => .uleb128
  | 0x2 => .udata2
  | 0x3 => .udata4
  | 0x4 => .udata8
  | 0x9 => .sleb128
  | 0xa => .sdata2
  | 0xb => .sdata4
  | 0xc => .sdata8
  | _ => .unknown

def getBase (x : BitVec 8) : DwarfDataRelative :=
  match (x &&& 0x70).toNat with
  | 0x00 => .absolute
  | 0x10 => .pcrel
  | 0x20 => .textrel
  | 0x30 => .datarel
  | 0x40 => .funcrel
  | 0x50 => .aligned
  | _ => .unknown

def isIndirect (x : BitVec 8) : Bool :=
  x &&& 0x80 == 0x80

def dwarfSizeOfFixedSizeField (type : BitVec 8) : Res (BitVec 32) :=
  match getEncoding type with
  | .sdata2 | .udata2 => .ok 2
  | .sdata4 | .udata4 => .ok 4
  | .sdata8 | .udata8 => .ok 8
  | .absptr => .ok 8
  | .uleb128 | .sleb128 | .unknown => .error .abort

def readValue (m : Mem) (encoding : BitVec 8) (data : Addr) : Res (BitVec 64 × Addr) :=
  match getEncoding encoding with
  | .udata2 => do return ((← m.load data 2).zeroExtend 64, data + 2)
  | .udata4 => do return ((← m.load data 4).zeroExtend 64, data + 4)
  | .udata8 => do return ((← m.load data 8), data + 8)
  | .sdata2 => do return ((← m.load data 2).signExtend 64, data + 2)
  | .sdata4 => do return ((← m.load data 4).signExtend 64, data + 4)
  | .sdata8 => do return ((← m.load data 8), data + 8)
  | .absptr => do return ((← m.load data 8), data + 8)
  | .sleb128 => readSleb128 m data
  | .uleb128 => readUleb128 m data
  | .unknown => .error .abort

def resolveIndirectValue (m : Mem) (c : UnwindContext) (encoding : BitVec 8) (v : BitVec 64)
    (start : Addr) : Res (BitVec 64) :=
  let v :=
    match getBase encoding with
    | .pcrel => v + start
    | .textrel => v + c.textRelBase
    | .datarel => v + c.dataRelBase
    | .funcrel => v + c.regionStart
    | .absolute | .aligned | .unknown => v
  if isIndirect encoding then
    m.loadPtr v
  else
    .ok v

def readValueWithEncoding (m : Mem) (context : UnwindContext) (data : Addr) (out : BitVec 64) :
    Res (BitVec 64 × Addr) := do
  -- note that this is the address of the encoding, not the one of the value
  let start := data
  let encoding ← m.byte data
  let data := data + 1
  if encoding = dwEhPeOmit then
    return (out, data)
  else
    let (out, data) ← readValue m encoding data
    return (← resolveIndirectValue m context encoding out start, data)

end LibCxxRt
