import LibCxxRt.DwarfEh.Impl.Lsda
import LibCxxRt.Util.Leb128

/-!
This module contains the format that the readers of the DWARF exception tables are for: the bytes
that a value is stored as in each of its encodings, and those of a call-site table.
-/

namespace LibCxxRt

open Util

def littleEndian : Nat → BitVec 64 → List (BitVec 8)
  | 0, _ => []
  | n + 1, v => v.setWidth 8 :: littleEndian n (v >>> 8)

-- 64 bits take at most ten digits
def writeUleb128 (v : BitVec 64) : List (BitVec 8) :=
  Leb128.bytes (Leb128.digits Leb128.unsigned 10 v.toNat)

def writeSleb128 (v : BitVec 64) : List (BitVec 8) :=
  Leb128.bytes (Leb128.digits Leb128.signed 10 v.toInt)

def writeValue (encoding : BitVec 8) (v : BitVec 64) : List (BitVec 8) :=
  match getEncoding encoding with
  | .udata2 | .sdata2 => littleEndian 2 v
  | .udata4 | .sdata4 => littleEndian 4 v
  | .udata8 | .sdata8 | .absptr => littleEndian 8 v
  | .sleb128 => writeSleb128 v
  | .uleb128 => writeUleb128 v
  | .unknown => []

def Representable (encoding : BitVec 8) (v : BitVec 64) : Prop :=
  match getEncoding encoding with
  | .udata2 => v.toNat < 2 ^ 16
  | .udata4 => v.toNat < 2 ^ 32
  | .sdata2 => -2 ^ 15 ≤ v.toInt ∧ v.toInt < 2 ^ 15
  | .sdata4 => -2 ^ 31 ≤ v.toInt ∧ v.toInt < 2 ^ 31
  | .udata8 | .sdata8 | .absptr | .sleb128 | .uleb128 => True
  | .unknown => False

structure Callsite where
  start : BitVec 64
  size : BitVec 64
  landingPad : BitVec 64
  action : BitVec 64
  deriving DecidableEq, Repr

def Callsite.write (encoding : BitVec 8) (r : Callsite) : List (BitVec 8) :=
  writeValue encoding r.start ++ writeValue encoding r.size ++ writeValue encoding r.landingPad
    ++ writeUleb128 r.action

def writeCallsites (encoding : BitVec 8) (t : List Callsite) : List (BitVec 8) :=
  t.flatMap (·.write encoding)

end LibCxxRt
