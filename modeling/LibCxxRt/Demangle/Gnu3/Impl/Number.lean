import LibCxxRt.Demangle.Gnu3.Impl.Data

/-!
This module contains the functions of the demangler that read numbers, source names, offsets and floating
point literals.
-/

namespace LibCxxRt

namespace Demangle

namespace Gnu3

-- the number at the cursor, which is not moved
def peekLong (base : Nat) : P Int := do
  let r := strtol (← rest) base
  failIf (r.1 = 0 ∧ r.2 ∧ (← get).env.strtolSetsErrno)
  pure r.1

-- read a character if it is there
def skipIf (c : Char) : P Bool := do
  if (← peek) = chr c then
    advance 1
    pure true
  else
    pure false

def readNumber : P Int := do
  let negative ← skipIf 'n'
  failIf !isDigit (← peek)
  let len ← peekLong 10
  let _ ← skipWhile isDigit
  stopIf (len < 0) .assertion
  pure (if negative then -len else len)

def readNumberAsString : P (List Byte) := do
  let n ← readNumber
  let _ ← malloc
  pure (decimal n)

-- `memcmp("_GLOBAL__N_1", ddata->cur, 12) == 0`
def isAnonymousNamespace : P Bool := do
  let s ← rest
  stopIf (s.length + 1 < 12) .fault
  pure (s.take 12 == ascii "_GLOBAL__N_1")

def pushSname (len : Nat) : P Unit := do
  if len = 12 then
    if ← isAnonymousNamespace then
      demPushStr (ascii "(anonymous namespace)")
    else
      pushStr (← rest) len
  else
    pushStr (← rest) len

def updateLastSname : P Unit := do
  let d ← get
  let v ← getOutput d.curOutput
  match v.items.getLast? with
  | none => stop .assertion
  | some s =>
    doIf (readCmdFind d.cmd .tmpl).isNone do
      modify fun d => { d with lastSname := some (.element s.addr) }

-- the number is not compared with what is left of the name
def readSname : P Unit := do
  let len ← readNumber
  failIf (len ≤ 0)
  pushSname len.toNat
  updateLastSname
  advance len.toNat

-- `_` and digits
def skipDiscriminator : P Unit := do
  if ← skipIf '_' then
    let _ ← skipWhile isDigit

def localSourceName : P Unit := do
  failIf ((← peek) ≠ chr 'L')
  advance 1
  readSname
  skipDiscriminator

def tryPushAll : List (List Byte) → P Bool
  | [] => pure true
  | s :: strs => do
    if ← tryPushStr s s.length then
      tryPushAll strs
    else
      pure false

def readOffsetNumber : P Bool := do
  let c ← peek
  if c = 0 then
    pure false
  else do
    let skipped ← skipTo '_'
    let strs := if c = chr 'n' then [ascii "-", skipped.tail] else [skipped]
    if ← tryPushAll (strs ++ [ascii " "]) then
      advance 1
      pure true
    else
      pure false

def readNvOffset : P Unit := do
  demPushStr (ascii "offset : ")
  failIf !(← readOffsetNumber)

-- the result of the second number is negated
def readVOffset : P Unit := do
  demPushStr (ascii "offset : ")
  failIf !(← readOffsetNumber)
  demPushStr (ascii "virtual offset : ")
  failIf (← readOffsetNumber)

def readOffset : P Unit := do
  if (← peek) = chr 'h' then
    advance 1
    readNvOffset
  else if (← peek) = chr 'v' then
    advance 1
    readVOffset
  else
    fail

-- the last two digits are the byte at the lowest address
def hexBytes : List Byte → Option (List Byte)
  | hi :: lo :: digits => do
    let bytes ← hexBytes digits
    let byte := hexToDec lo + hexToDec hi * 16
    if byte < 0 ∨ 255 < byte then
      none
    else
      some (bytes ++ [BitVec.ofInt 8 byte])
  | _ => some []

def FLOAT_SPRINTF_TRY_LIMIT : Nat :=
  5

def FLOAT_QUADRUPLE_BYTES : Nat :=
  16

def FLOAT_EXTENED_BYTES : Nat :=
  10

-- a buffer that is too small is replaced by a larger one
def snprintfFp (text : CString) : (tries : Nat) → (rtnLen : Nat) → P (Option CString)
  | 0, _ => pure none
  | tries + 1, rtnLen => do
    match ← tryMalloc with
    | none => pure none
    | some _ =>
      if text.strlen < rtnLen then
        pure (some text)
      else
        snprintfFp text tries (rtnLen * 1618 / 1000)

-- what follows the conversion in the format
def FpType.suffix : FpType → String
  | .float => "f"
  | .double => "ld"
  | .longDouble => "d"

def FpType.rtnLen : FpType → Nat
  | .longDouble => 256
  | _ => 64

/--
At most `max` bytes are read into an object of `size` bytes that has been set to zero. The order of bytes
is not defined for the preprocessor, so it is taken to be little-endian.
-/
def decodeFp (t : FpType) (max size : Nat) (p : List Byte) : P (Option CString) := do
  if p.length = 0 ∨ p.length % 2 ≠ 0 ∨ max < p.length / 2 then
    pure none
  else
    match hexBytes p with
    | none => pure none
    | some bytes =>
      let object := (bytes ++ List.replicate size 0).take size
      let text := (← get).env.printFp t object
      let text := text.bytes ++ ascii t.suffix
      snprintfFp (copyString text text.length) (FLOAT_SPRINTF_TRY_LIMIT + 2) t.rtnLen

def decodeFpToDouble : List Byte → P (Option CString) :=
  decodeFp .double 8 8

def decodeFpToFloat : List Byte → P (Option CString) :=
  decodeFp .float 4 4

def decodeFpToLongDouble (p : List Byte) : P (Option CString) := do
  let size := (← get).env.sizeofLongDouble
  decodeFp .longDouble size size p

def decodeFpToFloat128 (p : List Byte) : P (Option CString) := do
  let size := (← get).env.sizeofLongDouble
  if size = FLOAT_QUADRUPLE_BYTES then
    decodeFpToLongDouble p
  else if size = FLOAT_EXTENED_BYTES then
    decodeFp .longDouble FLOAT_QUADRUPLE_BYTES FLOAT_EXTENED_BYTES p
  else
    pure none

def decodeFpToFloat80 (p : List Byte) : P (Option CString) := do
  let size := (← get).env.sizeofLongDouble
  if size = FLOAT_QUADRUPLE_BYTES then
    decodeFp .longDouble FLOAT_EXTENED_BYTES FLOAT_QUADRUPLE_BYTES p
  else if size = FLOAT_EXTENED_BYTES then
    decodeFpToLongDouble p
  else
    pure none

def pushFp (decoder : List Byte → P (Option CString)) : P Unit := do
  let fp ← skipTo 'E'
  let f ← failIfNone (← decoder fp)
  demPushStr f.bytes
  advance 1

end Gnu3

end Demangle

end LibCxxRt
