import LibCxxRt.Demangle.Impl
import Mathlib

/-!
This module contains the characters and strings of the demangler in `libelftc_dem_gnu3.c` together with
what it uses of the C library on them.
-/

namespace LibCxxRt

namespace Demangle

namespace Gnu3

abbrev Byte := BitVec 8

def chr (c : Char) : Byte :=
  BitVec.ofNat 8 c.toNat

def ascii (s : String) : List Byte :=
  s.toList.map chr

def isDigit (b : Byte) : Bool :=
  chr '0' ≤ b && b ≤ chr '9'

def isUpper (b : Byte) : Bool :=
  chr 'A' ≤ b && b ≤ chr 'Z'

def isLower (b : Byte) : Bool :=
  chr 'a' ≤ b && b ≤ chr 'z'

-- space, tab, line feed, vertical tab, form feed and carriage return
def isSpace (b : Byte) : Bool :=
  b == 32 || (9 ≤ b && b ≤ 13)

-- `BUFFER_GROW`, where `(x + 0.5) * 1.618` is cut off
def bufferGrow (x : Nat) : Nat :=
  (2 * x + 1) * 809 / 1000

-- what `copy_string` makes of a string and a size that has one byte for the terminator
def copyString (src : List Byte) (len : Nat) : CString where
  bytes := (src.take len).takeWhile (· != 0)
  nonzero b hb := by
    have h := List.all_takeWhile (l := src.take len) (p := (· != 0))
    rw [List.all_eq_true] at h
    simpa using h b hb

def lit (s : String) : CString :=
  copyString (ascii s) (ascii s).length

-- `strncmp(s, o, l) == 0`
def strncmpEq (s o : CString) (l : Nat) : Bool :=
  s.bytes.take l == o.bytes.take l

-- `strstr(s, o) != NULL`
def strstr (s : CString) (o : List Byte) : Bool :=
  decide (o <:+: s.bytes)

-- the digits of `strtol`
def digitValue (b : Byte) : Option Nat :=
  if isDigit b then
    some (b - chr '0').toNat
  else if isUpper b then
    some ((b - chr 'A').toNat + 10)
  else if isLower b then
    some ((b - chr 'a').toNat + 10)
  else
    none

def isDigitOf (base : Nat) (b : Byte) : Bool :=
  match digitValue b with
  | some v => decide (v < base)
  | none => false

def valueOf (base : Nat) (digits : List Byte) : Nat :=
  digits.foldl (fun n b => n * base + (digitValue b).getD 0) 0

def LONG_MAX : Int :=
  2 ^ 63 - 1

def LONG_MIN : Int :=
  - 2 ^ 63

/--
The value that `strtol` returns for a base without a prefix, and whether there is no digit.
-/
def strtol (s : List Byte) (base : Nat) : Int × Bool :=
  let s := s.dropWhile isSpace
  let negative := s.head? == some (chr '-')
  let s := if negative || s.head? == some (chr '+') then s.tail else s
  let digits := s.takeWhile (isDigitOf base)
  let magnitude : Int := valueOf base digits
  (if negative then max (-magnitude) LONG_MIN else min magnitude LONG_MAX, digits.isEmpty)

-- `++nth` on a `long`, it goes from the largest value to the smallest
def incrementLong (n : Int) : Int :=
  if n = LONG_MAX then LONG_MIN else n + 1

-- what `snprintf` prints for `%ld`
def decimal (n : Int) : List Byte :=
  ascii (toString n)

-- `SIMPLE_HASH`, a `char` is signed on some platforms
def charToInt (signed : Bool) (b : Byte) : Int :=
  if signed then b.toInt else b.toNat

def simpleHash (signed : Bool) (x y : Byte) : Int :=
  64 * charToInt signed x + charToInt signed y

-- `hex_to_dec`
def hexToDec (c : Byte) : Int :=
  if isDigit c then
    (c - chr '0').toNat
  else if chr 'a' ≤ c && c ≤ chr 'f' then
    (c - chr 'a').toNat + 10
  else
    -1

end Gnu3

end Demangle

end LibCxxRt
