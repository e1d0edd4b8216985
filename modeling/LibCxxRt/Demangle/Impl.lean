import LibCxxRt.Basic
import Mathlib.Logic.Function.Basic

/-!
This module contains `__cxa_demangle` of `typeinfo.cc` and the buffers of its caller. The demangler behind
it is a parameter, the string that it allocates is freed again before `__cxa_demangle` returns and is not
part of the state.
-/

namespace LibCxxRt

namespace Demangle

-- a string without its terminator
structure CString where
  bytes : List (BitVec 8)
  nonzero : ∀ b ∈ bytes, b ≠ 0

namespace CString

def strlen (s : CString) : Nat :=
  s.bytes.length

-- the string and its terminator are at the start of the memory
def StoredIn (s : CString) (byte : Nat → BitVec 8) : Prop :=
  (∀ i, (hi : i < s.strlen) → byte i = s.bytes.get ⟨i, hi⟩) ∧ byte s.strlen = 0

end CString

structure Buffer where
  capacity : Nat
  byte : Nat → BitVec 8
  -- what the caller has got as the length, if it has asked for it
  length : Option Nat

-- the buffers that the caller owns
structure State where
  buffers : Nat → Option Buffer

/--
The arguments of a call, a null pointer is `none`, together with the result of `realloc` in it and what is
in a new allocation. Of `n` there is the value it points to, and of `status` whether it is null.
-/
structure Call (Name : Type) where
  mangledName : Name
  buf : Option Nat
  n : Option Nat
  status : Bool
  realloc : Option Nat
  garbage : Nat → BitVec 8

-- what a call returns and what it leaves in `*n` and `*status`
structure Return where
  buf : Option Nat
  n : Option Nat
  status : Option Int
  deriving DecidableEq, Repr

namespace State

def realloc (s : State) (buf : Option Nat) (size : Nat) (result : Option Nat)
    (garbage : Nat → BitVec 8) : Res (Option Nat × State) :=
  match result with
  | none => .ok (none, s)
  | some a =>
    match buf with
    | none => .ok (some a, ⟨Function.update s.buffers a (some ⟨size, garbage, none⟩)⟩)
    | some p =>
      match s.buffers p with
      | none => .error .fault
      | some b =>
        let buffers := Function.update s.buffers p none
        .ok (some a, ⟨Function.update buffers a (some { b with capacity := size })⟩)

-- `memcpy(buf, demangled, len)` and `buf[len] = 0`
def store (s : State) (buf : Nat) (demangled : CString) : Res State :=
  match s.buffers buf with
  | none => .error .fault
  | some b =>
    if demangled.strlen + 1 ≤ b.capacity then
      let byte i :=
        if hi : i < demangled.strlen then
          demangled.bytes.get ⟨i, hi⟩
        else if i = demangled.strlen then
          0
        else
          b.byte i
      .ok ⟨Function.update s.buffers buf (some { b with byte })⟩
    else
      .error .fault

-- the caller has got the length together with the buffer
def setLength (s : State) (buf : Nat) (length : Option Nat) : State :=
  ⟨Function.update s.buffers buf ((s.buffers buf).map fun b => { b with length })⟩

end State

variable {Name : Type}

-- `!buf || (*n < len+1)`
def isTooSmall (buf n : Option Nat) (len : Nat) : Res Bool :=
  match buf with
  | none => .ok true
  | some _ =>
    match n with
    | none => .error .fault
    | some n => .ok (decide (n < len + 1))

-- the value that `buf` has before the string is copied
def ensureRoom (s : State) (c : Call Name) (len : Nat) : Res (Option Nat × State) := do
  if ← isTooSmall c.buf c.n len then
    s.realloc c.buf (len + 1) c.realloc c.garbage
  else
    return (c.buf, s)

def cxaDemangle (demangle : Name → Option CString) (s : State) (c : Call Name) :
    Res (Return × State) :=
  let status (code : Int) := if c.status then some code else none
  match demangle c.mangledName with
  | some demangled => do
    let len := demangled.strlen
    let (buf, s) ← ensureRoom s c len
    match buf with
    | some buf =>
      let s ← s.store buf demangled
      let n := c.n.map fun _ => len
      return (⟨some buf, n, status 0⟩, s.setLength buf n)
    | none => return (⟨none, c.n, status (-1)⟩, s)
  | none => .ok (⟨none, c.n, status (-2)⟩, s)

end Demangle

end LibCxxRt
