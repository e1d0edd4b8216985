import Mathlib.Tactic.Common

/-!
This module contains the vocabulary that the model of the runtime is written in: 64-bit addresses,
the ways in which a function of the runtime can end without returning, and the byte memory that the
DWARF tables, the `type_info` objects and the thrown objects live in.

The target is LP64 with the Itanium unwinder, of the branches for ARM EHABI there is only the stack of
cleanups. Functions and fields keep the names that they have in the source, in camel case.
-/

namespace LibCxxRt

abbrev Addr := BitVec 64

inductive Stop where
  | terminate
  | abort
  | assertion
  -- an access to memory at which the model has nothing
  | fault
  -- a loop that the model runs for a given number of iterations needs more of them
  | outOfFuel
  deriving DecidableEq, Repr

abbrev Res := Except Stop

namespace Res

@[simp]
theorem ok_bind {α β : Type} (a : α) (f : α → Res β) : ((.ok a : Res α) >>= f) = f a := by
  rfl

@[simp]
theorem error_bind {α β : Type} (e : Stop) (f : α → Res β) :
    ((.error e : Res α) >>= f) = .error e := by
  rfl

@[simp]
theorem pure_eq_ok {α : Type} (a : α) : (pure a : Res α) = .ok a := by
  rfl

theorem bind_eq_ok {α β : Type} {x : Res α} {f : α → Res β} {b : β} :
    (x >>= f) = .ok b ↔ ∃ a, x = .ok a ∧ f a = .ok b := by
  cases x <;> simp

end Res

abbrev Mem := Addr → Option (BitVec 8)

namespace Mem

def byte (m : Mem) (a : Addr) : Res (BitVec 8) :=
  match m a with
  | some b => .ok b
  | none => .error .fault

-- an `n`-byte little-endian integer
def load (m : Mem) (a : Addr) : (n : Nat) → Res (BitVec (8 * n))
  | 0 => .ok 0
  | n + 1 => do
    let lo ← m.byte a
    let hi ← m.load (a + 1) n
    return hi ++ lo

def loadPtr (m : Mem) (a : Addr) : Res Addr :=
  m.load a 8

def ofList (base : Addr) (bytes : List (BitVec 8)) : Mem :=
  fun a => bytes[(a - base).toNat]?

end Mem

end LibCxxRt
