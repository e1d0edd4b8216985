import Mathlib.Data.List.Dedup

/-!
This module contains stacks in which equal elements are next to each other. The distinct elements of
such a stack, in the order of their oldest occurrence, are a stack as well: it has the same top.
-/

namespace Util

variable {α : Type}

def Grouped : List α → Prop
  | [] => True
  | a :: l => Grouped l ∧ (a ∈ l → l.head? = some a)

namespace Grouped

variable [DecidableEq α] {a : α} {l : List α}

theorem head?_dedup (hl : Grouped l) : l.dedup.head? = l.head? := by
  induction l with
  | nil => rfl
  | cons a l ih =>
    rcases hl with ⟨hl, ha⟩
    by_cases hmem : a ∈ l
    . rw [List.dedup_cons_of_mem hmem, ih hl, ha hmem]
      rfl
    . rw [List.dedup_cons_of_notMem hmem]
      rfl

end Grouped

end Util
