import Mathlib.Data.List.Basic

/-!
This module contains dictionaries of what has been seen so far, in the order in which it was seen. What is in
the dictionary can be replaced by its number. A search that takes some entries for others still makes the
same dictionary, as long as no entry is taken for an earlier one.
-/

namespace Util

namespace Dictionary

variable {α : Type} {d d' : List α} {a b : α} (covers : α → α → Bool)

-- no entry is taken for an earlier one, `covers b a` if a search for `b` also stops at `a`
def Clean (d : List α) : Prop :=
  d.Pairwise fun a b => covers b a = false

instance (d : List α) : Decidable (Clean covers d) :=
  inferInstanceAs (Decidable (d.Pairwise _))

theorem Clean.mono {covers : α → α → Bool} (h : Clean covers d') (hd : d <+: d') : Clean covers d :=
  List.Pairwise.sublist hd.sublist h

def addUncovered (d : List α) (b : α) : List α :=
  if d.any (covers b) then d else d ++ [b]

theorem getElem?_of_idxOf? [BEq α] [LawfulBEq α] {i : Nat} (h : d.idxOf? a = some i) : d[i]? = some a := by
  rw [List.idxOf?, List.findIdx?_eq_some_iff_getElem] at h
  rcases h with ⟨hi, ha, _⟩
  rw [List.getElem?_eq_getElem hi, eq_of_beq ha]

variable [DecidableEq α]

def add (d : List α) (a : α) : List α :=
  if a ∈ d then d else d ++ [a]

theorem add_of_mem (h : a ∈ d) : add d a = d := by
  rw [add, if_pos h]

theorem add_of_not_mem (h : a ∉ d) : add d a = d ++ [a] := by
  rw [add, if_neg h]

theorem prefix_add (d : List α) (a : α) : d <+: add d a := by
  unfold add
  split
  . exact List.prefix_rfl
  . exact List.prefix_append _ _

theorem mem_add_self (d : List α) (a : α) : a ∈ add d a := by
  unfold add
  split
  . assumption
  . exact List.mem_concat_self

theorem mem_of_mem_add (h : b ∈ add d a) : b ∈ d ∨ b = a := by
  unfold add at h
  split at h
  . exact .inl h
  . simpa using h

theorem add_add_self (d : List α) (a : α) : add (add d a) a = add d a :=
  add_of_mem (mem_add_self d a)

theorem Clean.add {covers : α → α → Bool} (h : Clean covers d) (ha : ∀ b ∈ d, covers a b = false)
    : Clean covers (add d a) := by
  unfold Dictionary.add
  split
  . exact h
  . apply List.pairwise_append.2
    refine ⟨h, List.pairwise_singleton _ _, ?_⟩
    intro b hb c hc
    cases List.mem_singleton.1 hc
    exact ha b hb

theorem dropLast_add (h : a ∉ d) : (add d a).dropLast = d := by
  rw [add_of_not_mem h, List.dropLast_concat]

/--
If all entries can be told from the earlier ones, the dictionary is the same as for an exact search.
-/
theorem addUncovered_eq {covers : α → α → Bool} (hrefl : ∀ a, covers a a = true) (h : Clean covers (add d a))
    : addUncovered covers d a = add d a := by
  unfold addUncovered add
  by_cases hmem : a ∈ d
  . rw [if_pos hmem, if_pos]
    exact List.any_eq_true.2 ⟨a, hmem, hrefl a⟩
  . rw [add_of_not_mem hmem] at h
    rw [if_neg hmem, if_neg]
    rw [List.any_eq_true]
    rintro ⟨b, hb, hcovers⟩
    have hfalse := (List.pairwise_append.1 h).2.2 b hb a List.mem_cons_self
    rw [hcovers] at hfalse
    cases hfalse

end Dictionary

end Util
