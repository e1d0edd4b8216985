import Mathlib.Data.Set.Card

/-!
This module contains the number of components of a family that have a property, and how it changes
when one component is updated.
-/

namespace Util

variable {ι α : Type} {f : ι → α} {p : α → Bool}

noncomputable def census (f : ι → α) (p : α → Bool) : Nat :=
  {i | p (f i)}.ncard

def FinitelyMany (f : ι → α) (p : α → Bool) : Prop :=
  {i | p (f i)}.Finite

theorem census_split (hfin : FinitelyMany f p) (i : ι)
    : census f p = {j | j ≠ i ∧ p (f j)}.ncard + (p (f i)).toNat := by
  have hrest : {j | j ≠ i ∧ p (f j)}.Finite := by
    apply hfin.subset
    intro j hj
    exact hj.2
  unfold census
  cases hp : p (f i) with
  | false =>
    have hsame : {j | p (f j)} = {j | j ≠ i ∧ p (f j)} := by
      ext j
      by_cases heq : j = i <;> simp [heq, hp]
    rw [hsame]
    rfl
  | true =>
    have hinsert : {j | p (f j)} = insert i {j | j ≠ i ∧ p (f j)} := by
      ext j
      by_cases heq : j = i <;> simp [heq, hp]
    rw [hinsert]
    apply Set.ncard_insert_of_notMem _ hrest
    simp

theorem census_pos (hfin : FinitelyMany f p) : 0 < census f p ↔ ∃ i, p (f i) := by
  exact Set.ncard_pos hfin

theorem census_eq_zero (hfin : FinitelyMany f p) : census f p = 0 ↔ ∀ i, p (f i) = false := by
  have hpos := census_pos hfin
  rw [Nat.pos_iff_ne_zero] at hpos
  rw [← not_iff_not, ← ne_eq, hpos]
  simp

variable [DecidableEq ι]

theorem FinitelyMany.update (hfin : FinitelyMany f p) (i : ι) (a : α)
    : FinitelyMany (Function.update f i a) p := by
  apply (hfin.insert i).subset
  intro j hj
  by_cases heq : j = i
  . exact .inl heq
  . right
    simpa [heq] using hj

theorem census_update (hfin : FinitelyMany f p) (i : ι) (a : α)
    : census (Function.update f i a) p + (p (f i)).toNat = census f p + (p a).toNat := by
  have hrest : {j | j ≠ i ∧ p (Function.update f i a j)} = {j | j ≠ i ∧ p (f j)} := by
    ext j
    by_cases heq : j = i <;> simp [heq]
  rw [census_split hfin i, census_split (hfin.update i a) i, hrest, Function.update_self]
  omega

end Util
