import Mathlib.Data.Prod.Basic
import Mathlib.Logic.Function.Basic
import Mathlib.Tactic.Common

/-!
This module contains matchings between workers and the slots that they work on. Both sides keep
track of it: a worker knows its slot, a slot knows its worker, and both know the kind of the work.
-/

namespace Util

variable {ι κ φ : Type}

def Matched (worker : ι → Option (κ × φ)) (slot : κ → Option (ι × φ)) : Prop :=
  ∀ t i f, worker t = some (i, f) ↔ slot i = some (t, f)

namespace Matched

variable [DecidableEq ι] [DecidableEq κ] {worker : ι → Option (κ × φ)} {slot : κ → Option (ι × φ)}
variable {t : ι} {i : κ}

-- one worker and its slot change
theorem update (h : Matched worker slot) {x : Option (κ × φ)} {y : Option (ι × φ)}
    (hworker : ∀ j f, worker t = some (j, f) → j = i) (hslot : ∀ u f, slot i = some (u, f) → u = t)
    (hx : ∀ j f, x = some (j, f) → j = i) (hy : ∀ u f, y = some (u, f) → u = t)
    (hxy : ∀ f, x = some (i, f) ↔ y = some (t, f))
    : Matched (Function.update worker t x) (Function.update slot i y) := by
  intro u j f
  by_cases hu : u = t
  . subst hu
    rw [Function.update_self]
    by_cases hj : j = i
    . subst hj
      rw [Function.update_self]
      exact hxy f
    . rw [Function.update_of_ne hj, ← h u j f]
      refine iff_of_false ?_ ?_
      . intro hx'
        exact hj (hx j f hx')
      . intro hw
        exact hj (hworker j f hw)
  . rw [Function.update_of_ne hu]
    by_cases hj : j = i
    . subst hj
      rw [Function.update_self, h u j f]
      refine iff_of_false ?_ ?_
      . intro hs
        exact hu (hslot u f hs)
      . intro hy'
        exact hu (hy u f hy')
    . rw [Function.update_of_ne hj]
      exact h u j f

end Matched

end Util
