import LibCxxRt.Util.Discipline

/-!
This module contains the evaluation of programs on views. A view is what matters of a state, `shows` says
which states it is a view of. A program that evaluates on a view ends with a result from each of them.
-/

namespace Util

variable {σ ε τ α β : Type} {shows : σ → τ → Prop} {v v' : τ} {m : Prog σ ε α} {f : α → Prog σ ε β}

def Evaluates (shows : σ → τ → Prop) (m : Prog σ ε α) (v : τ) (post : α → τ → Prop) : Prop :=
  ∀ s, shows s v → ∃ a s' v', m s = .ok (a, s') ∧ shows s' v' ∧ post a v'

-- the view determines the result
abbrev Yields (shows : σ → τ → Prop) (m : Prog σ ε α) (v : τ) (a : α) (v' : τ) : Prop :=
  Evaluates shows m v fun b w => b = a ∧ w = v'

namespace Evaluates

variable {post post' : α → τ → Prop} {post₂ : β → τ → Prop}

theorem pure {a : α} (h : post a v) : Evaluates shows (Pure.pure a : Prog σ ε α) v post := by
  intro s hs
  exact ⟨a, s, v, rfl, hs, h⟩

theorem imp (h : Evaluates shows m v post) (hpost : ∀ a w, post a w → post' a w)
    : Evaluates shows m v post' := by
  intro s hs
  rcases h s hs with ⟨a, s', w, hm, hs', ha⟩
  exact ⟨a, s', w, hm, hs', hpost a w ha⟩

theorem bind (h : Evaluates shows m v post) (hf : ∀ a w, post a w → Evaluates shows (f a) w post₂)
    : Evaluates shows (m >>= f) v post₂ := by
  intro s hs
  rcases h s hs with ⟨a, s₁, w, hm, hs₁, ha⟩
  rcases hf a w ha s₁ hs₁ with ⟨b, s', w', hb, hs', hpost⟩
  refine ⟨b, s', w', ?_, hs', hpost⟩
  rw [Prog.bind_of_ok hm, hb]

theorem map {g : α → β} (h : Evaluates shows m v fun a => post₂ (g a))
    : Evaluates shows (g <$> m) v post₂ := by
  rw [map_eq_pure_bind]
  apply bind h
  intro a w ha
  exact pure ha

theorem get : Evaluates shows (MonadState.get : Prog σ ε σ) v fun s w => w = v ∧ shows s v := by
  intro s hs
  exact ⟨s, s, v, rfl, hs, rfl, hs⟩

theorem modify {g : σ → σ} (h : ∀ s, shows s v → shows (g s) v')
    : Yields shows (modify g : Prog σ ε PUnit) v () v' := by
  intro s hs
  exact ⟨(), g s, v', rfl, h s hs, rfl, rfl⟩

-- what a state that the view shows looks like decides how to go on
theorem get_bind {f : σ → Prog σ ε β} (h : ∀ s, shows s v → Evaluates shows (f s) v post₂)
    : Evaluates shows (MonadState.get >>= f) v post₂ := by
  apply bind get
  rintro s w ⟨rfl, hs⟩
  exact h s hs

end Evaluates

namespace Yields

variable {a : α} {post : β → τ → Prop}

theorem pure (a : α) (v : τ) : Yields shows (Pure.pure a : Prog σ ε α) v a v :=
  Evaluates.pure ⟨rfl, rfl⟩

theorem bind (h : Yields shows m v a v') (hf : Evaluates shows (f a) v' post)
    : Evaluates shows (m >>= f) v post := by
  apply Evaluates.bind h
  rintro _ _ ⟨rfl, rfl⟩
  exact hf

theorem map {g : α → β} (h : Yields shows m v a v') : Yields shows (g <$> m) v (g a) v' := by
  apply Evaluates.map
  apply Evaluates.imp h
  rintro _ _ ⟨rfl, rfl⟩
  exact ⟨rfl, rfl⟩

end Yields

end Util
