import Mathlib.Tactic.Common

/-!
This module contains programs that read an input from some position on, change a state on the way and end
with a result or an error. A discipline is what such programs keep to: how the state may develop, and which
errors do not occur.
-/

namespace Util

abbrev Prog (σ ε α : Type) := StateT σ (Except ε) α

namespace Prog

variable {σ ε α β : Type} {s s' : σ}

@[simp]
theorem pure_apply (a : α) (s : σ) : (pure a : Prog σ ε α) s = .ok (a, s) := by
  rfl

@[simp]
theorem throw_apply (e : ε) (s : σ) : (throw e : Prog σ ε α) s = .error e := by
  rfl

@[simp]
theorem get_apply (s : σ) : (get : Prog σ ε σ) s = .ok (s, s) := by
  rfl

@[simp]
theorem modify_apply (f : σ → σ) (s : σ) : (modify f : Prog σ ε PUnit) s = .ok ((), f s) := by
  rfl

theorem bind_of_ok {m : Prog σ ε α} {f : α → Prog σ ε β} {a : α} (h : m s = .ok (a, s'))
    : (m >>= f) s = f a s' := by
  show (m s >>= fun p => f p.1 p.2) = _
  rw [h]
  rfl

theorem bind_of_error {m : Prog σ ε α} {f : α → Prog σ ε β} {e : ε} (h : m s = .error e)
    : (m >>= f) s = .error e := by
  show (m s >>= fun p => f p.1 p.2) = _
  rw [h]
  rfl

theorem bind_eq_ok {m : Prog σ ε α} {f : α → Prog σ ε β} {b : β}
    : (m >>= f) s = .ok (b, s') ↔ ∃ a s₁, m s = .ok (a, s₁) ∧ f a s₁ = .ok (b, s') := by
  cases hm : m s with
  | error e =>
    rw [bind_of_error hm]
    simp
  | ok p =>
    rw [bind_of_ok hm]
    constructor
    . intro h
      exact ⟨p.1, p.2, rfl, h⟩
    . rintro ⟨a, s₁, hp, h⟩
      cases hp
      exact h

theorem bind_eq_error {m : Prog σ ε α} {f : α → Prog σ ε β} {e : ε}
    : (m >>= f) s = .error e
        ↔
      m s = .error e ∨ ∃ a s₁, m s = .ok (a, s₁) ∧ f a s₁ = .error e := by
  cases hm : m s with
  | error e' =>
    rw [bind_of_error hm]
    simp
  | ok p =>
    rw [bind_of_ok hm]
    constructor
    . intro h
      exact .inr ⟨p.1, p.2, rfl, h⟩
    . rintro (hp | ⟨a, s₁, hp, h⟩)
      . cases hp
      . cases hp
        exact h

end Prog

structure Discipline (σ ε : Type) where
  -- the states that are at a position or behind it
  behind : Nat → σ → Prop
  rel : σ → σ → Prop
  forbidden : ε → Prop
  refl : ∀ s, rel s s
  trans : ∀ {s s' s''}, rel s s' → rel s' s'' → rel s s''
  behind_of_le : ∀ {k k' s}, k ≤ k' → behind k' s → behind k s
  behind_of_rel : ∀ {k s s'}, rel s s' → behind k s → behind k s'

namespace Discipline

variable {σ ε α β γ : Type} (D : Discipline σ ε) {k k' : Nat}

-- `r` is between the states before and after, from the position `k` on
def Runs (k : Nat) (r : σ → σ → Prop) (m : Prog σ ε α) : Prop :=
  ∀ s, D.behind k s → match m s with
    | .ok (_, s') => r s s'
    | .error e => ¬ D.forbidden e

/--
A program that keeps to the discipline. The instances follow the structure of a program, so that the one for
a program is found from those for its parts.
-/
class Keeps (k : Nat) (m : Prog σ ε α) : Prop where
  runs : D.Runs k D.rel m

-- the state only has to stay behind each position
def loose : Discipline σ ε where
  behind := D.behind
  rel s s' := ∀ k, D.behind k s → D.behind k s'
  forbidden := D.forbidden
  refl _ _ := id
  trans h h' k := h' k ∘ h k
  behind_of_le := D.behind_of_le
  behind_of_rel h := h _

variable {D} {m : Prog σ ε α} {f : α → Prog σ ε β} {r r₁ r₂ : σ → σ → Prop}

theorem Runs.of_ok {s s' : σ} {a : α} (h : D.Runs k r m) (hk : D.behind k s) (hm : m s = .ok (a, s'))
    : r s s' := by
  have hs := h s hk
  rw [hm] at hs
  exact hs

theorem Runs.of_error {s : σ} {e : ε} (h : D.Runs k r m) (hk : D.behind k s) (hm : m s = .error e)
    : ¬ D.forbidden e := by
  have hs := h s hk
  rw [hm] at hs
  exact hs

theorem Runs.intro (hok : ∀ s a s', D.behind k s → m s = .ok (a, s') → r s s')
    (herror : ∀ s e, D.behind k s → m s = .error e → ¬ D.forbidden e) : D.Runs k r m := by
  intro s hk
  cases hm : m s with
  | error e => exact herror s e hk hm
  | ok p => exact hok s p.1 p.2 hk hm

theorem Runs.from_le (h : D.Runs k r m) (hk : k ≤ k') : D.Runs k' r m := by
  intro s hs
  exact h s (D.behind_of_le hk hs)

-- the state is behind `k'` when the first part is done
theorem Runs.bind (hm : D.Runs k r₁ m) (hf : ∀ a, D.Runs k' r₂ (f a))
    (hbehind : ∀ s s', D.behind k s → r₁ s s' → D.behind k' s')
    (hcomp : ∀ s s' s'', r₁ s s' → r₂ s' s'' → r s s'') : D.Runs k r (m >>= f) := by
  apply Runs.intro
  . intro s b s'' hk h
    rcases Prog.bind_eq_ok.1 h with ⟨a, s', h₁, h₂⟩
    have hr₁ := hm.of_ok hk h₁
    apply hcomp s s' s'' hr₁
    exact (hf a).of_ok (hbehind s s' hk hr₁) h₂
  . intro s e hk h
    rcases Prog.bind_eq_error.1 h with h | ⟨a, s', h₁, h₂⟩
    . exact hm.of_error hk h
    . exact (hf a).of_error (hbehind s s' hk (hm.of_ok hk h₁)) h₂

namespace Keeps

instance pure (a : α) : D.Keeps k (Pure.pure a : Prog σ ε α) where
  runs s _ := D.refl s

instance get : D.Keeps k (MonadState.get : Prog σ ε σ) where
  runs s _ := D.refl s

theorem throw {e : ε} (he : ¬ D.forbidden e) : D.Keeps k (MonadExcept.throw e : Prog σ ε α) where
  runs _ _ := he

theorem modify {g : σ → σ} (hg : ∀ s, D.rel s (g s)) : D.Keeps k (modify g : Prog σ ε PUnit) where
  runs s _ := hg s

instance bind [hm : D.Keeps k m] [hf : ∀ a, D.Keeps k (f a)] : D.Keeps k (m >>= f) where
  runs := by
    apply Runs.bind hm.runs fun a => (hf a).runs
    . intro s s' hk h
      exact D.behind_of_rel h hk
    . intro s s' s'' h h'
      exact D.trans h h'

theorem seq (hm : D.Keeps k m) (hf : ∀ a, D.Keeps k (f a)) : D.Keeps k (m >>= f) := by
  infer_instance

-- what follows starts at `k'`
theorem bind_forward {j : Nat} (hm : D.Runs k (fun s s' => D.rel s s' ∧ (D.behind k s → D.behind j s')) m)
    (hf : ∀ a, D.Keeps j (f a)) : D.Keeps k (m >>= f) where
  runs := by
    apply Runs.bind hm fun a => (hf a).runs
    . intro s s' hk h
      exact h.2 hk
    . intro s s' s'' h h'
      exact D.trans h.1 h'

theorem from_le (h : D.Keeps k m) (hk : k ≤ k') : D.Keeps k' m where
  runs := Runs.from_le h.runs hk

instance ite {c : Prop} [Decidable c] {m m' : Prog σ ε α} [h : D.Keeps k m] [h' : D.Keeps k m']
    : D.Keeps k (if c then m else m') := by
  split
  . exact h
  . exact h'

instance loose [h : D.Keeps k m] : D.loose.Keeps k m where
  runs := by
    apply Runs.intro
    . intro s a s' hk hm n
      exact D.behind_of_rel (h.runs.of_ok hk hm)
    . intro s e hk hm
      exact h.runs.of_error hk hm

instance map {g : α → β} [D.Keeps k m] : D.Keeps k (g <$> m) := by
  rw [map_eq_pure_bind]
  infer_instance

-- `loose` programs only have to move forward, a program of loose parts may keep to the discipline as a whole
theorem of_loose {m : Prog σ ε α} [h : D.loose.Keeps k m]
    (hok : ∀ s a s', D.behind k s → m s = .ok (a, s') → D.rel s s') : D.Keeps k m where
  runs := Runs.intro hok fun _ _ hk hm => h.runs.of_error hk hm

-- what the first part changes is taken back by the last one
theorem bracket {acquire : Prog σ ε α} {body : α → Prog σ ε β} {release : α → β → Prog σ ε γ}
    [D.loose.Keeps k acquire] [hbody : ∀ a, D.Keeps k (body a)] [∀ a b, D.loose.Keeps k (release a b)]
    (h : ∀ s a s₁ b s₂ c s₃, D.behind k s₂ → acquire s = .ok (a, s₁) → D.rel s₁ s₂
      → release a b s₂ = .ok (c, s₃) → D.rel s s₃)
    : D.Keeps k (acquire >>= fun a => body a >>= release a) := by
  apply of_loose
  intro s c s₃ hk hm
  rcases Prog.bind_eq_ok.1 hm with ⟨a, s₁, hacquire, hm⟩
  rcases Prog.bind_eq_ok.1 hm with ⟨b, s₂, hb, hrelease⟩
  have hloose : D.loose.Keeps k acquire := inferInstance
  have hk₁ := hloose.runs.of_ok hk hacquire k hk
  have hrel := (hbody a).runs.of_ok hk₁ hb
  exact h s a s₁ b s₂ c s₃ (D.behind_of_rel hrel hk₁) hacquire hrel hrelease

end Keeps

end Discipline

end Util
