import Mathlib.Tactic.Common

/-!
This module contains computations that can fail and that record what they do on the way. A
computation that fails keeps its record.
-/

namespace Util

structure Traced (ρ ε α : Type) where
  record : List ρ
  result : Except ε α

namespace Traced

variable {ρ ε α β : Type}

instance : Monad (Traced ρ ε) where
  pure a := ⟨[], .ok a⟩
  bind x f :=
    match x.result with
    | .ok a => ⟨x.record ++ (f a).record, (f a).result⟩
    | .error e => ⟨x.record, .error e⟩

def note (r : ρ) : Traced ρ ε Unit :=
  ⟨[r], .ok ()⟩

def lift (x : Except ε α) : Traced ρ ε α :=
  ⟨[], x⟩

instance : MonadLift (Except ε) (Traced ρ ε) where
  monadLift := lift

def Only (P : ρ → Prop) (x : Traced ρ ε α) : Prop :=
  ∀ r ∈ x.record, P r

@[simp]
theorem result_pure (a : α) : (pure a : Traced ρ ε α).result = .ok a := by
  rfl

@[simp]
theorem record_pure (a : α) : (pure a : Traced ρ ε α).record = [] := by
  rfl

@[simp]
theorem result_note (r : ρ) : (note r : Traced ρ ε Unit).result = .ok () := by
  rfl

@[simp]
theorem result_lift (x : Except ε α) : (lift x : Traced ρ ε α).result = x := by
  rfl

@[simp]
theorem result_liftM (x : Except ε α) : (liftM x : Traced ρ ε α).result = x := by
  rfl

@[simp]
theorem result_bind (x : Traced ρ ε α) (f : α → Traced ρ ε β)
    : (x >>= f).result = x.result >>= fun a => (f a).result := by
  cases hx : x.result with
  | ok a =>
    simp only [bind, hx]
    rfl
  | error e =>
    simp only [bind, hx]
    rfl

@[simp]
theorem liftM_ok_bind (a : α) (f : α → Traced ρ ε β)
    : ((liftM (Except.ok a : Except ε α) : Traced ρ ε α) >>= f) = f a := by
  rfl

@[simp]
theorem pure_bind (a : α) (f : α → Traced ρ ε β)
    : ((pure a : Traced ρ ε α) >>= f) = f a := by
  rfl

theorem record_bind_ne_nil {x : Traced ρ ε α} (hx : x.record ≠ []) (f : α → Traced ρ ε β)
    : (x >>= f).record ≠ [] := by
  cases hres : x.result with
  | ok a => simp [bind, hres, hx]
  | error e => simpa [bind, hres] using hx

@[simp]
theorem note_bind (r : ρ) (f : Unit → Traced ρ ε β)
    : (note r >>= f) = ⟨r :: (f ()).record, (f ()).result⟩ := by
  rfl

variable {P : ρ → Prop}

@[simp]
theorem only_pure (a : α) : Only P (pure a : Traced ρ ε α) := by
  intro r hr
  contradiction

@[simp]
theorem only_lift (x : Except ε α) : Only P (lift x : Traced ρ ε α) := by
  intro r hr
  contradiction

@[simp]
theorem only_liftM (x : Except ε α) : Only P (liftM x : Traced ρ ε α) := by
  intro r hr
  contradiction

@[simp]
theorem only_note (r : ρ) : Only P (note r : Traced ρ ε Unit) ↔ P r := by
  unfold Only
  simp [note]

@[simp]
theorem only_bind (x : Traced ρ ε α) (f : α → Traced ρ ε β)
    : Only P (x >>= f) ↔ Only P x ∧ ∀ a, x.result = .ok a → Only P (f a) := by
  unfold Only
  cases hx : x.result with
  | ok a => simp [bind, hx, or_imp, forall_and]
  | error e => simp [bind, hx]

end Traced

end Util
