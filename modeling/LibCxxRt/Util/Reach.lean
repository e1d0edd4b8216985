import Mathlib.Tactic.Common

/-!
This module contains the runs of a labelled transition system that is given by a partial step
function. A run can be restricted to the steps that a predicate allows.
-/

namespace Util

variable {σ ℓ : Type}

inductive Reach (init : σ) (step : σ → ℓ → Option σ) (allowed : σ → ℓ → Prop) : σ → Prop where
  | init : Reach init step allowed init
  | step {s s' : σ} {l : ℓ} (hs : Reach init step allowed s) (hl : allowed s l)
      (hstep : step s l = some s') : Reach init step allowed s'

def run (step : σ → ℓ → Option σ) (s : σ) : List ℓ → Option σ
  | [] => some s
  | l :: ls => step s l >>= fun s' => run step s' ls

namespace Reach

variable {init : σ} {step : σ → ℓ → Option σ} {allowed : σ → ℓ → Prop}

theorem invariant {P : σ → Prop} (hinit : P init)
    (hpres : ∀ s l s', P s → allowed s l → step s l = some s' → P s') {s : σ}
    (hs : Reach init step allowed s) : P s := by
  induction hs with
  | init => exact hinit
  | step _ hl hstep ih => exact hpres _ _ _ ih hl hstep

theorem trans {s s' : σ} (hs : Reach init step allowed s) (hs' : Reach s step allowed s')
    : Reach init step allowed s' := by
  induction hs' with
  | init => exact hs
  | step _ hl hstep ih => exact .step ih hl hstep

theorem mono {allowed' : σ → ℓ → Prop} (hallowed : ∀ s l, allowed s l → allowed' s l) {s : σ}
    (hs : Reach init step allowed s) : Reach init step allowed' s := by
  induction hs with
  | init => exact .init
  | step _ hl hstep ih => exact .step ih (hallowed _ _ hl) hstep

theorem of_run {s s' : σ} {ls : List ℓ} (hs : Reach init step allowed s)
    (hallowed : ∀ s, ∀ l ∈ ls, allowed s l) (hrun : run step s ls = some s')
    : Reach init step allowed s' := by
  induction ls generalizing s with
  | nil =>
    cases hrun
    exact hs
  | cons l ls ih =>
    rcases Option.bind_eq_some_iff.mp hrun with ⟨s₁, hstep, hrun⟩
    apply ih (.step hs (hallowed s l List.mem_cons_self) hstep)
    . intro s l hl
      exact hallowed s l (List.mem_cons_of_mem _ hl)
    . exact hrun

end Reach

end Util
