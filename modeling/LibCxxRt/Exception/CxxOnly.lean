import LibCxxRt.Exception.Lemmas.Step
import LibCxxRt.Exception.Lemmas.Transition

/-!
This module contains the proof that the runtime cannot mistake a foreign exception for one of its own
in a program in which no foreign exceptions occur.
-/

namespace LibCxxRt

open Util

namespace State

def CxxOnly (_ : State) (l : Nat × Action) : Prop :=
  match l.2 with
  | .raiseForeign .. => False
  | _ => True

def NoForeign (s : State) : Prop :=
  ∀ i, ∀ x ∈ excs (s.activities i), x.isForeign = false

variable {img : Image} {s s' : State} {i : Nat} {action : Action}

theorem NoForeign.clean (hs : s.NoForeign) (l : Nat × Action) : s.Clean l := by
  have hhead (x : Exc) (hx : (handlers (s.activities l.1)).head? = some x) (hforeign : x.isForeign)
      : (s.process.threads l.1).foreignExceptionState ≠ .none := by
    have hmem : x ∈ excs (s.activities l.1) := mem_excs_of_head hx
    rw [hs l.1 x hmem] at hforeign
    contradiction
  unfold Clean
  split
  . exact hhead
  . exact hhead
  . exact hhead
  . trivial

end State

-- the exception that a program raises for the first time
def Action.raised? : Action → Option Exc
  | .throw b .. => some ⟨b, false⟩
  | .raiseForeign b .. => some ⟨b, true⟩
  | .rethrowPrimary _ d => some ⟨d, false⟩
  | _ => none

namespace State

-- apart from the exception that it raises, a thread has no other exceptions than before
theorem excs_of_step (hinv : s.Inv) (hclean : s.Clean (i, action))
    (hstep : step img s (i, action) = some s')
    : ∃ c', s'.activities = Function.update s.activities i c'
      ∧ ∀ x ∈ excs c', x ∈ excs (s.activities i) ∨ action.raised? = some x := by
  have hself : s.activities = Function.update s.activities i (s.activities i) := by simp
  cases transition_of_step hstep with
  | throw | raiseForeign | rethrowPrimary => exact ⟨_, rfl, by simp +contextual [Action.raised?]⟩
  | beginCatch hc | callUnexpected hc | endCatch hc | endCatchUnwinding hc =>
    exact ⟨_, rfl, by simp +contextual [hc]⟩
  | rethrow =>
    rcases (hinv.rethrow hclean hstep).2 with ⟨x, hhead, hactivities⟩
    refine ⟨_, hactivities, ?_⟩
    rw [excs_unwinding, List.forall_mem_cons]
    refine ⟨.inl ?_, fun _ => .inl⟩
    rw [mem_excs_iff]
    exact .inl (List.mem_of_mem_head? hhead)
  | _ => exact ⟨_, hself, by simp +contextual⟩

theorem NoForeign.of_step (hs : s.NoForeign) (hinv : s.Inv) (hcxx : s.CxxOnly (i, action))
    (hstep : step img s (i, action) = some s') : s'.NoForeign := by
  rcases excs_of_step hinv (hs.clean _) hstep with ⟨c', hactivities, hc'⟩
  intro j x hx
  rw [hactivities] at hx
  by_cases heq : j = i
  . rw [heq, Function.update_self] at hx
    rcases hc' x hx with hold | hnew
    . exact hs i x hold
    . cases action with
      | throw | rethrowPrimary =>
        cases hnew
        rfl
      | raiseForeign => contradiction
      | _ => contradiction
  . rw [Function.update_of_ne heq] at hx
    exact hs j x hx

theorem noForeign_of_reach (hs : Reach State.init (step img) CxxOnly s)
    : s.Inv ∧ s.NoForeign := by
  apply hs.invariant
  . refine ⟨Inv.init, ?_⟩
    intro i x hx
    contradiction
  . rintro s ⟨i, action⟩ s' ⟨hinv, hno⟩ hcxx hstep
    exact ⟨(hinv.of_step (hno.clean _) hstep).inv, hno.of_step hinv hcxx hstep⟩

end State

end LibCxxRt
