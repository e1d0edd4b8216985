import LibCxxRt.Exception.Client

/-!
This module contains what a step of a program comes down to, the calls that return and the state that
the step ends in.
-/

namespace LibCxxRt

namespace Res

theorem toOption_eq_some {α : Type} {x : Res α} {a : α} : x.toOption = some a ↔ x = .ok a := by
  cases x <;> simp [Except.toOption]

end Res

namespace State

inductive Transition (img : Image) (s : State) (i : Nat) : Action → State → Prop where
  | throw {b : Nat} {tinfo dest : Addr} {object p : Ptr} {w₁ w : Process}
      (halloc : cxaAllocateException b s.process = .ok (object, w₁))
      (hthrow : cxaThrow i object tinfo dest w₁ = .ok (p, w)) :
      Transition img s i (.throw b tinfo dest) (((s.setProcess w).setActivities i
        (.unwinding ⟨b, false⟩ :: s.activities i)).setThrown b true)
  | initPrimary {b : Nat} {tinfo dest : Addr} {object p : Ptr} {w₁ w : Process}
      (halloc : cxaAllocateException b s.process = .ok (object, w₁))
      (hinit : cxaInitPrimaryException object tinfo dest w₁ = .ok (p, w)) :
      Transition img s i (.initPrimary b tinfo dest) ((s.setProcess w).setThrown b false)
  | raiseForeign {b : Nat} {cls : BitVec 64} {cleanup : Option Addr} {beyond : CxaTail}
      (hb : s.process.heap b = none) (hcls : ¬ isCxxException cls) :
      Transition img s i (.raiseForeign b cls cleanup beyond) ((s.setProcess {
        s.process with
        heap := s.process.heap.set b (.foreign ⟨cls, cleanup.map .foreign⟩ beyond)
      }).setActivities i (.unwinding ⟨b, true⟩ :: s.activities i))
  | cache {b : Nat} {c : List Activity} {t t' : CxaTail} {handlerSwitchValue : BitVec 32}
      {actionRecord languageSpecificData catchTemp adjustedPtr : Addr}
      (hc : s.activities i = .unwinding ⟨b, false⟩ :: c)
      (ht : s.process.heap.tail ⟨b, 0⟩ = .ok t) :
      Transition img s i
        (.cache handlerSwitchValue actionRecord languageSpecificData catchTemp adjustedPtr)
        (s.setProcess (s.process.setTail ⟨b, 0⟩ t'))
  | beginCatch {x : Exc} {c : List Activity} {a : Addr} {w : Process}
      (hc : s.activities i = .unwinding x :: c)
      (hcatch : cxaBeginCatch img i x.object s.process = .ok (a, w)) :
      Transition img s i .beginCatch ((s.setProcess w).setActivities i (.handler x :: c))
  | callUnexpected {x : Exc} {c : List Activity} {call : UnexpectedCall} {w : Process}
      (hc : s.activities i = .unwinding x :: c)
      (hcall : cxaCallUnexpected img i x.object s.process = .ok (call, w)) :
      Transition img s i .callUnexpected ((s.setProcess w).setActivities i (.handler x :: c))
  | endCatch {x : Exc} {c : List Activity} {w : Process} (hc : s.activities i = .handler x :: c)
      (hend : cxaEndCatch i s.process = .ok w) :
      Transition img s i .endCatch ((s.setProcess w).setActivities i c)
  | endCatchUnwinding {x y : Exc} {c : List Activity} {w : Process}
      (hc : s.activities i = .unwinding x :: .handler y :: c)
      (hend : cxaEndCatch i s.process = .ok w) :
      Transition img s i .endCatchUnwinding ((s.setProcess w).setActivities i (.unwinding x :: c))
  | rethrow {p : Ptr} {w : Process} (hrethrow : cxaRethrow i s.process = .ok (p, w)) :
      Transition img s i .rethrow ((s.setProcess w).setActivities i
        (.unwinding ⟨p.block, w.heap.isForeign p.block⟩ :: s.activities i))
  | currentNone {w : Process} (hcurrent : cxaCurrentPrimaryException i s.process = .ok (none, w)) :
      Transition img s i .currentPrimary (s.setProcess w)
  | currentPrimary {p : Ptr} {w : Process}
      (hcurrent : cxaCurrentPrimaryException i s.process = .ok (some p, w)) :
      Transition img s i .currentPrimary
        ((s.setProcess w).setReferences p.block (s.references p.block + 1))
  | increment {b : Nat} {w : Process} (hb : s.process.heap.isPrimary b)
      (hincrement : cxaIncrementExceptionRefcount (some ⟨b, 128⟩) s.process = .ok w) :
      Transition img s i (.increment b) ((s.setProcess w).setReferences b (s.references b + 1))
  | decrement {b : Nat} {w : Process} (hb : s.references b ≠ 0)
      (hdecrement : cxaDecrementExceptionRefcount (some ⟨b, 128⟩) s.process = .ok w) :
      Transition img s i (.decrement b) ((s.setProcess w).setReferences b (s.references b - 1))
  | rethrowPrimary {b d : Nat} {p : Option Ptr} {w : Process} (hb : s.references b ≠ 0)
      (hrethrow : cxaRethrowPrimaryException img i d (some ⟨b, 128⟩) s.process = .ok (p, w)) :
      Transition img s i (.rethrowPrimary b d)
        ((s.setProcess w).setActivities i (.unwinding ⟨d, false⟩ :: s.activities i))

variable {img : Image} {s s' : State} {i : Nat} {action : Action}

theorem transition_of_step (hstep : step img s (i, action) = some s')
    : Transition img s i action s' := by
  cases action with
  | throw b tinfo dest =>
    simp only [step, Option.bind_eq_bind, Option.bind_eq_some_iff, pure, Option.some.injEq,
      Res.toOption_eq_some] at hstep
    rcases hstep with ⟨⟨object, w₁⟩, halloc, ⟨p, w⟩, hthrow, rfl⟩
    exact .throw halloc hthrow
  | initPrimary b tinfo dest =>
    simp only [step, Option.bind_eq_bind, Option.bind_eq_some_iff, pure, Option.some.injEq,
      Res.toOption_eq_some] at hstep
    rcases hstep with ⟨⟨object, w₁⟩, halloc, ⟨p, w⟩, hinit, rfl⟩
    exact .initPrimary halloc hinit
  | raiseForeign b cls cleanup beyond =>
    simp only [step] at hstep
    split at hstep
    . next hcond =>
      cases hstep
      exact .raiseForeign hcond.1 hcond.2
    . contradiction
  | cache =>
    simp only [step, Option.bind_eq_bind, pure] at hstep
    split at hstep
    . next hc =>
      simp only [Option.bind_eq_some_iff, Option.some.injEq, Res.toOption_eq_some] at hstep
      rcases hstep with ⟨t, ht, rfl⟩
      exact .cache hc ht
    . contradiction
  | beginCatch =>
    simp only [step] at hstep
    split at hstep
    . next hc =>
      simp only [Option.bind_eq_bind, Option.bind_eq_some_iff, pure, Option.some.injEq,
        Res.toOption_eq_some] at hstep
      rcases hstep with ⟨⟨a, w⟩, hcatch, rfl⟩
      exact .beginCatch hc hcatch
    . contradiction
  | callUnexpected =>
    simp only [step] at hstep
    split at hstep
    . next hc =>
      simp only [Option.bind_eq_bind, Option.bind_eq_some_iff, pure, Option.some.injEq,
        Res.toOption_eq_some] at hstep
      rcases hstep with ⟨⟨call, w⟩, hcall, rfl⟩
      exact .callUnexpected hc hcall
    . contradiction
  | endCatch =>
    simp only [step] at hstep
    split at hstep
    . next hc =>
      simp only [Option.bind_eq_bind, Option.bind_eq_some_iff, pure, Option.some.injEq,
        Res.toOption_eq_some] at hstep
      rcases hstep with ⟨w, hend, rfl⟩
      exact .endCatch hc hend
    . contradiction
  | endCatchUnwinding =>
    simp only [step] at hstep
    split at hstep
    . next hc =>
      simp only [Option.bind_eq_bind, Option.bind_eq_some_iff, pure, Option.some.injEq,
        Res.toOption_eq_some] at hstep
      rcases hstep with ⟨w, hend, rfl⟩
      exact .endCatchUnwinding hc hend
    . contradiction
  | rethrow =>
    simp only [step, Option.bind_eq_bind, Option.bind_eq_some_iff, pure, Option.some.injEq,
      Res.toOption_eq_some] at hstep
    rcases hstep with ⟨⟨raised, w⟩, hrethrow, rfl⟩
    exact .rethrow hrethrow
  | currentPrimary =>
    simp only [step, Option.bind_eq_bind, Option.bind_eq_some_iff, pure,
      Res.toOption_eq_some] at hstep
    rcases hstep with ⟨⟨thrown, w⟩, hcurrent, hstep⟩
    cases thrown with
    | none =>
      cases hstep
      exact .currentNone hcurrent
    | some p =>
      cases hstep
      exact .currentPrimary hcurrent
  | increment b =>
    simp only [step] at hstep
    split at hstep
    . next hb =>
      simp only [Option.bind_eq_bind, Option.bind_eq_some_iff, pure, Option.some.injEq,
        Res.toOption_eq_some] at hstep
      rcases hstep with ⟨w, hincrement, rfl⟩
      exact .increment hb hincrement
    . contradiction
  | decrement b =>
    simp only [step] at hstep
    split at hstep
    . next hb =>
      simp only [Option.bind_eq_bind, Option.bind_eq_some_iff, pure, Option.some.injEq,
        Res.toOption_eq_some] at hstep
      rcases hstep with ⟨w, hdecrement, rfl⟩
      exact .decrement (Nat.ne_of_gt hb) hdecrement
    . contradiction
  | rethrowPrimary b d =>
    simp only [step] at hstep
    split at hstep
    . next hb =>
      simp only [Option.bind_eq_bind, Option.bind_eq_some_iff, pure, Option.some.injEq,
        Res.toOption_eq_some] at hstep
      rcases hstep with ⟨⟨raised, w⟩, hrethrow, rfl⟩
      exact .rethrowPrimary (Nat.ne_of_gt hb) hrethrow
    . contradiction

end State

end LibCxxRt
