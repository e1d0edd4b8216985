import LibCxxRt.Exception.CxxOnly
import LibCxxRt.Exception.Lemmas.History
import LibCxxRt.Exception.Tag

/-!
This module contains what becomes of a foreign exception that is rethrown. A handler that encloses the
one that has rethrown it can catch it again, it is cleaned up at the end of the last handler then. A
handler that is nested inside of it cannot, `__cxa_begin_catch` gives up.
-/

namespace LibCxxRt

open Util

-- the activities `c₀` of a thread and on top of them some for the exception `x`
inductive Above (x : Exc) (c₀ : List Activity) : List Activity → Prop where
  | base : Above x c₀ c₀
  | cons {a : Activity} {c : List Activity} (ha : a.exc = x) (hc : Above x c₀ c) :
      Above x c₀ (a :: c)

namespace Above

variable {x y : Exc} {c₀ c : List Activity} {a : Activity}

theorem of_cons (habove : Above x c₀ (a :: c)) (hne : a :: c ≠ c₀) : a.exc = x ∧ Above x c₀ c := by
  cases habove with
  | base => contradiction
  | cons ha hc => exact ⟨ha, hc⟩

theorem eq_of_mem_handlers (habove : Above x c₀ c) (hc₀ : handlers c₀ = []) (hy : y ∈ handlers c)
    : y = x := by
  induction habove with
  | base =>
    rw [hc₀] at hy
    contradiction
  | @cons a c ha _ ih =>
    cases a with
    | handler z =>
      rw [handlers_handler, List.mem_cons] at hy
      rcases hy with rfl | hy
      . exact ha
      . exact ih hy
    | unwinding z => exact ih hy

end Above

namespace State

-- `x` is the only exception that the thread `i` works with, and no other foreign ones are raised
def Alone (i : Nat) (x : Exc) (s : State) (l : Nat × Action) : Prop :=
  match l.2 with
  | .raiseForeign .. => False
  | .throw .. | .rethrowPrimary .. => l.1 ≠ i
  | .beginCatch | .callUnexpected => l.1 = i → ∃ c, s.activities i = .unwinding x :: c
  | _ => True

variable {img : Image} {s s' : State} {i : Nat} {x : Exc} {c₀ : List Activity} {action : Action}

theorem above_of_step (hinv : s.Inv) (hclean : s.Clean (i, action))
    (habove : Above x c₀ (s.activities i)) (hc₀ : handlers c₀ = []) (hx : x ∉ excs c₀)
    (hl : s.Alone i x (i, action)) (hstep : step img s (i, action) = some s')
    : Above x c₀ (s'.activities i)
      ∧ (x ∈ excs (s.activities i) → x ∉ excs (s'.activities i)
        → action = .endCatch ∧ s.activities i = .handler x :: s'.activities i) := by
  have hhandler {y : Exc} {c : List Activity} (hc : Above x c₀ (.handler y :: c))
      : y = x ∧ Above x c₀ c := by
    apply hc.of_cons
    rintro rfl
    simp at hc₀
  have hcatch {y : Exc} {c : List Activity} (hc : s.activities i = .unwinding y :: c)
      (hl : ∃ c, s.activities i = .unwinding x :: c) : Above x c₀ (.handler y :: c) := by
    rcases hl with ⟨c', hc'⟩
    rw [hc, List.cons.injEq, Activity.unwinding.injEq] at hc'
    rw [hc] at habove
    refine .cons hc'.1 (habove.of_cons ?_).2
    rintro rfl
    apply hx
    simp [hc'.1]
  have hmem (y : Exc) (c : List Activity) (a : Activity) (ha : a.exc = y) (hy : y = x)
      : x ∈ excs (a :: c) := by
    simp [excs, ha, hy]
  cases transition_of_step hstep with
  | throw | rethrowPrimary => exact absurd rfl hl
  | raiseForeign => exact hl.elim
  | @beginCatch y c _ _ hc _ | @callUnexpected y c _ _ hc _ =>
    have habove' := hcatch hc (hl rfl)
    rw [setActivities_activities, Function.update_self]
    exact ⟨habove', fun _ hnot => absurd (hmem y c (.handler y) rfl (hhandler habove').1) hnot⟩
  | @endCatch y c _ hc _ =>
    rw [hc] at habove
    rcases hhandler habove with ⟨rfl, habove'⟩
    rw [setActivities_activities, Function.update_self]
    exact ⟨habove', fun _ _ => ⟨rfl, hc⟩⟩
  | @endCatchUnwinding y z c _ hc _ =>
    rw [hc] at habove
    have hne : .unwinding y :: .handler z :: c ≠ c₀ := by
      rintro rfl
      simp at hc₀
    rcases habove.of_cons hne with ⟨hy, habove'⟩
    rw [setActivities_activities, Function.update_self]
    refine ⟨.cons hy (hhandler habove').2, ?_⟩
    intro _ hnot
    exact absurd (hmem y c (.unwinding y) rfl hy) hnot
  | rethrow =>
    rcases (hinv.rethrow hclean hstep).2 with ⟨y, hhead, hactivities⟩
    have hy := habove.eq_of_mem_handlers hc₀ (List.mem_of_mem_head? hhead)
    rw [hactivities, Function.update_self]
    refine ⟨.cons hy habove, ?_⟩
    intro _ hnot
    exact absurd (hmem y _ (.unwinding y) rfl hy) hnot
  | _ => exact ⟨habove, fun hx hnot => absurd hx hnot⟩

end State

section

variable {w w' : Process} {b : Nat} {events : List Event}

theorem Recounts.count_cleanedUp (hrecounts : Recounts w w') (hlog : w'.log = w.log ++ events)
    (hb : w.heap.kind b ≠ some .foreign ∨ w'.heap.kind b ≠ none)
    : events.count (.cleanedUp ⟨b, 0⟩) = 0 := by
  have hevents {events' : List Event} (hlog' : w'.log = w.log ++ events') : events = events' := by
    rw [hlog] at hlog'
    exact List.append_cancel_left hlog'
  have hfinal (e : CxaException) (p : Nat) : (finalEvents e p).count (.cleanedUp ⟨b, 0⟩) = 0 := by
    rw [List.count_eq_zero]
    unfold finalEvents
    split <;> simp
  cases hrecounts with
  | release hrelease =>
    cases hrelease with
    | primary _ _ _ _ hlog' | dependent _ _ _ _ _ _ hlog' =>
      rw [hevents hlog']
      split <;> simp [hfinal]
  | @cleanUp b' hforeign hfree hlog' =>
    have hne : b' ≠ b := by
      rintro rfl
      rw [hfree, Function.update_self] at hb
      rcases hb with hb | hb
      . exact hb hforeign
      . exact hb rfl
    rw [hevents hlog']
    simp [hne]
  | same _ hlog' | alloc _ _ hlog' | add _ _ hlog' | share _ _ _ hlog' =>
    have hnil : events = [] := hevents (by rw [hlog', List.append_nil])
    rw [hnil]
    rfl

end

namespace State

variable {img : Image} {s s' : State} {i b : Nat} {header : UnwindException} {c₀ : List Activity}
  {log : List Event} {action : Action}

-- the last handler of a foreign exception is left at its end
theorem Inv.endCatch_last (hinv : s.Inv) (htag : s.TagAgrees i) {c : List Activity} {beyond : CxaTail}
    (hc : s.activities i = .handler ⟨b, true⟩ :: c) (hlast : ⟨b, true⟩ ∉ excs c)
    (hobj : s.process.heap b = some (.foreign header beyond))
    : ∃ w, cxaEndCatch i s.process = .ok w
      ∧ (header.exceptionCleanup ≠ none
        → w.log = s.process.log ++ [.cleanedUp ⟨b, 0⟩] ∧ w.heap.kind b = none) := by
  have hhead : (handlers (s.activities i)).head? = some ⟨b, true⟩ := by
    rw [hc]
    rfl
  have htagged := ((hinv.tagAgrees_iff i).mp htag).mpr ⟨_, hhead, rfl⟩
  have hcaught : (s.process.threads i).foreignExceptionState = .caught := by
    have hmatches := (hinv.thread i).tag
    cases hstate : (s.process.threads i).foreignExceptionState with
    | none => exact absurd hstate htagged
    | caught => rfl
    | rethrown =>
      rw [hstate, hc] at hmatches
      rcases hmatches with ⟨y, hy, _, hflight⟩
      rw [handlers_handler, List.cons.injEq] at hy
      rw [inFlight_handler, ← hy.1] at hflight
      exact absurd (mem_excs_iff.mpr (.inr hflight)) hlast
  have hmem : (⟨b, true⟩ : Exc) ∈ excs (s.activities i) := by
    simp [hc]
  rcases Heap.foreign_of_kind (hinv.foreign_of_mem hmem rfl) with
    ⟨header', beyond', hobj', _, hcleanup⟩
  have hobj' : s.process.heap b = some (.foreign header' beyond') := hobj'
  rw [hobj] at hobj'
  cases hobj'
  rcases cxaEndCatch_foreign_caught (hinv.caughtExceptions_eq hhead) hcaught hobj hcleanup with
    ⟨w, hend, ⟨hnone, _⟩ | ⟨_, hview⟩⟩
  . exact ⟨w, hend, absurd hnone⟩
  . refine ⟨w, hend, fun _ => ⟨congrArg View.log hview, ?_⟩⟩
    have hkind : w.heap.kind = Function.update s.process.heap.kind b none := congrArg View.kind hview
    rw [hkind, Function.update_self]

structure ForeignRun (i b : Nat) (header : UnwindException) (c₀ : List Activity) (log : List Event)
    (s : State) : Prop where
  inv : s.Inv
  tag : ∀ j, s.TagAgrees j
  others : ∀ j, j ≠ i → ∀ y ∈ excs (s.activities j), y.isForeign = false
  onTop : Above ⟨b, true⟩ c₀ (s.activities i)
  live : ⟨b, true⟩ ∈ excs (s.activities i)
    → ∃ beyond, s.process.heap b = some (.foreign header beyond)
  gone : header.exceptionCleanup ≠ none → ⟨b, true⟩ ∉ excs (s.activities i)
    → s.process.heap.kind b ≠ some .foreign
  log_eq : ∃ events, s.process.log = log ++ events ∧ (header.exceptionCleanup ≠ none
    → events.count (.cleanedUp ⟨b, 0⟩) = if ⟨b, true⟩ ∈ excs (s.activities i) then 0 else 1)

namespace ForeignRun

theorem not_headForeign (hrun : ForeignRun i b header c₀ log s) (hc₀ : handlers c₀ = []) {j : Nat}
    {x : Exc} {c' : List Activity} (hl : Leaves (s.activities j) action x c') : ¬ HeadForeign c' := by
  rintro ⟨y, hhead, hforeign⟩
  have hy : y ∈ handlers (s.activities j) := by
    rw [hl.handlers_eq]
    exact List.mem_cons_of_mem x (List.mem_of_mem_head? hhead)
  by_cases hj : j = i
  . subst hj
    have hx := hrun.onTop.eq_of_mem_handlers hc₀ (by rw [hl.handlers_eq]; exact List.mem_cons_self)
    have htagged : (s.process.threads j).foreignExceptionState ≠ .none := by
      refine ((hrun.inv.tagAgrees_iff j).mp (hrun.tag j)).mpr ⟨x, ?_, ?_⟩
      . rw [hl.handlers_eq]
        rfl
      . rw [hx]
    rcases (hrun.inv.thread j).tag.handlers_eq htagged with ⟨z, hz, _⟩
    rw [hl.handlers_eq, List.cons.injEq] at hz
    rw [hz.2] at hhead
    contradiction
  . rw [hrun.others j hj y (mem_excs_iff.mpr (.inl hy))] at hforeign
    contradiction

theorem not_exposesForeign (hrun : ForeignRun i b header c₀ log s) (hc₀ : handlers c₀ = [])
    {l : Nat × Action} (hstep : step img s l = some s') : ¬ s.ExposesForeign l := by
  rcases l with ⟨j, action⟩
  cases action with
  | endCatch =>
    rcases leaves_of_endCatch hstep with ⟨x, c', hl⟩
    rw [← hrun.inv.headForeign_iff_of_leaves (hrun.tag j) hl]
    exact hrun.not_headForeign hc₀ hl
  | endCatchUnwinding =>
    rcases leaves_of_endCatchUnwinding hstep with ⟨x, c', hl⟩
    rw [← hrun.inv.headForeign_iff_of_leaves (hrun.tag j) hl]
    exact hrun.not_headForeign hc₀ hl
  | _ => exact id

-- a thread only works with exceptions that it has raised or that it has had before
theorem mem_excs_of_step (hrun : ForeignRun i b header c₀ log s) {l : Nat × Action}
    (hl : s.Alone i ⟨b, true⟩ l) (hstep : step img s l = some s') (j : Nat) (y : Exc)
    (hy : y ∈ excs (s'.activities j)) : y ∈ excs (s.activities j) ∨ j = l.1 ∧ y.isForeign = false := by
  rcases l with ⟨k, action⟩
  rcases excs_of_step hrun.inv (hrun.inv.clean_of_tagAgrees hrun.tag _) hstep with
    ⟨c', hactivities, hc'⟩
  rw [hactivities] at hy
  by_cases heq : j = k
  . rw [heq, Function.update_self] at hy
    rw [heq]
    refine (hc' y hy).imp_right fun hraised => ⟨rfl, ?_⟩
    cases action with
    | throw | rethrowPrimary =>
      cases hraised
      rfl
    | raiseForeign => exact hl.elim
    | _ => contradiction
  . rw [Function.update_of_ne heq] at hy
    exact .inl hy

theorem above (hrun : ForeignRun i b header c₀ log s) (hc₀ : handlers c₀ = [])
    (hb : ⟨b, true⟩ ∉ excs c₀) {l : Nat × Action} (hl : s.Alone i ⟨b, true⟩ l)
    (hstep : step img s l = some s')
    : Above ⟨b, true⟩ c₀ (s'.activities i)
      ∧ (⟨b, true⟩ ∈ excs (s.activities i) → ⟨b, true⟩ ∉ excs (s'.activities i)
        → l = (i, .endCatch) ∧ s.activities i = .handler ⟨b, true⟩ :: s'.activities i) := by
  have hclean := hrun.inv.clean_of_tagAgrees hrun.tag l
  have houtcome := hrun.inv.of_step hclean hstep
  rcases l with ⟨j, action⟩
  by_cases hj : j = i
  . subst hj
    rcases above_of_step hrun.inv hclean hrun.onTop hc₀ hb hl hstep with ⟨habove, hleft⟩
    refine ⟨habove, fun hmem hnot => ?_⟩
    rcases hleft hmem hnot with ⟨rfl, hc⟩
    exact ⟨rfl, hc⟩
  . rw [houtcome.activities, Function.update_of_ne (Ne.symm hj)]
    exact ⟨hrun.onTop, fun hmem hnot => absurd hmem hnot⟩

-- the exception is gone in the end, and only then
theorem finish (hrun : ForeignRun i b header c₀ log s) {c : List Activity}
    (hc : s.activities i = .handler ⟨b, true⟩ :: c) (hlast : ⟨b, true⟩ ∉ excs c)
    (hcleanup : header.exceptionCleanup ≠ none) (hstep : step img s (i, .endCatch) = some s')
    : s'.process.log = s.process.log ++ [.cleanedUp ⟨b, 0⟩] ∧ s'.process.heap.kind b = none := by
  rcases hrun.live (by simp [hc]) with ⟨beyond, hobj⟩
  rcases hrun.inv.endCatch_last (hrun.tag i) hc hlast hobj with ⟨w, hend, hfinal⟩
  have hl : Leaves (s.activities i) .endCatch ⟨b, true⟩ c := by
    rw [hc]
    exact .finish
  rw [step_leaves img hl, hend, toOption_ok_bind] at hstep
  cases hstep
  exact hfinal hcleanup

theorem kind_ne_foreign (hrun : ForeignRun i b header c₀ log s) {l : Nat × Action}
    (hl : s.Alone i ⟨b, true⟩ l) (hb : s.process.heap.kind b ≠ some .foreign)
    (hstep : step img s l = some s') : s'.process.heap.kind b ≠ some .foreign := by
  intro hforeign
  have horigin := origin_of_step hrun.inv hstep
  rcases Heap.foreign_of_kind hforeign with ⟨header', beyond', hobj', _⟩
  by_cases hnone : s.process.heap b = none
  . have halloc := horigin.allocated hnone (by simp [hobj'])
    rcases l with ⟨j, action⟩
    cases action with
    | throw | initPrimary | rethrowPrimary =>
      cases halloc
      rw [horigin.2.1] at hforeign
      simp at hforeign
    | raiseForeign => exact hl
    | _ => contradiction
  . rcases (horigin.keptAt hnone).foreign header' beyond' hobj' with ⟨beyond, hobj⟩
    exact hb (Heap.ready_of_foreign (hrun.inv.owners.ready b) hobj)

theorem step (hrun : ForeignRun i b header c₀ log s) (hc₀ : handlers c₀ = [])
    (hb : ⟨b, true⟩ ∉ excs c₀) {l : Nat × Action} (hl : s.Alone i ⟨b, true⟩ l)
    (hstep : LibCxxRt.step img s l = some s') : ForeignRun i b header c₀ log s' := by
  have houtcome := hrun.inv.of_step (hrun.inv.clean_of_tagAgrees hrun.tag l) hstep
  have hstays := hrun.mem_excs_of_step hl hstep
  have hmem (hx : ⟨b, true⟩ ∈ excs (s'.activities i)) : ⟨b, true⟩ ∈ excs (s.activities i) := by
    exact (hstays i ⟨b, true⟩ hx).resolve_right (by simp)
  rcases hrun.inv.tagAgrees_step hrun.tag hstep with ⟨hinv', htag'⟩
  rcases hrun.above hc₀ hb hl hstep with ⟨habove, hleft⟩
  rcases houtcome.recounts.log_append with ⟨events, hlog⟩
  have hforeign (hx : ⟨b, true⟩ ∈ excs (s'.activities i)) : s'.process.heap.kind b = some .foreign :=
    hinv'.foreign_of_mem hx rfl
  constructor
  . exact hinv'
  . exact htag'.mpr (hrun.not_exposesForeign hc₀ hstep)
  . intro j hj y hy
    rcases hstays j y hy with hold | hnew
    . exact hrun.others j hj y hold
    . exact hnew.2
  . exact habove
  . intro hx
    rcases hrun.live (hmem hx) with ⟨beyond, hobj⟩
    rcases Heap.foreign_of_kind (hforeign hx) with ⟨header', beyond', hobj', _⟩
    have hkept := (origin_of_step hrun.inv hstep).keptAt (b := b) (by simp [hobj])
    rcases hkept.foreign header' beyond' hobj' with ⟨_, heq⟩
    rw [hobj] at heq
    cases heq
    exact ⟨beyond', hobj'⟩
  . intro hcleanup hx
    by_cases hx₀ : ⟨b, true⟩ ∈ excs (s.activities i)
    . rcases hleft hx₀ hx with ⟨rfl, hc⟩
      rw [(hrun.finish hc hx hcleanup hstep).2]
      simp
    . exact hrun.kind_ne_foreign hl (hrun.gone hcleanup hx₀) hstep
  . rcases hrun.log_eq with ⟨events₀, hlog₀, hcount₀⟩
    refine ⟨events₀ ++ events, ?_, ?_⟩
    . rw [hlog, hlog₀, List.append_assoc]
    . intro hcleanup
      rw [List.count_append, hcount₀ hcleanup]
      by_cases hx : ⟨b, true⟩ ∈ excs (s'.activities i)
      . rw [if_pos (hmem hx), if_pos hx, houtcome.recounts.count_cleanedUp hlog]
        exact .inr (by simp [hforeign hx])
      . by_cases hx₀ : ⟨b, true⟩ ∈ excs (s.activities i)
        . rcases hleft hx₀ hx with ⟨rfl, hc⟩
          rw [(hrun.finish hc hx hcleanup hstep).1] at hlog
          rw [if_pos hx₀, if_neg hx, ← List.append_cancel_left hlog]
          simp
        . rw [if_neg hx₀, if_neg hx, houtcome.recounts.count_cleanedUp hlog]
          exact .inl (hrun.gone hcleanup hx₀)

theorem of_reach {s₀ : State} (hrun : ForeignRun i b header c₀ log s₀) (hc₀ : handlers c₀ = [])
    (hb : ⟨b, true⟩ ∉ excs c₀) (hs : Reach s₀ (LibCxxRt.step img) (Alone i ⟨b, true⟩) s)
    : ForeignRun i b header c₀ log s := by
  apply hs.invariant hrun
  intro s l s' hrun hl hstep
  exact hrun.step hc₀ hb hl hstep

end ForeignRun

theorem NoForeign.tagAgrees (hno : s.NoForeign) (hinv : s.Inv) (j : Nat) : s.TagAgrees j := by
  rw [hinv.tagAgrees_iff]
  have hcxx {x : Exc} (hx : x ∈ handlers (s.activities j)) : x.isForeign = false :=
    hno j x (mem_excs_iff.mpr (.inl hx))
  constructor
  . intro htag
    rcases (hinv.thread j).tag.handlers_eq htag with ⟨x, hx, hforeign⟩
    rw [hcxx (by simp [hx])] at hforeign
    contradiction
  . rintro ⟨x, hx, hforeign⟩
    rw [hcxx (List.mem_of_mem_head? hx)] at hforeign
    contradiction

theorem foreignRun_of_raise {s₁ s₀ : State} {cls : BitVec 64} {cleanup : Option Addr}
    {beyond : CxaTail} (hinv : s₁.Inv) (hno : s₁.NoForeign)
    (hraise : step img s₁ (i, .raiseForeign b cls cleanup beyond) = some s₀)
    : ForeignRun i b ⟨cls, cleanup.map .foreign⟩ (s₁.activities i) s₀.process.log s₀
      ∧ ⟨b, true⟩ ∉ excs (s₁.activities i) := by
  rcases hinv.tagAgrees_step (hno.tagAgrees hinv) hraise with ⟨hinv₀, htag₀⟩
  cases transition_of_step hraise with
  | raiseForeign hb hcls =>
    refine ⟨?_, ?_⟩
    . constructor
      . exact hinv₀
      . exact htag₀.mpr id
      . intro j hj y hy
        rw [setActivities_activities, Function.update_of_ne hj] at hy
        exact hno j y hy
      . rw [setActivities_activities, Function.update_self]
        exact .cons rfl .base
      . intro _
        exact ⟨beyond, Heap.set_self ..⟩
      . intro _ hnot
        simp at hnot
      . exact ⟨[], (List.append_nil _).symm, by simp⟩
    . intro hmem
      exact hinv.not_mem_owned hb (mem_owned (mem_blocks hmem))

/--
A handler catches the foreign exception unless it is nested in another one. The exception is cleaned
up once, in the step in which its last handler is left at its end, if it has a function for that.
-/
theorem foreign_cleanedUp_once (img : Image) {s₁ s₀ : State} {cls : BitVec 64} {cleanup : Option Addr}
    {beyond : CxaTail} (hs₁ : Reach State.init (step img) CxxOnly s₁)
    (hidle : handlers (s₁.activities i) = [])
    (hraise : step img s₁ (i, .raiseForeign b cls cleanup beyond) = some s₀)
    (hs : Reach s₀ (step img) (Alone i ⟨b, true⟩) s)
    : (∀ c, s.activities i = .unwinding ⟨b, true⟩ :: c
        → (⟨b, true⟩ ∉ handlers c → ∃ a w, cxaBeginCatch img i ⟨b, 0⟩ s.process = .ok (a, w))
          ∧ (⟨b, true⟩ ∈ handlers c → cxaBeginCatch img i ⟨b, 0⟩ s.process = .error .terminate))
      ∧ (∃ events, s.process.log = s₀.process.log ++ events ∧ (cleanup ≠ none
        → events.count (.cleanedUp ⟨b, 0⟩) = if ⟨b, true⟩ ∈ excs (s.activities i) then 0 else 1))
      ∧ ∀ l s', s.Alone i ⟨b, true⟩ l → step img s l = some s'
        → ⟨b, true⟩ ∈ excs (s.activities i) → ⟨b, true⟩ ∉ excs (s'.activities i)
        → l = (i, .endCatch) ∧ s.activities i = .handler ⟨b, true⟩ :: s'.activities i := by
  rcases noForeign_of_reach hs₁ with ⟨hinv₁, hno⟩
  rcases foreignRun_of_raise hinv₁ hno hraise with ⟨hrun₀, hb⟩
  have hrun := hrun₀.of_reach hidle hb hs
  refine ⟨?_, ?_, ?_⟩
  . intro c hc
    have hcaught : (s.process.threads i).caughtExceptions = none ↔ ⟨b, true⟩ ∉ handlers c := by
      rw [(hrun.inv.thread i).caughtExceptions_eq_none_iff, hc, handlers_unwinding]
      constructor
      . intro hnil
        rw [hnil]
        exact List.not_mem_nil
      . intro hnot
        rw [List.eq_nil_iff_forall_not_mem]
        intro y hy
        have hy' : y ∈ handlers (s.activities i) := by
          rw [hc]
          exact hy
        rw [hrun.onTop.eq_of_mem_handlers hidle hy'] at hy
        exact hnot hy
    constructor
    . intro hnot
      rcases hrun.inv.beginCatch_view img hc (fun _ => hcaught.mpr hnot) with ⟨a, w, hcatch, _⟩
      exact ⟨a, w, hcatch⟩
    . intro hmem
      exact hrun.inv.beginCatch_terminate hc rfl fun hnone => hcaught.mp hnone hmem
  . rcases hrun.log_eq with ⟨events, hlog, hcount⟩
    refine ⟨events, hlog, fun hcleanup => hcount ?_⟩
    simpa using hcleanup
  . intro l s' hl hstep
    exact (hrun.above hidle hb hl hstep).2

theorem alone_beginCatch {x : Exc} {c : List Activity} (hc : s.activities i = .unwinding x :: c)
    : s.Alone i x (i, .beginCatch) := by
  intro _
  exact ⟨c, hc⟩

-- a foreign exception with a function that cleans it up is in flight
def sampleRaised : State :=
  (init.setProcess {
    init.process with
    heap := init.process.heap.set 0 (.foreign ⟨1234, some (.foreign 0x3000)⟩
      CxaException.zero.toCxaTail)
  }).setActivities 0 [.unwinding ⟨0, true⟩]

-- an enclosing handler catches the exception again
theorem foreign_cleanedUp_once_enclosing
    : ∃ s, Reach sampleRaised (step Sample.img) (Alone 0 ⟨0, true⟩) s ∧ s.activities 0 = []
      ∧ ∃ events, s.process.log = sampleRaised.process.log ++ events
        ∧ events.count (.cleanedUp ⟨0, 0⟩) = 1 := by
  have hraise : step Sample.img .init
      (0, .raiseForeign 0 1234 (some 0x3000) CxaException.zero.toCxaTail) = some sampleRaised := rfl
  have hcaught : Reach sampleRaised (step Sample.img) (Alone 0 ⟨0, true⟩) _ :=
    .step .init (alone_beginCatch rfl) (rfl : step _ _ (0, .beginCatch) = some _)
  have hleft := Reach.of_run hcaught (by simp [Alone])
    (rfl : run _ _ [(0, .rethrow), (0, .endCatchUnwinding)] = some _)
  have hagain := Reach.step (l := (0, .beginCatch)) hleft (alone_beginCatch rfl) rfl
  have hs := Reach.of_run hagain (by simp [Alone]) (rfl : run _ _ [(0, .endCatch)] = some _)
  refine ⟨_, hs, rfl, ?_⟩
  rcases (foreign_cleanedUp_once Sample.img .init rfl hraise hs).2.1 with ⟨events, hlog, hcount⟩
  exact ⟨events, hlog, hcount (by simp)⟩

-- a handler within the handler that rethrows cannot
theorem foreign_nested_terminate
    : step Sample.img .init (0, .raiseForeign 0 1234 (some 0x3000) CxaException.zero.toCxaTail)
        = some sampleRaised
      ∧ ∃ s, Reach sampleRaised (step Sample.img) (Alone 0 ⟨0, true⟩) s
        ∧ s.activities 0 = [.unwinding ⟨0, true⟩, .handler ⟨0, true⟩]
        ∧ cxaBeginCatch Sample.img 0 ⟨0, 0⟩ s.process = .error .terminate := by
  have hcaught : Reach sampleRaised (step Sample.img) (Alone 0 ⟨0, true⟩) _ :=
    .step .init (alone_beginCatch rfl) (rfl : step _ _ (0, .beginCatch) = some _)
  have hs := Reach.of_run hcaught (by simp [Alone]) (rfl : run _ _ [(0, .rethrow)] = some _)
  exact ⟨rfl, _, hs, rfl, rfl⟩

end State

end LibCxxRt
