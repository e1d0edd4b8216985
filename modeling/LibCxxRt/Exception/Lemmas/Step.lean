import LibCxxRt.Exception.Lemmas.Runtime
import LibCxxRt.Exception.Lemmas.State

/-!
This module contains the proof that a step of a program keeps the invariant, as long as the runtime
does not mistake a foreign exception for one of its own.
-/

namespace LibCxxRt

open Util

inductive Releases (w w' : Process) : Nat → Prop where
  | primary {b n : Nat} {e : CxaException} (hb : w.heap b = some (.cxx e))
      (hkind : e.kind = .primary n) (hn : n ≠ 0) (hkind' : w'.heap.kind = dropKind w.heap.kind b n)
      (hlog : w'.log = w.log ++ .released ⟨b, 0⟩ :: if n = 1 then finalEvents e b else []) :
      Releases w w' b
  | dependent {d p n : Nat} {e e' : CxaException} (hd : w.heap d = some (.cxx e))
      (hkind : e.kind = .dependent p) (hp : w.heap p = some (.cxx e'))
      (hprimary : e'.kind = .primary n) (hn : n ≠ 0)
      (hkind' : w'.heap.kind = Function.update (dropKind w.heap.kind p n) d none)
      (hlog : w'.log = w.log ++ .released ⟨d, 0⟩ :: .released ⟨p, 0⟩
        :: ((if n = 1 then finalEvents e' p else []) ++ [.freed ⟨d, 0⟩])) : Releases w w' d

-- what a step does to the reference counts, and what is done to the exceptions meanwhile
inductive Recounts (w w' : Process) : Prop where
  | same (hkind : w'.heap.kind = w.heap.kind) (hlog : w'.log = w.log)
  | alloc {b : Nat} {k : Kind} (hb : w.heap b = none)
      (hkind : w'.heap.kind = Function.update w.heap.kind b (some k)) (hlog : w'.log = w.log)
  | add {p n : Nat} (hp : w.heap.kind p = some (.primary n))
      (hkind : w'.heap.kind = Function.update w.heap.kind p (some (.primary (n + 1))))
      (hlog : w'.log = w.log)
  | share {d p n : Nat} (hd : w.heap d = none) (hp : w.heap.kind p = some (.primary n))
      (hkind : w'.heap.kind = Function.update (Function.update w.heap.kind p
        (some (.primary (n + 1)))) d (some (.dependent p))) (hlog : w'.log = w.log)
  | release {b : Nat} (hrelease : Releases w w' b)
  | cleanUp {b : Nat} (hb : w.heap.kind b = some .foreign)
      (hkind : w'.heap.kind = Function.update w.heap.kind b none)
      (hlog : w'.log = w.log ++ [.cleanedUp ⟨b, 0⟩])

def Action.leaves : Action → Bool
  | .endCatch | .endCatchUnwinding => true
  | _ => false

-- what a step does to the handlers of the thread and to the tag of its caught exceptions
inductive Retags (action : Action) (tag tag' : ForeignExceptionState) (c c' : List Activity) :
    Prop where
  | same (haction : action.leaves = false) (htag : tag' = tag)
      (hhandlers : handlers c' = handlers c)
  | caught {x : Exc} (haction : action.leaves = false) (htag : tag' ≠ .none ↔ x.isForeign)
      (hhandlers : handlers c' = x :: handlers c)
  | left {x : Exc} (hleaves : Leaves c action x c') (htag : tag' = .none)
  | rethrown {x : Exc} (haction : action.leaves = false) (htag : tag' ≠ .none)
      (hhandlers : handlers c' = handlers c) (hhead : (handlers c).head? = some x)
      (hforeign : x.isForeign)

structure Outcome (s : State) (l : Nat × Action) (s' : State) : Prop where
  inv : s'.Inv
  recounts : Recounts s.process s'.process
  activities : s'.activities = Function.update s.activities l.1 (s'.activities l.1)
  threads : s'.process.threads = Function.update s.process.threads l.1 (s'.process.threads l.1)
  retags : Retags l.2 (s.process.threads l.1).foreignExceptionState
    (s'.process.threads l.1).foreignExceptionState (s.activities l.1) (s'.activities l.1)

namespace Outcome

variable {s s' : State} {i : Nat} {action : Action} {c' : List Activity} {ti' : CxaThreadInfo}

theorem of_thread (hinv : s'.Inv) (hrecounts : Recounts s.process s'.process)
    (hactivities : s'.activities = Function.update s.activities i c')
    (hthreads : s'.process.threads = Function.update s.process.threads i ti')
    (hretags : Retags action (s.process.threads i).foreignExceptionState ti'.foreignExceptionState
      (s.activities i) c') : Outcome s (i, action) s' := by
  constructor
  . exact hinv
  . exact hrecounts
  . dsimp only
    rw [hactivities, Function.update_self]
  . dsimp only
    rw [hthreads, Function.update_self]
  . dsimp only
    rw [hactivities, hthreads, Function.update_self, Function.update_self]
    exact hretags

theorem of_threads_eq (hinv : s'.Inv) (hrecounts : Recounts s.process s'.process)
    (hactivities : s'.activities = s.activities)
    (hthreads : s'.process.threads = s.process.threads) (haction : action.leaves = false)
    : Outcome s (i, action) s' := by
  apply of_thread hinv hrecounts
  . rw [Function.update_eq_self i s.activities]
    exact hactivities
  . rw [Function.update_eq_self i s.process.threads]
    exact hthreads
  . exact .same haction rfl rfl

end Outcome

namespace State

variable {img : Image} {s s' : State} {i b d : Nat} {tinfo dest : Addr}

theorem toOption_ok_bind {α β : Type} (a : α) (f : α → Option β)
    : ((.ok a : Res α).toOption >>= f) = f a := by
  rfl

theorem step_throw (hb : s.process.heap b = none) (i : Nat) (tinfo dest : Addr)
    : ∃ w, step img s (i, .throw b tinfo dest)
        = some (((s.setProcess w).setActivities i
          (.unwinding ⟨b, false⟩ :: s.activities i)).setThrown b true)
      ∧ w.view = ((s.process.view.setLink b (some (.cxx 0 none))).setKind b
        (some (.primary 1))).setThread i (raisedThread (s.process.threads i)) := by
  rcases cxaAllocateException_view hb with ⟨w₁, halloc, hb₁, hview₁⟩
  have hthreads : w₁.threads = s.process.threads := congrArg View.threads hview₁
  rcases cxaThrow_view hb₁ i tinfo dest with ⟨w, hthrow, hview⟩
  refine ⟨w, ?_, ?_⟩
  . unfold step
    dsimp only
    rw [halloc, toOption_ok_bind]
    dsimp only
    rw [hthrow, toOption_ok_bind]
    rfl
  . rw [hview, hview₁, View.setKind_setKind, hthreads]
    rfl

theorem step_throw_none (hb : s.process.heap b ≠ none) (i : Nat) (tinfo dest : Addr)
    : step img s (i, .throw b tinfo dest) = none := by
  rcases Option.ne_none_iff_exists'.mp hb with ⟨o, ho⟩
  unfold step cxaAllocateException
  dsimp only
  rw [ho]
  rfl

theorem step_initPrimary (hb : s.process.heap b = none) (i : Nat) (tinfo dest : Addr)
    : ∃ w, step img s (i, .initPrimary b tinfo dest) = some ((s.setProcess w).setThrown b false)
      ∧ w.view = (s.process.view.setLink b (some (.cxx 0 none))).setKind b
        (some (.primary 0)) := by
  rcases cxaAllocateException_view hb with ⟨w₁, halloc, hb₁, hview₁⟩
  rcases cxaInitPrimaryException_view hb₁ tinfo dest with ⟨_, w, hinit, _, _, hview⟩
  refine ⟨w, ?_, ?_⟩
  . unfold step
    dsimp only
    rw [halloc, toOption_ok_bind]
    dsimp only
    rw [hinit, toOption_ok_bind]
    rfl
  . rw [hview, hview₁, View.setKind_setKind]

theorem step_initPrimary_none (hb : s.process.heap b ≠ none) (i : Nat) (tinfo dest : Addr)
    : step img s (i, .initPrimary b tinfo dest) = none := by
  rcases Option.ne_none_iff_exists'.mp hb with ⟨o, ho⟩
  unfold step cxaAllocateException
  dsimp only
  rw [ho]
  rfl

theorem step_leaves (img : Image) {action : Action} {x : Exc} {c' : List Activity}
    (hl : Leaves (s.activities i) action x c')
    : step img s (i, action) = (do
        let w ← (cxaEndCatch i s.process).toOption
        return (s.setProcess w).setActivities i c') := by
  generalize hc : s.activities i = c at hl
  cases hl <;> simp [step, hc]

theorem leaves_of_endCatch (hstep : step img s (i, .endCatch) = some s')
    : ∃ x c', Leaves (s.activities i) .endCatch x c' := by
  unfold step at hstep
  dsimp only at hstep
  split at hstep
  . next x c hc =>
    rw [hc]
    exact ⟨x, c, .finish⟩
  . contradiction

theorem leaves_of_endCatchUnwinding (hstep : step img s (i, .endCatchUnwinding) = some s')
    : ∃ x c', Leaves (s.activities i) .endCatchUnwinding x c' := by
  unfold step at hstep
  dsimp only at hstep
  split at hstep
  . next y x c hc =>
    rw [hc]
    exact ⟨x, .unwinding y :: c, .unwinding⟩
  . contradiction

namespace Inv

theorem throw (hinv : s.Inv) (hstep : step img s (i, .throw b tinfo dest) = some s')
    : Outcome s (i, .throw b tinfo dest) s' := by
  by_cases hb : s.process.heap b = none
  . rcases step_throw hb i tinfo dest with ⟨w, heq, hview⟩
    rw [heq, Option.some.injEq] at hstep
    subst hstep
    refine .of_thread ?_ (.alloc hb (congrArg View.kind hview) (congrArg View.log hview)) rfl
      (congrArg View.threads hview) (.same rfl rfl rfl)
    refine hinv.raise_cxx rfl hb (congrArg View.link hview) (congrArg View.threads hview) ?_
    intro hself howned
    have hkind : (s.setProcess w).process.heap.kind = _ := congrArg View.kind hview
    have hnone : s.process.heap.kind b = none := Heap.kind_eq_none_iff.mpr hb
    refine hkind ▸ hinv.owners.alloc_primary hnone howned (.inl ⟨rfl, hself, rfl⟩)
  . rw [step_throw_none hb] at hstep
    contradiction

theorem initPrimary (hinv : s.Inv) (hstep : step img s (i, .initPrimary b tinfo dest) = some s')
    : Outcome s (i, .initPrimary b tinfo dest) s' := by
  by_cases hb : s.process.heap b = none
  . rcases step_initPrimary hb i tinfo dest with ⟨w, heq, hview⟩
    rw [heq, Option.some.injEq] at hstep
    subst hstep
    have hlink : w.heap.link = Function.update s.process.heap.link b (some (.cxx 0 none)) :=
      congrArg View.link hview
    have hnot := hinv.not_mem_owned hb
    refine .of_threads_eq ?_ (.alloc hb (congrArg View.kind hview) (congrArg View.log hview)) rfl
      (congrArg View.threads hview) rfl
    refine hinv.refer rfl (congrArg View.threads hview) ?_ ?_ ?_
    . intro b' hb'
      rw [setThrown_process, setProcess_process, hlink, Function.update_of_ne]
      rintro rfl
      exact hnot hb'
    . intro b' n next hb' hmem
      rw [setThrown_process, setProcess_process, hlink] at hb'
      by_cases heq : b' = b
      . rw [heq, Function.update_self] at hb'
        simp only [Option.some.injEq, Link.cxx.injEq] at hb'
        exact hb'.1.symm
      . rw [Function.update_of_ne heq] at hb'
        exact hinv.idle b' n next hb' hmem
    . have hkind : w.heap.kind = _ := congrArg View.kind hview
      have hnone : s.process.heap.kind b = none := Heap.kind_eq_none_iff.mpr hb
      rw [setThrown_process, setProcess_process, hkind]
      exact hinv.owners.alloc_primary hnone (fun _ _ => Iff.rfl) (.inr ⟨rfl, hnot⟩)
  . rw [step_initPrimary_none hb] at hstep
    contradiction

theorem raiseForeign (hinv : s.Inv) {cls : BitVec 64} {cleanup : Option Addr} {beyond : CxaTail}
    (hstep : step img s (i, .raiseForeign b cls cleanup beyond) = some s')
    : Outcome s (i, .raiseForeign b cls cleanup beyond) s' := by
  unfold step at hstep
  dsimp only at hstep
  split at hstep
  . next hcond =>
    rcases hcond with ⟨hb, hcls⟩
    rw [Option.some.injEq] at hstep
    subst hstep
    refine .of_thread ?_ (.alloc hb Heap.kind_set rfl) rfl (Function.update_eq_self ..).symm
      (.same rfl rfl rfl)
    refine hinv.raise_foreign rfl hb ?_ rfl ?_
    . exact Heap.link_set
    . intro hself howned
      have hnone : s.process.heap.kind b = none := Heap.kind_eq_none_iff.mpr hb
      rw [setActivities_process, setProcess_process, Heap.kind_set, Obj.kind_foreign hcls]
      exact hinv.owners.alloc_foreign hnone howned
  . contradiction

theorem cache (hinv : s.Inv) {handlerSwitchValue : BitVec 32}
    {actionRecord languageSpecificData catchTemp adjustedPtr : Addr}
    (hstep : step img s (i, .cache handlerSwitchValue actionRecord languageSpecificData catchTemp
      adjustedPtr) = some s')
    : Outcome s (i, .cache handlerSwitchValue actionRecord languageSpecificData catchTemp
      adjustedPtr) s' := by
  unfold step at hstep
  dsimp only at hstep
  split at hstep
  . next b c hc =>
    have hx : (⟨b, false⟩ : Exc) ∈ excs (s.activities i) := by
      simp [hc]
    rcases (hinv.thread i).cxx _ hx rfl with ⟨next, hlink⟩
    rcases Heap.cxx_of_link hlink with ⟨e, he, _⟩
    rw [Heap.tail_of_cxx he, toOption_ok_bind] at hstep
    simp only [pure, Option.some.injEq] at hstep
    subst hstep
    have hview : (s.process.setTail ⟨b, 0⟩ { e.toCxaTail with
        handlerSwitchValue, actionRecord, languageSpecificData, catchTemp, adjustedPtr }).view
        = s.process.view := by
      rw [Process.view_setTail he (by rfl), View.setLink_eq_self]
      exact Heap.link_of_cxx he
    exact .of_threads_eq (hinv.of_view hview rfl rfl rfl)
      (.same (congrArg View.kind hview) (congrArg View.log hview)) rfl
      (congrArg View.threads hview) rfl
  . contradiction

section

variable {c : List Activity} {x : Exc}

-- the exception is ready to be caught by the runtime that it belongs to
theorem cxx_of_mem (hinv : s.Inv) (hx : x ∈ excs (s.activities i)) (hcxx : x.isForeign = false)
    : ∃ e, s.process.heap x.block = some (.cxx e) ∧ e.handlerCount = handlerCount (s.activities i) x
      ∧ isCxxException e.unwindHeader.exceptionClass
      ∧ ((∃ n, e.kind = .primary n) ∨ ∃ p, e.kind = .dependent p) := by
  rcases (hinv.thread i).cxx x hx hcxx with ⟨next, hlink⟩
  rcases Heap.cxx_of_link hlink with ⟨e, he, hcount, _⟩
  have hready := Heap.ready_of_cxx (hinv.owners.ready x.block) he
  rw [Heap.kind_of_cxx he] at hready
  simp only [Option.some.injEq] at hready
  refine ⟨e, he, hcount, ?_, hready⟩
  rcases hready with ⟨n, hn⟩ | ⟨p, hp⟩
  . rw [(CxaException.kind_eq_primary.mp hn).1]
    rfl
  . rw [(CxaException.kind_eq_dependent.mp hp).1]
    rfl

theorem foreign_of_mem (hinv : s.Inv) (hx : x ∈ excs (s.activities i)) (hforeign : x.isForeign)
    : s.process.heap.kind x.block = some .foreign := by
  rcases Heap.foreign_of_link ((hinv.thread i).foreign x hx hforeign) with ⟨header, beyond, hobj⟩
  exact Heap.ready_of_foreign (hinv.owners.ready x.block) hobj

theorem beginCatch_view (hinv : s.Inv) (img : Image) (hc : s.activities i = .unwinding x :: c)
    (hcaught : x.isForeign → (s.process.threads i).caughtExceptions = none)
    : ∃ a w, cxaBeginCatch img i x.object s.process = .ok (a, w)
      ∧ (∃ header, w.heap.unwindException x.object = .ok header
        ∧ (header.exceptionClass = exceptionClass
          → ∃ t, w.heap.tail (exceptionFromPointer x.object) = .ok t))
      ∧ w.heap.kind = s.process.heap.kind ∧ w.log = s.process.log
      ∧ (∃ ti, w.threads = Function.update s.process.threads i ti
        ∧ (ti.foreignExceptionState ≠ .none ↔ x.isForeign))
      ∧ ∀ w', w'.view = w.view → ((s.setProcess w').setActivities i (.handler x :: c)).Inv := by
  have hx : x ∈ excs (s.activities i) := by
    simp [hc]
  have hthread := hinv.thread i
  rw [hc] at hthread
  have hblocks : blocks (.handler x :: c) = blocks (s.activities i) := by
    simp [hc, Activity.exc]
  cases hforeign : x.isForeign with
  | false =>
    have hobject : x.object = ⟨x.block, 96⟩ := by
      simp [Exc.object, hforeign]
    rcases hinv.cxx_of_mem hx hforeign with ⟨e, he, _, hcls, _⟩
    rcases cxaBeginCatch_cxx img i he hcls with ⟨e', w, hcatch, he', hheader, hview⟩
    rw [hobject]
    refine ⟨_, w, hcatch, ⟨_, unwindException_of_cxx he', ?_⟩, congrArg View.kind hview,
      congrArg View.log hview, ⟨_, congrArg View.threads hview, by simp⟩, ?_⟩
    . intro _
      exact ⟨_, Heap.tail_of_cxx he'⟩
    . intro w' hw'
      rw [hview] at hw'
      have hlink : w'.heap.link = _ := congrArg View.link hw'
      have hthreads : w'.threads = _ := congrArg View.threads hw'
      refine hinv.keep rfl hblocks ?_ ?_ ?_ (congrArg View.kind hw') rfl rfl
      . rw [setActivities_process, setProcess_process, hlink, hthreads, View.setThread_threads,
          Function.update_self]
        exact hthread.beginCatch_cxx hforeign (Heap.link_of_cxx he)
      . intro j hj
        rw [setActivities_process, setProcess_process, hthreads, View.setThread_threads,
          Function.update_of_ne hj]
        rfl
      . intro b hb
        rw [setActivities_process, setProcess_process, hlink, View.setThread_link,
          View.setLink_link, Function.update_of_ne]
        . rfl
        . rintro rfl
          exact hb (mem_blocks hx)
  | true =>
    have hobject : x.object = ⟨x.block, 0⟩ := by
      simp [Exc.object, hforeign]
    rcases Heap.foreign_of_kind (hinv.foreign_of_mem hx hforeign) with
      ⟨header, beyond, hobj, hcls, _⟩
    have hcaught := hcaught hforeign
    rw [hobject]
    refine ⟨_, _, cxaBeginCatch_foreign hobj hcls hcaught,
      ⟨header, unwindException_of_foreign hobj, ?_⟩, rfl, rfl,
      ⟨_, congrArg View.threads (Process.view_setThread ..), by simp⟩, ?_⟩
    . intro heq
      rw [heq] at hcls
      contradiction
    . intro w' hw'
      rw [Process.view_setThread] at hw'
      have hlink : w'.heap.link = s.process.heap.link := congrArg View.link hw'
      have hthreads : w'.threads = _ := congrArg View.threads hw'
      refine hinv.keep rfl hblocks ?_ ?_ ?_ (congrArg View.kind hw') rfl rfl
      . rw [setActivities_process, setProcess_process, hlink, hthreads, View.setThread_threads,
          Function.update_self]
        exact hthread.beginCatch_foreign hforeign hcaught
      . intro j hj
        rw [setActivities_process, setProcess_process, hthreads, View.setThread_threads,
          Function.update_of_ne hj]
        rfl
      . intro b _
        rw [setActivities_process, setProcess_process, hlink]

theorem beginCatch_terminate (hinv : s.Inv) (hc : s.activities i = .unwinding x :: c)
    (hforeign : x.isForeign) (hcaught : (s.process.threads i).caughtExceptions ≠ none)
    : cxaBeginCatch img i x.object s.process = .error .terminate := by
  have hx : x ∈ excs (s.activities i) := by
    simp [hc]
  have hobject : x.object = ⟨x.block, 0⟩ := by
    simp [Exc.object, hforeign]
  rcases Heap.foreign_of_kind (hinv.foreign_of_mem hx hforeign) with ⟨header, beyond, hobj, hcls, _⟩
  rw [hobject]
  exact cxaBeginCatch_foreign_terminate hobj hcls hcaught

theorem beginCatch (hinv : s.Inv) (hstep : step img s (i, .beginCatch) = some s')
    : Outcome s (i, .beginCatch) s' := by
  unfold step at hstep
  dsimp only at hstep
  split at hstep
  . next x c hc =>
    by_cases hcaught : x.isForeign → (s.process.threads i).caughtExceptions = none
    . rcases hinv.beginCatch_view img hc hcaught with
        ⟨a, w, hcatch, _, hkind, hlog, ⟨ti, hthreads, htag⟩, hpres⟩
      rw [hcatch, toOption_ok_bind] at hstep
      simp only [pure, Option.some.injEq] at hstep
      subst hstep
      apply Outcome.of_thread (hpres w rfl) (.same hkind hlog) rfl hthreads
      refine .caught rfl htag ?_
      rw [hc]
      rfl
    . rw [Classical.not_imp] at hcaught
      rw [hinv.beginCatch_terminate hc hcaught.1 hcaught.2] at hstep
      contradiction
  . contradiction

theorem callUnexpected (hinv : s.Inv) (hstep : step img s (i, .callUnexpected) = some s')
    : Outcome s (i, .callUnexpected) s' := by
  unfold step at hstep
  dsimp only at hstep
  split at hstep
  . next x c hc =>
    by_cases hcaught : x.isForeign → (s.process.threads i).caughtExceptions = none
    . rcases hinv.beginCatch_view img hc hcaught with
        ⟨a, w, hcatch, hheader, hkind, hlog, ⟨ti, hthreads, htag⟩, hpres⟩
      rcases cxaCallUnexpected_view ⟨a, w, hcatch, rfl, hheader⟩ with ⟨call, w', hcall, hview⟩
      rw [hcall, toOption_ok_bind] at hstep
      simp only [pure, Option.some.injEq] at hstep
      subst hstep
      refine .of_thread (hpres w' hview) (.same ?_ ?_) rfl ?_ (.caught rfl htag ?_)
      . exact (congrArg View.kind hview).trans hkind
      . exact (congrArg View.log hview).trans hlog
      . exact (congrArg View.threads hview).trans hthreads
      . rw [hc]
        rfl
    . rw [Classical.not_imp] at hcaught
      unfold cxaCallUnexpected at hstep
      rw [hinv.beginCatch_terminate hc hcaught.1 hcaught.2] at hstep
      contradiction
  . contradiction

theorem caughtExceptions_eq (hinv : s.Inv) (hhandlers : (handlers (s.activities i)).head? = some x)
    : (s.process.threads i).caughtExceptions = some ⟨x.block, 0⟩ := by
  rw [(hinv.thread i).caughtExceptions_eq, hhandlers]
  rfl

theorem foreignExceptionState_eq_none (hinv : s.Inv)
    (hhandlers : (handlers (s.activities i)).head? = some x) (hcxx : x.isForeign = false)
    : (s.process.threads i).foreignExceptionState = .none := by
  by_contra htag
  rcases (hinv.thread i).tag.handlers_eq htag with ⟨y, hy, hforeign⟩
  rw [hy, List.head?_cons, Option.some.injEq] at hhandlers
  rw [hhandlers, hcxx] at hforeign
  contradiction

variable {c' : List Activity} {action : Action}

theorem endCatch_keep (hinv : s.Inv) (hl : Leaves (s.activities i) action x c')
    (hcxx : x.isForeign = false) (hx : x ∈ excs c')
    : ∃ w, cxaEndCatch i s.process = .ok w ∧ w.log = s.process.log
      ∧ w.heap.kind = s.process.heap.kind
      ∧ (∃ ti, w.threads = Function.update s.process.threads i ti ∧ ti.foreignExceptionState = .none)
      ∧ ((s.setProcess w).setActivities i c').Inv := by
  have hhandlers := hl.handlers_eq
  have hflight := hl.inFlight_eq
  have hnested := hl.nested (hinv.thread i).nested
  have hxi : x ∈ excs (s.activities i) := hl.mem_excs
  have hhead : (handlers (s.activities i)).head? = some x := hl.head_eq
  have htag := hinv.foreignExceptionState_eq_none hhead hcxx
  rcases hinv.cxx_of_mem hxi hcxx with ⟨e, he, hcount, _⟩
  have hkeep : e.handlerCount ≠ 1 := by
    rw [hcount]
    unfold handlerCount
    rw [hflight, hhandlers, List.count_cons_self]
    split
    . omega
    . next hnot =>
      rw [mem_excs_iff] at hx
      have hpos := List.count_pos_iff.mpr (hx.resolve_right hnot)
      omega
  rcases cxaEndCatch_keep (hinv.caughtExceptions_eq hhead) htag he hkeep with ⟨w, hend, hview⟩
  have hlink : w.heap.link = _ := congrArg View.link hview
  have hkind : w.heap.kind = s.process.heap.kind := congrArg View.kind hview
  have hthreads : w.threads = _ := congrArg View.threads hview
  have hblocks : blocks c' = blocks (s.activities i) := by
    ext b
    constructor
    . rintro ⟨y, hy, rfl⟩
      apply mem_blocks
      rw [mem_excs_iff] at hy ⊢
      rw [hhandlers, hflight, List.mem_cons]
      exact hy.imp_left .inr
    . rintro ⟨y, hy, rfl⟩
      by_cases heq : y = x
      . rw [heq]
        exact mem_blocks hx
      . apply mem_blocks
        rw [mem_excs_iff] at hy ⊢
        rw [hhandlers, hflight, List.mem_cons] at hy
        exact hy.imp_left fun h => h.resolve_left heq
  refine ⟨w, hend, congrArg View.log hview, hkind, ⟨_, hthreads, htag⟩, ?_⟩
  refine hinv.keep rfl hblocks ?_ ?_ ?_ hkind rfl rfl
  . rw [setActivities_process, setProcess_process, hlink, hthreads, View.setThread_threads,
      Function.update_self]
    exact (hinv.thread i).endCatch_cxx hhandlers hflight hnested hcxx htag (Heap.link_of_cxx he)
  . intro j hj
    rw [setActivities_process, setProcess_process, hthreads, View.setThread_threads,
      Function.update_of_ne hj]
    rfl
  . intro b hb
    rw [setActivities_process, setProcess_process, hlink, View.setThread_link,
      View.setLink_link, Function.update_of_ne]
    . rfl
    . rintro rfl
      exact hb (mem_blocks hxi)

section

variable {e : CxaException} {w w₁ : Process}

-- `w₁` is the process after the record of the last handler has been taken off the stack
theorem close_deleted (hinv : s.Inv) (hl : Leaves (s.activities i) action x c')
    (hcxx : x.isForeign = false) (hx : x ∉ excs c')
    (htag : (s.process.threads i).foreignExceptionState = .none)
    (he : s.process.heap x.block = some (.cxx e)) (hdelete : e.handlerCount = 1)
    (hview₁ : w₁.view
      = (s.process.view.setLink x.block (some (.cxx 0 e.nextException))).setThread i {
        s.process.threads i with caughtExceptions := e.nextException
      })
    (hthreads : w.threads = w₁.threads)
    (hlink : ∀ b, b ≠ x.block → w.heap.link b = w₁.heap.link b ∨ w.heap.link b = none ∧ b ∉ s.owned)
    (hself : w.heap.link x.block = w₁.heap.link x.block ∨ w.heap.link x.block = none)
    (howners : x.block ∈ s.owned
      → (∀ b, b ∈ ((s.setProcess w).setActivities i c').owned ↔ b ∈ s.owned ∧ b ≠ x.block)
      → OwnerInv w.heap.kind ((s.setProcess w).setActivities i c').owned s.references s.thrown)
    : ((s.setProcess w).setActivities i c').Inv := by
  have hthread := (hinv.thread i).endCatch_cxx hl.handlers_eq hl.inFlight_eq
    (hl.nested (hinv.thread i).nested) hcxx htag (Heap.link_of_cxx he)
  rw [hdelete] at hthread
  have hthreads₁ : w₁.threads = _ := congrArg View.threads hview₁
  have hlink₁ : w₁.heap.link
      = Function.update s.process.heap.link x.block (some (.cxx 0 e.nextException)) :=
    congrArg View.link hview₁
  rw [hthreads₁] at hthreads
  refine hinv.close rfl hl.handlers_eq hl.inFlight_eq hx
    (Function.update s.process.heap.link x.block (some (.cxx 0 e.nextException)))
    ?_ ?_ ?_ ?_ ?_ howners
  . rw [setActivities_process, setProcess_process, hthreads, View.setThread_threads,
      Function.update_self]
    exact hthread
  . intro j hj
    rw [setActivities_process, setProcess_process, hthreads, View.setThread_threads,
      Function.update_of_ne hj]
    rfl
  . intro b hb
    exact Function.update_of_ne hb ..
  . intro b hb
    have hb' := hlink b hb
    rw [hlink₁, Function.update_of_ne hb] at hb'
    exact hb'
  . intro n next hn
    rw [setActivities_process, setProcess_process] at hn
    rw [hlink₁, Function.update_self] at hself
    rcases hself with hself | hself
    . rw [hself] at hn
      simp only [Option.some.injEq, Link.cxx.injEq] at hn
      exact hn.1.symm
    . rw [hself] at hn
      contradiction

theorem delete_primary (hinv : s.Inv) (hl : Leaves (s.activities i) action x c')
    (hcxx : x.isForeign = false) (hx : x ∉ excs c')
    (htag : (s.process.threads i).foreignExceptionState = .none)
    (he : s.process.heap x.block = some (.cxx e)) (hdelete : e.handlerCount = 1)
    (hheap₁ : w₁.heap = s.process.heap.set x.block (.cxx { e with handlerCount := 0 }))
    (hview₁ : w₁.view
      = (s.process.view.setLink x.block (some (.cxx 0 e.nextException))).setThread i {
        s.process.threads i with caughtExceptions := e.nextException
      })
    {n : Nat} (hkind : e.kind = .primary n) (hmem : x.block ∈ s.owned)
    : ∃ w, releaseException 4 ⟨x.block, 0⟩ w₁ = .ok w ∧ Releases s.process w x.block
        ∧ w.threads = w₁.threads ∧ ((s.setProcess w).setActivities i c').Inv := by
  have he₁ : w₁.heap x.block = some (.cxx { e with handlerCount := 0 }) := by
    rw [hheap₁]
    exact Heap.set_self ..
  have hkind' : s.process.heap.kind x.block = some (.primary n) := by
    rw [Heap.kind_of_cxx he, hkind]
  have hn := hinv.owners.count_ne_zero_of_mem hkind' hmem
  rcases releaseException_primary he₁ hkind hn 3 with ⟨w, hrelease, hview⟩
  have hwkind : w.heap.kind = dropKind s.process.heap.kind x.block n := by
    rw [← Process.view_kind, hview, hview₁]
    simp
  have hwthreads : w.threads = w₁.threads := by
    rw [← Process.view_threads, hview]
    simp
  refine ⟨w, hrelease, .primary he hkind hn hwkind ?_, hwthreads, ?_⟩
  . rw [← Process.view_log, hview, hview₁]
    simp [finalEvents]
  . apply hinv.close_deleted hl hcxx hx htag he hdelete hview₁ hwthreads
    . intro b hb
      rw [← Process.view_link, hview, View.dropReference_link_of_ne hb]
      exact .inl rfl
    . rw [← Process.view_link, hview, View.dropReference_link]
      split
      . exact .inr (Function.update_self ..)
      . exact .inl rfl
    . intro hmem howned
      rw [hwkind]
      exact hinv.owners.release_primary hkind' hmem howned

theorem delete_dependent (hinv : s.Inv) (hl : Leaves (s.activities i) action x c')
    (hcxx : x.isForeign = false) (hx : x ∉ excs c')
    (htag : (s.process.threads i).foreignExceptionState = .none)
    (he : s.process.heap x.block = some (.cxx e)) (hdelete : e.handlerCount = 1)
    (hheap₁ : w₁.heap = s.process.heap.set x.block (.cxx { e with handlerCount := 0 }))
    (hview₁ : w₁.view
      = (s.process.view.setLink x.block (some (.cxx 0 e.nextException))).setThread i {
        s.process.threads i with caughtExceptions := e.nextException
      })
    {p : Nat} (hkind : e.kind = .dependent p)
    : ∃ w, releaseException 4 ⟨x.block, 0⟩ w₁ = .ok w ∧ Releases s.process w x.block
        ∧ w.threads = w₁.threads ∧ ((s.setProcess w).setActivities i c').Inv := by
  have he₁ : w₁.heap x.block = some (.cxx { e with handlerCount := 0 }) := by
    rw [hheap₁]
    exact Heap.set_self ..
  have hkind' : s.process.heap.kind x.block = some (.dependent p) := by
    rw [Heap.kind_of_cxx he, hkind]
  rcases hinv.owners.dependent x.block p hkind' with ⟨n, hp⟩
  have hn := hinv.owners.count_ne_zero_of_dependent hkind' hp
  have hne : p ≠ x.block := by
    rintro rfl
    rw [hp] at hkind'
    simp at hkind'
  rcases Heap.primary_of_kind hp with ⟨e', he', hprimary⟩
  have hprimary := CxaException.kind_eq_primary.mpr hprimary
  have he'₁ : w₁.heap p = some (.cxx e') := by
    rw [hheap₁, Heap.set_of_ne _ _ hne]
    exact he'
  rcases releaseException_dependent he₁ hkind he'₁ hprimary hn 1 with ⟨w, hrelease, hview⟩
  have hwkind : w.heap.kind
      = Function.update (dropKind s.process.heap.kind p n) x.block none := by
    rw [← Process.view_kind, hview, hview₁]
    simp [View.free]
  have hwthreads : w.threads = w₁.threads := by
    rw [← Process.view_threads, hview]
    simp [View.free]
  refine ⟨w, hrelease, .dependent he hkind he' hprimary hn hwkind ?_, hwthreads, ?_⟩
  . rw [← Process.view_log, hview, hview₁]
    simp [View.free]
  . apply hinv.close_deleted hl hcxx hx htag he hdelete hview₁ hwthreads
    . intro b hb
      rw [← Process.view_link, hview, View.append_link, View.free, View.setKind_link,
        View.setLink_link, Function.update_of_ne hb, View.dropReference_link]
      by_cases hnp : n = 1 ∧ b = p
      . rw [if_pos hnp.1, hnp.2, Function.update_self]
        rw [hnp.1] at hp
        exact .inr ⟨rfl, hinv.owners.not_mem_of_release_dependent hkind' hp⟩
      . split
        . next hn1 =>
          rw [Function.update_of_ne fun hbp => hnp ⟨hn1, hbp⟩]
          exact .inl rfl
        . exact .inl rfl
    . rw [← Process.view_link, hview, View.append_link, View.free, View.setKind_link,
        View.setLink_link, Function.update_self]
      exact .inr rfl
    . intro _ howned
      rw [hwkind]
      exact hinv.owners.release_dependent hkind' hp howned

end

theorem endCatch_delete (hinv : s.Inv) (hl : Leaves (s.activities i) action x c')
    (hcxx : x.isForeign = false) (hx : x ∉ excs c')
    : ∃ w, cxaEndCatch i s.process = .ok w ∧ Releases s.process w x.block
      ∧ (∃ ti, w.threads = Function.update s.process.threads i ti ∧ ti.foreignExceptionState = .none)
      ∧ ((s.setProcess w).setActivities i c').Inv := by
  have hhandlers := hl.handlers_eq
  have hxi : x ∈ excs (s.activities i) := hl.mem_excs
  have hhead : (handlers (s.activities i)).head? = some x := hl.head_eq
  have htag := hinv.foreignExceptionState_eq_none hhead hcxx
  rcases hinv.cxx_of_mem hxi hcxx with ⟨e, he, hcount, _, hkind⟩
  have hdelete : e.handlerCount = 1 := by
    rw [mem_excs_iff, not_or] at hx
    rw [hcount]
    unfold handlerCount
    rw [hl.inFlight_eq, hhandlers, List.count_cons_self, if_neg hx.2, List.count_eq_zero.mpr hx.1]
    rfl
  rcases cxaEndCatch_delete (hinv.caughtExceptions_eq hhead) htag he hdelete with
    ⟨w₁, hend, hheap₁, hview₁⟩
  have hrelease : ∃ w, releaseException 4 ⟨x.block, 0⟩ w₁ = .ok w ∧ Releases s.process w x.block
      ∧ w.threads = w₁.threads ∧ ((s.setProcess w).setActivities i c').Inv := by
    rcases hkind with ⟨n, hkind⟩ | ⟨p, hkind⟩
    . exact hinv.delete_primary hl hcxx hx htag he hdelete hheap₁ hview₁ hkind
        (mem_owned (mem_blocks hxi))
    . exact hinv.delete_dependent hl hcxx hx htag he hdelete hheap₁ hview₁ hkind
  rcases hrelease with ⟨w, hrelease, hreleases, hthreads, hpres⟩
  have hthreads₁ : w₁.threads = _ := congrArg View.threads hview₁
  exact ⟨w, hend.trans hrelease, hreleases, ⟨_, hthreads.trans hthreads₁, htag⟩, hpres⟩

theorem endCatch_foreign_rethrown (hinv : s.Inv) (hl : Leaves (s.activities i) action x c')
    (hcaught : (s.process.threads i).caughtExceptions = some ⟨x.block, 0⟩)
    (htag : (s.process.threads i).foreignExceptionState = .rethrown)
    : ∃ w, cxaEndCatch i s.process = .ok w
      ∧ Outcome s (i, action) ((s.setProcess w).setActivities i c') := by
  have hhandlers := hl.handlers_eq
  have hflight := hl.inFlight_eq
  have hthread := (hinv.thread i).endCatch_foreign hhandlers hflight
    (hl.nested (hinv.thread i).nested) (by simp [htag])
  have htagi := (hinv.thread i).tag
  rw [htag] at htagi
  rcases htagi with ⟨y, hy, _, hyflight⟩
  rw [hhandlers, List.cons.injEq] at hy
  rcases hy with ⟨rfl, hnil⟩
  have hblocks : blocks c' = blocks (s.activities i) := by
    ext b
    unfold blocks
    simp only [mem_excs_iff, hhandlers, hnil, hflight, Set.mem_ofPred_eq, List.not_mem_nil,
      false_or, List.mem_cons, or_false]
    constructor
    . rintro ⟨y, hy, hb⟩
      exact ⟨y, .inr hy, hb⟩
    . rintro ⟨y, rfl | hy, hb⟩
      . exact ⟨y, hflight ▸ hyflight, hb⟩
      . exact ⟨y, hy, hb⟩
  refine ⟨_, cxaEndCatch_foreign_rethrown hcaught htag, .of_thread ?_ (.same rfl rfl) rfl
    (congrArg View.threads (Process.view_setThread ..)) (.left hl rfl)⟩
  refine hinv.keep rfl hblocks ?_ ?_ ?_ rfl rfl rfl
  . simpa [Process.setThread] using hthread
  . intro j hj
    simp [Process.setThread, hj]
  . intro b _
    rfl

theorem close_foreign (hinv : s.Inv) (hl : Leaves (s.activities i) action x c')
    (hforeign : x.isForeign) (htag : (s.process.threads i).foreignExceptionState ≠ .none)
    (hx : x ∉ excs c') {w : Process}
    (hthreads : w.threads = Function.update s.process.threads i {
      s.process.threads i with caughtExceptions := none, foreignExceptionState := .none
    })
    (hlink : ∀ b, b ≠ x.block → w.heap.link b = s.process.heap.link b)
    (hself : w.heap.link x.block = s.process.heap.link x.block ∨ w.heap.link x.block = none)
    (howners : x.block ∈ s.owned
      → (∀ b, b ∈ ((s.setProcess w).setActivities i c').owned ↔ b ∈ s.owned ∧ b ≠ x.block)
      → OwnerInv w.heap.kind ((s.setProcess w).setActivities i c').owned s.references s.thrown)
    : ((s.setProcess w).setActivities i c').Inv := by
  have hhandlers := hl.handlers_eq
  have hxi : x ∈ excs (s.activities i) := hl.mem_excs
  have hthread := (hinv.thread i).endCatch_foreign hhandlers hl.inFlight_eq
    (hl.nested (hinv.thread i).nested) htag
  refine hinv.close rfl hhandlers hl.inFlight_eq hx s.process.heap.link ?_ ?_ ?_ ?_ ?_ howners
  . rw [setActivities_process, setProcess_process, hthreads, Function.update_self]
    exact hthread
  . intro j hj
    rw [setActivities_process, setProcess_process, hthreads, Function.update_of_ne hj]
  . intro b _
    rfl
  . intro b hb
    exact .inl (hlink b hb)
  . intro n next hn
    rw [setActivities_process, setProcess_process] at hn
    rcases hself with hself | hself
    . rw [hself, (hinv.thread i).foreign x hxi hforeign] at hn
      simp at hn
    . rw [hself] at hn
      contradiction

theorem endCatch_foreign_caught (hinv : s.Inv) (hl : Leaves (s.activities i) action x c')
    (hforeign : x.isForeign) (hcaught : (s.process.threads i).caughtExceptions = some ⟨x.block, 0⟩)
    (htag : (s.process.threads i).foreignExceptionState = .caught)
    (hkind : s.process.heap.kind x.block = some .foreign)
    : ∃ w, cxaEndCatch i s.process = .ok w
      ∧ Outcome s (i, action) ((s.setProcess w).setActivities i c') := by
  have hne : (s.process.threads i).foreignExceptionState ≠ .none := by
    simp [htag]
  have htagi := (hinv.thread i).tag
  rw [htag] at htagi
  rcases htagi with ⟨y, hy, _, hyflight⟩
  rw [hl.handlers_eq, List.cons.injEq] at hy
  rcases hy with ⟨rfl, hnil⟩
  have hx : x ∉ excs c' := by
    rw [mem_excs_iff, hnil, ← hl.inFlight_eq, not_or]
    exact ⟨List.not_mem_nil, hyflight⟩
  rcases Heap.foreign_of_kind hkind with ⟨header, beyond, hobj, _, hcleanup⟩
  rcases cxaEndCatch_foreign_caught hcaught htag hobj hcleanup with
    ⟨w, hend, ⟨_, hview⟩ | ⟨_, hview⟩⟩
  . have hwlink : w.heap.link = s.process.heap.link := congrArg View.link hview
    have hwkind : w.heap.kind = s.process.heap.kind := congrArg View.kind hview
    refine ⟨w, hend, .of_thread ?_ (.same hwkind (congrArg View.log hview)) rfl
      (congrArg View.threads hview) (.left hl rfl)⟩
    apply hinv.close_foreign hl hforeign hne hx (congrArg View.threads hview)
    . intro b _
      rw [hwlink]
    . rw [hwlink]
      exact .inl rfl
    . intro _ howned
      rw [hwkind]
      apply hinv.owners.congr_owned
      intro b n hb
      rw [howned]
      refine ⟨And.left, fun hmem => ⟨hmem, ?_⟩⟩
      rintro rfl
      rw [hkind] at hb
      simp at hb
  . have hwlink : w.heap.link = Function.update s.process.heap.link x.block none :=
      congrArg View.link hview
    have hwkind : w.heap.kind = Function.update s.process.heap.kind x.block none :=
      congrArg View.kind hview
    refine ⟨w, hend, .of_thread ?_ (.cleanUp hkind hwkind (congrArg View.log hview)) rfl
      (congrArg View.threads hview) (.left hl rfl)⟩
    apply hinv.close_foreign hl hforeign hne hx (congrArg View.threads hview)
    . intro b hb
      rw [hwlink, Function.update_of_ne hb]
    . rw [hwlink, Function.update_self]
      exact .inr rfl
    . intro _ howned
      rw [hwkind]
      apply hinv.owners.free_foreign hkind
      intro b hb
      rw [howned]
      exact and_iff_left hb

theorem endCatch_foreign (hinv : s.Inv) (hl : Leaves (s.activities i) action x c')
    (hforeign : x.isForeign) (htag : (s.process.threads i).foreignExceptionState ≠ .none)
    : ∃ w, cxaEndCatch i s.process = .ok w
      ∧ Outcome s (i, action) ((s.setProcess w).setActivities i c') := by
  have hcaught : (s.process.threads i).caughtExceptions = some ⟨x.block, 0⟩ := by
    apply hinv.caughtExceptions_eq
    rw [hl.handlers_eq]
    rfl
  have hxi : x ∈ excs (s.activities i) := hl.mem_excs
  cases htagi : (s.process.threads i).foreignExceptionState with
  | none => exact absurd htagi htag
  | rethrown => exact hinv.endCatch_foreign_rethrown hl hcaught htagi
  | caught =>
    exact hinv.endCatch_foreign_caught hl hforeign hcaught htagi (hinv.foreign_of_mem hxi hforeign)

-- the exception whose handler is left is not mistaken for one of the other kind
theorem endCatch_view (hinv : s.Inv) (hl : Leaves (s.activities i) action x c')
    (htag : x.isForeign → (s.process.threads i).foreignExceptionState ≠ .none)
    : ∃ w, cxaEndCatch i s.process = .ok w 
      ∧ Outcome s (i, action) ((s.setProcess w).setActivities i c') := by
  cases hforeign : x.isForeign with
  | false =>
    by_cases hx : x ∈ excs c'
    . rcases hinv.endCatch_keep hl hforeign hx with
        ⟨w, hend, hlog, hkind, ⟨ti, hthreads, htag'⟩, hpres⟩
      exact ⟨w, hend, .of_thread hpres (.same hkind hlog) rfl hthreads (.left hl htag')⟩
    . rcases hinv.endCatch_delete hl hforeign hx with
        ⟨w, hend, hrelease, ⟨ti, hthreads, htag'⟩, hpres⟩
      exact ⟨w, hend, .of_thread hpres (.release hrelease) rfl hthreads (.left hl htag')⟩
  | true => exact hinv.endCatch_foreign hl hforeign (htag hforeign)

theorem leave (hinv : s.Inv) (hl : Leaves (s.activities i) action x c')
    (htag : x.isForeign → (s.process.threads i).foreignExceptionState ≠ .none)
    (hstep : step img s (i, action) = some s')
    : Outcome s (i, action) s' := by
  rcases hinv.endCatch_view hl htag with ⟨w, hend, houtcome⟩
  rw [step_leaves img hl, hend, toOption_ok_bind] at hstep
  simp only [pure, Option.some.injEq] at hstep
  subst hstep
  exact houtcome

theorem endCatch (hinv : s.Inv) (hclean : s.Clean (i, .endCatch))
    (hstep : step img s (i, .endCatch) = some s')
    : Outcome s (i, .endCatch) s' := by
  rcases leaves_of_endCatch hstep with ⟨x, c', hl⟩
  apply hinv.leave hl _ hstep
  apply hclean
  rw [hl.handlers_eq]
  rfl

theorem endCatchUnwinding (hinv : s.Inv) (hclean : s.Clean (i, .endCatchUnwinding))
    (hstep : step img s (i, .endCatchUnwinding) = some s')
    : Outcome s (i, .endCatchUnwinding) s' := by
  rcases leaves_of_endCatchUnwinding hstep with ⟨x, c', hl⟩
  apply hinv.leave hl _ hstep
  apply hclean
  rw [hl.handlers_eq]
  rfl

theorem blocks_rethrow {c : List Activity} (hhead : (handlers c).head? = some x)
    : blocks (.unwinding x :: c) = blocks c := by
  rw [blocks_cons]
  apply Set.insert_eq_of_mem
  apply mem_blocks
  rw [mem_excs_iff]
  exact .inl (List.mem_of_mem_head? hhead)

theorem rethrow_cxx (hinv : s.Inv) (hhead : (handlers (s.activities i)).head? = some x)
    (hcxx : x.isForeign = false) (hpos : 0 < handlerCount (s.activities i) x)
    : ∃ w, cxaRethrow i s.process = .ok (⟨x.block, 96⟩, w) ∧ w.heap.isForeign x.block = false
      ∧ Outcome s (i, .rethrow)
        ((s.setProcess w).setActivities i (.unwinding x :: s.activities i)) := by
  have hxi : x ∈ excs (s.activities i) := mem_excs_of_head hhead
  have htag := hinv.foreignExceptionState_eq_none hhead hcxx
  rcases hinv.cxx_of_mem hxi hcxx with ⟨e, he, hcount, _⟩
  rw [← hcount] at hpos
  rcases cxaRethrow_cxx (hinv.caughtExceptions_eq hhead) htag he hpos with ⟨w, hrethrow, hview⟩
  have hlink : w.heap.link = _ := congrArg View.link hview
  have hkind : w.heap.kind = s.process.heap.kind := congrArg View.kind hview
  have hthreads : w.threads = _ := congrArg View.threads hview
  have hself : w.heap.link x.block = some (.cxx (-e.handlerCount) e.nextException) := by
    rw [hlink, View.setThread_link, View.setLink_link, Function.update_self]
  refine ⟨w, hrethrow, Heap.isForeign_of_cxx hself, .of_thread ?_
    (.same hkind (congrArg View.log hview)) rfl hthreads (.same rfl rfl rfl)⟩
  refine hinv.keep rfl (blocks_rethrow hhead) ?_ ?_ ?_ hkind rfl rfl
  . rw [setActivities_process, setProcess_process, hlink, hthreads, View.setThread_threads,
      Function.update_self]
    exact (hinv.thread i).rethrow_cxx hhead hcxx (Heap.link_of_cxx he) hpos htag
  . intro j hj
    rw [setActivities_process, setProcess_process, hthreads, View.setThread_threads,
      Function.update_of_ne hj]
    rfl
  . intro b hb
    rw [setActivities_process, setProcess_process, hlink, View.setThread_link,
      View.setLink_link, Function.update_of_ne]
    . rfl
    . rintro rfl
      exact hb (mem_blocks hxi)

theorem rethrow_foreign (hinv : s.Inv) (hhead : (handlers (s.activities i)).head? = some x)
    (hforeign : x.isForeign) (htag : (s.process.threads i).foreignExceptionState ≠ .none)
    : ∃ w, cxaRethrow i s.process = .ok (⟨x.block, 0⟩, w) ∧ w.heap.isForeign x.block
      ∧ Outcome s (i, .rethrow)
        ((s.setProcess w).setActivities i (.unwinding x :: s.activities i)) := by
  have hxi : x ∈ excs (s.activities i) := mem_excs_of_head hhead
  refine ⟨_, cxaRethrow_foreign (hinv.caughtExceptions_eq hhead) htag, ?_, .of_thread ?_
    (.same rfl rfl) rfl (congrArg View.threads (Process.view_setThread ..))
    (.rethrown rfl (by simp) rfl hhead hforeign)⟩
  . exact Heap.isForeign_of_foreign ((hinv.thread i).foreign x hxi hforeign)
  . refine hinv.keep rfl (blocks_rethrow hhead) ?_ ?_ ?_ rfl rfl rfl
    . simpa [Process.setThread] using (hinv.thread i).rethrow_foreign hhead hforeign htag
    . intro j hj
      simp [Process.setThread, hj]
    . intro b _
      rfl

theorem rethrow (hinv : s.Inv) (hclean : s.Clean (i, .rethrow))
    (hstep : step img s (i, .rethrow) = some s')
    : Outcome s (i, .rethrow) s' ∧ ∃ x, (handlers (s.activities i)).head? = some x
      ∧ s'.activities = Function.update s.activities i (.unwinding x :: s.activities i) := by
  unfold step at hstep
  dsimp only at hstep
  cases hhead : (handlers (s.activities i)).head? with
  | none =>
    have hcaught : (s.process.threads i).caughtExceptions = none := by
      rw [(hinv.thread i).caughtExceptions_eq, hhead]
      rfl
    unfold cxaRethrow at hstep
    dsimp only at hstep
    rw [hcaught] at hstep
    contradiction
  | some x =>
    rcases x with ⟨b, f⟩
    cases f with
    | true =>
      rcases hinv.rethrow_foreign hhead rfl (hclean _ hhead rfl) with
        ⟨w, heq, hforeign, houtcome⟩
      rw [heq, toOption_ok_bind] at hstep
      simp only [pure, Option.some.injEq] at hstep
      dsimp only at hforeign
      rw [hforeign] at hstep
      subst hstep
      exact ⟨houtcome, _, rfl, rfl⟩
    | false =>
      by_cases hpos : 0 < handlerCount (s.activities i) ⟨b, false⟩
      . rcases hinv.rethrow_cxx hhead rfl hpos with ⟨w, heq, hcxx, houtcome⟩
        rw [heq, toOption_ok_bind] at hstep
        simp only [pure, Option.some.injEq] at hstep
        dsimp only at hcxx
        rw [hcxx] at hstep
        subst hstep
        exact ⟨houtcome, _, rfl, rfl⟩
      . have hxi : (⟨b, false⟩ : Exc) ∈ excs (s.activities i) := mem_excs_of_head hhead
        rcases hinv.cxx_of_mem hxi rfl with ⟨e, he, hcount, _⟩
        rw [← hcount] at hpos
        rw [cxaRethrow_assertion (hinv.caughtExceptions_eq hhead)
          (hinv.foreignExceptionState_eq_none hhead rfl) he hpos] at hstep
        contradiction

end

section

variable {n p : Nat} {w : Process}

theorem addReference (hinv : s.Inv) {action : Action} (haction : action.leaves = false)
    (hp : s.process.heap.kind p = some (.primary n))
    (hview : w.view = s.process.view.setKind p (some (.primary (n + 1))))
    : Outcome s (i, action) ((s.setProcess w).setReferences p (s.references p + 1)) := by
  have hlink : w.heap.link = s.process.heap.link := congrArg View.link hview
  have hkind : w.heap.kind = Function.update s.process.heap.kind p (some (.primary (n + 1))) :=
    congrArg View.kind hview
  refine .of_threads_eq ?_ (.add hp hkind (congrArg View.log hview)) rfl
    (congrArg View.threads hview) haction
  refine hinv.refer rfl (congrArg View.threads hview) ?_ ?_ ?_
  . intro b _
    rw [setReferences_process, setProcess_process, hlink]
  . rw [setReferences_process, setProcess_process, hlink]
    exact hinv.idle
  . rw [setReferences_process, setProcess_process, hkind]
    exact hinv.owners.addReference hp

-- the real exception of a caught one
theorem real_of_mem (hinv : s.Inv) {x : Exc} (hx : x ∈ excs (s.activities i))
    (hcxx : x.isForeign = false)
    : ∃ p n, realExceptionFromException s.process.heap ⟨x.block, 0⟩ = .ok ⟨p, 0⟩
      ∧ s.process.heap.kind p = some (.primary n) ∧ n ≠ 0 := by
  rcases hinv.cxx_of_mem hx hcxx with ⟨e, he, _, _, ⟨n, hkind⟩ | ⟨p, hkind⟩⟩
  . have hp : s.process.heap.kind x.block = some (.primary n) := by
      rw [Heap.kind_of_cxx he, hkind]
    exact ⟨x.block, n, realExceptionFromException_primary he hkind, hp,
      hinv.owners.count_ne_zero_of_mem hp (mem_owned (mem_blocks hx))⟩
  . have hd : s.process.heap.kind x.block = some (.dependent p) := by
      rw [Heap.kind_of_cxx he, hkind]
    rcases hinv.owners.dependent x.block p hd with ⟨n, hp⟩
    exact ⟨p, n, realExceptionFromException_dependent he hkind, hp,
      hinv.owners.count_ne_zero_of_dependent hd hp⟩

theorem currentPrimary (hinv : s.Inv) (hstep : step img s (i, .currentPrimary) = some s')
    : Outcome s (i, .currentPrimary) s' := by
  unfold step at hstep
  dsimp only at hstep
  cases hhead : (handlers (s.activities i)).head? with
  | none =>
    have hcaught : (s.process.threads i).caughtExceptions = none := by
      rw [(hinv.thread i).caughtExceptions_eq, hhead]
      rfl
    rw [cxaCurrentPrimaryException_none hcaught, toOption_ok_bind] at hstep
    simp only [pure, Option.some.injEq] at hstep
    subst hstep
    exact .of_threads_eq (hinv.of_view rfl rfl rfl rfl) (.same rfl rfl) rfl rfl rfl
  | some x =>
    have hcaught := hinv.caughtExceptions_eq hhead
    have hxi : x ∈ excs (s.activities i) := mem_excs_of_head hhead
    cases hforeign : x.isForeign with
    | false =>
      rcases hinv.real_of_mem hxi hforeign with ⟨p, n, hreal, hp, _⟩
      rcases cxaCurrentPrimaryException_view hcaught hreal hp with ⟨w, heq, hview⟩
      rw [heq, toOption_ok_bind] at hstep
      simp only [pure, Option.some.injEq] at hstep
      subst hstep
      exact hinv.addReference rfl hp hview
    | true =>
      rcases Heap.foreign_of_kind (hinv.foreign_of_mem hxi hforeign) with ⟨header, beyond, hobj, _⟩
      rw [cxaCurrentPrimaryException_foreign hcaught hobj] at hstep
      contradiction

-- a pointer to a primary exception leads to one that is ready to be thrown
theorem primary_of_isPrimary (hinv : s.Inv) (hb : s.process.heap.isPrimary b)
    : ∃ n, s.process.heap.kind b = some (.primary n) := by
  unfold Heap.isPrimary at hb
  split at hb
  . next e he =>
    rcases Heap.ready_of_cxx (hinv.owners.ready b) he with hprimary | ⟨p, hp⟩
    . exact hprimary
    . rw [Heap.kind_of_cxx he, Option.some.injEq, CxaException.kind_eq_dependent] at hp
      rw [hp.1] at hb
      contradiction
  . contradiction

theorem increment (hinv : s.Inv) (hstep : step img s (i, .increment b) = some s')
    : Outcome s (i, .increment b) s' := by
  unfold step at hstep
  dsimp only at hstep
  split at hstep
  . next hprimary =>
    rcases hinv.primary_of_isPrimary hprimary with ⟨n, hb⟩
    rcases cxaIncrementExceptionRefcount_view hb with ⟨w, heq, hview⟩
    rw [heq, toOption_ok_bind] at hstep
    simp only [pure, Option.some.injEq] at hstep
    subst hstep
    exact hinv.addReference rfl hb hview
  . contradiction

theorem decrement_view (hinv : s.Inv) (hb : s.references b ≠ 0)
    : ∃ w, cxaDecrementExceptionRefcount (some ⟨b, 128⟩) s.process = .ok w
      ∧ Releases s.process w b ∧ w.threads = s.process.threads
      ∧ ((s.setProcess w).setReferences b (s.references b - 1)).Inv := by
  rcases hinv.owners.referenced b hb with ⟨n, hkind⟩
  have hn := hinv.owners.count_ne_zero_of_reference hkind hb
  rcases Heap.primary_of_kind hkind with ⟨e, he, hprimary⟩
  have hprimary := CxaException.kind_eq_primary.mpr hprimary
  rcases releaseException_primary he hprimary hn 3 with ⟨w, hrelease, hview⟩
  have hlink : w.heap.link = _ := congrArg View.link hview
  have hwkind : w.heap.kind = dropKind s.process.heap.kind b n := by
    rw [← Process.view_kind, hview]
    simp
  have hthreads : w.threads = s.process.threads := by
    rw [← Process.view_threads, hview]
    simp
  refine ⟨w, hrelease, .primary he hprimary hn hwkind ?_, hthreads, ?_⟩
  . rw [← Process.view_log, hview]
    simp
  . refine hinv.refer rfl hthreads ?_ ?_ ?_
    . intro b' hb'
      rw [setReferences_process, setProcess_process, hlink, View.dropReference_link]
      split
      . next hn1 =>
        subst hn1
        rw [Function.update_of_ne]
        . rfl
        . rintro rfl
          exact (hinv.owners.lastReference hkind hb).1 hb'
      . rfl
    . intro b' m next hb' hmem
      rw [setReferences_process, setProcess_process, hlink, View.dropReference_link] at hb'
      split at hb'
      . by_cases heq : b' = b
        . rw [heq, Function.update_self] at hb'
          contradiction
        . rw [Function.update_of_ne heq] at hb'
          exact hinv.idle b' m next hb' hmem
      . exact hinv.idle b' m next hb' hmem
    . rw [setReferences_process, setProcess_process, hwkind]
      exact hinv.owners.dropReference hkind hb

theorem decrement (hinv : s.Inv) (hstep : step img s (i, .decrement b) = some s')
    : Outcome s (i, .decrement b) s' := by
  unfold step at hstep
  dsimp only at hstep
  split at hstep
  . next hb =>
    rcases hinv.decrement_view hb.ne' with ⟨w, heq, hrelease, hthreads, hpres⟩
    rw [heq, toOption_ok_bind] at hstep
    simp only [pure, Option.some.injEq] at hstep
    subst hstep
    exact .of_threads_eq hpres (.release hrelease) rfl hthreads rfl
  . contradiction

theorem rethrowPrimary_view (hinv : s.Inv) (img : Image) (i : Nat) (hb : s.references b ≠ 0)
    (hd : s.process.heap d = none)
    : ∃ w, cxaRethrowPrimaryException img i d (some ⟨b, 128⟩) s.process = .ok (some ⟨d, 96⟩, w)
      ∧ Outcome s (i, .rethrowPrimary b d)
        ((s.setProcess w).setActivities i (.unwinding ⟨d, false⟩ :: s.activities i)) := by
  rcases hinv.owners.referenced b hb with ⟨n, hkind⟩
  have hdkind : s.process.heap.kind d = none := Heap.kind_eq_none_iff.mpr hd
  have hne : d ≠ b := by
    rintro rfl
    rw [hkind] at hdkind
    contradiction
  rcases cxaRethrowPrimaryException_view img i hkind hd with ⟨w, heq, hview⟩
  have hwkind : w.heap.kind = Function.update (Function.update s.process.heap.kind b
      (some (.primary (n + 1)))) d (some (.dependent b)) := congrArg View.kind hview
  refine ⟨w, heq, .of_thread ?_ (.share hd hkind hwkind (congrArg View.log hview)) rfl
    (congrArg View.threads hview) (.same rfl rfl rfl)⟩
  refine hinv.raise_cxx rfl hd (congrArg View.link hview) (congrArg View.threads hview) ?_
  intro _ howned
  rw [setActivities_process, setProcess_process, hwkind]
  have hadd := hinv.owners.addReference hkind
  have hdkind' : Function.update s.process.heap.kind b (some (.primary (n + 1))) d = none := by
    rw [Function.update_of_ne hne]
    exact hdkind
  have halloc := hadd.alloc_dependent hdkind' (Function.update_self ..) (by simp) howned
  simpa using halloc

theorem rethrowPrimary (hinv : s.Inv) (hstep : step img s (i, .rethrowPrimary b d) = some s')
    : Outcome s (i, .rethrowPrimary b d) s' := by
  unfold step at hstep
  dsimp only at hstep
  split at hstep
  . next hb =>
    by_cases hd : s.process.heap d = none
    . rcases hinv.rethrowPrimary_view img i hb.ne' hd with ⟨w, heq, houtcome⟩
      rw [heq, toOption_ok_bind] at hstep
      simp only [pure, Option.some.injEq] at hstep
      subst hstep
      exact houtcome
    . rcases Option.ne_none_iff_exists'.mp hd with ⟨o, ho⟩
      unfold cxaRethrowPrimaryException cxaAllocateException at hstep
      dsimp only at hstep
      rw [ho] at hstep
      contradiction
  . contradiction

end

theorem init : State.init.Inv := by
  have hnot (b : Nat) : b ∉ State.init.owned := by
    rintro ⟨i, hi⟩
    change b ∈ blocks [] at hi
    simp at hi
  constructor
  . intro i
    constructor
    . trivial
    . intro x hx
      contradiction
    . intro x hx
      contradiction
    . exact .nil
    . rfl
    . trivial
  . intro i j _ b hb
    change b ∈ blocks [] at hb
    simp at hb
  . intro b n next hb
    contradiction
  . constructor
    . simp [State.init, Heap.kind]
    . intro b hb
      contradiction
    . intro d p hd
      contradiction
    . intro b n hb
      contradiction
    . intro b hb
      contradiction
    . intro b n hb
      exact absurd hb (hnot b)

theorem of_step (hinv : s.Inv) {l : Nat × Action} (hclean : s.Clean l) (hstep : step img s l = some s')
    : Outcome s l s' := by
  rcases l with ⟨i, action⟩
  cases action with
  | throw b tinfo dest => exact hinv.throw hstep
  | initPrimary b tinfo dest => exact hinv.initPrimary hstep
  | raiseForeign b cls cleanup beyond => exact hinv.raiseForeign hstep
  | cache => exact hinv.cache hstep
  | beginCatch => exact hinv.beginCatch hstep
  | callUnexpected => exact hinv.callUnexpected hstep
  | endCatch => exact hinv.endCatch hclean hstep
  | endCatchUnwinding => exact hinv.endCatchUnwinding hclean hstep
  | rethrow => exact (hinv.rethrow hclean hstep).1
  | currentPrimary => exact hinv.currentPrimary hstep
  | increment b => exact hinv.increment hstep
  | decrement b => exact hinv.decrement hstep
  | rethrowPrimary b d => exact hinv.rethrowPrimary hstep

theorem of_reach (hs : Reach State.init (step img) Clean s) : s.Inv := by
  apply hs.invariant init
  intro s l s' hinv hclean hstep
  exact (hinv.of_step hclean hstep).inv

end Inv

end State

end LibCxxRt
