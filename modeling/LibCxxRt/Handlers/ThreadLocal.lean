import LibCxxRt.Handlers.Impl

/-!
This module proves that the handlers of a thread are its own as long as no two threads call the same
one of the functions that keep a record in a static variable.

Otherwise the later thread works on the record of the thread that was the first to call the function.
-/

namespace LibCxxRt

namespace Handlers

namespace Call

-- the variable that the call uses once handlers are thread-local
def static? : Call → Option Static
  | .pathscaleSetUnexpected _ | .setUnexpected _ => some (.pathscaleSet .unexpected)
  | .pathscaleSetTerminate _ | .setTerminate _ => some (.pathscaleSet .terminate)
  | .terminate => some (.std .terminate)
  | .unexpected => some (.std .unexpected)
  | .getUnexpected | .getTerminate => none

def install? (k : Slot) : Call → Option Addr
  | .pathscaleSetUnexpected f | .setUnexpected f => if k = .unexpected then some f else none
  | .pathscaleSetTerminate f | .setTerminate f => if k = .terminate then some f else none
  | .terminate | .unexpected | .getUnexpected | .getTerminate => none

end Call

-- the handler that is left by the calls of a thread, null if there is none
def installed (k : Slot) (calls : List Call) : Addr :=
  (calls.filterMap (·.install? k)).getLastD 0

def current (globals : Slot → Addr) (k : Slot) (calls : List Call) : Addr :=
  if installed k calls ≠ 0 then installed k calls else globals k

-- what a call is to return or to invoke on a thread that has made `calls`
def Call.expected (globals : Slot → Addr) (calls : List Call) : Call → Addr
  | .pathscaleSetUnexpected _ | .setUnexpected _ => installed .unexpected calls
  | .pathscaleSetTerminate _ | .setTerminate _ => installed .terminate calls
  | .terminate | .getTerminate => current globals .terminate calls
  | .unexpected | .getUnexpected => current globals .unexpected calls

def own (i : Nat) (ls : List (Nat × Call)) : List Call :=
  (ls.filter (·.1 == i)).map Prod.snd

-- no two threads use the same variable
def OneThreadEach (ls : List (Nat × Call)) : Prop :=
  ∀ l ∈ ls, ∀ l' ∈ ls, l.2.static?.isSome → l'.2.static? = l.2.static? → l'.1 = l.1

instance (ls : List (Nat × Call)) : Decidable (OneThreadEach ls) :=
  inferInstanceAs (Decidable (∀ l ∈ ls, ∀ l' ∈ ls, _ → _ → _))

theorem installed_append (k : Slot) (calls : List Call) (c : Call)
    : installed k (calls ++ [c]) = (c.install? k).getD (installed k calls) := by
  unfold installed
  cases h : c.install? k with
  | none => simp [h]
  | some f => simp [h]

theorem own_append_self (i : Nat) (ls : List (Nat × Call)) (c : Call)
    : own i (ls ++ [(i, c)]) = own i ls ++ [c] := by
  simp [own]

theorem own_append_of_ne {i j : Nat} (ls : List (Nat × Call)) (c : Call) (hj : j ≠ i)
    : own j (ls ++ [(i, c)]) = own j ls := by
  simp [own, hj.symm]

theorem own_filter (i : Nat) (ls : List (Nat × Call))
    : own i (ls.filter (·.1 == i)) = own i ls := by
  simp [own]

namespace OneThreadEach

theorem append_left {ls ls' : List (Nat × Call)} (h : OneThreadEach (ls ++ ls'))
    : OneThreadEach ls := by
  intro l hl l' hl'
  exact h l (List.mem_append_left _ hl) l' (List.mem_append_left _ hl')

theorem filter_append {i : Nat} {ls ls' : List (Nat × Call)} (h : OneThreadEach (ls ++ ls'))
    : OneThreadEach (ls.filter (·.1 == i) ++ ls') := by
  have hmem : ∀ l ∈ ls.filter (·.1 == i) ++ ls', l ∈ ls ++ ls' := by
    intro l hl
    rw [List.mem_append] at hl ⊢
    exact hl.imp_left (List.filter_sublist.subset ·)
  intro l hl l' hl'
  exact h l (hmem l hl) l' (hmem l' hl')

end OneThreadEach

namespace State

-- what the calls `ls` have made of a process with the global handlers `globals`
structure Own (globals : Slot → Addr) (ls : List (Nat × Call)) (s : State) : Prop where
  threadLocal : s.threadLocalHandlers = true
  global : ∀ k, s.process.handler k = globals k
  installed : ∀ i k, (s.process.threads i).handler k = Handlers.installed k (own i ls)
  caller : ∀ x j, s.info x = some j → ∃ c, (j, c) ∈ ls ∧ c.static? = some x

def Free (s : State) (x : Static) (i : Nat) : Prop :=
  ∀ j, s.info x = some j → j = i

theorem Own.free {globals : Slot → Addr} {ls : List (Nat × Call)} {s : State} {i : Nat} {c : Call}
    {x : Static} (h : Own globals ls s) (hone : OneThreadEach (ls ++ [(i, c)]))
    (hx : c.static? = some x)
    : s.Free x i := by
  intro j hj
  rcases h.caller x j hj with ⟨d, hmem, hd⟩
  exact hone (i, c) (by simp) (j, d) (by simp [hmem]) (by simp [hx]) (hd.trans hx.symm)

theorem static_eq {s : State} {x : Static} {i : Nat} (h : s.Free x i)
    : s.static x i = (i, { s with info := Function.update s.info x (some i) }) := by
  unfold static
  cases hinfo : s.info x with
  | none => rfl
  | some j =>
    have hj : j = i := h j hinfo
    subst hj
    rw [Function.update_eq_self_iff.2 hinfo.symm]

namespace Own

variable {globals : Slot → Addr} {ls : List (Nat × Call)} {s : State} {i : Nat} {c : Call} {k : Slot}

theorem caller_append {x : Static} {j : Nat} (h : Own globals ls s) (hj : s.info x = some j)
    : ∃ d, (j, d) ∈ ls ++ [(i, c)] ∧ d.static? = some x := by
  rcases h.caller x j hj with ⟨d, hmem, hd⟩
  exact ⟨d, List.mem_append_left _ hmem, hd⟩

theorem caller_update {x : Static} (h : Own globals ls s) (hx : c.static? = some x)
    : ∀ y j, Function.update s.info x (some i) y = some j
        → ∃ d, (j, d) ∈ ls ++ [(i, c)] ∧ d.static? = some y := by
  intro y j hj
  by_cases hy : y = x
  . subst hy
    rw [Function.update_self] at hj
    injection hj with hj
    subst hj
    exact ⟨c, by simp, hx⟩
  . rw [Function.update_of_ne hy] at hj
    exact h.caller_append hj

theorem installed_append (h : Own globals ls s) (hc : ∀ k, c.install? k = none)
    : ∀ j k, (s.process.threads j).handler k = Handlers.installed k (own j (ls ++ [(i, c)])) := by
  intro j k
  rw [h.installed]
  by_cases hj : j = i
  . subst hj
    rw [own_append_self, Handlers.installed_append, hc, Option.getD_none]
  . rw [own_append_of_ne ls c hj]

theorem pathscaleSet {f : Addr} (h : Own globals ls s) (hfree : s.Free (.pathscaleSet k) i)
    (hx : c.static? = some (.pathscaleSet k))
    (hc : ∀ k', c.install? k' = if k' = k then some f else none)
    : (Handlers.pathscaleSet k i f s).1 = Handlers.installed k (own i ls)
        ∧ Own globals (ls ++ [(i, c)]) (Handlers.pathscaleSet k i f s).2 := by
  have hset : Handlers.pathscaleSet k i f s
        = ((s.process.threads i).handler k,
            { s with
              process := s.process.setThread i ((s.process.threads i).setHandler k f),
              info := Function.update s.info (.pathscaleSet k) (some i) }) := by
    simp only [Handlers.pathscaleSet, static_eq hfree]
  rw [hset]
  refine ⟨h.installed i k, h.threadLocal, ?_, ?_, h.caller_update hx⟩
  . intro k'
    rw [← h.global]
    cases k' <;> rfl
  . intro j k'
    by_cases hj : j = i
    . subst hj
      rw [own_append_self, Handlers.installed_append, hc]
      simp only [Process.setThread, if_pos]
      by_cases hk : k' = k
      . subst hk
        simp
      . simp [CxaThreadInfo.handler_setHandler_of_ne _ f hk, hk, h.installed]
    . simp only [Process.setThread, if_neg hj]
      rw [own_append_of_ne ls c hj, h.installed]

theorem stdCall (h : Own globals ls s) (hfree : s.Free (.std k) i) (hx : c.static? = some (.std k))
    (hc : ∀ k', c.install? k' = none)
    : (Handlers.stdCall k i s).1 = current globals k (own i ls)
        ∧ Own globals (ls ++ [(i, c)]) (Handlers.stdCall k i s).2 := by
  have hcall : Handlers.stdCall k i s
        = (stdGet k i s, { s with info := Function.update s.info (.std k) (some i) }) := by
    simp only [Handlers.stdCall, static_eq hfree, stdGet]
  rw [hcall]
  refine ⟨?_, h.threadLocal, h.global, h.installed_append hc, h.caller_update hx⟩
  simp only [stdGet, current, h.installed, h.global]

theorem stdGet (h : Own globals ls s) (hc : ∀ k', c.install? k' = none)
    : Handlers.stdGet k i s = current globals k (own i ls) ∧ Own globals (ls ++ [(i, c)]) s := by
  refine ⟨?_, h.threadLocal, h.global, h.installed_append hc, fun _ _ hj => h.caller_append hj⟩
  simp only [Handlers.stdGet, current, h.installed, h.global]

theorem step (h : Own globals ls s) (hone : OneThreadEach (ls ++ [(i, c)]))
    : (step s i c).1 = c.expected globals (own i ls)
        ∧ Own globals (ls ++ [(i, c)]) (Handlers.step s i c).2 := by
  cases c with
  | pathscaleSetUnexpected f =>
    exact h.pathscaleSet (h.free hone rfl) rfl (fun _ => rfl)
  | pathscaleSetTerminate f =>
    exact h.pathscaleSet (h.free hone rfl) rfl (fun _ => rfl)
  | setUnexpected f =>
    have hset : setUnexpected i f s = Handlers.pathscaleSet .unexpected i f s := by
      simp [setUnexpected, stdSet, h.threadLocal]
    simp only [Handlers.step, hset]
    exact h.pathscaleSet (h.free hone rfl) rfl (fun _ => rfl)
  | setTerminate f =>
    have hset : setTerminate i f s = Handlers.pathscaleSet .terminate i f s := by
      simp [setTerminate, stdSet, h.threadLocal]
    simp only [Handlers.step, hset]
    exact h.pathscaleSet (h.free hone rfl) rfl (fun _ => rfl)
  | terminate => exact h.stdCall (h.free hone rfl) rfl (fun _ => rfl)
  | unexpected => exact h.stdCall (h.free hone rfl) rfl (fun _ => rfl)
  | getUnexpected => exact h.stdGet (fun _ => rfl)
  | getTerminate => exact h.stdGet (fun _ => rfl)

theorem run {ls' : List (Nat × Call)} (h : Own globals ls s) (hone : OneThreadEach (ls ++ ls'))
    : Own globals (ls ++ ls') (run s ls') := by
  induction ls' generalizing ls s with
  | nil => simpa [Handlers.run] using h
  | cons l ls' ih =>
    rw [List.append_cons] at hone ⊢
    exact ih (h.step hone.append_left).2 hone

end Own

theorem own_start {w : Process} (hnew : ∀ i k, (w.threads i).handler k = 0)
    : Own w.handler [] (start w) where
  threadLocal := rfl
  global := fun _ => rfl
  installed := hnew
  caller := by
    intro x j hj
    cases hj

end State

/--
Once one thread has called such a function, a call of it by any other thread does what it would do if
that one thread made it.
-/
theorem step_eq_of_info {s : State} {x : Static} {j : Nat} (i : Nat) (c : Call)
    (hs : s.threadLocalHandlers = true) (hx : c.static? = some x) (hj : s.info x = some j)
    : step s i c = step s j c := by
  have hstatic : s.static x i = s.static x j := by
    simp [State.static, hj]
  cases c with
  | getUnexpected => cases hx
  | getTerminate => cases hx
  | terminate | unexpected =>
    injection hx with hx
    subst hx
    simp [step, terminate, unexpected, stdCall, hstatic]
  | pathscaleSetUnexpected f | pathscaleSetTerminate f | setUnexpected f | setTerminate f =>
    injection hx with hx
    subst hx
    simp [step, pathscaleSetUnexpected, pathscaleSetTerminate, setUnexpected, setTerminate, stdSet,
      pathscaleSet, hs, hstatic]

theorem result_eq_expected {w : Process} {ls : List (Nat × Call)} {i : Nat} {c : Call}
    (hnew : ∀ j k, (w.threads j).handler k = 0) (hone : OneThreadEach (ls ++ [(i, c)]))
    : (step (run (start w) ls) i c).1 = c.expected w.handler (own i ls)
        ∧ (step (run (start w) ls) i c).1
            =
          (step (run (start w) (ls.filter (·.1 == i))) i c).1 := by
  have hresult : ∀ ls, OneThreadEach (ls ++ [(i, c)])
      → (step (run (start w) ls) i c).1 = c.expected w.handler (own i ls) := by
    intro ls hone
    have hrun : State.Own w.handler ls (run (start w) ls) :=
      (State.own_start hnew).run hone.append_left
    exact (hrun.step hone).1
  refine ⟨hresult ls hone, ?_⟩
  rw [hresult ls hone, hresult _ hone.filter_append, own_filter]

def fresh : Process where
  heap := fun _ => none
  threads := fun _ => .zero
  terminateHandler := 100
  unexpectedHandler := 200
  log := []

theorem result_eq_expected_two_threads
    : let ls := [(0, .setTerminate 1), (1, .getTerminate), (0, .terminate), (1, .setUnexpected 2),
        (1, .unexpected), (1, .setUnexpected 3)]
      (step (run (start fresh) ls) 0 .getTerminate).1 = 1
        ∧ (step (run (start fresh) ls) 1 .getTerminate).1 = 100
        ∧ (step (run (start fresh) ls) 1 (.setUnexpected 4)).1 = 3 := by
  have hnew : ∀ j k, (fresh.threads j).handler k = 0 := by
    intro j k
    cases k <;> rfl
  refine ⟨?_, ?_, ?_⟩
  . exact (result_eq_expected hnew (by decide)).1
  . exact (result_eq_expected hnew (by decide)).1
  . exact (result_eq_expected hnew (by decide)).1

/--
The second thread has installed nothing, yet it gets the handler of the first one, which then loses
it.
-/
theorem result_ne_expected
    : let ls := [(0, .setTerminate 1)]
      (step (run (start fresh) ls) 1 (.setTerminate 2)).1
          ≠
        Call.expected fresh.handler (own 1 ls) (.setTerminate 2)
        ∧ (step (run (start fresh) (ls ++ [(1, .setTerminate 2)])) 0 .getTerminate).1
            ≠
          Call.expected fresh.handler (own 0 (ls ++ [(1, .setTerminate 2)])) .getTerminate := by
  decide

end Handlers

end LibCxxRt
