import LibCxxRt.ArmCleanup.Impl

/-!
This module determines for which nestings of cleanups `currentCleanup`, `nextCleanup` and `cleanupCount`
are a stack: the cleanups for foreign exceptions have to be on the outside.
-/

namespace LibCxxRt

namespace ArmCleanup

variable {E : Type}

namespace Cleanups

-- what is raised inside of a cleanup is not one of the exceptions that have cleanups running
def Nested (running : List E) : Cleanups E → Prop
  | done => True
  | run e inner rest => e ∉ running ∧ inner.Nested (e :: running) ∧ rest.Nested running

-- the record that a stack leads to, each cleanup ends with its own exception
def expected (enclosing : Option E) : Cleanups E → List (E × Option (Option E))
  | done => []
  | run e inner rest => inner.expected (some e) ++ (e, some enclosing) :: rest.expected enclosing

def ForeignOutside (isCXXException : E → Bool) (enclosing : Option E) : Cleanups E → Prop
  | done => True
  | run e inner rest =>
    (isCXXException e = true ∨ enclosing = none)
      ∧ inner.ForeignOutside isCXXException (some e)
      ∧ rest.ForeignOutside isCXXException enclosing

-- a thread that has no record gets one when its first C++ exception is raised
def HasThreadInfo (isCXXException : E → Bool) (s : State E) : Cleanups E → Prop
  | done => True
  | run e _ _ => s.threadInfo ≠ none ∨ isCXXException e = true

end Cleanups

structure State.Initial (s : State E) : Prop where
  threadInfo : s.threadInfo = none ∨ s.threadInfo = some none
  cleanupCount : ∀ e, s.cleanupCount e = 0
  nextCleanup : ∀ e, s.nextCleanup e = none

def Disciplined [DecidableEq E] (isCXXException : E → Bool) (s : State E) (cleanups : Cleanups E)
    : Prop :=
  ∃ s', cleanups.exec isCXXException s = .ok (cleanups.expected none, s') ∧ s'.Initial

namespace State

-- only the exceptions that have cleanups running are on the stack
def Fresh (s : State E) (running : List E) : Prop :=
  ∀ e, e ∉ running → s.cleanupCount e = 0 ∧ s.nextCleanup e = none

end State

section

variable {isCXXException : E → Bool} {s s' : State E} {e : E} {current : Option E}

theorem raise_of_threadInfo (hinfo : s.threadInfo = some current)
    : raise isCXXException s e = s := by
  simp [raise, hinfo]

theorem State.Initial.fresh (h : s.Initial) : s.Fresh [] := by
  intro e _
  exact ⟨h.cleanupCount e, h.nextCleanup e⟩

theorem setCurrentCleanup_self (hinfo : s.threadInfo = some current)
    : s.setCurrentCleanup current = s := by
  unfold State.setCurrentCleanup
  rw [← hinfo]

variable [DecidableEq E] {running : List E}

-- the state in which a cleanup begins
def State.entered (isCXXException : E → Bool) (s : State E) (e : E) (current : Option E)
    : State E :=
  if isCXXException e then
    { threadInfo := some (some e)
      cleanupCount := Function.update s.cleanupCount e 1
      nextCleanup := Function.update s.nextCleanup e current }
  else
    { s with threadInfo := some (some e) }

theorem State.entered_threadInfo
    : (s.entered isCXXException e current).threadInfo = some (some e) := by
  unfold entered
  split <;> rfl

theorem State.Fresh.entered (h : s.Fresh running)
    : (s.entered isCXXException e current).Fresh (e :: running) := by
  intro x hx
  rw [List.mem_cons, not_or] at hx
  unfold State.entered
  split
  . dsimp only
    rw [Function.update_of_ne hx.1, Function.update_of_ne hx.1]
    exact h x hx.2
  . exact h x hx.2

theorem pushCleanupException_eq (hinfo : s.threadInfo = some current) (h : s.Fresh running)
    (he : e ∉ running)
    : pushCleanupException isCXXException s e = .ok (s.entered isCXXException e current) := by
  unfold pushCleanupException State.currentCleanup State.entered
  rw [hinfo]
  by_cases hcxx : isCXXException e
  . simp [hcxx, (h e he).1, State.setCurrentCleanup]
  . simp [hcxx, State.setCurrentCleanup]

theorem cxaGetCleanup_entered (hinfo : s.threadInfo = some current) (h : s.Fresh running)
    (he : e ∉ running)
    : cxaGetCleanup isCXXException (s.entered isCXXException e current)
        =
      .ok (e, if isCXXException e then s else s.setCurrentCleanup none) := by
  unfold cxaGetCleanup State.currentCleanup
  rw [State.entered_threadInfo]
  by_cases hcxx : isCXXException e
  . have hcount : Function.update s.cleanupCount e 0 = s.cleanupCount :=
      Function.update_eq_self_iff.2 (h e he).1.symm
    have hnext : Function.update s.nextCleanup e none = s.nextCleanup :=
      Function.update_eq_self_iff.2 (h e he).2.symm
    simp [hcxx, State.entered, State.setCurrentCleanup, hcount, hnext, ← hinfo]
  . simp [hcxx, State.entered, State.setCurrentCleanup]

theorem exec_eq (hinfo : s.threadInfo = some current) (h : s.Fresh running) {cleanups : Cleanups E}
    (hnested : cleanups.Nested running)
    (hforeign : cleanups.ForeignOutside isCXXException current)
    : cleanups.exec isCXXException s = .ok (cleanups.expected current, s) := by
  induction cleanups generalizing s current running with
  | done => rfl
  | run e inner rest ihInner ihRest =>
    rcases hnested with ⟨he, hinner, hrest⟩
    rcases hforeign with ⟨houtside, hforeignInner, hforeignRest⟩
    have hback : (if isCXXException e then s else s.setCurrentCleanup none) = s := by
      split
      . rfl
      . next hcxx =>
        rw [houtside.resolve_left hcxx] at hinfo
        exact setCurrentCleanup_self hinfo
    unfold Cleanups.exec
    rw [raise_of_threadInfo hinfo, pushCleanupException_eq hinfo h he, Res.ok_bind,
      ihInner State.entered_threadInfo h.entered hinner hforeignInner, Res.ok_bind]
    dsimp only
    rw [cxaGetCleanup_entered hinfo h he, hback, Res.ok_bind]
    dsimp only
    rw [ihRest hinfo h hrest hforeignRest, hinfo]
    rfl

-- each cleanup leaves one entry in the record
theorem length_of_exec {cleanups : Cleanups E} {trace : List (E × Option (Option E))}
    (hexec : cleanups.exec isCXXException s = .ok (trace, s'))
    : trace.length = (cleanups.expected current).length := by
  induction cleanups generalizing s s' current trace with
  | done =>
    cases hexec
    rfl
  | run e inner rest ihInner ihRest =>
    unfold Cleanups.exec at hexec
    simp only [Res.bind_eq_ok] at hexec
    rcases hexec with ⟨_, _, ⟨before, _⟩, hinner, ⟨returned, _⟩, _, ⟨after, _⟩, hrest, heq⟩
    cases heq
    rw [Cleanups.expected, List.length_append, List.length_append, List.length_cons,
      List.length_cons, ihInner hinner, ihRest hrest]

theorem foreignOutside_of_exec (hinfo : s.threadInfo = some current) (h : s.Fresh running)
    {cleanups : Cleanups E} (hnested : cleanups.Nested running)
    (hexec : cleanups.exec isCXXException s = .ok (cleanups.expected current, s'))
    : cleanups.ForeignOutside isCXXException current := by
  induction cleanups generalizing s s' current running with
  | done => trivial
  | run e inner rest ihInner ihRest =>
    rcases hnested with ⟨he, hinner, hrest⟩
    unfold Cleanups.exec at hexec
    rw [raise_of_threadInfo hinfo, pushCleanupException_eq hinfo h he, Res.ok_bind] at hexec
    simp only [Res.bind_eq_ok] at hexec
    rcases hexec with ⟨⟨before, s₁⟩, hexecInner, ⟨returned, s₂⟩, hget, ⟨after, s₃⟩, hexecRest, heq⟩
    simp only [Res.pure_eq_ok, Except.ok.injEq, Prod.mk.injEq, Cleanups.expected] at heq
    -- the record consists of the part for `inner`, the entry for `e` and the part for `rest`
    rcases List.append_inj heq.1 (length_of_exec hexecInner) with ⟨hbefore, hlast⟩
    rw [List.cons.injEq, Prod.mk.injEq] at hlast
    rcases hlast with ⟨⟨_, hcurrent⟩, hafter⟩
    rw [hbefore] at hexecInner
    rw [hafter] at hexecRest
    have hforeignInner := ihInner State.entered_threadInfo h.entered hinner hexecInner
    rw [exec_eq State.entered_threadInfo h.entered hinner hforeignInner] at hexecInner
    cases hexecInner
    rw [cxaGetCleanup_entered hinfo h he] at hget
    cases hget
    by_cases hcxx : isCXXException e
    . rw [if_pos hcxx] at hexecRest
      exact ⟨.inl hcxx, hforeignInner, ihRest hinfo h hrest hexecRest⟩
    . rw [if_neg hcxx] at hcurrent hexecRest
      have hnone : current = none := (Option.some.inj hcurrent).symm
      rw [hnone] at hinfo
      rw [setCurrentCleanup_self hinfo] at hexecRest
      exact ⟨.inr hnone, hforeignInner, ihRest (hnone ▸ hinfo) h hrest hexecRest⟩

theorem disciplined_iff_of_threadInfo (h : s.Initial) (hinfo : s.threadInfo = some none)
    {cleanups : Cleanups E} (hnested : cleanups.Nested [])
    : Disciplined isCXXException s cleanups ↔ cleanups.ForeignOutside isCXXException none := by
  constructor
  . rintro ⟨s', hexec, _⟩
    exact foreignOutside_of_exec hinfo h.fresh hnested hexec
  . intro hforeign
    exact ⟨s, exec_eq hinfo h.fresh hnested hforeign, h⟩

-- raising the first exception gives the thread its record
theorem exec_of_raise (hinfo : s.threadInfo = none) (he : isCXXException e)
    (inner rest : Cleanups E)
    : (Cleanups.run e inner rest).exec isCXXException s
        =
      (Cleanups.run e inner rest).exec isCXXException (s.setCurrentCleanup none) := by
  have hraise : raise isCXXException s e = s.setCurrentCleanup none := by
    simp [raise, he, hinfo, State.setCurrentCleanup]
  unfold Cleanups.exec
  rw [hraise, raise_of_threadInfo rfl]

theorem exec_of_foreign (hinfo : s.threadInfo = none) (he : ¬ isCXXException e)
    (inner rest : Cleanups E)
    : (Cleanups.run e inner rest).exec isCXXException s = .error .fault := by
  have hraise : raise isCXXException s e = s := by
    simp [raise, he]
  unfold Cleanups.exec pushCleanupException State.currentCleanup
  rw [hraise, hinfo]
  rfl

end

theorem disciplined_iff [DecidableEq E] (isCXXException : E → Bool) {s : State E} (h : s.Initial)
    {cleanups : Cleanups E} (hnested : cleanups.Nested [])
    : Disciplined isCXXException s cleanups
        ↔
      cleanups.ForeignOutside isCXXException none ∧ cleanups.HasThreadInfo isCXXException s := by
  rcases h.threadInfo with hinfo | hinfo
  . cases cleanups with
    | done => exact iff_of_true ⟨s, rfl, h⟩ ⟨trivial, trivial⟩
    | run e inner rest =>
      have hhas : (Cleanups.run e inner rest).HasThreadInfo isCXXException s
          ↔ isCXXException e = true := by
        simp [Cleanups.HasThreadInfo, hinfo]
      rw [hhas]
      by_cases he : isCXXException e
      . have hinit : (s.setCurrentCleanup none).Initial :=
          ⟨.inr rfl, h.cleanupCount, h.nextCleanup⟩
        unfold Disciplined
        rw [exec_of_raise hinfo he, ← Disciplined, disciplined_iff_of_threadInfo hinit rfl hnested]
        exact (and_iff_left he).symm
      . refine iff_of_false ?_ fun h => he h.2
        rintro ⟨s', hexec, _⟩
        rw [exec_of_foreign hinfo he] at hexec
        contradiction
  . rw [disciplined_iff_of_threadInfo h hinfo hnested]
    refine (and_iff_left ?_).symm
    cases cleanups with
    | done => trivial
    | run e inner rest => exact .inl (by simp [hinfo])

namespace Sample

-- the exceptions with an even address come from C++
def isCXXException (e : Nat) : Bool :=
  e % 2 == 0

def initial (threadInfo : Option (Option Nat)) : State Nat where
  threadInfo := threadInfo
  cleanupCount := fun _ => 0
  nextCleanup := fun _ => none

theorem initial_initial {threadInfo : Option (Option Nat)}
    (h : threadInfo = none ∨ threadInfo = some none) : (initial threadInfo).Initial := by
  exact ⟨h, fun _ => rfl, fun _ => rfl⟩

-- a foreign exception has a cleanup that raises and cleans up for two C++ exceptions
def outside : Cleanups Nat :=
  .run 1 (.run 0 (.run 2 .done .done) (.run 0 .done .done)) (.run 4 .done .done)

-- the cleanup of a C++ exception cleans up for a foreign one
def inside : Cleanups Nat :=
  .run 0 (.run 1 .done .done) .done

end Sample

open ArmCleanup.Sample

theorem disciplined_iff_outside
    : Disciplined isCXXException (initial (some none)) outside := by
  refine (disciplined_iff isCXXException (initial_initial (.inr rfl)) ?_).2 ⟨?_, ?_⟩
  . simp [outside, Cleanups.Nested]
  . simp [outside, Cleanups.ForeignOutside, isCXXException]
  . simp [outside, Cleanups.HasThreadInfo, initial]

-- `currentCleanup` is null at the end of the outer cleanup, or there is no record to begin with
theorem not_disciplined_inside
    : inside.Nested [] ∧ inside.exec isCXXException (initial (some none)) = .error .fault
        ∧ ¬ Disciplined isCXXException (initial (some none)) inside
        ∧ outside.exec isCXXException (initial none) = .error .fault
        ∧ ¬ Disciplined isCXXException (initial none) outside := by
  have hinside : inside.exec isCXXException (initial (some none)) = .error .fault := by rfl
  have houtside : outside.exec isCXXException (initial none) = .error .fault := by rfl
  refine ⟨by simp [inside, Cleanups.Nested], hinside, ?_, houtside, ?_⟩
  . rintro ⟨s', hexec, _⟩
    rw [hinside] at hexec
    contradiction
  . rintro ⟨s', hexec, _⟩
    rw [houtside] at hexec
    contradiction

end ArmCleanup

end LibCxxRt
