import LibCxxRt.Exception.CxxOnly
import LibCxxRt.Exception.Lemmas.History

/-!
This module contains the programs that construct an object in the memory of an exception, and the
proof about when the destructor of the object is called. The construction of the object may fail, what
has been allocated for it is given back with `__cxa_free_exception` then. There are two orders of
events, `__cxa_throw` is called for an object that has been constructed, but
`__cxa_init_primary_exception` may come before the construction.

An exception whose header has not been initialised is only reserved, the heap of the model gets it
together with the header.
-/

namespace LibCxxRt

open Util

-- how far a program has got with an exception that it has to itself
inductive Stage where
  | allocated
  | initialised
  deriving DecidableEq, Repr

structure Construction where
  state : State
  stage : Nat → Option Stage
  constructed : Nat → Bool
  -- the length of the log when the exception was allocated
  since : Nat → Nat

namespace Construction

inductive Action where
  | allocate (b : Nat)
  | construct (b : Nat)
  | free (b : Nat)
  | call (i : Nat) (action : LibCxxRt.Action)
  deriving DecidableEq, Repr

def init : Construction where
  state := .init
  stage := fun _ => none
  constructed := fun _ => false
  since := fun _ => 0

-- a reference to an exception is only handed out if there is an object
def permits (s : Construction) : LibCxxRt.Action → Bool
  | .throw b .. => s.stage b == some .allocated && s.constructed b
  | .initPrimary b .. => s.stage b == some .allocated
  | .increment b => s.constructed b
  | .raiseForeign b .. | .rethrowPrimary _ b => s.stage b == none
  | _ => true

def track (stage : Nat → Option Stage) : LibCxxRt.Action → Nat → Option Stage
  | .throw b .. | .increment b => Function.update stage b none
  | .initPrimary b .. => Function.update stage b (some .initialised)
  | _ => stage

-- `__cxa_free_exception` for an exception that nothing refers to
def giveBack (stage : Stage) (b : Nat) (w : Process) : Res Process :=
  match stage with
  | .allocated => do
    let (object, w) ← cxaAllocateException b w
    cxaFreeException object w
  | .initialised => cxaFreeException ⟨b, 128⟩ w

def step (img : Image) (s : Construction) : Action → Option Construction
  | .allocate b =>
    if s.state.process.heap b = none ∧ s.stage b = none then
      some {
        s with
        stage := Function.update s.stage b (some .allocated)
        constructed := Function.update s.constructed b false
        since := Function.update s.since b s.state.process.log.length
      }
    else
      none
  | .construct b =>
    if s.stage b ≠ none then
      some { s with constructed := Function.update s.constructed b true }
    else
      none
  | .free b => do
    let stage ← s.stage b
    let w ← (giveBack stage b s.state.process).toOption
    return { s with state := s.state.setProcess w, stage := Function.update s.stage b none }
  | .call i action =>
    if s.permits action then
      (LibCxxRt.step img s.state (i, action)).map fun s' =>
        { s with state := s', stage := track s.stage action }
    else
      none

-- the calls of the destructor since the exception was allocated
def destructions (s : Construction) (b : Nat) : Nat :=
  (s.state.process.log.drop (s.since b)).count (.destroyed ⟨b, 0⟩)

-- the header has a destructor for an object that there is not
def Premature (s : Construction) : Action → Prop
  | .free b => s.constructed b = false
    ∧ ∃ e, s.state.process.heap b = some (.cxx e) ∧ e.exceptionDestructor ≠ 0
  | _ => False

def CxxOnly (s : Construction) : Action → Prop
  | .call i action => s.state.CxxOnly (i, action)
  | _ => True

def Allowed (s : Construction) (action : Action) : Prop :=
  s.CxxOnly action ∧ ¬ s.Premature action

end Construction

namespace OwnerInv

variable {kind : Nat → Option Kind} {owned : Set Nat} {references : Nat → Nat} {thrown : Nat → Bool}
  {b : Nat}

theorem unreferenced_iff (hinv : OwnerInv kind owned references thrown) {n : Nat}
    (hb : kind b = some (.primary n))
    : n = 0 ↔ b ∉ owned ∧ references b = 0 ∧ dependents kind b = ∅ := by
  have hcount := hinv.count b n hb
  rw [← Set.ncard_eq_zero (hinv.finite_dependents b)]
  unfold owners at hcount
  by_cases hmem : b ∈ owned
  . rw [if_pos hmem] at hcount
    simp only [hmem, not_true_eq_false, false_and, iff_false]
    omega
  . rw [if_neg hmem] at hcount
    simp only [hmem, not_false_eq_true, true_and]
    omega

theorem free_primary (hinv : OwnerInv kind owned references thrown) (hb : kind b = some (.primary 0))
    : OwnerInv (Function.update kind b none) owned references thrown := by
  have hadd := hinv.addReference hb
  have hdrop := hadd.dropReference (Function.update_self ..) (by simp)
  simpa [dropKind] using hdrop

end OwnerInv

namespace State

variable {img : Image} {s s' : State} {i b : Nat} {action : Action}

theorem references_of_step (hinv : s.Inv) (hno : s.NoForeign)
    (hb : s.process.heap.kind b = some (.primary 0)) (haction : action ≠ .increment b)
    (hstep : step img s (i, action) = some s') : s'.references b = 0 := by
  have hzero := ((hinv.owners.unreferenced_iff hb).mp rfl).2.1
  cases transition_of_step hstep with
  | @currentPrimary p w hcurrent =>
    rw [setReferences_references, setProcess_references, Function.update_of_ne, hzero]
    rintro rfl
    cases hhead : (handlers (s.activities i)).head? with
    | none =>
      have hcaught : (s.process.threads i).caughtExceptions = none := by
        rw [(hinv.thread i).caughtExceptions_eq, hhead]
        rfl
      rw [cxaCurrentPrimaryException_none hcaught] at hcurrent
      simp at hcurrent
    | some x =>
      have hx : x ∈ excs (s.activities i) := mem_excs_of_head hhead
      rcases hinv.real_of_mem hx (hno i x hx) with ⟨q, n, hreal, hq, hn⟩
      rcases cxaCurrentPrimaryException_view (hinv.caughtExceptions_eq hhead) hreal hq with
        ⟨w', heq, _⟩
      rw [hcurrent] at heq
      cases heq
      rw [hq] at hb
      cases hb
      contradiction
  | @increment b' w _ _ =>
    rw [setReferences_references, setProcess_references, Function.update_of_ne, hzero]
    rintro rfl
    exact haction rfl
  | @decrement b' w hb' _ =>
    rw [setReferences_references, setProcess_references, Function.update_of_ne, hzero]
    rintro rfl
    exact hb' hzero
  | _ => exact hzero

theorem not_mem_owned_of_step (hinv : s.Inv) (hno : s.NoForeign) (hb : b ∉ s.owned)
    (hb' : s.process.heap b ≠ none) (hstep : step img s (i, action) = some s') : b ∉ s'.owned := by
  rcases excs_of_step hinv (hno.clean _) hstep with ⟨c', hactivities, hc'⟩
  rintro ⟨j, x, hx, rfl⟩
  rw [hactivities] at hx
  by_cases heq : j = i
  . rw [heq, Function.update_self] at hx
    rcases hc' x hx with hold | hraised
    . exact hb (mem_owned (mem_blocks hold))
    . -- what is raised for the first time has just been allocated
      have horigin := origin_of_step hinv hstep
      cases action with
      | throw | raiseForeign | rethrowPrimary =>
        cases hraised
        exact hb' horigin.1
      | _ => contradiction
  . rw [Function.update_of_ne heq] at hx
    exact hb (mem_owned (mem_blocks hx))

theorem dependents_of_step (hinv : s.Inv) (hb : s.process.heap.kind b = some (.primary 0))
    (hstep : step img s (i, action) = some s') (hrecounts : Recounts s.process s'.process)
    : dependents s'.process.heap.kind b = ∅ := by
  rcases (hinv.owners.unreferenced_iff hb).mp rfl with ⟨_, hzero, hnone⟩
  have horigin := origin_of_step hinv hstep
  rw [Set.eq_empty_iff_forall_notMem]
  intro d hd
  have hd : s'.process.heap.kind d = some (.dependent b) := hd
  cases hkind : s.process.heap.kind d with
  | none =>
    have hfresh := horigin.allocated (Heap.kind_eq_none_iff.mp hkind) (by
      rw [ne_eq, ← Heap.kind_eq_none_iff, hd]
      simp)
    cases action with
    | throw | initPrimary =>
      cases hfresh
      rw [horigin.2.1] at hd
      simp at hd
    | raiseForeign =>
      cases hfresh
      rw [horigin.2.2] at hd
      simp at hd
    | rethrowPrimary p =>
      cases hfresh
      rw [horigin.2.1] at hd
      cases hd
      cases transition_of_step hstep with
      | rethrowPrimary hp => exact hp hzero
    | _ => contradiction
  | some k =>
    rcases hrecounts.stays hkind hd with hsame | ⟨_, _, _, hn⟩
    . rw [← hsame] at hkind
      have hmem : d ∈ dependents s.process.heap.kind b := hkind
      rw [hnone] at hmem
      contradiction
    . contradiction

-- an exception without owners does not get one by itself
theorem unreferenced_of_step (hinv : s.Inv) (hno : s.NoForeign)
    (hb : s.process.heap.kind b = some (.primary 0)) (haction : action ≠ .increment b)
    (hstep : step img s (i, action) = some s')
    : s'.process.heap.kind b = some (.primary 0) := by
  have houtcome := hinv.of_step (hno.clean _) hstep
  rcases Heap.primary_of_kind hb with ⟨e, he, hprimary⟩
  have hkind := CxaException.kind_eq_primary.mpr hprimary
  rcases houtcome.recounts.final he hkind with ⟨_, _, ⟨_, hn, _⟩ | ⟨n', hn', _, _⟩⟩
  . contradiction
  . have hlive : s.process.heap b ≠ none := by
      rw [he]
      simp
    have howned := ((hinv.owners.unreferenced_iff hb).mp rfl).1
    have hzero : n' = 0 := (houtcome.inv.owners.unreferenced_iff hn').mpr
      ⟨not_mem_owned_of_step hinv hno howned hlive hstep,
        references_of_step hinv hno hb haction hstep,
        dependents_of_step hinv hb hstep houtcome.recounts⟩
    rw [hn', hzero]

end State

section

variable {w w' : Process} {e : CxaException} {b b' n : Nat}

theorem count_finalEvents_self
    : (finalEvents e b).count (.destroyed ⟨b, 0⟩) = if e.exceptionDestructor ≠ 0 then 1 else 0 := by
  unfold finalEvents
  split <;> simp

theorem count_finalEvents_of_ne (hb : b ≠ b') : (finalEvents e b).count (.destroyed ⟨b', 0⟩) = 0 := by
  rw [List.count_eq_zero]
  unfold finalEvents
  split <;> simp [hb.symm]

-- the destructor is only called for the object of a primary exception
theorem Recounts.count_destroyed {events : List Event} (hrecounts : Recounts w w')
    (hlog : w'.log = w.log ++ events) (hb : ∀ n, w.heap.kind b ≠ some (.primary n))
    : events.count (.destroyed ⟨b, 0⟩) = 0 := by
  have hne {p n : Nat} {e : CxaException} (hp : w.heap p = some (.cxx e))
      (hkind : e.kind = .primary n) : p ≠ b := by
    rintro rfl
    apply hb n
    rw [Heap.kind_of_cxx hp, hkind]
  have hevents {events' : List Event} (hlog' : w'.log = w.log ++ events') : events = events' := by
    rw [hlog] at hlog'
    exact List.append_cancel_left hlog'
  cases hrecounts with
  | release hrelease =>
    cases hrelease with
    | primary hp hkind _ _ hlog' =>
      rw [hevents hlog']
      split <;> simp [count_finalEvents_of_ne (hne hp hkind)]
    | dependent _ _ hp hkind _ _ hlog' =>
      rw [hevents hlog']
      split <;> simp [count_finalEvents_of_ne (hne hp hkind)]
  | cleanUp _ _ hlog' =>
    rw [hevents hlog']
    simp
  | same _ hlog' | alloc _ _ hlog' | add _ _ hlog' | share _ _ _ hlog' =>
    have hnil : events = [] := hevents (by rw [hlog', List.append_nil])
    rw [hnil]
    rfl

theorem Recounts.count_destroyed_primary {events : List Event} (hrecounts : Recounts w w')
    (hlog : w'.log = w.log ++ events) (hb : w.heap.kind b = some (.primary n))
    : w'.heap.kind b = none ∧ n ≠ 0 ∧ events.count (.destroyed ⟨b, 0⟩) ≤ 1
      ∨ events.count (.destroyed ⟨b, 0⟩) = 0 ∧ w'.heap.kind b ≠ none := by
  rcases Heap.primary_of_kind hb with ⟨e, he, hprimary⟩
  rcases hrecounts.final he (CxaException.kind_eq_primary.mpr hprimary) with ⟨events', hlog', hcases⟩
  rw [hlog] at hlog'
  cases List.append_cancel_left hlog'
  have hcount : events.count (.destroyed ⟨b, 0⟩)
      = (events.filter (Event.isFinal b)).count (.destroyed ⟨b, 0⟩) := by
    rw [List.count_filter]
    simp [Event.isFinal]
  rw [hcount]
  rcases hcases with ⟨hnone, hn, hevents⟩ | ⟨n', hn', _, hevents⟩
  . refine .inl ⟨hnone, hn, ?_⟩
    rw [hevents, count_finalEvents_self]
    split <;> simp
  . refine .inr ⟨?_, ?_⟩
    . rw [hevents]
      rfl
    . rw [hn']
      simp

end

namespace Construction

section

variable {w : Process} {b : Nat} {e : CxaException}

theorem giveBack_allocated (hb : w.heap b = none)
    : ∃ w', giveBack .allocated b w = .ok w' ∧ w'.heap = w.heap ∧ w'.threads = w.threads
      ∧ w'.log = w.log ++ [.freed ⟨b, 0⟩] := by
  have hcxa : (w.heap.set b (.cxx .zero)).cxa ⟨b, 0⟩ = .ok .zero :=
    Heap.cxa_of_cxx (Heap.set_self ..)
  have hfree : (w.heap.set b (.cxx .zero)).free b = w.heap := by
    funext b'
    by_cases heq : b' = b
    . rw [heq, Heap.free_self, hb]
    . rw [Heap.free_of_ne _ heq, Heap.set_of_ne _ _ heq]
  unfold giveBack
  dsimp only
  rw [cxaAllocateException_of_none hb, Res.ok_bind]
  unfold cxaFreeException freeException
  have hdest : CxaException.zero.exceptionDestructor = 0 := rfl
  simp only [Ptr.add_mk, Int.reduceNeg, Int.reduceAdd, hcxa, hdest, Res.ok_bind, ne_eq,
    not_true_eq_false, ↓reduceIte]
  exact ⟨Process.record { w with heap := (w.heap.set b (.cxx .zero)).free b } (.freed ⟨b, 0⟩), rfl,
    hfree, rfl, rfl⟩

theorem giveBack_initialised (hb : w.heap b = some (.cxx e))
    : ∃ w', giveBack .initialised b w = .ok w'
      ∧ w'.view = (w.view.free b).append (finalEvents e b) := by
  exact cxaFreeException_view hb

end

structure Sound (s : Construction) : Prop where
  inv : s.state.Inv
  noForeign : s.state.NoForeign
  since_le : ∀ b, s.since b ≤ s.state.process.log.length
  once : ∀ b, s.destructions b ≤ 1 ∧ (s.destructions b ≠ 0 → s.constructed b)
  allocated : ∀ b, s.stage b = some .allocated
    → s.state.process.heap b = none ∧ s.destructions b = 0
  initialised : ∀ b, s.stage b = some .initialised
    → s.state.process.heap.kind b = some (.primary 0)
  primary : ∀ b n, s.state.process.heap.kind b = some (.primary n)
    → (s.constructed b ∨ s.stage b = some .initialised) ∧ s.destructions b = 0

variable {img : Image} {s s' : Construction} {b i : Nat}

theorem destructions_append {events : List Event} (hsound : s.Sound)
    (hlog : s'.state.process.log = s.state.process.log ++ events) (hsince : s'.since b = s.since b)
    : s'.destructions b = s.destructions b + events.count (.destroyed ⟨b, 0⟩) := by
  unfold destructions
  rw [hlog, hsince, List.drop_append_of_le_length (hsound.since_le b), List.count_append]

section

variable {action : LibCxxRt.Action} {stage : Nat → Option Stage}

theorem stage_of_allocated (hb : track stage action b = some .allocated)
    : stage b = some .allocated := by
  have hne {d : Nat} {o : Option Stage} (hd : Function.update stage d o b = some .allocated)
      (ho : o ≠ some .allocated) : stage b = some .allocated := by
    by_cases heq : b = d
    . rw [heq, Function.update_self] at hd
      contradiction
    . rw [Function.update_of_ne heq] at hd
      exact hd
  cases action with
  | throw | increment | initPrimary => exact hne hb (by simp)
  | _ => exact hb

theorem stage_of_initialised (hinit : ∀ tinfo dest, action ≠ .initPrimary b tinfo dest)
    (hb : track stage action b = some .initialised)
    : stage b = some .initialised ∧ action ≠ .increment b := by
  cases action with
  | throw d | increment d =>
    have hne : b ≠ d := by
      rintro rfl
      simp [track] at hb
    have hstage : stage b = some .initialised := by
      rw [← hb]
      exact (Function.update_of_ne hne ..).symm
    exact ⟨hstage, by simp [hne.symm]⟩
  | initPrimary d tinfo dest =>
    have hne : b ≠ d := by
      rintro rfl
      exact hinit tinfo dest rfl
    have hstage : stage b = some .initialised := by
      rw [← hb]
      exact (Function.update_of_ne hne ..).symm
    exact ⟨hstage, by simp⟩
  | _ => exact ⟨hb, by simp⟩

-- a reference is only taken to an object that has been constructed
theorem ready_of_initialised (hpermits : s.permits action) (hstage : s.stage b = some .initialised)
    : s.constructed b ∨ track s.stage action b = some .initialised := by
  cases action with
  | throw d | initPrimary d =>
    refine .inr ?_
    have hne : b ≠ d := by
      rintro rfl
      simp [permits, hstage] at hpermits
    exact (Function.update_of_ne hne ..).trans hstage
  | increment d =>
    by_cases heq : b = d
    . rw [heq]
      exact .inl hpermits
    . exact .inr ((Function.update_of_ne heq ..).trans hstage)
  | _ => exact .inr hstage

end

namespace Sound

theorem init : Construction.init.Sound := by
  constructor
  . exact State.Inv.init
  . intro i x hx
    contradiction
  . intro b
    exact Nat.zero_le _
  . intro b
    exact ⟨Nat.zero_le _, nofun⟩
  . intro b hb
    contradiction
  . intro b hb
    contradiction
  . intro b n hb
    contradiction

theorem allocate (hsound : s.Sound) (hstep : s.step img (.allocate b) = some s') : s'.Sound := by
  simp only [step] at hstep
  split at hstep
  . next hcond =>
    rcases hcond with ⟨hb, _⟩
    cases hstep
    have hself : destructions {
        s with
        stage := Function.update s.stage b (some .allocated)
        constructed := Function.update s.constructed b false
        since := Function.update s.since b s.state.process.log.length
      } b = 0 := by
      simp [destructions]
    have hother {b' : Nat} (hne : b' ≠ b) : destructions {
        s with
        stage := Function.update s.stage b (some .allocated)
        constructed := Function.update s.constructed b false
        since := Function.update s.since b s.state.process.log.length
      } b' = s.destructions b' := by
      simp [destructions, Function.update_of_ne hne]
    constructor
    . exact hsound.inv
    . exact hsound.noForeign
    . intro b'
      by_cases heq : b' = b
      . rw [heq]
        simp
      . dsimp only
        rw [Function.update_of_ne heq]
        exact hsound.since_le b'
    . intro b'
      by_cases heq : b' = b
      . rw [heq, hself]
        exact ⟨Nat.zero_le _, nofun⟩
      . rw [hother heq]
        dsimp only
        rw [Function.update_of_ne heq]
        exact hsound.once b'
    . intro b' hb'
      by_cases heq : b' = b
      . rw [heq]
        exact ⟨hb, hself⟩
      . dsimp only at hb'
        rw [Function.update_of_ne heq] at hb'
        rw [hother heq]
        exact hsound.allocated b' hb'
    . intro b' hb'
      by_cases heq : b' = b
      . rw [heq] at hb'
        simp at hb'
      . dsimp only at hb'
        rw [Function.update_of_ne heq] at hb'
        exact hsound.initialised b' hb'
    . intro b' n hb'
      have hne : b' ≠ b := by
        rintro rfl
        dsimp only at hb'
        rw [Heap.kind_eq_none_iff.mpr hb] at hb'
        contradiction
      rw [hother hne]
      dsimp only
      rw [Function.update_of_ne hne, Function.update_of_ne hne]
      exact hsound.primary b' n hb'
  . contradiction

theorem construct (hsound : s.Sound) (hstep : s.step img (.construct b) = some s') : s'.Sound := by
  simp only [step] at hstep
  split at hstep
  . cases hstep
    have hconstructed {b' : Nat} (hb' : s.constructed b')
        : Function.update s.constructed b true b' = true := by
      by_cases heq : b' = b
      . rw [heq, Function.update_self]
      . rw [Function.update_of_ne heq]
        exact hb'
    constructor
    . exact hsound.inv
    . exact hsound.noForeign
    . exact hsound.since_le
    . intro b'
      exact ⟨(hsound.once b').1, fun hne => hconstructed ((hsound.once b').2 hne)⟩
    . exact hsound.allocated
    . exact hsound.initialised
    . intro b' n hb'
      rcases hsound.primary b' n hb' with ⟨hready, hzero⟩
      exact ⟨hready.imp_left hconstructed, hzero⟩
  . contradiction

-- the exception is gone, no other one has changed
theorem of_giveBack (hsound : s.Sound) {w : Process} {events : List Event}
    (hinv : (s.state.setProcess w).Inv) (hlog : w.log = s.state.process.log ++ events)
    (hkind : ∀ b', b' ≠ b → w.heap.kind b' = s.state.process.heap.kind b') (hb : w.heap b = none)
    (hzero : s.destructions b = 0) (hself : events.count (.destroyed ⟨b, 0⟩) ≤ 1)
    (hconstructed : events.count (.destroyed ⟨b, 0⟩) ≠ 0 → s.constructed b)
    (hother : ∀ b', b' ≠ b → events.count (.destroyed ⟨b', 0⟩) = 0)
    : Sound { s with
        state := s.state.setProcess w, stage := Function.update s.stage b none } := by
  have hcount (b' : Nat) : destructions { s with
      state := s.state.setProcess w, stage := Function.update s.stage b none } b'
      = s.destructions b' + events.count (.destroyed ⟨b', 0⟩) :=
    destructions_append hsound hlog rfl
  have hstage {b' : Nat} {stage : Stage} (hb' : Function.update s.stage b none b' = some stage)
      : b' ≠ b ∧ s.stage b' = some stage := by
    by_cases heq : b' = b
    . rw [heq, Function.update_self] at hb'
      contradiction
    . rw [Function.update_of_ne heq] at hb'
      exact ⟨heq, hb'⟩
  constructor
  . exact hinv
  . exact hsound.noForeign
  . intro b'
    have hle := hsound.since_le b'
    rw [State.setProcess_process, hlog, List.length_append]
    dsimp only
    omega
  . intro b'
    rw [hcount b']
    by_cases heq : b' = b
    . rw [heq, hzero, Nat.zero_add]
      exact ⟨hself, hconstructed⟩
    . rw [hother b' heq]
      exact hsound.once b'
  . intro b' hb'
    rcases hstage hb' with ⟨hne, hb'⟩
    rcases hsound.allocated b' hb' with ⟨hfresh, hzero'⟩
    rw [hcount b', hother b' hne, hzero', ← Heap.kind_eq_none_iff]
    refine ⟨(hkind b' hne).trans ?_, rfl⟩
    rw [Heap.kind_eq_none_iff]
    exact hfresh
  . intro b' hb'
    rcases hstage hb' with ⟨hne, hb'⟩
    exact (hkind b' hne).trans (hsound.initialised b' hb')
  . intro b' n hb'
    have hprimary : w.heap.kind b' = some (.primary n) := hb'
    have hne : b' ≠ b := by
      rintro rfl
      rw [Heap.kind_eq_none_iff.mpr hb] at hprimary
      contradiction
    rw [hkind b' hne] at hprimary
    rw [hcount b', hother b' hne]
    dsimp only
    rw [Function.update_of_ne hne]
    exact hsound.primary b' n hprimary

theorem free_allocated (hsound : s.Sound) (hb : s.stage b = some .allocated)
    : ∃ s', s.step img (.free b) = some s' ∧ s'.Sound ∧ s'.state.process.heap b = none
      ∧ s'.state.process.log = s.state.process.log ++ [.freed ⟨b, 0⟩] := by
  rcases hsound.allocated b hb with ⟨hfresh, hzero⟩
  rcases giveBack_allocated hfresh with ⟨w, hgive, hheap, hthreads, hlog⟩
  have hnone : w.heap b = none := (congrFun hheap b).trans hfresh
  refine ⟨{ s with state := s.state.setProcess w, stage := Function.update s.stage b none }, ?_, ?_,
    hnone, hlog⟩
  . simp only [step, hb, Option.bind_eq_bind, Option.bind_some, hgive]
    rfl
  . refine hsound.of_giveBack ?_ hlog ?_ hnone hzero (by simp) (by simp) (by simp)
    . refine hsound.inv.refer rfl hthreads ?_ ?_ ?_
      . intro b' _
        rw [State.setProcess_process, hheap]
      . rw [State.setProcess_process, hheap]
        exact hsound.inv.idle
      . rw [State.setProcess_process, hheap]
        exact hsound.inv.owners
    . intro b' _
      rw [hheap]

theorem step_free_initialised (img : Image) (hb : s.stage b = some .initialised) {e : CxaException}
    (he : s.state.process.heap b = some (.cxx e))
    : ∃ w, s.step img (.free b)
        = some { s with state := s.state.setProcess w, stage := Function.update s.stage b none }
      ∧ w.view = (s.state.process.view.free b).append (finalEvents e b) := by
  rcases giveBack_initialised he with ⟨w, hgive, hview⟩
  refine ⟨w, ?_, hview⟩
  simp only [step, hb, Option.bind_eq_bind, Option.bind_some, hgive]
  rfl

theorem free_initialised (hsound : s.Sound) (hb : s.stage b = some .initialised) {e : CxaException}
    (he : s.state.process.heap b = some (.cxx e))
    (hconstructed : e.exceptionDestructor ≠ 0 → s.constructed b)
    : ∃ s', s.step img (.free b) = some s' ∧ s'.Sound ∧ s'.state.process.heap b = none
      ∧ s'.state.process.log = s.state.process.log ++ finalEvents e b := by
  have hprimary := hsound.initialised b hb
  have hzero := (hsound.primary b 0 hprimary).2
  rcases step_free_initialised img hb he with ⟨w, hfree, hview⟩
  have hlink : w.heap.link = Function.update s.state.process.heap.link b none :=
    congrArg View.link hview
  have hkind : w.heap.kind = Function.update s.state.process.heap.kind b none :=
    congrArg View.kind hview
  have hlog : w.log = s.state.process.log ++ finalEvents e b := congrArg View.log hview
  have hnone : w.heap b = none := by
    rw [← Heap.kind_eq_none_iff, hkind, Function.update_self]
  have howned := ((hsound.inv.owners.unreferenced_iff hprimary).mp rfl).1
  refine ⟨_, hfree, ?_, hnone, hlog⟩
  refine hsound.of_giveBack ?_ hlog ?_ hnone hzero ?_ ?_ ?_
  . refine hsound.inv.refer rfl (congrArg View.threads hview) ?_ ?_ ?_
    . intro b' hb'
      rw [State.setProcess_process, hlink, Function.update_of_ne]
      rintro rfl
      exact howned hb'
    . intro b' n next hb' hmem
      rw [State.setProcess_process, hlink] at hb'
      by_cases heq : b' = b
      . rw [heq, Function.update_self] at hb'
        contradiction
      . rw [Function.update_of_ne heq] at hb'
        exact hsound.inv.idle b' n next hb' hmem
    . rw [State.setProcess_process, hkind]
      exact hsound.inv.owners.free_primary hprimary
  . intro b' hne
    rw [hkind, Function.update_of_ne hne]
  . rw [count_finalEvents_self]
    split <;> simp
  . rw [count_finalEvents_self]
    intro hne
    apply hconstructed
    intro hdest
    simp [hdest] at hne
  . intro b' hne
    exact count_finalEvents_of_ne hne.symm

section

variable {s₁ : State} {action : LibCxxRt.Action} {events : List Event}

theorem once_of_step (hsound : s.Sound) (hrecounts : Recounts s.state.process s₁.process)
    (hlog : s₁.process.log = s.state.process.log ++ events)
    : s.destructions b + events.count (.destroyed ⟨b, 0⟩) ≤ 1
        ∧ (s.destructions b + events.count (.destroyed ⟨b, 0⟩) ≠ 0 → s.constructed b) := by
  by_cases hb : ∃ n, s.state.process.heap.kind b = some (.primary n)
  . rcases hb with ⟨n, hb⟩
    rcases hsound.primary b n hb with ⟨hready, hnone⟩
    rcases hrecounts.count_destroyed_primary hlog hb with ⟨_, hn, hle⟩ | ⟨hkept, _⟩
    . refine ⟨by omega, fun _ => hready.resolve_right ?_⟩
      intro hstage
      rw [hsound.initialised b hstage] at hb
      cases hb
      contradiction
    . rw [hkept]
      exact hsound.once b
  . rw [hrecounts.count_destroyed hlog fun n hn => hb ⟨n, hn⟩]
    exact hsound.once b

-- the block is not handed out while it is reserved
theorem heap_of_allocated (hsound : s.Sound) (hcxx : s.state.CxxOnly (i, action))
    (hpermits : s.permits action) (hstep : LibCxxRt.step img s.state (i, action) = some s₁)
    (hb : track s.stage action b = some .allocated)
    : s₁.process.heap b = none := by
  have hstage := stage_of_allocated hb
  have horigin := State.origin_of_step hsound.inv hstep
  by_contra hne
  have halloc := horigin.allocated (hsound.allocated b hstage).1 hne
  cases action with
  | throw | initPrimary =>
    cases halloc
    simp [track] at hb
  | raiseForeign => exact hcxx
  | rethrowPrimary =>
    cases halloc
    simp [permits, hstage] at hpermits
  | _ => contradiction

theorem kind_of_initialised (hsound : s.Sound)
    (hstep : LibCxxRt.step img s.state (i, action) = some s₁)
    (hb : track s.stage action b = some .initialised)
    : s₁.process.heap.kind b = some (.primary 0) := by
  by_cases hinit : ∃ tinfo dest, action = .initPrimary b tinfo dest
  . rcases hinit with ⟨tinfo, dest, rfl⟩
    exact (State.origin_of_step hsound.inv hstep).2.1
  . rcases stage_of_initialised (fun tinfo dest h => hinit ⟨tinfo, dest, h⟩) hb with
      ⟨hstage, haction⟩
    exact State.unreferenced_of_step hsound.inv hsound.noForeign (hsound.initialised b hstage)
      haction hstep

-- a new exception is made for an object that exists, or by `__cxa_init_primary_exception`
theorem ready_of_new (hsound : s.Sound) (hcxx : s.state.CxxOnly (i, action))
    (hpermits : s.permits action) (hstep : LibCxxRt.step img s.state (i, action) = some s₁)
    (hb : s.state.process.heap.kind b = none) {n : Nat}
    (hb' : s₁.process.heap.kind b = some (.primary n))
    : (s.constructed b ∨ track s.stage action b = some .initialised) ∧ s.destructions b = 0 := by
  have horigin := State.origin_of_step hsound.inv hstep
  have halloc := horigin.allocated (Heap.kind_eq_none_iff.mp hb) (by
    rw [ne_eq, ← Heap.kind_eq_none_iff, hb']
    simp)
  cases action with
  | throw =>
    cases halloc
    simp only [permits, Bool.and_eq_true, beq_iff_eq] at hpermits
    exact ⟨.inl hpermits.2, (hsound.allocated b hpermits.1).2⟩
  | initPrimary =>
    cases halloc
    simp only [permits, beq_iff_eq] at hpermits
    exact ⟨.inr (Function.update_self ..), (hsound.allocated b hpermits).2⟩
  | raiseForeign => exact hcxx.elim
  | rethrowPrimary =>
    cases halloc
    rw [horigin.2.1] at hb'
    simp at hb'
  | _ => contradiction

theorem ready_of_kept (hsound : s.Sound) (hrecounts : Recounts s.state.process s₁.process)
    (hpermits : s.permits action) {k : Kind} {n' : Nat}
    (hb : s.state.process.heap.kind b = some k) (hb' : s₁.process.heap.kind b = some (.primary n'))
    (hlog : s₁.process.log = s.state.process.log ++ events)
    : (s.constructed b ∨ track s.stage action b = some .initialised)
        ∧ s.destructions b + events.count (.destroyed ⟨b, 0⟩) = 0 := by
  have hprimary : ∃ n, k = .primary n := by
    rcases hrecounts.stays hb hb' with hsame | ⟨n, _, hn, _⟩
    . exact ⟨n', hsame.symm⟩
    . exact ⟨n, hn⟩
  rcases hprimary with ⟨n, rfl⟩
  rcases hsound.primary b n hb with ⟨hready, hnone⟩
  rcases hrecounts.count_destroyed_primary hlog hb with ⟨hgone, _⟩ | ⟨hkept, _⟩
  . rw [hgone] at hb'
    contradiction
  . rw [hkept]
    refine ⟨?_, hnone⟩
    rcases hready with hconstructed | hstage
    . exact .inl hconstructed
    . exact ready_of_initialised hpermits hstage

end

theorem call (hsound : s.Sound) {action : LibCxxRt.Action} (hcxx : s.state.CxxOnly (i, action))
    (hstep : s.step img (.call i action) = some s') : s'.Sound := by
  simp only [step] at hstep
  split at hstep
  . next hpermits =>
    rcases Option.map_eq_some_iff.mp hstep with ⟨s₁, hstep₁, rfl⟩
    have houtcome := hsound.inv.of_step (hsound.noForeign.clean _) hstep₁
    rcases houtcome.recounts.log_append with ⟨events, hlog⟩
    have hcount (b : Nat) : destructions { s with state := s₁, stage := track s.stage action } b
        = s.destructions b + events.count (.destroyed ⟨b, 0⟩) :=
      destructions_append hsound hlog rfl
    have hzero {b : Nat} (hb : s.state.process.heap.kind b = none)
        : events.count (.destroyed ⟨b, 0⟩) = 0 :=
      houtcome.recounts.count_destroyed hlog (by simp [hb])
    constructor
    . exact houtcome.inv
    . exact hsound.noForeign.of_step hsound.inv hcxx hstep₁
    . intro b
      have hle := hsound.since_le b
      dsimp only
      rw [hlog, List.length_append]
      omega
    . intro b
      rw [hcount b]
      exact hsound.once_of_step houtcome.recounts hlog
    . intro b hb
      rcases hsound.allocated b (stage_of_allocated hb) with ⟨hfresh, hnone⟩
      rw [hcount b, hzero (Heap.kind_eq_none_iff.mpr hfresh)]
      exact ⟨hsound.heap_of_allocated hcxx hpermits hstep₁ hb, hnone⟩
    . intro b hb
      exact hsound.kind_of_initialised hstep₁ hb
    . intro b n' hb
      rw [hcount b]
      cases hkind : s.state.process.heap.kind b with
      | none =>
        rw [hzero hkind]
        exact hsound.ready_of_new hcxx hpermits hstep₁ hkind hb
      | some k => exact hsound.ready_of_kept houtcome.recounts hpermits hkind hb hlog
  . contradiction

theorem free (hsound : s.Sound) (hpremature : ¬ s.Premature (.free b))
    (hstep : s.step img (.free b) = some s') : s'.Sound := by
  cases hb : s.stage b with
  | none => simp [step, hb] at hstep
  | some stage =>
    cases stage with
    | allocated =>
      rcases hsound.free_allocated hb with ⟨s₁, hstep₁, hsound₁, _⟩
      rw [hstep] at hstep₁
      cases hstep₁
      exact hsound₁
    | initialised =>
      rcases Heap.primary_of_kind (hsound.initialised b hb) with ⟨e, he, _⟩
      have hconstructed (hdest : e.exceptionDestructor ≠ 0) : s.constructed b = true := by
        by_contra hnot
        rw [Bool.not_eq_true] at hnot
        exact hpremature ⟨hnot, e, he, hdest⟩
      rcases hsound.free_initialised hb he hconstructed with ⟨s₁, hstep₁, hsound₁, _⟩
      rw [hstep] at hstep₁
      cases hstep₁
      exact hsound₁

theorem of_reach (hs : Reach Construction.init (step img) Allowed s) : s.Sound := by
  apply hs.invariant init
  rintro s action s' hsound ⟨hcxx, hpremature⟩ hstep
  cases action with
  | allocate b => exact hsound.allocate hstep
  | construct b => exact hsound.construct hstep
  | free b => exact hsound.free hpremature hstep
  | call i action => exact hsound.call hcxx hstep

end Sound

/--
The destructor of an object is called at most once, and only if the object has been constructed. If it
has not, its memory is given back without a call. It takes one call of `__cxa_free_exception` for a
header with a destructor but without an object to break this.
-/
theorem destructions_le_one (img : Image) (hs : Reach Construction.init (step img) Allowed s)
    : (∀ b, s.destructions b ≤ 1 ∧ (s.destructions b ≠ 0 → s.constructed b))
      ∧ (∀ b, s.stage b ≠ none → s.constructed b = false → ¬ s.Premature (.free b)
        → ∃ s', s.step img (.free b) = some s' ∧ s'.state.process.heap b = none
          ∧ s'.state.process.log = s.state.process.log ++ [.freed ⟨b, 0⟩])
      ∧ ∀ b, s.stage b ≠ none → s.Premature (.free b)
        → ∃ s', s.step img (.free b) = some s' ∧ s'.destructions b = 1 ∧ s'.constructed b = false := by
  have hsound := Sound.of_reach hs
  refine ⟨hsound.once, ?_, ?_⟩
  . intro b hstage hconstructed hpremature
    cases hb : s.stage b with
    | none => contradiction
    | some stage =>
      cases stage with
      | allocated =>
        rcases hsound.free_allocated hb with ⟨s', hstep, _, hfreed⟩
        exact ⟨s', hstep, hfreed⟩
      | initialised =>
        rcases Heap.primary_of_kind (hsound.initialised b hb) with ⟨e, he, _⟩
        have hdest : e.exceptionDestructor = 0 := by
          by_contra hne
          exact hpremature ⟨hconstructed, e, he, hne⟩
        rcases hsound.free_initialised hb he (absurd hdest) with
          ⟨s', hstep, _, hnone, hlog⟩
        refine ⟨s', hstep, hnone, ?_⟩
        rw [hlog]
        simp [finalEvents, hdest]
  . rintro b hstage ⟨hconstructed, e, he, hdest⟩
    cases hb : s.stage b with
    | none => contradiction
    | some stage =>
      cases stage with
      | allocated =>
        rw [(hsound.allocated b hb).1] at he
        contradiction
      | initialised =>
        have hzero := (hsound.primary b 0 (hsound.initialised b hb)).2
        rcases Sound.step_free_initialised img hb he with ⟨w, hstep, hview⟩
        refine ⟨_, hstep, ?_, hconstructed⟩
        have hlog : w.log = s.state.process.log ++ finalEvents e b := congrArg View.log hview
        have hcount : destructions { s with
            state := s.state.setProcess w, stage := Function.update s.stage b none } b
            = s.destructions b + (finalEvents e b).count (.destroyed ⟨b, 0⟩) :=
          destructions_append hsound hlog rfl
        rw [hcount, hzero, count_finalEvents_self, if_pos hdest]

-- an object that a reference has been made to and that has been dropped again
theorem destructions_le_one_dropped
    : ∃ s, Reach Construction.init (step Sample.img) Allowed s ∧ s.destructions 0 = 1
      ∧ s.constructed 0 := by
  have hs : Reach Construction.init (step Sample.img) Allowed _ :=
    Reach.of_run .init (by simp [Allowed, CxxOnly, State.CxxOnly, Premature])
      (rfl : run _ _ [.allocate 0, .call 0 (.initPrimary 0 0x2000 0x3000), .construct 0,
        .call 0 (.increment 0), .call 0 (.decrement 0)] = some _)
  exact ⟨_, hs, rfl, ((destructions_le_one Sample.img hs).1 0).2 (by decide)⟩

theorem destructions_unconstructed
    : ∃ s, Reach Construction.init (step Sample.img) CxxOnly s ∧ s.destructions 0 = 1
      ∧ s.constructed 0 = false := by
  have hs : Reach Construction.init (step Sample.img) CxxOnly _ :=
    Reach.of_run .init (by simp [CxxOnly, State.CxxOnly])
      (rfl : run _ _ [.allocate 0, .call 0 (.initPrimary 0 0x2000 0x3000), .free 0] = some _)
  exact ⟨_, hs, rfl, rfl⟩

end Construction

end LibCxxRt
