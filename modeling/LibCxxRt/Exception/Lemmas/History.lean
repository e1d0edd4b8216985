import LibCxxRt.Exception.Lemmas.Origin
import LibCxxRt.Exception.Lemmas.Transition
import LibCxxRt.Exception.RefCount

/-!
This module contains what a step of a program leaves of the exceptions that there are, and how new ones
come about.
-/

namespace LibCxxRt

open Util

namespace State

variable {img : Image} {s s' : State} {i b : Nat} {action : Action}

-- how the types and destructors of the exceptions come about
def Origin (img : Image) (h h' : Heap) : Action → Prop
  | .throw b tinfo dest =>
    h b = none ∧ h'.kind b = some (.primary 1) ∧ Heap.Creates b tinfo dest h h'
  | .initPrimary b tinfo dest =>
    h b = none ∧ h'.kind b = some (.primary 0) ∧ Heap.Creates b tinfo dest h h'
  | .rethrowPrimary b d =>
    h d = none ∧ h'.kind d = some (.dependent b) ∧ ∃ e n, h b = some (.cxx e) ∧ e.kind = .primary n
      ∧ Heap.Creates d ((e.nextException.map img.addr).getD 0) 0 h h'
  | .raiseForeign b .. => h b = none ∧ Heap.KeepsBut b h h' ∧ h'.kind b = some .foreign
  | _ => h.Keeps h'

theorem origin_of_step (hinv : s.Inv) (hstep : step img s (i, action) = some s')
    : Origin img s.process.heap s'.process.heap action := by
  cases transition_of_step hstep with
  | @throw b tinfo dest _ _ _ w halloc hthrow =>
    rcases cxaAllocateException_cases halloc with ⟨rfl, hb, rfl⟩
    refine ⟨hb, ?_, cxaThrow_creates (.set _ b _) hthrow⟩
    have hset : ({ s.process with heap := s.process.heap.set b (.cxx .zero) } : Process).heap b
        = some (.cxx .zero) := Heap.set_self ..
    rcases cxaThrow_view hset i tinfo dest with ⟨w', heq, hw'⟩
    rw [hthrow] at heq
    cases heq
    have hkind : w.heap.kind = _ := congrArg View.kind hw'
    exact (congrFun hkind b).trans (Function.update_self ..)
  | @initPrimary b tinfo dest _ _ _ w halloc hinit =>
    rcases cxaAllocateException_cases halloc with ⟨rfl, hb, rfl⟩
    refine ⟨hb, ?_, (cxaInitPrimaryException_creates (.set _ b _) hinit).2⟩
    have hset : ({ s.process with heap := s.process.heap.set b (.cxx .zero) } : Process).heap b
        = some (.cxx .zero) := Heap.set_self ..
    rcases cxaInitPrimaryException_view hset tinfo dest with ⟨_, w', heq, _, _, hw'⟩
    rw [hinit] at heq
    cases heq
    have hkind : w.heap.kind = _ := congrArg View.kind hw'
    exact (congrFun hkind b).trans (Function.update_self ..)
  | @raiseForeign b _ cleanup _ hb hcls =>
    refine ⟨hb, .set _ b _, ?_⟩
    rw [setActivities_process, setProcess_process, Heap.kind_set, Function.update_self,
      Obj.kind_foreign hcls]
  | cache hc ht =>
    have hkeeps (p : Ptr) (t : CxaTail) : s.process.heap.Keeps (s.process.setTail p t).heap :=
      .setTail s.process.heap p t
    exact hkeeps _ _
  | beginCatch _ hcatch => exact cxaBeginCatch_keeps hcatch
  | callUnexpected _ hcall => exact cxaCallUnexpected_keeps hcall
  | endCatch _ hend => exact cxaEndCatch_keeps hend
  | endCatchUnwinding _ hend => exact cxaEndCatch_keeps hend
  | rethrow hrethrow => exact cxaRethrow_keeps hrethrow
  | currentNone hcurrent => exact cxaCurrentPrimaryException_keeps hcurrent
  | currentPrimary hcurrent =>
    have hkeeps := cxaCurrentPrimaryException_keeps hcurrent
    exact hkeeps
  | increment _ hincrement =>
    have hkeeps := cxaIncrementExceptionRefcount_keeps hincrement
    exact hkeeps
  | decrement _ hdecrement =>
    have hkeeps := cxaDecrementExceptionRefcount_keeps hdecrement
    exact hkeeps
  | @rethrowPrimary b d _ w href hrethrow =>
    rcases hinv.owners.referenced b href with ⟨n, hn⟩
    rcases Heap.primary_of_kind hn with ⟨e, he, hprimary⟩
    have hkind := CxaException.kind_eq_primary.mpr hprimary
    have hcreates := cxaRethrowPrimaryException_creates he hkind hrethrow
    have hd : s.process.heap d = none := by
      unfold cxaRethrowPrimaryException at hrethrow
      rcases Res.bind_eq_ok.mp hrethrow with ⟨_, halloc, _⟩
      exact (cxaAllocateException_cases halloc).2.1
    rcases cxaRethrowPrimaryException_view img i hn hd with ⟨w', heq, hw'⟩
    rw [hrethrow] at heq
    cases heq
    have hdependent : w.heap.kind = _ := congrArg View.kind hw'
    exact ⟨hd, (congrFun hdependent d).trans (Function.update_self ..), e, n, he, hkind, hcreates⟩

end State

-- the block that the allocator hands out
def Action.allocated? : Action → Option Nat
  | .throw b .. | .initPrimary b .. | .raiseForeign b .. | .rethrowPrimary _ b => some b
  | _ => none

theorem State.Origin.allocated {img : Image} {h h' : Heap} {action : Action} {b : Nat}
    (horigin : Origin img h h' action) (hb : h b = none) (hb' : h' b ≠ none)
    : action.allocated? = some b := by
  have hself {d : Nat} (hothers : Heap.KeepsBut d h h') : d = b := by
    by_contra hne
    exact hb' ((hothers b (Ne.symm hne)).fresh hb)
  cases action with
  | throw d | initPrimary d => exact congrArg some (hself horigin.2.2.others)
  | raiseForeign d => exact congrArg some (hself horigin.2.1)
  | rethrowPrimary p d =>
    rcases horigin with ⟨_, _, _, _, _, _, hcreates⟩
    exact congrArg some (hself hcreates.others)
  | _ => exact absurd ((horigin b).fresh hb) hb'

-- what there is already is not allocated again
theorem State.Origin.keptAt {img : Image} {h h' : Heap} {action : Action} {b : Nat}
    (horigin : Origin img h h' action) (hb : h b ≠ none) : h.KeptAt h' b := by
  have hother {d : Nat} (hd : h d = none) (hothers : Heap.KeepsBut d h h') : h.KeptAt h' b := by
    apply hothers
    rintro rfl
    exact hb hd
  cases action with
  | throw | initPrimary => exact hother horigin.1 horigin.2.2.others
  | raiseForeign => exact hother horigin.1 horigin.2.1
  | rethrowPrimary =>
    rcases horigin with ⟨hd, _, _, _, _, _, hcreates⟩
    exact hother hd hcreates.others
  | _ => exact horigin b

-- a primary exception stays one, and a dependent one stays one of the same primary exception
def Kind.Stays (k k' : Kind) : Prop :=
  k' = k ∨ ∃ n n', k = .primary n ∧ k' = .primary n'

section

variable {w w' : Process} {b p n : Nat} {k k' : Kind}

theorem dropKind_stays {kind : Nat → Option Kind} (hp : kind p = some (.primary n))
    (hb : kind b = some k) (hb' : dropKind kind p n b = some k') : k.Stays k' := by
  by_cases heq : b = p
  . subst heq
    rw [hp] at hb
    cases hb
    rw [dropKind_self] at hb'
    split at hb'
    . contradiction
    . cases hb'
      exact .inr ⟨_, _, rfl, rfl⟩
  . rw [dropKind_of_ne heq, hb] at hb'
    cases hb'
    exact .inl rfl

theorem Releases.stays (hrelease : Releases w w' p) (hb : w.heap.kind b = some k)
    (hb' : w'.heap.kind b = some k') : k.Stays k' := by
  cases hrelease with
  | primary hp hkind _ hdrop =>
    rw [hdrop] at hb'
    refine dropKind_stays ?_ hb hb'
    rw [Heap.kind_of_cxx hp, hkind]
  | dependent _ _ hp hkind _ hdrop =>
    rw [hdrop] at hb'
    by_cases heq : b = p
    . rw [heq, Function.update_self] at hb'
      contradiction
    . rw [Function.update_of_ne heq] at hb'
      refine dropKind_stays ?_ hb hb'
      rw [Heap.kind_of_cxx hp, hkind]

theorem update_stays {kind : Nat → Option Kind} {k₁ : Kind} (hb : kind b = some k)
    (hb' : Function.update kind p (some k₁) b = some k') (hp : ∀ k₀, kind p = some k₀ → k₀.Stays k₁)
    : k.Stays k' := by
  by_cases heq : b = p
  . subst heq
    rw [Function.update_self] at hb'
    cases hb'
    exact hp k hb
  . rw [Function.update_of_ne heq, hb] at hb'
    cases hb'
    exact .inl rfl

theorem Recounts.stays (hrecounts : Recounts w w') (hb : w.heap.kind b = some k)
    (hb' : w'.heap.kind b = some k') : k.Stays k' := by
  have hadded (n : Nat) (k₀ : Kind) (hk₀ : some (.primary n) = some k₀)
      : k₀.Stays (.primary (n + 1)) := by
    cases hk₀
    exact .inr ⟨_, _, rfl, rfl⟩
  cases hrecounts with
  | same hsame =>
    rw [hsame, hb] at hb'
    cases hb'
    exact .inl rfl
  | alloc hfresh halloc =>
    rw [halloc] at hb'
    refine update_stays hb hb' ?_
    simp [Heap.kind_eq_none_iff.mpr hfresh]
  | @add p n hp hadd =>
    rw [hadd] at hb'
    refine update_stays hb hb' ?_
    rw [hp]
    exact hadded n
  | @share d p n hfresh hp hshare =>
    rw [hshare] at hb'
    have hbd : b ≠ d := by
      rintro rfl
      rw [Heap.kind_eq_none_iff.mpr hfresh] at hb
      contradiction
    rw [Function.update_of_ne hbd] at hb'
    refine update_stays hb hb' ?_
    rw [hp]
    exact hadded n
  | release hrelease => exact hrelease.stays hb hb'
  | @cleanUp b' _ hfree =>
    rw [hfree] at hb'
    by_cases heq : b = b'
    . rw [heq, Function.update_self] at hb'
      contradiction
    . rw [Function.update_of_ne heq, hb] at hb'
      cases hb'
      exact .inl rfl

theorem Recounts.log_append (hrecounts : Recounts w w') : ∃ events, w'.log = w.log ++ events := by
  cases hrecounts with
  | release hrelease =>
    cases hrelease with
    | primary _ _ _ _ hlog | dependent _ _ _ _ _ _ hlog => exact ⟨_, hlog⟩
  | cleanUp _ _ hlog => exact ⟨_, hlog⟩
  | same _ hlog | alloc _ _ hlog | add _ _ hlog | share _ _ _ hlog =>
    refine ⟨[], ?_⟩
    rw [hlog, List.append_nil]

end

end LibCxxRt
