import LibCxxRt.Exception.Cleanup
import LibCxxRt.Exception.CxxOnly

/-!
This module contains the proof that the reference count of a primary exception is the number of its
owners, and that the exception is destroyed in the step in which it loses the last of them.
-/

namespace LibCxxRt

open Util

namespace Event

-- the end of the exception
def isFinal (b : Nat) : Event → Bool
  | .destroyed ex | .freed ex => ex == ⟨b, 0⟩
  | .released _ | .cleanedUp _ => false

end Event

section

variable {e e' : CxaException} {b b' : Nat}

theorem filter_finalEvents_self
    : (finalEvents e b).filter (Event.isFinal b) = finalEvents e b := by
  rw [List.filter_eq_self]
  intro ev hev
  unfold finalEvents at hev
  by_cases hdest : e.exceptionDestructor = 0
  . simp only [hdest, ne_eq, not_true_eq_false, ↓reduceIte, List.nil_append,
      List.mem_singleton] at hev
    simp [hev, Event.isFinal]
  . simp only [ne_eq, hdest, not_false_eq_true, ↓reduceIte, List.cons_append, List.nil_append,
      List.mem_cons, List.not_mem_nil, or_false] at hev
    rcases hev with rfl | rfl <;> simp [Event.isFinal]

theorem filter_finalEvents_of_ne (hb : b ≠ b')
    : (finalEvents e b).filter (Event.isFinal b') = [] := by
  rw [List.filter_eq_nil_iff]
  intro ev hev
  unfold finalEvents at hev
  by_cases hdest : e.exceptionDestructor = 0
  . simp only [hdest, ne_eq, not_true_eq_false, ↓reduceIte, List.nil_append,
      List.mem_singleton] at hev
    simp [hev, Event.isFinal, hb]
  . simp only [ne_eq, hdest, not_false_eq_true, ↓reduceIte, List.cons_append, List.nil_append,
      List.mem_cons, List.not_mem_nil, or_false] at hev
    rcases hev with rfl | rfl <;> simp [Event.isFinal, hb]

end

section

variable {w w' : Process} {e : CxaException} {b n : Nat}

-- a primary exception is only freed when its count drops to zero
def Final (w w' : Process) (e : CxaException) (b n : Nat) : Prop :=
  ∃ events, w'.log = w.log ++ events
    ∧ (w'.heap.kind b = none ∧ n ≠ 0 ∧ events.filter (Event.isFinal b) = finalEvents e b
      ∨ ∃ n', w'.heap.kind b = some (.primary n') ∧ (n ≠ 0 → n' ≠ 0)
        ∧ events.filter (Event.isFinal b) = [])

theorem Final.of_log_eq {n' : Nat} (hkind : w'.heap.kind b = some (.primary n'))
    (hn : n ≠ 0 → n' ≠ 0) (hlog : w'.log = w.log) : Final w w' e b n := by
  refine ⟨[], ?_, .inr ⟨n', hkind, hn, rfl⟩⟩
  rw [hlog, List.append_nil]

theorem dropKind_self {kind : Nat → Option Kind} {p : Nat}
    : dropKind kind p n p = if n = 1 then none else some (.primary (n - 1)) := by
  exact Function.update_self ..

theorem dropKind_of_ne {kind : Nat → Option Kind} {p : Nat} (hb : b ≠ p)
    : dropKind kind p n b = kind b := by
  exact Function.update_of_ne hb ..

theorem Releases.final {b' : Nat} (hrelease : Releases w w' b') (hb : w.heap b = some (.cxx e))
    (hkind : e.kind = .primary n) : Final w w' e b n := by
  cases hrelease with
  | @primary m e' hb' hkind' hm hdrop hlog =>
    refine ⟨_, hlog, ?_⟩
    rw [hdrop]
    by_cases heq : b = b'
    . subst heq
      rw [hb] at hb'
      cases hb'
      rw [hkind, Kind.primary.injEq] at hkind'
      subst hkind'
      rw [dropKind_self]
      by_cases hone : n = 1
      . rw [if_pos hone, if_pos hone]
        refine .inl ⟨rfl, hm, ?_⟩
        rw [List.filter_cons_of_neg (by simp [Event.isFinal]), filter_finalEvents_self]
      . rw [if_neg hone, if_neg hone]
        exact .inr ⟨n - 1, rfl, by omega, rfl⟩
    . rw [dropKind_of_ne heq, Heap.kind_of_cxx hb, hkind]
      refine .inr ⟨n, rfl, id, ?_⟩
      rw [List.filter_cons_of_neg (by simp [Event.isFinal])]
      split
      . exact filter_finalEvents_of_ne (Ne.symm heq)
      . rfl
  | @dependent p m e₁ e' hd hdependent hp hprimary hm hdrop hlog =>
    have hbd : b ≠ b' := by
      rintro rfl
      rw [hb] at hd
      cases hd
      rw [hkind] at hdependent
      contradiction
    refine ⟨_, hlog, ?_⟩
    rw [hdrop, Function.update_of_ne hbd]
    by_cases heq : b = p
    . subst heq
      rw [hb] at hp
      cases hp
      rw [hkind, Kind.primary.injEq] at hprimary
      subst hprimary
      rw [dropKind_self]
      by_cases hone : n = 1
      . rw [if_pos hone, if_pos hone]
        refine .inl ⟨rfl, hm, ?_⟩
        simp [Event.isFinal, filter_finalEvents_self, hbd.symm]
      . rw [if_neg hone, if_neg hone]
        refine .inr ⟨n - 1, rfl, by omega, ?_⟩
        simp [Event.isFinal, hbd.symm]
    . rw [dropKind_of_ne heq, Heap.kind_of_cxx hb, hkind]
      refine .inr ⟨n, rfl, id, ?_⟩
      split
      . simp [Event.isFinal, filter_finalEvents_of_ne (Ne.symm heq), hbd.symm]
      . simp [Event.isFinal, hbd.symm]

theorem Recounts.final (hrecounts : Recounts w w') (hb : w.heap b = some (.cxx e))
    (hkind : e.kind = .primary n) : Final w w' e b n := by
  have hb' : w.heap.kind b = some (.primary n) := by
    rw [Heap.kind_of_cxx hb, hkind]
  cases hrecounts with
  | same hsame hlog =>
    rw [← hsame] at hb'
    exact .of_log_eq hb' id hlog
  | alloc hfresh halloc hlog =>
    refine .of_log_eq ?_ id hlog
    rw [halloc, Function.update_of_ne, hb']
    rintro rfl
    rw [hb] at hfresh
    contradiction
  | @add p m hp hadd hlog =>
    by_cases heq : b = p
    . subst heq
      refine .of_log_eq ?_ (fun _ => Nat.succ_ne_zero m) hlog
      rw [hadd, Function.update_self]
    . refine .of_log_eq ?_ id hlog
      rw [hadd, Function.update_of_ne heq, hb']
  | @share d p m hfresh hp hshare hlog =>
    have hbd : b ≠ d := by
      rintro rfl
      rw [hb] at hfresh
      contradiction
    by_cases heq : b = p
    . subst heq
      refine .of_log_eq ?_ (fun _ => Nat.succ_ne_zero m) hlog
      rw [hshare, Function.update_of_ne hbd, Function.update_self]
    . refine .of_log_eq ?_ id hlog
      rw [hshare, Function.update_of_ne hbd, Function.update_of_ne heq, hb']
  | release hrelease => exact hrelease.final hb hkind
  | @cleanUp b' hforeign hfree hlog =>
    have hne : b ≠ b' := by
      rintro rfl
      rw [hb'] at hforeign
      simp at hforeign
    refine ⟨_, hlog, .inr ⟨n, ?_, id, rfl⟩⟩
    rw [hfree, Function.update_of_ne hne, hb']

end

namespace State

variable {img : Image} {s s' : State} {b : Nat}

def InFlight (s : State) (b : Nat) : Prop :=
  ∃ i, ∃ x ∈ inFlight (s.activities i), x.block = b

-- on the list of caught exceptions of some thread
def Caught (s : State) (b : Nat) : Prop :=
  ∃ i l, Chain (nextLink s.process.heap.link) (s.process.threads i).caughtExceptions l
    ∧ ⟨b, 0⟩ ∈ l

def liveDependents (s : State) (b : Nat) : Set Nat :=
  { d | ∃ e, s.process.heap d = some (.cxx e)
    ∧ e.unwindHeader.exceptionClass = dependentExceptionClass
    ∧ e.countWord = .primaryException (some ⟨b, 128⟩) }

open Classical in
noncomputable def ownerCount (s : State) (b : Nat) : Nat :=
  (if s.thrown b ∧ (s.InFlight b ∨ s.Caught b) then 1 else 0) + s.references b
    + (s.liveDependents b).ncard

namespace Inv

theorem mem_owned_iff_inFlight_or_caught (hinv : s.Inv) : b ∈ s.owned ↔ s.InFlight b ∨ s.Caught b := by
  constructor
  . rintro ⟨i, x, hx, rfl⟩
    rw [mem_excs_iff] at hx
    rcases hx with hx | hx
    . refine .inr ⟨i, _, (hinv.thread i).chain, ?_⟩
      exact List.mem_map_of_mem (mem_caughtStack.mpr hx)
    . exact .inl ⟨i, x, hx, rfl⟩
  . rintro (⟨i, x, hx, rfl⟩ | ⟨i, l, hl, hb⟩)
    . refine ⟨i, mem_blocks ?_⟩
      rw [mem_excs_iff]
      exact .inr hx
    . rw [hl.unique (hinv.thread i).chain] at hb
      rcases List.mem_map.mp hb with ⟨x, hx, heq⟩
      refine ⟨i, x, ?_, congrArg Ptr.block heq⟩
      rw [mem_excs_iff]
      exact .inl (mem_caughtStack.mp hx)

theorem liveDependents_eq (hinv : s.Inv)
    : s.liveDependents b = dependents s.process.heap.kind b := by
  ext d
  unfold liveDependents dependents
  simp only [Set.mem_ofPred_eq]
  constructor
  . rintro ⟨e, he, hcls, hcount⟩
    rcases Heap.ready_of_cxx (hinv.owners.ready d) he with ⟨n, hn⟩ | ⟨p, hp⟩
    . rw [Heap.kind_of_cxx he, Option.some.injEq, CxaException.kind_eq_primary] at hn
      rw [hn.2] at hcount
      contradiction
    . have hkind := hp
      rw [Heap.kind_of_cxx he, Option.some.injEq, CxaException.kind_eq_dependent] at hp
      rw [hp.2] at hcount
      cases hcount
      exact hkind
  . intro hd
    rcases Heap.dependent_of_kind hd with ⟨e, he, hheader, hcount⟩
    refine ⟨e, he, ?_, hcount⟩
    rw [hheader]

theorem ownerCount_eq (hinv : s.Inv) {n : Nat} (hb : s.process.heap.kind b = some (.primary n))
    : s.ownerCount b = n := by
  rw [hinv.owners.count b n hb]
  have howned : b ∈ s.owned ↔ s.InFlight b ∨ s.Caught b := hinv.mem_owned_iff_inFlight_or_caught
  unfold ownerCount LibCxxRt.owners
  rw [hinv.liveDependents_eq]
  by_cases hmem : b ∈ s.owned
  . rw [if_pos hmem, if_pos ⟨hinv.owners.thrown_eq b n hmem hb, howned.mp hmem⟩]
  . rw [if_neg hmem, if_neg fun h => hmem (howned.mpr h.2)]

theorem ownerCount_eq_zero (hinv : s.Inv) (hb : s.process.heap.kind b = none)
    : s.ownerCount b = 0 := by
  have hnot : ¬ (s.InFlight b ∨ s.Caught b) := by
    rw [← hinv.mem_owned_iff_inFlight_or_caught]
    exact hinv.not_mem_owned (Heap.kind_eq_none_iff.mp hb)
  have hprimary (n : Nat) : s.process.heap.kind b ≠ some (.primary n) := by
    simp [hb]
  unfold ownerCount
  rw [hinv.liveDependents_eq, hinv.owners.dependents_eq_empty hprimary,
    hinv.owners.references_eq_zero hprimary, if_neg fun h => hnot h.2, Set.ncard_empty]

theorem primary_of_cxx (hinv : s.Inv) {e : CxaException} (he : s.process.heap b = some (.cxx e))
    (hcls : e.unwindHeader.exceptionClass = exceptionClass) : ∃ n, e.kind = .primary n := by
  have hready := Heap.ready_of_cxx (hinv.owners.ready b) he
  rw [Heap.kind_of_cxx he] at hready
  simp only [Option.some.injEq] at hready
  rcases hready with hprimary | ⟨p, hp⟩
  . exact hprimary
  . rw [(CxaException.kind_eq_dependent.mp hp).1] at hcls
    contradiction

end Inv

theorem referenceCount_eq_ownerCount (img : Image)
    (hs : Reach State.init (step img) CxxOnly s)
    : (∀ b e, s.process.heap b = some (.cxx e) → e.unwindHeader.exceptionClass = exceptionClass
        → (s.liveDependents b).Finite ∧ e.countWord = .referenceCount (s.ownerCount b))
      ∧ (∀ b, s.references b ≠ 0 ∨ s.liveDependents b ≠ ∅ → s.process.heap.isPrimary b)
      ∧ (∀ b, s.InFlight b ∨ s.Caught b → s.process.heap b ≠ none)
      ∧ ∀ l s', s.CxxOnly l → step img s l = some s'
        → ∀ b e, s.process.heap b = some (.cxx e)
          → e.unwindHeader.exceptionClass = exceptionClass
          → ∃ events, s'.process.log = s.process.log ++ events
            ∧ (s'.process.heap b = none ↔ s.ownerCount b ≠ 0 ∧ s'.ownerCount b = 0)
            ∧ events.filter (Event.isFinal b)
              = if s'.process.heap b = none then finalEvents e b else [] := by
  rcases noForeign_of_reach hs with ⟨hinv, hno⟩
  refine ⟨?_, ?_, ?_, ?_⟩
  . intro b e he hcls
    rcases hinv.primary_of_cxx he hcls with ⟨n, hkind⟩
    have hb : s.process.heap.kind b = some (.primary n) := by
      rw [Heap.kind_of_cxx he, hkind]
    rw [hinv.ownerCount_eq hb, hinv.liveDependents_eq]
    exact ⟨hinv.owners.finite_dependents b, (CxaException.kind_eq_primary.mp hkind).2⟩
  . intro b hb
    have hprimary : ∃ n, s.process.heap.kind b = some (.primary n) := by
      rcases hb with hb | hb
      . exact hinv.owners.referenced b hb
      . rw [hinv.liveDependents_eq, ← Set.nonempty_iff_ne_empty] at hb
        rcases hb with ⟨d, hd⟩
        exact hinv.owners.dependent d b hd
    rcases hprimary with ⟨n, hn⟩
    rcases Heap.primary_of_kind hn with ⟨e, he, hheader, _⟩
    unfold Heap.isPrimary
    rw [he]
    dsimp only
    rw [hheader]
    rfl
  . intro b hb
    rw [← hinv.mem_owned_iff_inFlight_or_caught] at hb
    intro hnone
    exact hinv.not_mem_owned hnone hb
  . intro l s' hcxx hstep b e he hcls
    have houtcome := hinv.of_step (hno.clean l) hstep
    have hinv' := houtcome.inv
    rcases hinv.primary_of_cxx he hcls with ⟨n, hkind⟩
    have hb : s.process.heap.kind b = some (.primary n) := by
      rw [Heap.kind_of_cxx he, hkind]
    rcases houtcome.recounts.final he hkind with ⟨events, hlog, hfinal⟩
    refine ⟨events, hlog, ?_⟩
    rw [hinv.ownerCount_eq hb]
    rcases hfinal with ⟨hfree, hn, hevents⟩ | ⟨n', hkeep, hn, hevents⟩
    . have hnone : s'.process.heap b = none := Heap.kind_eq_none_iff.mp hfree
      rw [hinv'.ownerCount_eq_zero hfree, if_pos hnone]
      exact ⟨iff_of_true hnone ⟨hn, rfl⟩, hevents⟩
    . have hlive : s'.process.heap b ≠ none := by
        rw [ne_eq, ← Heap.kind_eq_none_iff, hkeep]
        simp
      rw [hinv'.ownerCount_eq hkeep, if_neg hlive]
      refine ⟨iff_of_false hlive ?_, hevents⟩
      rintro ⟨hne, hzero⟩
      exact hn hne hzero

-- a caught exception that a `std::exception_ptr` refers to
theorem referenceCount_eq_ownerCount_shared
    : ∃ s, Reach State.init (step Sample.img) CxxOnly s
      ∧ (∃ e, s.process.heap 0 = some (.cxx e) ∧ e.countWord = .referenceCount 2)
      ∧ s.ownerCount 0 = 2 := by
  have hs : Reach State.init (step Sample.img) CxxOnly _ :=
    Reach.of_run .init (by simp [CxxOnly])
      (rfl : run _ _ [(0, .throw 0 0x2000 0), (0, .beginCatch), (0, .currentPrimary)] = some _)
  refine ⟨_, hs, ⟨_, rfl, rfl⟩, ?_⟩
  have hcount := ((referenceCount_eq_ownerCount Sample.img hs).1 0 _ rfl rfl).2
  exact ((CountWord.referenceCount.injEq ..).mp hcount).symm

end State

end LibCxxRt
