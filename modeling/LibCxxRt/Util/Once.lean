import Mathlib.Tactic.Common

/-!
This module contains the one-time initialisation of an object that several threads compete for, as
an automaton over the history of what they do. A thread that has to initialise the object ends its
attempt by a release, which stores that the object is initialised, or by an abort.
-/

namespace Util

variable {ι : Type}

inductive OnceEvent (ι : Type) where
  -- `mustInit` is false if the object is known to be initialised
  | acquired (t : ι) (mustInit : Bool)
  | releasing (t : ι)
  | aborting (t : ι)
  | stored (t : ι)
  -- the release or the abort is finished
  | left (t : ι)
  deriving DecidableEq, Repr

inductive OncePhase (ι : Type) where
  | free
  | owned (t : ι)
  | releasing (t : ι)
  | aborting (t : ι)
  | stored (t : ι)
  | done
  deriving DecidableEq, Repr

namespace OncePhase

def owner : OncePhase ι → Option ι
  | .free | .done => none
  | .owned t | .releasing t | .aborting t | .stored t => some t

def isReleased : OncePhase ι → Bool
  | .releasing _ | .stored _ | .done => true
  | .free | .owned _ | .aborting _ => false

def isStored : OncePhase ι → Bool
  | .stored _ | .done => true
  | .free | .owned _ | .releasing _ | .aborting _ => false

inductive Next : OncePhase ι → OnceEvent ι → OncePhase ι → Prop where
  | acquire (t : ι) : Next .free (.acquired t true) (.owned t)
  | release (t : ι) : Next (.owned t) (.releasing t) (.releasing t)
  | abort (t : ι) : Next (.owned t) (.aborting t) (.aborting t)
  | store (t : ι) : Next (.releasing t) (.stored t) (.stored t)
  | leaveFree (t : ι) : Next (.aborting t) (.left t) .free
  | leaveDone (t : ι) : Next (.stored t) (.left t) .done
  | skipStored (t u : ι) : Next (.stored t) (.acquired u false) (.stored t)
  | skipDone (u : ι) : Next .done (.acquired u false) .done

end OncePhase

open OncePhase in
inductive OnceHistory : List (OnceEvent ι) → OncePhase ι → Prop where
  | nil : OnceHistory [] .free
  | snoc {l : List (OnceEvent ι)} {p q : OncePhase ι} {e : OnceEvent ι} (hl : OnceHistory l p)
      (he : Next p e q) : OnceHistory (l ++ [e]) q

namespace OnceHistory

variable {l l' : List (OnceEvent ι)} {p : OncePhase ι} {e : OnceEvent ι} {t u : ι}

theorem unique {q : OncePhase ι} (hl : OnceHistory l p) (hl' : OnceHistory l q) : p = q := by
  induction hl generalizing q with
  | nil =>
    generalize hnil : [] = l at hl'
    cases hl' with
    | nil => rfl
    | snoc _ _ => simp at hnil
  | @snoc l p p' e hl he ih =>
    generalize hsnoc : l ++ [e] = l' at hl'
    cases hl' with
    | nil => simp at hsnoc
    | snoc hl' he' =>
      rcases List.append_inj' hsnoc rfl with ⟨rfl, hsingle⟩
      cases hsingle
      rw [← ih hl'] at he'
      cases he <;> cases he' <;> rfl

theorem exists_releasing_iff (hl : OnceHistory l p) : (∃ t, .releasing t ∈ l) ↔ p.isReleased := by
  induction hl with
  | nil => simp [OncePhase.isReleased]
  | snoc _ he ih =>
    simp only [List.mem_append, List.mem_singleton, exists_or, ih]
    cases he <;> simp [OncePhase.isReleased]

theorem exists_stored_iff (hl : OnceHistory l p) : (∃ t, .stored t ∈ l) ↔ p.isStored := by
  induction hl with
  | nil => simp [OncePhase.isStored]
  | snoc _ he ih =>
    simp only [List.mem_append, List.mem_singleton, exists_or, ih]
    cases he <;> simp [OncePhase.isStored]

-- an event happens in the phase that the history has reached before it
theorem next_of_append (hl : OnceHistory (l ++ e :: l') p) : ∃ q q', OnceHistory l q ∧ q.Next e q' := by
  generalize heq : l ++ e :: l' = h at hl
  induction hl generalizing l' with
  | nil => simp at heq
  | @snoc h p q e' hh he ih =>
    rcases List.eq_nil_or_concat l' with rfl | ⟨l'', a, rfl⟩
    . rcases List.append_inj' heq rfl with ⟨rfl, hsingle⟩
      cases hsingle
      exact ⟨p, q, hh, he⟩
    . rw [List.concat_eq_append, ← List.cons_append, ← List.append_assoc] at heq
      exact ih (List.append_inj' heq rfl).1

theorem releasing_of_acquired_false (hl : OnceHistory (l ++ .acquired t false :: l') p)
    : ∃ u, .releasing u ∈ l := by
  rcases hl.next_of_append with ⟨q, q', hq, hnext⟩
  rw [hq.exists_releasing_iff]
  cases hnext <;> rfl

theorem not_acquired_true_of_stored (hl : OnceHistory (l ++ .stored t :: l') p)
    : .acquired u true ∉ l' := by
  intro hmem
  rcases List.append_of_mem hmem with ⟨l₁, l₂, rfl⟩
  rw [← List.cons_append, ← List.append_assoc] at hl
  rcases hl.next_of_append with ⟨q, q', hq, hnext⟩
  have hstored : q.isStored := by
    rw [← hq.exists_stored_iff]
    exact ⟨t, by simp⟩
  cases hnext
  contradiction

theorem not_releasing_of_aborting (hl : OnceHistory (l ++ .aborting t :: l') p)
    : .releasing u ∉ l := by
  intro hmem
  rcases hl.next_of_append with ⟨q, q', hq, hnext⟩
  have hreleased := hq.exists_releasing_iff.mp ⟨u, hmem⟩
  cases hnext
  contradiction

end OnceHistory

end Util
