import Mathlib.Logic.Function.Basic
import Mathlib.Tactic.Common

/-!
This module contains singly linked lists in a store. `next` is partial, it is undefined where there
is no node.
-/

namespace Util

variable {α : Type}

inductive Chain (next : α → Option (Option α)) : Option α → List α → Prop where
  | nil : Chain next none []
  | cons {a : α} {p : Option α} {l : List α} (hnext : next a = some p) (hrest : Chain next p l) :
      Chain next (some a) (a :: l)

namespace Chain

variable {next next' : α → Option (Option α)} {p : Option α} {l l' : List α}

theorem head_eq (hl : Chain next p l) : p = l.head? := by
  cases hl <;> rfl

theorem none_iff : Chain next none l ↔ l = [] := by
  constructor
  . intro hl
    cases hl
    rfl
  . intro hl
    subst hl
    exact .nil

theorem congr (hl : Chain next p l) (hnext : ∀ a ∈ l, next' a = next a) : Chain next' p l := by
  induction hl with
  | nil => exact .nil
  | cons ha _ ih =>
    rw [List.forall_mem_cons] at hnext
    apply Chain.cons
    . rw [hnext.1, ha]
    . exact ih hnext.2

theorem unique (hl : Chain next p l) (hl' : Chain next p l') : l = l' := by
  induction hl generalizing l' with
  | nil =>
    cases hl'
    rfl
  | cons ha _ ih =>
    cases hl' with
    | cons ha' hrest' =>
      rw [ha] at ha'
      cases ha'
      rw [ih hrest']

theorem exists_next (hl : Chain next p l) {a : α} (ha : a ∈ l) : ∃ q, next a = some q := by
  induction hl with
  | nil => contradiction
  | cons hnext _ ih =>
    rcases List.mem_cons.1 ha with rfl | ha
    . exact ⟨_, hnext⟩
    . exact ih ha

theorem tail {a : α} {q : Option α} (hl : Chain next p (a :: l)) (ha : next a = some q)
    : Chain next q l := by
  cases hl with
  | cons ha' hrest =>
    rw [ha] at ha'
    cases ha'
    exact hrest

theorem suffix (hl : Chain next p (l ++ l')) : ∃ q, Chain next q l' := by
  induction l generalizing p with
  | nil => exact ⟨p, hl⟩
  | cons _ l ih =>
    cases hl with
    | cons _ hrest => exact ih hrest

theorem next_eq {a : α} (hl : Chain next p (l ++ a :: l')) : next a = some l'.head? := by
  rcases hl.suffix with ⟨_, hsuffix⟩
  cases hsuffix with
  | cons ha hrest => rw [ha, hrest.head_eq]

-- the node behind `b` is taken out
theorem unlink [DecidableEq α] {a b : α} {q : Option α} (hl : Chain next p (l ++ b :: a :: l'))
    (hnodup : (l ++ b :: a :: l').Nodup) (ha : next a = some q)
    : Chain (Function.update next b (some q)) p (l ++ b :: l') := by
  induction l generalizing p with
  | nil =>
    cases hl with
    | cons _ hrest =>
      refine .cons (Function.update_self b _ next) ((hrest.tail ha).congr ?_)
      intro x hx
      apply Function.update_of_ne
      rintro rfl
      simp [hx] at hnodup
  | cons c l ih =>
    cases hl with
    | cons hc hrest =>
      rw [List.cons_append, List.nodup_cons] at hnodup
      refine .cons ?_ (ih hrest hnodup.2)
      rw [Function.update_of_ne, hc]
      rintro rfl
      simp at hnodup

end Chain

end Util
