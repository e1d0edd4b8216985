import LibCxxRt.Exception.Cleanup
import LibCxxRt.Exception.Lemmas.Step

/-!
This module contains the relation of `foreign_exception_state` to the kind of the exception at the
head of the list of caught exceptions. `__cxa_begin_catch` clears the tag for a C++ exception, and
nothing restores it when this exception leaves the list again and the one below it is foreign.
-/

namespace LibCxxRt

open Util

namespace State

-- the tag tells whether the head of the list of caught exceptions is a foreign one
def TagAgrees (s : State) (i : Nat) : Prop :=
  (s.process.threads i).foreignExceptionState ≠ .none
    ↔ ∃ p, (s.process.threads i).caughtExceptions = some p ∧ p.off = 0
      ∧ s.process.heap.isForeign p.block

-- `__cxa_end_catch` removes a C++ exception from the list that has a foreign one below it
def ExposesForeign (s : State) (l : Nat × Action) : Prop :=
  match l.2 with
  | .endCatch | .endCatchUnwinding =>
    ∃ b e p, (s.process.threads l.1).caughtExceptions = some ⟨b, 0⟩
      ∧ s.process.heap b = some (.cxx e) ∧ e.handlerCount.natAbs = 1
      ∧ e.nextException = some p ∧ s.process.heap.isForeign p.block
  | _ => False

variable {img : Image} {s s' : State} {i : Nat} {x : Exc} {action : Action} {c' : List Activity}

def HeadForeign (c : List Activity) : Prop :=
  ∃ x, (handlers c).head? = some x ∧ x.isForeign

namespace Inv

theorem isForeign_eq (hinv : s.Inv) (hx : x ∈ excs (s.activities i))
    : s.process.heap.isForeign x.block = x.isForeign := by
  cases hforeign : x.isForeign with
  | false =>
    rcases (hinv.thread i).cxx x hx hforeign with ⟨next, hlink⟩
    exact Heap.isForeign_of_cxx hlink
  | true => exact Heap.isForeign_of_foreign ((hinv.thread i).foreign x hx hforeign)

theorem tagAgrees_iff (hinv : s.Inv) (i : Nat)
    : s.TagAgrees i
      ↔ ((s.process.threads i).foreignExceptionState ≠ .none ↔ HeadForeign (s.activities i)) := by
  have hhead : (∃ p, (s.process.threads i).caughtExceptions = some p ∧ p.off = 0
      ∧ s.process.heap.isForeign p.block) ↔ HeadForeign (s.activities i) := by
    unfold HeadForeign
    rw [(hinv.thread i).caughtExceptions_eq]
    cases hx : (handlers (s.activities i)).head? with
    | none => simp
    | some x =>
      have hmem : x ∈ excs (s.activities i) := mem_excs_of_head hx
      simp [Exc.ptr, hinv.isForeign_eq hmem]
  unfold TagAgrees
  rw [hhead]

theorem clean_of_tagAgrees (hinv : s.Inv) (htag : ∀ i, s.TagAgrees i) (l : Nat × Action)
    : s.Clean l := by
  have hhead (x : Exc) (hx : (handlers (s.activities l.1)).head? = some x) (hforeign : x.isForeign)
      : (s.process.threads l.1).foreignExceptionState ≠ .none :=
    ((hinv.tagAgrees_iff l.1).mp (htag l.1)).mpr ⟨x, hx, hforeign⟩
  unfold Clean
  split
  . exact hhead
  . exact hhead
  . exact hhead
  . trivial

-- the header of a C++ exception whose last handler is left
theorem last_handler (hinv : s.Inv) (hl : Leaves (s.activities i) action x c')
    (hcxx : x.isForeign = false) (hx : x ∉ handlers c')
    : ∃ e, s.process.heap x.block = some (.cxx e) ∧ e.handlerCount.natAbs = 1
      ∧ e.nextException = (handlers c').head?.map Exc.ptr := by
  have hxi : x ∈ excs (s.activities i) := hl.mem_excs
  rcases hinv.cxx_of_mem hxi hcxx with ⟨e, he, hcount, _⟩
  refine ⟨e, he, ?_, ?_⟩
  . rw [hcount]
    unfold handlerCount
    rw [hl.handlers_eq, List.count_cons_self, List.count_eq_zero.mpr hx]
    split <;> rfl
  . have hchain := (hinv.thread i).chain
    have hstack : caughtStack (s.activities i) = x :: caughtStack c' := by
      unfold caughtStack
      rw [hl.handlers_eq, List.dedup_cons_of_notMem hx]
    have hnested := hl.nested (hinv.thread i).nested
    rw [hstack, List.map_cons] at hchain
    generalize (s.process.threads i).caughtExceptions = head at hchain
    cases hchain with
    | cons hnext hrest =>
      simp only [nextLink, Exc.ptr, Heap.link_of_cxx he, ↓reduceIte, Option.some.injEq] at hnext
      rw [hnext, hrest.head_eq, List.head?_map, hnested.head?_caughtStack]

theorem headForeign_iff_of_leaves (hinv : s.Inv) (htag : s.TagAgrees i)
    (hl : Leaves (s.activities i) action x c')
    : HeadForeign c' ↔ s.ExposesForeign (i, action) := by
  have hhead : (handlers (s.activities i)).head? = some x := hl.head_eq
  have hcaught := hinv.caughtExceptions_eq hhead
  have hexposes : s.ExposesForeign (i, action)
      ↔ ∃ b e p, (s.process.threads i).caughtExceptions = some ⟨b, 0⟩
        ∧ s.process.heap b = some (.cxx e) ∧ e.handlerCount.natAbs = 1
        ∧ e.nextException = some p ∧ s.process.heap.isForeign p.block := by
    rcases hl.action_eq with rfl | rfl <;> rfl
  rw [hexposes]
  constructor
  . rintro ⟨y, hy, hforeign⟩
    have hyi : y ∈ excs (s.activities i) := by
      rw [mem_excs_iff, hl.handlers_eq]
      exact .inl (List.mem_cons_of_mem x (List.mem_of_mem_head? hy))
    -- a foreign exception has no handlers within its own handler
    have hcxx : x.isForeign = false := by
      by_contra hxforeign
      rw [Bool.not_eq_false] at hxforeign
      have htagged := ((hinv.tagAgrees_iff i).mp htag).mpr ⟨x, hhead, hxforeign⟩
      rcases (hinv.thread i).tag.handlers_eq htagged with ⟨z, hz, _⟩
      rw [hl.handlers_eq, List.cons.injEq] at hz
      rw [hz.2] at hy
      contradiction
    have hx : x ∉ handlers c' := by
      intro hmem
      have hgrouped := (hinv.thread i).nested.grouped
      rw [hl.handlers_eq] at hgrouped
      have hyx := hgrouped.2 hmem
      rw [hy, Option.some.injEq] at hyx
      rw [hyx, hcxx] at hforeign
      contradiction
    rcases hinv.last_handler hl hcxx hx with ⟨e, he, hcount, hnext⟩
    refine ⟨x.block, e, y.ptr, hcaught, he, hcount, ?_, ?_⟩
    . rw [hnext, hy]
      rfl
    . exact (hinv.isForeign_eq hyi).trans hforeign
  . rintro ⟨b, e, p, hb, he, hcount, hnext, hforeign⟩
    rw [hcaught, Option.some.injEq, Ptr.mk.injEq] at hb
    rcases hb with ⟨rfl, _⟩
    have hxi : x ∈ excs (s.activities i) := hl.mem_excs
    have hcxx : x.isForeign = false := by
      rw [← hinv.isForeign_eq hxi]
      exact Heap.isForeign_of_cxx (Heap.link_of_cxx he)
    have hx : x ∉ handlers c' := by
      intro hmem
      rcases hinv.cxx_of_mem hxi hcxx with ⟨e', he', hcount', _⟩
      rw [he] at he'
      cases he'
      rw [hcount'] at hcount
      unfold handlerCount at hcount
      rw [hl.handlers_eq, List.count_cons_self] at hcount
      have hpos := List.count_pos_iff.mpr hmem
      split at hcount <;> omega
    rcases hinv.last_handler hl hcxx hx with ⟨e', he', _, hnext'⟩
    rw [he] at he'
    cases he'
    rw [hnext] at hnext'
    cases hy : (handlers c').head? with
    | none =>
      rw [hy] at hnext'
      contradiction
    | some y =>
      rw [hy, Option.map_some, Option.some.injEq] at hnext'
      have hyi : y ∈ excs (s.activities i) := by
        rw [mem_excs_iff, hl.handlers_eq]
        exact .inl (List.mem_cons_of_mem x (List.mem_of_mem_head? hy))
      rw [hnext'] at hforeign
      exact ⟨y, hy, (hinv.isForeign_eq hyi).symm.trans hforeign⟩

theorem tagAgrees_step (hinv : s.Inv) (htag : ∀ i, s.TagAgrees i) {l : Nat × Action}
    (hstep : step img s l = some s')
    : s'.Inv ∧ ((∀ i, s'.TagAgrees i) ↔ ¬ s.ExposesForeign l) := by
  have houtcome := hinv.of_step (hinv.clean_of_tagAgrees htag l) hstep
  have hinv' := houtcome.inv
  rcases l with ⟨i, action⟩
  have hothers (j : Nat) (hj : j ≠ i) : s'.TagAgrees j := by
    rw [hinv'.tagAgrees_iff, houtcome.activities, houtcome.threads, Function.update_of_ne hj,
      Function.update_of_ne hj, ← hinv.tagAgrees_iff]
    exact htag j
  have hall : (∀ j, s'.TagAgrees j) ↔ s'.TagAgrees i := by
    constructor
    . intro h
      exact h i
    . intro hi j
      by_cases heq : j = i
      . rw [heq]
        exact hi
      . exact hothers j heq
  refine ⟨hinv', ?_⟩
  rw [hall, hinv'.tagAgrees_iff]
  have hi := (hinv.tagAgrees_iff i).mp (htag i)
  have hkeep (haction : action.leaves = false) : ¬ s.ExposesForeign (i, action) := by
    unfold ExposesForeign
    cases action <;> simp_all [Action.leaves]
  have heq {c : List Activity} (hhandlers : handlers (s'.activities i) = handlers c)
      : HeadForeign (s'.activities i) ↔ HeadForeign c := by
    unfold HeadForeign
    rw [hhandlers]
  cases houtcome.retags with
  | same haction htag' hhandlers =>
    refine iff_of_true ?_ (hkeep haction)
    rw [htag', heq hhandlers]
    exact hi
  | @caught x haction htag' hhandlers =>
    refine iff_of_true ?_ (hkeep haction)
    rw [htag']
    unfold HeadForeign
    rw [hhandlers]
    simp
  | @rethrown x haction htag' hhandlers hhead hforeign =>
    refine iff_of_true ?_ (hkeep haction)
    rw [heq hhandlers]
    exact iff_of_true htag' ⟨x, hhead, hforeign⟩
  | left hl htag' =>
    rw [htag', ← hinv.headForeign_iff_of_leaves (htag i) hl]
    simp


end Inv

theorem tagAgrees_iff_not_exposesForeign (img : Image)
    (hs : Reach State.init (step img) (fun s l => ¬ s.ExposesForeign l) s)
    : (∀ i, s.TagAgrees i)
      ∧ ∀ l s', step img s l = some s' → ((∀ i, s'.TagAgrees i) ↔ ¬ s.ExposesForeign l) := by
  have hinv : s.Inv ∧ ∀ i, s.TagAgrees i := by
    apply hs.invariant
    . refine ⟨Inv.init, ?_⟩
      intro i
      rw [Inv.init.tagAgrees_iff]
      simp [init, CxaThreadInfo.zero, HeadForeign]
    . rintro s l s' ⟨hinv, htag⟩ hexposes hstep
      rcases hinv.tagAgrees_step htag hstep with ⟨hinv', htag'⟩
      exact ⟨hinv', htag'.mpr hexposes⟩
  refine ⟨hinv.2, ?_⟩
  intro l s' hstep
  exact (hinv.1.tagAgrees_step hinv.2 hstep).2

-- a C++ exception is thrown and caught within the handler of a foreign exception
theorem tagAgrees_iff_not_exposesForeign_nested
    : ∃ s, Reach State.init (step Sample.img) (fun s l => ¬ s.ExposesForeign l) s ∧ s.TagAgrees 0
      ∧ ∃ s', step Sample.img s (0, .endCatch) = some s' ∧ ¬ ∀ i, s'.TagAgrees i := by
  have hs : Reach State.init (step Sample.img) (fun s l => ¬ s.ExposesForeign l) _ :=
    Reach.of_run .init (by simp [ExposesForeign])
      (rfl : run _ _ [(0, .raiseForeign 0 0 none CxaException.zero.toCxaTail), (0, .beginCatch),
        (0, .throw 1 0x2000 0), (0, .beginCatch)] = some _)
  have htag := tagAgrees_iff_not_exposesForeign Sample.img hs
  refine ⟨_, hs, htag.1 0, _, rfl, ?_⟩
  rw [(htag.2 (0, .endCatch) _ rfl), not_not]
  exact ⟨1, _, ⟨0, 0⟩, rfl, rfl, rfl, rfl, rfl⟩

-- when it is finished, the foreign exception is not known to be one any more
theorem endCatch_loses_tag
    : ∃ s, Reach State.init (step Sample.img) (fun _ _ => True) s
      ∧ (s.process.threads 0).foreignExceptionState = .none
      ∧ (s.process.threads 0).caughtExceptions = some ⟨0, 0⟩ ∧ s.process.heap.isForeign 0
      ∧ ¬ s.TagAgrees 0 := by
  have hs : Reach State.init (step Sample.img) (fun _ _ => True) _ :=
    Reach.of_run .init (fun _ _ _ => trivial)
      (rfl : run _ _ [(0, .raiseForeign 0 0 none CxaException.zero.toCxaTail), (0, .beginCatch),
        (0, .throw 1 0x2000 0), (0, .beginCatch), (0, .endCatch)] = some _)
  refine ⟨_, hs, rfl, rfl, rfl, ?_⟩
  intro htag
  exact htag.mpr ⟨⟨0, 0⟩, rfl, rfl, rfl⟩ rfl

end State

end LibCxxRt
