import LibCxxRt.Exception.Cleanup
import LibCxxRt.Exception.Lemmas.Step

/-!
This module contains the two ways in which exceptions are disposed of without `__cxa_end_catch`: the
exit of a thread that has handlers open, and the callback with which another runtime destroys an
exception that it has caught. `exception_cleanup` and `free_exception_list` free an exception without
a look at its reference count or at its primary exception.
-/

namespace LibCxxRt

open Util

def eraseAll {α : Type} (f : Nat → Option α) (l : List Nat) : Nat → Option α :=
  fun b => if b ∈ l then none else f b

section

variable {α : Type} {f : Nat → Option α} {l : List Nat} {b : Nat}

theorem eraseAll_nil : eraseAll f [] = f := by
  funext b
  simp [eraseAll]

theorem eraseAll_cons : eraseAll f (b :: l) = Function.update (eraseAll f l) b none := by
  funext b'
  by_cases hb : b' = b
  . simp [eraseAll, hb]
  . simp [eraseAll, hb]

theorem eraseAll_of_mem (hb : b ∈ l) : eraseAll f l b = none := by
  simp [eraseAll, hb]

theorem eraseAll_of_not_mem (hb : b ∉ l) : eraseAll f l b = f b := by
  simp [eraseAll, hb]

end

theorem dependents_eraseAll (kind : Nat → Option Kind) (l : List Nat) (b : Nat)
    : dependents (eraseAll kind l) b = dependents kind b \ { d | d ∈ l } := by
  ext d
  by_cases hd : d ∈ l
  . simp [dependents, eraseAll, hd]
  . simp [dependents, eraseAll, hd]

section

variable {w w' : Process} {b : Nat}

theorem freeException_heap {e : Ptr} (hfree : freeException e w = .ok w') (b : Nat)
    : w'.heap b = w.heap b ∨ w'.heap b = none := by
  unfold freeException at hfree
  rcases Res.bind_eq_ok.mp hfree with ⟨_, _, hfree⟩
  cases hfree
  by_cases hb : b = e.block
  . right
    simp [Process.record, hb]
  . left
    simp [Process.record, Heap.free_of_ne _ hb]

theorem cxaFreeException_heap {thrownException : Ptr}
    (hfree : cxaFreeException thrownException w = .ok w') (b : Nat)
    : w'.heap b = w.heap b ∨ w'.heap b = none := by
  unfold cxaFreeException at hfree
  rcases Res.bind_eq_ok.mp hfree with ⟨e, _, hfree⟩
  split at hfree
  . exact freeException_heap hfree b
  . exact freeException_heap hfree b

theorem freeExceptionList_heap {fuel : Nat} {ex : Ptr}
    (hfree : freeExceptionList fuel ex w = .ok w') (b : Nat)
    : w'.heap b = w.heap b ∨ w'.heap b = none := by
  induction fuel generalizing ex w' with
  | zero => contradiction
  | succ fuel ih =>
    unfold freeExceptionList at hfree
    rcases Res.bind_eq_ok.mp hfree with ⟨t, _, hfree⟩
    split at hfree
    . rcases Res.bind_eq_ok.mp hfree with ⟨w₁, hrest, hfree⟩
      rcases cxaFreeException_heap hfree b with hsame | hnone
      . rw [hsame]
        exact ih hrest
      . exact .inr hnone
    . exact cxaFreeException_heap hfree b

theorem freeExceptionList_mono {fuel fuel' : Nat} {ex : Ptr} (hfuel : fuel ≤ fuel')
    (hfree : freeExceptionList fuel ex w = .ok w') : freeExceptionList fuel' ex w = .ok w' := by
  induction fuel generalizing fuel' ex w' with
  | zero => contradiction
  | succ fuel ih =>
    rcases Nat.exists_eq_add_of_le' hfuel with ⟨k, rfl⟩
    unfold freeExceptionList at hfree
    rw [← Nat.add_assoc]
    unfold freeExceptionList
    rcases Res.bind_eq_ok.mp hfree with ⟨t, ht, hfree⟩
    rw [ht, Res.ok_bind]
    split at hfree
    . rcases Res.bind_eq_ok.mp hfree with ⟨w₁, hrest, hfree⟩
      rw [ih (Nat.le_add_left ..) hrest, Res.ok_bind]
      exact hfree
    . exact hfree

theorem freeExceptionList_unique {fuel fuel' : Nat} {ex : Ptr} {w'' : Process}
    (hfree : freeExceptionList fuel ex w = .ok w') (hfree' : freeExceptionList fuel' ex w = .ok w'')
    : w'' = w' := by
  have hle := freeExceptionList_mono (Nat.le_max_left fuel fuel') hfree
  have hle' := freeExceptionList_mono (Nat.le_max_right fuel fuel') hfree'
  rw [hle] at hle'
  cases hle'
  rfl

theorem cxaFreeException_ne_ok (hb : ∀ e, w.heap b ≠ some (.cxx e))
    : cxaFreeException ⟨b, 128⟩ w ≠ .ok w' := by
  intro hfree
  unfold cxaFreeException at hfree
  rcases Res.bind_eq_ok.mp hfree with ⟨e, he, _⟩
  have hcxa : w.heap.cxa ⟨b, 0⟩ = .ok e := he
  unfold Heap.cxa at hcxa
  rw [if_pos rfl] at hcxa
  split at hcxa
  . next hobj => exact hb _ hobj
  . contradiction

-- a foreign exception on the list is taken for one of the runtime
theorem freeExceptionList_foreign {p : Option Ptr} {l : List Nat}
    (hl : Chain (nextLink w.heap.link) p (l.map fun b => ⟨b, 0⟩)) {q : Nat} (hq : q ∈ l)
    (hforeign : w.heap.link q = some .foreign) {fuel : Nat} {ex : Ptr} (hp : p = some ex)
    : freeExceptionList fuel ex w ≠ .ok w' := by
  intro hfree
  induction l generalizing p fuel ex w' with
  | nil => contradiction
  | cons a l ih =>
    subst hp
    rw [List.map_cons] at hl
    cases hl with
    | @cons _ p _ hnext hrest =>
      cases fuel with
      | zero => contradiction
      | succ fuel =>
        unfold freeExceptionList at hfree
        rcases Res.bind_eq_ok.mp hfree with ⟨t, ht, hfree⟩
        by_cases haq : a = q
        . subst haq
          rcases Heap.foreign_of_link hforeign with ⟨header, beyond, hobj⟩
          have hnot (w₁ : Process) (hw₁ : w₁.heap a = w.heap a ∨ w₁.heap a = none) (e : CxaException)
              : w₁.heap a ≠ some (.cxx e) := by
            rcases hw₁ with hsame | hnone
            . simp [hsame, hobj]
            . simp [hnone]
          split at hfree
          . rcases Res.bind_eq_ok.mp hfree with ⟨w₁, hrec, hfree⟩
            exact cxaFreeException_ne_ok (hnot w₁ (freeExceptionList_heap hrec a)) hfree
          . exact cxaFreeException_ne_ok (hnot w (.inl rfl)) hfree
        . have hq : q ∈ l := by
            simpa [Ne.symm haq] using hq
          have hne : l ≠ [] := List.ne_nil_of_mem hq
          -- the link of a foreign exception leads nowhere
          cases hlink : w.heap.link a with
          | none => simp [nextLink, hlink] at hnext
          | some link =>
            cases link with
            | foreign =>
              simp only [nextLink, hlink, ↓reduceIte, Option.some.injEq] at hnext
              rw [← hnext, Chain.none_iff] at hrest
              simp [hne] at hrest
            | cxx n next =>
              rcases Heap.cxx_of_link hlink with ⟨e, he, _, henext⟩
              rw [Heap.tail_of_cxx he] at ht
              cases ht
              simp only [nextLink, hlink, ↓reduceIte, Option.some.injEq] at hnext
              rw [henext, hnext] at hfree
              cases p with
              | none =>
                rw [Chain.none_iff] at hrest
                simp [hne] at hrest
              | some p =>
                rcases Res.bind_eq_ok.mp hfree with ⟨w₁, hrec, _⟩
                exact ih hrest hq rfl hrec

theorem freeExceptionList_view {l : List Nat} {ex : Ptr}
    (hl : Chain (nextLink w.heap.link) (some ex) (l.map fun b => ⟨b, 0⟩)) (hnodup : l.Nodup)
    (hcxx : ∀ b ∈ l, ∃ n next, w.heap.link b = some (.cxx n next))
    : ∃ w', freeExceptionList l.length ex w = .ok w' ∧ w'.heap.link = eraseAll w.heap.link l
      ∧ w'.heap.kind = eraseAll w.heap.kind l := by
  induction l generalizing ex with
  | nil => cases hl
  | cons a l ih =>
    rcases List.nodup_cons.mp hnodup with ⟨ha, hnodup⟩
    rcases hcxx a List.mem_cons_self with ⟨n, next, hlink⟩
    rcases Heap.cxx_of_link hlink with ⟨e, he, _, henext⟩
    rw [List.map_cons] at hl
    cases hl with
    | @cons _ p _ hnext hrest =>
      have hp : e.nextException = p := by
        simpa [nextLink, hlink, henext] using hnext
      rw [List.length_cons]
      unfold freeExceptionList
      rw [Heap.tail_of_cxx he, Res.ok_bind, hp, eraseAll_cons, eraseAll_cons]
      cases p with
      | none =>
        rw [Chain.none_iff, List.map_eq_nil_iff] at hrest
        subst hrest
        rcases cxaFreeException_view he with ⟨w', hfree, hview⟩
        refine ⟨w', hfree, ?_, ?_⟩
        . rw [← Process.view_link, hview, eraseAll_nil]
          simp [View.free]
        . rw [← Process.view_kind, hview, eraseAll_nil]
          simp [View.free]
      | some p =>
        rcases ih hrest hnodup fun b hb => hcxx b (List.mem_cons_of_mem a hb) with
          ⟨w₁, hrec, hlink₁, hkind₁⟩
        have ha₁ : w₁.heap.link a = some (.cxx n next) := by
          rw [hlink₁, eraseAll_of_not_mem ha, hlink]
        rcases Heap.cxx_of_link ha₁ with ⟨e₁, he₁, _⟩
        rcases cxaFreeException_view he₁ with ⟨w', hfree, hview⟩
        refine ⟨w', ?_, ?_, ?_⟩
        . dsimp only
          rw [hrec, Res.ok_bind]
          exact hfree
        . rw [← Process.view_link, hview, ← hlink₁]
          simp [View.free]
        . rw [← Process.view_kind, hview, ← hkind₁]
          simp [View.free]

end

-- the blocks that a thread frees when it exits
def held (c : List Activity) : List Nat :=
  (caughtStack c).map Exc.block

namespace State

noncomputable def owners (s : State) (b : Nat) : Nat :=
  LibCxxRt.owners s.process.heap.kind s.owned s.references b

/--
A primary exception that has lost owners has a lower reference count now, it is gone if it has none
left. A dependent exception is gone if the thread that it belonged to has given it up.
-/
structure Disposed (s s' : State) : Prop where
  primary : ∀ b n, s.process.heap.kind b = some (.primary n) → s'.process.heap.kind b =
    if s'.owners b = n then some (.primary n)
    else if s'.owners b = 0 then none
    else some (.primary (s'.owners b))
  released : ∀ d p, s.process.heap.kind d = some (.dependent p) → d ∈ s.owned → d ∉ s'.owned
    → s'.process.heap.kind d = none
  kept : ∀ d p, s.process.heap.kind d = some (.dependent p) → (d ∈ s.owned → d ∈ s'.owned)
    → s'.process.heap.kind d = some (.dependent p)

-- the thread has no handlers any more, and the process is in the state `w`
def exited (s : State) (i : Nat) (w : Process) : State :=
  (s.setProcess w).setActivities i
    ((s.activities i).filter fun a => a.exc ∉ handlers (s.activities i))

def ExitReleases (s : State) (i : Nat) : Prop :=
  ∃ fuel w, threadCleanup fuel i s.process = .ok w ∧ s.Disposed (s.exited i w)

-- another runtime has caught the exception `x`, below which there are the activities `c`
def CallbackReleases (s : State) (i : Nat) (x : Exc) (c : List Activity) : Prop :=
  ∃ w, callExceptionCleanup x.object s.process = .ok w
    ∧ s.Disposed ((s.setProcess w).setActivities i c)

-- nobody else refers to the exceptions that the thread has caught
def OwnsCaught (s : State) (i : Nat) : Prop :=
  (s.process.threads i).foreignExceptionState ≠ .none
    ∨ ∀ x ∈ handlers (s.activities i), x.isForeign = false
      ∧ (∀ n, s.process.heap.kind x.block = some (.primary n) → s.references x.block = 0
        ∧ ∀ d ∈ dependents s.process.heap.kind x.block, d ∈ held (s.activities i))
      ∧ ∀ p, s.process.heap.kind x.block = some (.dependent p) → p ∈ held (s.activities i)

def OwnsInFlight (s : State) (x : Exc) (c : List Activity) : Prop :=
  x ∉ handlers c ∧ ∀ n, s.process.heap.kind x.block = some (.primary n) → n = 1

variable {img : Image} {s s' : State} {i b : Nat} {x : Exc} {c : List Activity}

namespace Inv

theorem held_nodup (hinv : s.Inv) (i : Nat) : (held (s.activities i)).Nodup := by
  unfold held
  apply List.Nodup.map_on
  . intro x hx y hy heq
    rw [mem_caughtStack] at hx hy
    apply (hinv.thread i).eq_of_block_eq _ _ heq
    . exact mem_excs_iff.mpr (.inl hx)
    . exact mem_excs_iff.mpr (.inl hy)
  . exact List.nodup_dedup _

theorem mem_held (hx : x ∈ handlers c) : x.block ∈ held c := by
  exact List.mem_map_of_mem (mem_caughtStack.mpr hx)

theorem owned_of_held {b : Nat} (hb : b ∈ held (s.activities i)) : b ∈ s.owned := by
  rcases List.mem_map.mp hb with ⟨x, hx, rfl⟩
  rw [mem_caughtStack] at hx
  exact mem_owned (mem_blocks (mem_excs_iff.mpr (.inl hx)))

theorem mem_owned_exited (hinv : s.Inv) (i : Nat) (w : Process) (b : Nat)
    : b ∈ (s.exited i w).owned ↔ b ∈ s.owned ∧ b ∉ held (s.activities i) := by
  have hother (j : Nat) (hj : j ≠ i) (hb : b ∈ blocks (s.activities j))
      : b ∉ held (s.activities i) := by
    intro hheld
    rcases List.mem_map.mp hheld with ⟨x, hx, rfl⟩
    rw [mem_caughtStack] at hx
    exact hinv.disjoint j i hj x.block hb (mem_blocks (mem_excs_iff.mpr (.inl hx)))
  have hself : b ∈ blocks ((s.activities i).filter fun a => a.exc ∉ handlers (s.activities i))
      ↔ b ∈ blocks (s.activities i) ∧ b ∉ held (s.activities i) := by
    constructor
    . rintro ⟨x, hx, rfl⟩
      rcases List.mem_map.mp hx with ⟨a, ha, rfl⟩
      rw [List.mem_filter, decide_eq_true_eq] at ha
      have hmem : a.exc ∈ excs (s.activities i) := List.mem_map_of_mem ha.1
      refine ⟨mem_blocks hmem, ?_⟩
      intro hheld
      rcases List.mem_map.mp hheld with ⟨y, hy, heq⟩
      rw [mem_caughtStack] at hy
      rw [← (hinv.thread i).eq_of_block_eq (mem_excs_iff.mpr (.inl hy)) hmem heq] at ha
      exact ha.2 hy
    . rintro ⟨⟨x, hx, rfl⟩, hnot⟩
      rcases List.mem_map.mp hx with ⟨a, ha, rfl⟩
      refine ⟨a.exc, List.mem_map_of_mem (List.mem_filter.mpr ⟨ha, ?_⟩), rfl⟩
      rw [decide_eq_true_eq]
      intro hmem
      exact hnot (mem_held hmem)
  have hactivities : (s.exited i w).activities = Function.update s.activities i
      ((s.activities i).filter fun a => a.exc ∉ handlers (s.activities i)) := rfl
  rw [mem_owned_iff hactivities,
    mem_owned_iff (Function.update_eq_self i s.activities).symm, hself, or_and_right]
  constructor
  . rintro (hi | ⟨j, hj, hb⟩)
    . exact .inl hi
    . exact .inr ⟨⟨j, hj, hb⟩, hother j hj hb⟩
  . rintro (hi | ⟨hj, _⟩)
    . exact .inl hi
    . exact .inr hj

theorem owners_eq (hinv : s.Inv) {b n : Nat} (hb : s.process.heap.kind b = some (.primary n))
    : s.owners b = n := by
  exact (hinv.owners.count b n hb).symm

-- a primary exception that keeps its owners
theorem owners_eq_of_kept (hinv : s.Inv) {b n : Nat}
    (hb : s.process.heap.kind b = some (.primary n)) (howned : b ∈ s'.owned ↔ b ∈ s.owned)
    (hreferences : s'.references b = s.references b)
    (hdependents : dependents s'.process.heap.kind b = dependents s.process.heap.kind b)
    : s'.owners b = n := by
  rw [← hinv.owners_eq hb]
  exact owners_congr howned hreferences hdependents

-- the thread that has a primary exception is its only owner
theorem sole_owner (hinv : s.Inv) (hb : b ∈ s.owned) {n : Nat}
    (hn : s.process.heap.kind b = some (.primary n))
    : n = 1 ↔ s.references b = 0 ∧ dependents s.process.heap.kind b = ∅ := by
  have hcount := hinv.owners.count b n hn
  unfold LibCxxRt.owners at hcount
  rw [if_pos hb] at hcount
  rw [← Set.ncard_eq_zero (hinv.owners.finite_dependents b)]
  omega

theorem owners_eq_zero_iff (hfinite : (dependents s.process.heap.kind b).Finite)
    : s.owners b = 0
      ↔ b ∉ s.owned ∧ s.references b = 0 ∧ dependents s.process.heap.kind b = ∅ := by
  unfold State.owners LibCxxRt.owners
  rw [← Set.ncard_eq_zero hfinite]
  by_cases hb : b ∈ s.owned
  . simp [hb]
  . simp [hb]

section

variable {w : Process}

theorem finite_dependents_eraseAll (hinv : s.Inv) (l : List Nat) (b : Nat)
    : (dependents (eraseAll s.process.heap.kind l) b).Finite := by
  rw [dependents_eraseAll]
  exact (hinv.owners.finite_dependents b).sdiff

theorem finite_dependents_exited (hinv : s.Inv)
    (hkind : w.heap.kind = eraseAll s.process.heap.kind (held (s.activities i))) (b : Nat)
    : (dependents (s.exited i w).process.heap.kind b).Finite := by
  have hkind' : (s.exited i w).process.heap.kind = _ := hkind
  rw [hkind']
  exact hinv.finite_dependents_eraseAll _ b

-- the primary exception of a dependent one that is gone has lost an owner
theorem owners_exited_lt (hinv : s.Inv)
    (hkind : w.heap.kind = eraseAll s.process.heap.kind (held (s.activities i))) {d p n : Nat}
    (hd : s.process.heap.kind d = some (.dependent p)) (hheld : d ∈ held (s.activities i))
    (hn : s.process.heap.kind p = some (.primary n))
    : (s.exited i w).owners p < n := by
  have hkind' : (s.exited i w).process.heap.kind = _ := hkind
  have hmem : d ∈ dependents s.process.heap.kind p := hd
  have hcard : (dependents (s.exited i w).process.heap.kind p).ncard
      < (dependents s.process.heap.kind p).ncard := by
    rw [hkind', dependents_eraseAll]
    apply Set.ncard_lt_ncard
    . refine ⟨Set.sdiff_subset, ?_⟩
      intro hsubset
      exact (hsubset hmem).2 hheld
    . exact hinv.owners.finite_dependents p
  rw [← hinv.owners_eq hn]
  unfold State.owners LibCxxRt.owners
  have howned := hinv.mem_owned_exited i w p
  have hreferences : (s.exited i w).references p = s.references p := rfl
  rw [hreferences]
  by_cases hp : p ∈ s.owned
  . rw [if_pos hp]
    split <;> omega
  . rw [if_neg hp, if_neg (by simp [howned, hp])]
    omega

theorem caught_of_disposed (hinv : s.Inv)
    (hkind : w.heap.kind = eraseAll s.process.heap.kind (held (s.activities i)))
    (hdisposed : s.Disposed (s.exited i w)) (hx : x ∈ handlers (s.activities i))
    : (∀ n, s.process.heap.kind x.block = some (.primary n) → s.references x.block = 0
        ∧ ∀ d ∈ dependents s.process.heap.kind x.block, d ∈ held (s.activities i))
      ∧ ∀ p, s.process.heap.kind x.block = some (.dependent p) → p ∈ held (s.activities i) := by
  have hkind' : (s.exited i w).process.heap.kind = _ := hkind
  have hfinite := hinv.finite_dependents_exited hkind x.block
  have hheld := mem_held hx
  have hnone := eraseAll_of_mem (f := s.process.heap.kind) hheld
  rw [← hkind'] at hnone
  constructor
  . intro n hn
    have hzero : (s.exited i w).owners x.block = 0 := by
      by_contra hne
      have hprimary := hdisposed.primary x.block n hn
      rw [hnone, if_neg hne] at hprimary
      split at hprimary <;> contradiction
    rw [owners_eq_zero_iff hfinite, hkind', dependents_eraseAll] at hzero
    refine ⟨hzero.2.1, ?_⟩
    intro d hd
    by_contra hnot
    have hmem : d ∈ dependents s.process.heap.kind x.block \ { d | d ∈ held (s.activities i) } :=
      ⟨hd, hnot⟩
    rw [hzero.2.2] at hmem
    exact hmem
  . intro p hp
    by_contra hnot
    rcases hinv.owners.dependent x.block p hp with ⟨n, hn⟩
    have hprimary := hdisposed.primary p n hn
    rw [hkind', eraseAll_of_not_mem hnot, hn] at hprimary
    -- the primary exception has lost an owner but its count is the same
    have hlt := hinv.owners_exited_lt hkind hp hheld hn
    rw [if_neg hlt.ne] at hprimary
    split at hprimary
    . contradiction
    . simp only [Option.some.injEq, Kind.primary.injEq] at hprimary
      omega

theorem primary_of_caught (hinv : s.Inv)
    (hkind : w.heap.kind = eraseAll s.process.heap.kind (held (s.activities i)))
    (hcaught : ∀ x ∈ handlers (s.activities i),
      (∀ n, s.process.heap.kind x.block = some (.primary n) → s.references x.block = 0
        ∧ ∀ d ∈ dependents s.process.heap.kind x.block, d ∈ held (s.activities i))
      ∧ ∀ p, s.process.heap.kind x.block = some (.dependent p) → p ∈ held (s.activities i))
    {n : Nat} (hb : s.process.heap.kind b = some (.primary n))
    : (s.exited i w).process.heap.kind b =
        if (s.exited i w).owners b = n then some (.primary n)
        else if (s.exited i w).owners b = 0 then none
        else some (.primary ((s.exited i w).owners b)) := by
  have hkind' : (s.exited i w).process.heap.kind = _ := hkind
  rw [hkind']
  by_cases hheld : b ∈ held (s.activities i)
  . rcases List.mem_map.mp hheld with ⟨x, hx, rfl⟩
    rw [mem_caughtStack] at hx
    rcases (hcaught x hx).1 n hb with ⟨hreferences, hdependents⟩
    have hzero : (s.exited i w).owners x.block = 0 := by
      rw [owners_eq_zero_iff (hinv.finite_dependents_exited hkind x.block), hkind',
        dependents_eraseAll, hinv.mem_owned_exited]
      refine ⟨fun h => h.2 hheld, hreferences, ?_⟩
      rw [Set.sdiff_eq_empty]
      exact hdependents
    have hn := hinv.owners.count_ne_zero_of_mem hb (owned_of_held hheld)
    rw [hzero, if_neg hn.symm, if_pos rfl, eraseAll_of_mem hheld]
  . have hdependents : dependents (s.exited i w).process.heap.kind b
        = dependents s.process.heap.kind b := by
      rw [hkind', dependents_eraseAll, sdiff_eq_left, Set.disjoint_left]
      intro d hd hdheld
      rcases List.mem_map.mp hdheld with ⟨x, hx, rfl⟩
      rw [mem_caughtStack] at hx
      exact hheld ((hcaught x hx).2 b hd)
    have howners : (s.exited i w).owners b = n := by
      refine hinv.owners_eq_of_kept hb ?_ rfl hdependents
      rw [hinv.mem_owned_exited]
      exact and_iff_left hheld
    rw [howners, if_pos rfl, eraseAll_of_not_mem hheld, hb]

theorem disposed_exited_iff (hinv : s.Inv)
    (hkind : w.heap.kind = eraseAll s.process.heap.kind (held (s.activities i)))
    : s.Disposed (s.exited i w)
      ↔ ∀ x ∈ handlers (s.activities i),
        (∀ n, s.process.heap.kind x.block = some (.primary n) → s.references x.block = 0
          ∧ ∀ d ∈ dependents s.process.heap.kind x.block, d ∈ held (s.activities i))
        ∧ ∀ p, s.process.heap.kind x.block = some (.dependent p) → p ∈ held (s.activities i) := by
  have hkind' : (s.exited i w).process.heap.kind = _ := hkind
  constructor
  . intro hdisposed x hx
    exact hinv.caught_of_disposed hkind hdisposed hx
  . intro hcaught
    constructor
    . intro b n hb
      exact hinv.primary_of_caught hkind hcaught hb
    . intro d p hd hmem hnot
      rw [hinv.mem_owned_exited, not_and_not_right] at hnot
      rw [hkind', eraseAll_of_mem (hnot hmem)]
    . intro d p hd hkeep
      have hheld : d ∉ held (s.activities i) := by
        intro hheld
        have hmem := hkeep (owned_of_held hheld)
        rw [hinv.mem_owned_exited] at hmem
        exact hmem.2 hheld
      rw [hkind', eraseAll_of_not_mem hheld, hd]

theorem chain_held (hinv : s.Inv) (i : Nat)
    : Chain (nextLink s.process.heap.link) (s.process.threads i).caughtExceptions
        ((held (s.activities i)).map fun b => ⟨b, 0⟩) := by
  have hchain := (hinv.thread i).chain
  unfold held
  rw [List.map_map]
  exact hchain

theorem threadCleanup_tag (hinv : s.Inv)
    (htag : (s.process.threads i).foreignExceptionState ≠ .none) (fuel : Nat)
    : ∃ x w, handlers (s.activities i) = [x] ∧ s.process.heap.kind x.block = some .foreign
      ∧ threadCleanup fuel i s.process = .ok w
      ∧ (w.heap.kind = s.process.heap.kind
        ∨ w.heap.kind = Function.update s.process.heap.kind x.block none) := by
  rcases (hinv.thread i).tag.handlers_eq htag with ⟨x, hhandlers, hforeign⟩
  have hx : x ∈ excs (s.activities i) := mem_excs_of_head (by rw [hhandlers]; rfl)
  have hcaught : (s.process.threads i).caughtExceptions = some ⟨x.block, 0⟩ := by
    apply hinv.caughtExceptions_eq
    rw [hhandlers]
    rfl
  have hkind := hinv.foreign_of_mem hx hforeign
  rcases Heap.foreign_of_kind hkind with ⟨header, beyond, hobj, _, hcleanup⟩
  unfold threadCleanup callExceptionCleanup
  dsimp only
  rw [hcaught]
  dsimp only
  rw [if_pos htag, unwindException_of_foreign hobj, Res.ok_bind]
  rcases hcleanup with hnone | ⟨fn, hfn⟩
  . rw [hnone]
    exact ⟨x, _, hhandlers, hkind, rfl, .inl rfl⟩
  . rw [hfn]
    exact ⟨x, _, hhandlers, hkind, rfl, .inr Heap.kind_free⟩

theorem threadCleanup_none (htag : (s.process.threads i).foreignExceptionState = .none) (fuel : Nat)
    : threadCleanup fuel i s.process
        =
      match (s.process.threads i).caughtExceptions with
      | none => .ok (s.process.setThread i .zero)
      | some ex => do
        let w ← freeExceptionList fuel ex s.process
        return w.setThread i .zero := by
  unfold threadCleanup
  dsimp only
  cases (s.process.threads i).caughtExceptions with
  | none => rfl
  | some ex =>
    dsimp only
    rw [if_neg (by simpa using htag)]

theorem exitReleases_of_tag (hinv : s.Inv)
    (htag : (s.process.threads i).foreignExceptionState ≠ .none) : s.ExitReleases i := by
  rcases hinv.threadCleanup_tag htag 0 with ⟨x, w, hhandlers, hforeign, hcleanup, hkind⟩
  have hheld : held (s.activities i) = [x.block] := by
    simp [held, caughtStack, hhandlers]
  have howned (b : Nat) (hb : b ≠ x.block) : b ∈ (s.exited i w).owned ↔ b ∈ s.owned := by
    simp [hinv.mem_owned_exited, hheld, hb]
  have hne (b : Nat) {k : Kind} (hb : s.process.heap.kind b = some k) (hk : k ≠ .foreign)
      : b ≠ x.block := by
    rintro rfl
    rw [hforeign, Option.some.injEq] at hb
    exact hk hb.symm
  have hsame (b : Nat) (hb : b ≠ x.block) : w.heap.kind b = s.process.heap.kind b := by
    rcases hkind with hkind | hkind
    . rw [hkind]
    . rw [hkind, Function.update_of_ne hb]
  have hdependents (b : Nat) : dependents w.heap.kind b = dependents s.process.heap.kind b := by
    rcases hkind with hkind | hkind
    . rw [hkind]
    . rw [hkind, dependents_update (by simp [hforeign]) (by simp)]
  refine ⟨0, w, hcleanup, ?_⟩
  constructor
  . intro b n hb
    have hbx := hne b hb (by simp)
    have howners : (s.exited i w).owners b = n :=
      hinv.owners_eq_of_kept hb (howned b hbx) rfl (hdependents b)
    rw [howners, if_pos rfl]
    exact (hsame b hbx).trans hb
  . intro d p hd hmem hnot
    exact absurd ((howned d (hne d hd (by simp))).mpr hmem) hnot
  . intro d p hd _
    exact (hsame d (hne d hd (by simp))).trans hd

theorem exitReleases_iff (hinv : s.Inv) (i : Nat) : s.ExitReleases i ↔ s.OwnsCaught i := by
  by_cases htag : (s.process.threads i).foreignExceptionState = .none
  . have hchain := hinv.chain_held i
    unfold ExitReleases OwnsCaught
    simp only [threadCleanup_none htag, htag, ne_eq, not_true_eq_false, false_or]
    cases hcaught : (s.process.threads i).caughtExceptions with
    | none =>
      rw [hcaught, Chain.none_iff, List.map_eq_nil_iff] at hchain
      have hhandlers : handlers (s.activities i) = [] := by
        rw [← caughtStack_eq_nil]
        exact List.map_eq_nil_iff.mp hchain
      have hkind : (s.process.setThread i .zero).heap.kind
          = eraseAll s.process.heap.kind (held (s.activities i)) := by
        rw [hchain, eraseAll_nil]
        rfl
      refine iff_of_true ⟨0, _, rfl, (hinv.disposed_exited_iff hkind).mpr ?_⟩ ?_
      . simp [hhandlers]
      . simp [hhandlers]
    | some ex =>
      rw [hcaught] at hchain
      by_cases hcxx : ∀ x ∈ handlers (s.activities i), x.isForeign = false
      . have hlink : ∀ b ∈ held (s.activities i), ∃ n next,
            s.process.heap.link b = some (.cxx n next) := by
          intro b hb
          rcases List.mem_map.mp hb with ⟨x, hx, rfl⟩
          rw [mem_caughtStack] at hx
          rcases (hinv.thread i).cxx x (mem_excs_iff.mpr (.inl hx)) (hcxx x hx) with ⟨next, hlink⟩
          exact ⟨_, next, hlink⟩
        rcases freeExceptionList_view hchain (hinv.held_nodup i) hlink with ⟨w, hfree, _, hkind⟩
        have hkind' : (w.setThread i .zero).heap.kind
            = eraseAll s.process.heap.kind (held (s.activities i)) := hkind
        have hdisposed := hinv.disposed_exited_iff hkind'
        constructor
        . rintro ⟨fuel, w', hcleanup, hreleases⟩
          rcases Res.bind_eq_ok.mp hcleanup with ⟨w₁, hfree₁, hw'⟩
          rw [freeExceptionList_unique hfree hfree₁] at hw'
          cases hw'
          intro x hx
          exact ⟨hcxx x hx, hdisposed.mp hreleases x hx⟩
        . intro howns
          refine ⟨(held (s.activities i)).length, _, ?_, hdisposed.mpr fun x hx => (howns x hx).2⟩
          dsimp only
          rw [hfree, Res.ok_bind]
          rfl
      . refine iff_of_false ?_ ?_
        . rintro ⟨fuel, w', hcleanup, _⟩
          rcases Res.bind_eq_ok.mp hcleanup with ⟨w₁, hfree, _⟩
          push Not at hcxx
          rcases hcxx with ⟨x, hx, hforeign⟩
          rw [Bool.ne_false_iff] at hforeign
          have hlink := (hinv.thread i).foreign x (mem_excs_iff.mpr (.inl hx)) hforeign
          exact freeExceptionList_foreign hchain (mem_held hx) hlink rfl hfree
        . intro howns
          exact hcxx fun x hx => (howns x hx).1
  . exact iff_of_true (hinv.exitReleases_of_tag htag) (.inl htag)

-- the callback for an exception in flight that no handler of the thread has caught
theorem mem_owned_callback (hinv : s.Inv) (hc : s.activities i = .unwinding x :: c)
    (hcxx : x.isForeign = false) (w : Process) (b : Nat)
    : b ∈ ((s.setProcess w).setActivities i c).owned
      ↔ b ∈ s.owned ∧ (x ∉ handlers c → b ≠ x.block) := by
  have hnested := (hinv.thread i).nested
  rw [hc] at hnested
  have hflight : x ∉ inFlight c := hnested.2.not_mem_inFlight hcxx
  have hself : b ∈ blocks c ↔ b ∈ blocks (s.activities i) ∧ (x ∉ handlers c → b ≠ x.block) := by
    rw [hc, blocks_cons, Set.mem_insert_iff]
    constructor
    . rintro ⟨y, hy, rfl⟩
      refine ⟨.inr (mem_blocks hy), ?_⟩
      intro hx heq
      have hyi : y ∈ excs (s.activities i) := by
        rw [hc]
        exact List.mem_cons_of_mem _ hy
      have hxi : x ∈ excs (s.activities i) := by
        rw [hc]
        exact List.mem_cons_self
      rw [(hinv.thread i).eq_of_block_eq hyi hxi heq, mem_excs_iff] at hy
      exact hy.elim hx hflight
    . rintro ⟨rfl | hb, hx⟩
      . by_contra hnot
        exact hx (fun hmem => hnot (mem_blocks (mem_excs_iff.mpr (.inl hmem)))) rfl
      . exact hb
  have hother (j : Nat) (hj : j ≠ i) (hb : b ∈ blocks (s.activities j)) : b ≠ x.block := by
    rintro rfl
    apply hinv.disjoint j i hj x.block hb
    rw [hc, blocks_cons]
    exact Set.mem_insert ..
  have hactivities : ((s.setProcess w).setActivities i c).activities
      = Function.update s.activities i c := rfl
  rw [mem_owned_iff hactivities,
    mem_owned_iff (Function.update_eq_self i s.activities).symm, hself, or_and_right]
  constructor
  . rintro (hi | ⟨j, hj, hb⟩)
    . exact .inl hi
    . exact .inr ⟨⟨j, hj, hb⟩, fun _ => hother j hj hb⟩
  . rintro (hi | ⟨hj, _⟩)
    . exact .inl hi
    . exact .inr hj

theorem callExceptionCleanup_primary {e : CxaException} {n : Nat}
    (hb : w.heap b = some (.cxx e)) (hkind : e.kind = .primary n)
    : ∃ w', callExceptionCleanup ⟨b, 96⟩ w = .ok w'
      ∧ w'.heap.kind = Function.update w.heap.kind b none := by
  rcases cxaFreeException_view hb with ⟨w', hfree, hview⟩
  refine ⟨w', ?_, ?_⟩
  . unfold callExceptionCleanup
    rw [unwindException_of_cxx hb, Res.ok_bind, (CxaException.kind_eq_primary.mp hkind).1]
    exact hfree
  . rw [← Process.view_kind, hview]
    simp [View.free]

theorem callExceptionCleanup_dependent {e e' : CxaException} {d p n : Nat}
    (hd : w.heap d = some (.cxx e)) (hkind : e.kind = .dependent p)
    (hp : w.heap p = some (.cxx e')) (hkind' : e'.kind = .primary n) (hn : n ≠ 0)
    : ∃ w', callExceptionCleanup ⟨d, 96⟩ w = .ok w'
      ∧ w'.heap.kind = Function.update (dropKind w.heap.kind p n) d none := by
  rcases cxaFreeDependentException_view hd hkind hp hkind' hn 2 with ⟨w', hfree, hview⟩
  refine ⟨w', ?_, ?_⟩
  . unfold callExceptionCleanup
    rw [unwindException_of_cxx hd, Res.ok_bind, (CxaException.kind_eq_dependent.mp hkind).1]
    exact hfree
  . rw [← Process.view_kind, hview]
    simp [View.free]

theorem disposed_callback_primary (hinv : s.Inv) (hc : s.activities i = .unwinding x :: c)
    (hcxx : x.isForeign = false) {n : Nat}
    (hn : s.process.heap.kind x.block = some (.primary n))
    (hkind : w.heap.kind = Function.update s.process.heap.kind x.block none)
    : s.Disposed ((s.setProcess w).setActivities i c) ↔ x ∉ handlers c ∧ n = 1 := by
  generalize hs' : (s.setProcess w).setActivities i c = s'
  have hkind' : s'.process.heap.kind = Function.update s.process.heap.kind x.block none := by
    rw [← hs']
    exact hkind
  have hreferences : s'.references = s.references := by
    rw [← hs']
    rfl
  have howned (b : Nat) : b ∈ s'.owned ↔ b ∈ s.owned ∧ (x ∉ handlers c → b ≠ x.block) := by
    rw [← hs']
    exact hinv.mem_owned_callback hc hcxx w b
  have hdependents (b : Nat)
      : dependents s'.process.heap.kind b = dependents s.process.heap.kind b := by
    rw [hkind', dependents_update (by simp [hn]) (by simp)]
  have hx : x.block ∈ s.owned := by
    apply mem_owned (i := i)
    rw [hc, blocks_cons]
    exact Set.mem_insert ..
  have hfinite (b : Nat) : (dependents s'.process.heap.kind b).Finite := by
    rw [hdependents]
    exact hinv.owners.finite_dependents b
  constructor
  . intro hdisposed
    have hzero : s'.owners x.block = 0 := by
      by_contra hne
      have hprimary := hdisposed.primary x.block n hn
      rw [hkind', Function.update_self, if_neg hne] at hprimary
      split at hprimary <;> contradiction
    rw [owners_eq_zero_iff (hfinite x.block), howned, hreferences, hdependents] at hzero
    rcases hzero with ⟨hnot, hreference, hempty⟩
    constructor
    . intro hmem
      exact hnot ⟨hx, fun h => absurd hmem h⟩
    . exact (hinv.sole_owner hx hn).mpr ⟨hreference, hempty⟩
  . rintro ⟨hnot, rfl⟩
    have hzero : s'.owners x.block = 0 := by
      rw [owners_eq_zero_iff (hfinite x.block), howned, hreferences, hdependents]
      exact ⟨fun h => h.2 hnot rfl, (hinv.sole_owner hx hn).mp rfl⟩
    constructor
    . intro b m hb
      by_cases heq : b = x.block
      . subst heq
        rw [hn, Option.some.injEq, Kind.primary.injEq] at hb
        rw [hzero, if_neg (by omega), if_pos rfl, hkind', Function.update_self]
      . have howners : s'.owners b = m := by
          apply hinv.owners_eq_of_kept hb _ (by rw [hreferences]) (hdependents b)
          rw [howned]
          exact and_iff_left fun _ => heq
        rw [howners, if_pos rfl, hkind', Function.update_of_ne heq, hb]
    . intro d p hd hmem hgone
      rw [howned, not_and] at hgone
      have heq : d = x.block := by
        by_contra hne
        exact hgone hmem fun _ => hne
      simp [heq, hn] at hd
    . intro d p hd _
      have hne : d ≠ x.block := by
        rintro rfl
        simp [hn] at hd
      rw [hkind', Function.update_of_ne hne, hd]

section

variable {d p n : Nat}

theorem dependents_of_drop (hp : s.process.heap.kind p = some (.primary n))
    (hkind : s'.process.heap.kind
      = Function.update (dropKind s.process.heap.kind p n) d none) (b : Nat)
    : dependents s'.process.heap.kind b = dependents s.process.heap.kind b \ { d } := by
  rw [hkind, dependents_update_remove (by simp)]
  unfold dropKind
  rw [dependents_update (by simp [hp]) (by split <;> simp)]

-- one owner of the primary exception has gone
theorem owners_of_drop (hinv : s.Inv) (hd : s.process.heap.kind d = some (.dependent p))
    (hp : s.process.heap.kind p = some (.primary n))
    (hkind : s'.process.heap.kind = Function.update (dropKind s.process.heap.kind p n) d none)
    (hreferences : s'.references = s.references) (hiff : p ∈ s'.owned ↔ p ∈ s.owned)
    : s'.owners p = n - 1 := by
  have hmem : d ∈ dependents s.process.heap.kind p := hd
  have hpos : 0 < (dependents s.process.heap.kind p).ncard :=
    (Set.ncard_pos (hinv.owners.finite_dependents p)).mpr ⟨d, hmem⟩
  rw [← hinv.owners_eq hp]
  unfold State.owners LibCxxRt.owners
  rw [dependents_of_drop hp hkind, Set.ncard_sdiff_singleton_of_mem hmem, hreferences]
  by_cases hpo : p ∈ s.owned
  . rw [if_pos hpo, if_pos (hiff.mpr hpo)]
    omega
  . rw [if_neg hpo, if_neg (mt hiff.mp hpo)]
    omega

theorem disposed_of_drop (hinv : s.Inv) (hd : s.process.heap.kind d = some (.dependent p))
    (hp : s.process.heap.kind p = some (.primary n))
    (hkind : s'.process.heap.kind = Function.update (dropKind s.process.heap.kind p n) d none)
    (hreferences : s'.references = s.references) (hmem : d ∈ s.owned)
    (howned : ∀ b, b ∈ s'.owned ↔ b ∈ s.owned ∧ b ≠ d)
    : s.Disposed s' := by
  have hne : p ≠ d := by
    rintro rfl
    simp [hd] at hp
  have hothers (b : Nat) (hb : b ≠ p)
      : dependents s'.process.heap.kind b = dependents s.process.heap.kind b := by
    rw [dependents_of_drop hp hkind, sdiff_eq_left, Set.disjoint_singleton_right]
    intro hmem
    unfold dependents at hmem
    rw [Set.mem_ofPred_eq, hd, Option.some.injEq, Kind.dependent.injEq] at hmem
    exact hb hmem.symm
  have howners : s'.owners p = n - 1 := by
    apply hinv.owners_of_drop hd hp hkind hreferences
    rw [howned]
    exact and_iff_left hne
  have hn := hinv.owners.count_ne_zero_of_dependent hd hp
  constructor
  . intro b m hb
    have hbd : b ≠ d := by
      rintro rfl
      simp [hd] at hb
    rw [hkind, Function.update_of_ne hbd]
    unfold dropKind
    by_cases hbp : b = p
    . subst hbp
      rw [hp, Option.some.injEq, Kind.primary.injEq] at hb
      subst hb
      have hlt : n - 1 ≠ n := by omega
      rw [Function.update_self, howners, if_neg hlt]
      by_cases hone : n = 1
      . subst hone
        rfl
      . have hpos : n - 1 ≠ 0 := by omega
        rw [if_neg hone, if_neg hpos]
    . have hkept : s'.owners b = m := by
        apply hinv.owners_eq_of_kept hb _ (by rw [hreferences]) (hothers b hbp)
        rw [howned]
        exact and_iff_left hbd
      rw [Function.update_of_ne hbp, hb, hkept, if_pos rfl]
  . intro d' q _ hdo hgone
    have heq : d' = d := by
      by_contra hdx
      exact hgone ((howned d').mpr ⟨hdo, hdx⟩)
    rw [heq, hkind, Function.update_self]
  . intro d' q hdq hkeep
    have hdx : d' ≠ d := by
      rintro rfl
      exact ((howned d').mp (hkeep hmem)).2 rfl
    have hdp : d' ≠ p := by
      rintro rfl
      simp [hp] at hdq
    rw [hkind, Function.update_of_ne hdx]
    unfold dropKind
    rw [Function.update_of_ne hdp, hdq]

end

theorem disposed_callback_dependent (hinv : s.Inv) (hc : s.activities i = .unwinding x :: c)
    (hcxx : x.isForeign = false) {p n : Nat}
    (hd : s.process.heap.kind x.block = some (.dependent p))
    (hp : s.process.heap.kind p = some (.primary n))
    (hkind : w.heap.kind = Function.update (dropKind s.process.heap.kind p n) x.block none)
    : s.Disposed ((s.setProcess w).setActivities i c) ↔ x ∉ handlers c := by
  have howned := hinv.mem_owned_callback hc hcxx w
  have hx : x.block ∈ s.owned := by
    apply mem_owned (i := i)
    rw [hc, blocks_cons]
    exact Set.mem_insert ..
  constructor
  . intro hdisposed hmem
    have hkept := hdisposed.kept x.block p hd fun _ =>
      (howned x.block).mpr ⟨hx, fun hnot => absurd hmem hnot⟩
    rw [setActivities_process, setProcess_process, hkind, Function.update_self] at hkept
    contradiction
  . intro hnot
    have hkind' : ((s.setProcess w).setActivities i c).process.heap.kind = _ := hkind
    apply hinv.disposed_of_drop hd hp hkind' (setActivities_references ..) hx
    intro b
    rw [howned]
    exact and_congr_right fun _ => ⟨fun h => h hnot, fun h _ => h⟩

theorem callbackReleases_iff (hinv : s.Inv) (hc : s.activities i = .unwinding x :: c)
    (hcxx : x.isForeign = false) : s.CallbackReleases i x c ↔ s.OwnsInFlight x c := by
  have hx : x ∈ excs (s.activities i) := by
    rw [hc]
    exact List.mem_cons_self
  have hobject : x.object = ⟨x.block, 96⟩ := by
    simp [Exc.object, hcxx]
  rcases hinv.cxx_of_mem hx hcxx with ⟨e, he, _⟩
  unfold CallbackReleases OwnsInFlight
  rw [hobject]
  rcases Heap.ready_of_cxx (hinv.owners.ready x.block) he with ⟨n, hn⟩ | ⟨p, hp⟩
  . have hkind : e.kind = .primary n := by
      rw [Heap.kind_of_cxx he] at hn
      exact Option.some.inj hn
    rcases callExceptionCleanup_primary he hkind with ⟨w, hcleanup, hw⟩
    have hdisposed := hinv.disposed_callback_primary hc hcxx hn hw
    constructor
    . rintro ⟨w', hcleanup', hreleases⟩
      rw [hcleanup] at hcleanup'
      cases hcleanup'
      rcases hdisposed.mp hreleases with ⟨hnot, hone⟩
      refine ⟨hnot, ?_⟩
      intro m hm
      rw [hn, Option.some.injEq, Kind.primary.injEq] at hm
      rw [← hm, hone]
    . rintro ⟨hnot, hone⟩
      exact ⟨w, hcleanup, hdisposed.mpr ⟨hnot, hone n hn⟩⟩
  . have hkind : e.kind = .dependent p := by
      rw [Heap.kind_of_cxx he] at hp
      exact Option.some.inj hp
    rcases hinv.owners.dependent x.block p hp with ⟨n, hn⟩
    rcases Heap.primary_of_kind hn with ⟨e', he', hheader, hcount⟩
    have hkind' : e'.kind = .primary n := CxaException.kind_eq_primary.mpr ⟨hheader, hcount⟩
    have hne := hinv.owners.count_ne_zero_of_dependent hp hn
    rcases callExceptionCleanup_dependent he hkind he' hkind' hne with ⟨w, hcleanup, hw⟩
    have hdisposed := hinv.disposed_callback_dependent hc hcxx hp hn hw
    constructor
    . rintro ⟨w', hcleanup', hreleases⟩
      rw [hcleanup] at hcleanup'
      cases hcleanup'
      refine ⟨hdisposed.mp hreleases, ?_⟩
      simp [hp]
    . rintro ⟨hnot, _⟩
      exact ⟨w, hcleanup, hdisposed.mpr hnot⟩

end

end Inv

theorem releases_iff_owns (img : Image) (hs : Reach State.init (step img) Clean s)
    : (∀ i, s.ExitReleases i ↔ s.OwnsCaught i)
      ∧ ∀ i x c, s.activities i = .unwinding x :: c → x.isForeign = false
        → (s.CallbackReleases i x c ↔ s.OwnsInFlight x c) := by
  have hinv := Inv.of_reach hs
  refine ⟨hinv.exitReleases_iff, ?_⟩
  intro i x c hc hcxx
  exact hinv.callbackReleases_iff hc hcxx

-- two exceptions that are caught when the thread exits, and one below which another one is caught
theorem releases_iff_owns_nested
    : (∃ s, Reach State.init (step Sample.img) Clean s
          ∧ s.activities 0 = [.handler ⟨1, false⟩, .handler ⟨0, false⟩] ∧ s.ExitReleases 0)
        ∧ ∃ s, Reach State.init (step Sample.img) Clean s
          ∧ s.activities 0 = [.unwinding ⟨1, false⟩, .handler ⟨0, false⟩]
          ∧ s.CallbackReleases 0 ⟨1, false⟩ [.handler ⟨0, false⟩] := by
  constructor
  . have hrun : ∃ s, Reach State.init (step Sample.img) Clean s
        ∧ s.activities 0 = [.handler ⟨1, false⟩, .handler ⟨0, false⟩]
        ∧ s.process.heap.kind 0 = some (.primary 1) ∧ s.process.heap.kind 1 = some (.primary 1) :=
      ⟨_, Reach.of_run .init (by simp [Clean])
        (rfl : run _ _ [(0, .throw 0 0x2000 0x3000), (0, .beginCatch), (0, .throw 1 0x2000 0x3000),
          (0, .beginCatch)] = some _), rfl, rfl, rfl⟩
    rcases hrun with ⟨s, hs, hc, hkind₀, hkind₁⟩
    have hinv := Inv.of_reach hs
    refine ⟨s, hs, hc, ?_⟩
    rw [(releases_iff_owns Sample.img hs).1 0]
    have hsole {b : Nat} (hb : b = 0 ∨ b = 1) (hkind : s.process.heap.kind b = some (.primary 1))
        : s.references b = 0 ∧ dependents s.process.heap.kind b = ∅ := by
      refine (hinv.sole_owner (mem_owned (i := 0) ?_) hkind).mp rfl
      rcases hb with rfl | rfl <;> simp [hc, Activity.exc]
    right
    simp [hc, hkind₀, hkind₁, hsole (.inl rfl) hkind₀, hsole (.inr rfl) hkind₁]
  . have hrun : ∃ s, Reach State.init (step Sample.img) Clean s
        ∧ s.activities 0 = [.unwinding ⟨1, false⟩, .handler ⟨0, false⟩]
        ∧ s.process.heap.kind 1 = some (.primary 1) :=
      ⟨_, Reach.of_run .init (by simp [Clean])
        (rfl : run _ _ [(0, .throw 0 0x2000 0x3000), (0, .beginCatch), (0, .throw 1 0x2000 0x3000)]
          = some _), rfl, rfl⟩
    rcases hrun with ⟨s, hs, hc, hkind⟩
    refine ⟨s, hs, hc, ?_⟩
    rw [(releases_iff_owns Sample.img hs).2 0 ⟨1, false⟩ [.handler ⟨0, false⟩] hc rfl]
    simp [OwnsInFlight, hkind]

-- a `std::exception_ptr` refers to an exception that is caught when the thread exits
theorem threadCleanup_frees_referenced
    : ∃ s, Reach State.init (step Sample.img) Clean s ∧ s.references 0 = 1
      ∧ s.process.heap.kind 0 = some (.primary 2)
      ∧ (∃ w, threadCleanup 1 0 s.process = .ok w ∧ w.heap 0 = none
        ∧ .destroyed ⟨0, 0⟩ ∈ w.log)
      ∧ ¬ s.ExitReleases 0 := by
  have hrun : ∃ s, Reach State.init (step Sample.img) Clean s ∧ s.references 0 = 1
      ∧ s.process.heap.kind 0 = some (.primary 2)
      ∧ (∃ w, threadCleanup 1 0 s.process = .ok w ∧ w.heap 0 = none
        ∧ .destroyed ⟨0, 0⟩ ∈ w.log)
      ∧ s.activities 0 = [.handler ⟨0, false⟩]
      ∧ (s.process.threads 0).foreignExceptionState = .none := by
    refine ⟨_, Reach.of_run .init (by simp [Clean])
      (rfl : run _ _ [(0, .throw 0 0x2000 0x3000), (0, .beginCatch), (0, .currentPrimary)] = some _),
      rfl, rfl, ⟨_, rfl, rfl, ?_⟩, rfl, rfl⟩
    exact .head _
  rcases hrun with ⟨s, hs, hreferences, hkind, hcleanup, hc, htag⟩
  refine ⟨s, hs, hreferences, hkind, hcleanup, ?_⟩
  rw [(Inv.of_reach hs).exitReleases_iff]
  simp [OwnsCaught, htag, hc, hkind, hreferences]

end State

end LibCxxRt
