import LibCxxRt.Exception.Lemmas.Activity

/-!
This module contains the proofs that each of the operations keeps the half of the invariant that is
about the thread that runs it, on the level of links.
-/

namespace LibCxxRt

open Util

theorem TagMatches.unwinding {tag : ForeignExceptionState} {c : List Activity} {x : Exc}
    (htag : TagMatches tag c) (hx : x ∉ handlers c) : TagMatches tag (.unwinding x :: c) := by
  cases tag with
  | none => trivial
  | caught =>
    rcases htag with ⟨y, hy, hforeign, hflight⟩
    refine ⟨y, hy, hforeign, ?_⟩
    rw [inFlight_unwinding, List.mem_cons, not_or]
    refine ⟨?_, hflight⟩
    intro heq
    rw [hy, heq] at hx
    simp at hx
  | rethrown =>
    rcases htag with ⟨y, hy, hforeign, hflight⟩
    refine ⟨y, hy, hforeign, ?_⟩
    rw [inFlight_unwinding, List.mem_cons]
    exact .inr hflight

theorem TagMatches.handlers_eq {tag : ForeignExceptionState} {c : List Activity}
    (htag : TagMatches tag c) (hne : tag ≠ .none) : ∃ x, handlers c = [x] ∧ x.isForeign := by
  cases tag with
  | none => exact absurd rfl hne
  | caught =>
    rcases htag with ⟨x, hx, hforeign, _⟩
    exact ⟨x, hx, hforeign⟩
  | rethrown =>
    rcases htag with ⟨x, hx, hforeign, _⟩
    exact ⟨x, hx, hforeign⟩

theorem Exc.ne_of_isForeign {x y : Exc} (hx : x.isForeign = false) (hy : y.isForeign) : y ≠ x := by
  rintro rfl
  rw [hx] at hy
  contradiction

namespace ThreadInv

variable {link link' : Nat → Option Link} {ti : CxaThreadInfo} {c c' : List Activity} {x y : Exc}

theorem eq_of_block_eq (hinv : ThreadInv link ti c) (hx : x ∈ excs c) (hy : y ∈ excs c)
    (hblock : x.block = y.block) : x = y := by
  rcases x with ⟨b, fx⟩
  rcases y with ⟨b', fy⟩
  dsimp only at hblock
  subst hblock
  cases fx with
  | false =>
    cases fy with
    | false => rfl
    | true =>
      rcases hinv.cxx _ hx rfl with ⟨next, hcxx⟩
      have hforeign := hinv.foreign _ hy rfl
      rw [hcxx] at hforeign
      simp at hforeign
  | true =>
    cases fy with
    | true => rfl
    | false =>
      rcases hinv.cxx _ hy rfl with ⟨next, hcxx⟩
      have hforeign := hinv.foreign _ hx rfl
      rw [hcxx] at hforeign
      simp at hforeign

theorem nextLink_congr {p : Ptr} (hlink : link' p.block = link p.block)
    : nextLink link' p = nextLink link p := by
  unfold nextLink
  rw [hlink]

theorem nextLink_update_cxx {b : Nat} {m n : Int} {next : Option Ptr}
    (hlink : link b = some (.cxx m next)) (p : Ptr)
    : nextLink (Function.update link b (some (.cxx n next))) p = nextLink link p := by
  unfold nextLink
  by_cases hb : p.block = b
  . rw [hb, hlink, Function.update_self]
  . rw [Function.update_of_ne hb]

theorem congr (hinv : ThreadInv link ti c) (hlink : ∀ x ∈ excs c, link' x.block = link x.block)
    : ThreadInv link' ti c := by
  constructor
  . exact hinv.nested
  . intro x hx hcxx
    rw [hlink x hx]
    exact hinv.cxx x hx hcxx
  . intro x hx hforeign
    rw [hlink x hx]
    exact hinv.foreign x hx hforeign
  . apply hinv.chain.congr
    intro p hp
    rcases List.mem_map.mp hp with ⟨x, hx, heq⟩
    subst heq
    apply nextLink_congr
    apply hlink
    rw [mem_excs_iff]
    exact .inl (mem_caughtStack.mp hx)
  . exact hinv.uncaught_eq
  . exact hinv.tag

theorem caughtExceptions_eq (hinv : ThreadInv link ti c)
    : ti.caughtExceptions = (handlers c).head?.map Exc.ptr := by
  rw [hinv.chain.head_eq, List.head?_map, hinv.nested.head?_caughtStack]

theorem caughtExceptions_eq_none_iff (hinv : ThreadInv link ti c)
    : ti.caughtExceptions = none ↔ handlers c = [] := by
  rw [hinv.caughtExceptions_eq]
  simp

theorem handlerCount_eq (hinv : ThreadInv link ti c) (hx : x ∈ excs c) (hcxx : x.isForeign = false)
    {n : Int} {next : Option Ptr} (hlink : link x.block = some (.cxx n next))
    : n = handlerCount c x := by
  rcases hinv.cxx x hx hcxx with ⟨next', hlink'⟩
  rw [hlink] at hlink'
  simp only [Option.some.injEq, Link.cxx.injEq] at hlink'
  exact hlink'.1

theorem raise_cxx (hinv : ThreadInv link ti c) (hx : x ∉ excs c) (hcxx : x.isForeign = false)
    {next : Option Ptr} (hlink : link x.block = some (.cxx 0 next))
    : ThreadInv link { ti with uncaughtExceptions := ti.uncaughtExceptions + 1 }
        (.unwinding x :: c) := by
  have hhandlers : x ∉ handlers c := by
    intro hmem
    exact hx (mem_excs_iff.mpr (.inl hmem))
  constructor
  . exact ⟨hinv.nested, OnTop.of_not_mem hx (by simp)⟩
  . rw [excs_unwinding, List.forall_mem_cons]
    constructor
    . intro _
      rw [hlink, handlerCount_unwinding_self, List.count_eq_zero.mpr hhandlers]
      exact ⟨next, rfl⟩
    . intro y hy hycxx
      rw [handlerCount_unwinding_of_ne (by rintro rfl; exact hx hy)]
      exact hinv.cxx y hy hycxx
  . rw [excs_unwinding, List.forall_mem_cons]
    constructor
    . simp [hcxx]
    . exact hinv.foreign
  . exact hinv.chain
  . rw [uncaught_unwinding, ← hinv.uncaught_eq]
    simp [hcxx]
  . exact hinv.tag.unwinding hhandlers

theorem raise_foreign (hinv : ThreadInv link ti c) (hx : x ∉ excs c) (hforeign : x.isForeign)
    (hlink : link x.block = some .foreign) : ThreadInv link ti (.unwinding x :: c) := by
  have hhandlers : x ∉ handlers c := by
    intro hmem
    exact hx (mem_excs_iff.mpr (.inl hmem))
  constructor
  . exact ⟨hinv.nested, OnTop.of_not_mem hx (by simp)⟩
  . rw [excs_unwinding, List.forall_mem_cons]
    constructor
    . simp [hforeign]
    . intro y hy hycxx
      rw [handlerCount_unwinding_of_ne (by rintro rfl; exact hx hy)]
      exact hinv.cxx y hy hycxx
  . rw [excs_unwinding, List.forall_mem_cons]
    exact ⟨fun _ => hlink, hinv.foreign⟩
  . exact hinv.chain
  . rw [uncaught_unwinding, ← hinv.uncaught_eq]
    simp [hforeign]
  . exact hinv.tag.unwinding hhandlers

-- updating the header of one exception of the thread
theorem update_block (hinv : ThreadInv link ti c) (hx : x ∈ excs c) (hy : y ∈ excs c) (hne : y ≠ x)
    (o : Option Link) : Function.update link x.block o y.block = link y.block := by
  apply Function.update_of_ne
  intro hblock
  exact hne (hinv.eq_of_block_eq hy hx hblock)

theorem beginCatch_cxx (hinv : ThreadInv link ti (.unwinding x :: c)) (hcxx : x.isForeign = false)
    {n : Int} {next : Option Ptr} (hlink : link x.block = some (.cxx n next))
    : ThreadInv
        (Function.update link x.block (some (.cxx
          (if n < 0 then -n + 1 else n + 1) (if n = 0 then ti.caughtExceptions else next))))
        {
          ti with
          uncaughtExceptions := decrement 32 ti.uncaughtExceptions
          caughtExceptions := if n = 0 then some x.ptr else ti.caughtExceptions
          foreignExceptionState := .none
        }
        (.handler x :: c) := by
  have hflight : x ∉ inFlight c := hinv.nested.2.not_mem_inFlight hcxx
  have hn : n = -((handlers c).count x : Int) := by
    rw [hinv.handlerCount_eq (by simp) hcxx hlink, handlerCount_unwinding_self]
  have hmem {y : Exc} (hy : y ∈ excs c) : y ∈ excs (.unwinding x :: c) := by
    rw [excs_unwinding]
    exact List.mem_cons_of_mem x hy
  constructor
  . apply hinv.nested.beginCatch
    simp [hcxx]
  . intro y hy hycxx
    by_cases heq : y = x
    . subst heq
      rw [Function.update_self, handlerCount_handler_self hflight]
      refine ⟨if n = 0 then ti.caughtExceptions else next, ?_⟩
      congr 2
      split <;> omega
    . rw [excs_handler, List.mem_cons] at hy
      have hy := hy.resolve_left heq
      rw [hinv.update_block (by simp) (hmem hy) heq, handlerCount_handler_of_ne heq]
      rcases hinv.cxx y (hmem hy) hycxx with ⟨next', hlink'⟩
      rw [handlerCount_unwinding_of_ne heq] at hlink'
      exact ⟨next', hlink'⟩
  . intro y hy hyforeign
    have hne : y ≠ x := Exc.ne_of_isForeign hcxx hyforeign
    rw [excs_handler, List.mem_cons] at hy
    have hy := hy.resolve_left hne
    rw [hinv.update_block (by simp) (hmem hy) hne]
    exact hinv.foreign y (hmem hy) hyforeign
  . dsimp only
    by_cases hhandlers : x ∈ handlers c
    . have hne : n ≠ 0 := by
        have hpos := List.count_pos_iff.mpr hhandlers
        omega
      rw [caughtStack_of_mem hhandlers, if_neg hne, if_neg hne]
      apply hinv.chain.congr
      intro p _
      exact nextLink_update_cxx hlink p
    . have hzero : n = 0 := by
        rw [hn, List.count_eq_zero.mpr hhandlers]
        rfl
      rw [caughtStack_of_not_mem hhandlers, if_pos hzero, if_pos hzero]
      apply Chain.cons
      . simp [nextLink, Exc.ptr]
        rfl
      . apply hinv.chain.congr
        intro p hp
        rcases List.mem_map.mp hp with ⟨y, hy, heq⟩
        subst heq
        have hyhandlers := mem_caughtStack.mp hy
        apply nextLink_congr
        apply hinv.update_block (by simp)
        . rw [mem_excs_iff]
          exact .inl hyhandlers
        . rintro rfl
          exact hhandlers hyhandlers
  . have huncaught := hinv.uncaught_eq
    rw [uncaught_unwinding, hcxx] at huncaught
    rw [uncaught_handler]
    dsimp only
    rw [huncaught]
    simp [decrement]
  . trivial

theorem beginCatch_foreign (hinv : ThreadInv link ti (.unwinding x :: c)) (hforeign : x.isForeign)
    (hcaught : ti.caughtExceptions = none)
    : ThreadInv link
        { ti with caughtExceptions := some x.ptr, foreignExceptionState := .caught }
        (.handler x :: c) := by
  have hnil : handlers c = [] := hinv.caughtExceptions_eq_none_iff.mp hcaught
  have hnested := hinv.nested.beginCatch fun _ => hnil
  constructor
  . exact hnested
  . intro y hy hycxx
    have hne : y ≠ x := (Exc.ne_of_isForeign hycxx hforeign).symm
    rw [handlerCount_handler_of_ne hne]
    rcases hinv.cxx y hy hycxx with ⟨next, hlink⟩
    rw [handlerCount_unwinding_of_ne hne] at hlink
    exact ⟨next, hlink⟩
  . exact hinv.foreign
  . have hlink := hinv.foreign x (by simp) hforeign
    rw [caughtStack_of_not_mem (by simp [hnil]), caughtStack_eq_nil.mpr hnil]
    apply Chain.cons
    . simp [nextLink, Exc.ptr, hlink]
      rfl
    . exact .nil
  . have huncaught := hinv.uncaught_eq
    rw [uncaught_unwinding, hforeign] at huncaught
    exact huncaught
  . refine ⟨x, ?_, hforeign, hnested.2.not_mem_inFlight_of_handler⟩
    rw [handlers_handler, hnil]

-- a handler is closed, its exception can be in flight
theorem endCatch_cxx (hinv : ThreadInv link ti c) (hhandlers : handlers c = x :: handlers c')
    (hflight : inFlight c = inFlight c') (hnested : Nested c') (hcxx : x.isForeign = false)
    (htag : ti.foreignExceptionState = .none) {n : Int} {next : Option Ptr}
    (hlink : link x.block = some (.cxx n next))
    : ThreadInv
        (Function.update link x.block
          (some (.cxx (if n < 0 then n + 1 else n - 1) next)))
        {
          ti with
          caughtExceptions :=
            if (if n < 0 then n + 1 else n - 1) = 0 then next else ti.caughtExceptions
        }
        c' := by
  have hmem {y : Exc} (hy : y ∈ excs c') : y ∈ excs c := by
    rw [mem_excs_iff] at hy ⊢
    rw [hhandlers, hflight, List.mem_cons]
    exact hy.imp_left .inr
  have hx : x ∈ excs c := mem_excs_of_head (by rw [hhandlers]; rfl)
  have hn := hinv.handlerCount_eq hx hcxx hlink
  have hn' : (if n < 0 then n + 1 else n - 1) = handlerCount c' x := by
    unfold handlerCount at hn ⊢
    rw [hhandlers, List.count_cons_self, hflight] at hn
    split at hn
    . split <;> omega
    . split <;> omega
  constructor
  . exact hnested
  . intro y hy hycxx
    by_cases heq : y = x
    . subst heq
      rw [Function.update_self, hn']
      exact ⟨next, rfl⟩
    . rw [hinv.update_block hx (hmem hy) heq]
      rcases hinv.cxx y (hmem hy) hycxx with ⟨next', hlink'⟩
      refine ⟨next', ?_⟩
      rw [hlink']
      unfold handlerCount
      rw [hhandlers, hflight, List.count_cons_of_ne (Ne.symm heq)]
  . intro y hy hyforeign
    have hne : y ≠ x := Exc.ne_of_isForeign hcxx hyforeign
    rw [hinv.update_block hx (hmem hy) hne]
    exact hinv.foreign y (hmem hy) hyforeign
  . have hchain := hinv.chain
    rw [hn']
    dsimp only
    by_cases hmem' : x ∈ handlers c'
    . have hne : handlerCount c' x ≠ 0 := by
        have hpos := List.count_pos_iff.mpr hmem'
        unfold handlerCount
        split <;> omega
      have hstack : caughtStack c = caughtStack c' := by
        unfold caughtStack
        rw [hhandlers, List.dedup_cons_of_mem hmem']
      rw [if_neg hne, ← hstack]
      apply hchain.congr
      intro p _
      exact nextLink_update_cxx hlink p
    . have hzero : handlerCount c' x = 0 := by
        unfold handlerCount
        rw [List.count_eq_zero.mpr hmem']
        simp
      have hstack : caughtStack c = x :: caughtStack c' := by
        unfold caughtStack
        rw [hhandlers, List.dedup_cons_of_notMem hmem']
      rw [if_pos hzero]
      rw [hstack, List.map_cons] at hchain
      generalize ti.caughtExceptions = head at hchain
      cases hchain with
      | cons hnext hrest =>
        simp only [nextLink, Exc.ptr, hlink, ↓reduceIte, Option.some.injEq] at hnext
        subst hnext
        apply hrest.congr
        intro p _
        exact nextLink_update_cxx hlink p
  . rw [hinv.uncaught_eq]
    unfold uncaught
    rw [hflight]
  . rw [htag]
    trivial

theorem endCatch_foreign (hinv : ThreadInv link ti c) (hhandlers : handlers c = x :: handlers c')
    (hflight : inFlight c = inFlight c') (hnested : Nested c')
    (htag : ti.foreignExceptionState ≠ .none)
    : ThreadInv link { ti with caughtExceptions := none, foreignExceptionState := .none } c' := by
  have hmem {y : Exc} (hy : y ∈ excs c') : y ∈ excs c := by
    rw [mem_excs_iff] at hy ⊢
    rw [hhandlers, hflight, List.mem_cons]
    exact hy.imp_left .inr
  have hnil : handlers c' = [] ∧ x.isForeign := by
    rcases hinv.tag.handlers_eq htag with ⟨y, hy, hforeign⟩
    rw [hhandlers] at hy
    simp only [List.cons.injEq] at hy
    rw [hy.1, hy.2]
    exact ⟨rfl, hforeign⟩
  constructor
  . exact hnested
  . intro y hy hycxx
    have hne : x ≠ y := Exc.ne_of_isForeign hycxx hnil.2
    rcases hinv.cxx y (hmem hy) hycxx with ⟨next, hlink⟩
    refine ⟨next, ?_⟩
    rw [hlink]
    unfold handlerCount
    rw [hhandlers, hflight, List.count_cons_of_ne hne]
  . intro y hy hyforeign
    exact hinv.foreign y (hmem hy) hyforeign
  . rw [caughtStack_eq_nil.mpr hnil.1]
    exact .nil
  . rw [hinv.uncaught_eq]
    unfold uncaught
    rw [hflight]
  . trivial

theorem rethrow_cxx (hinv : ThreadInv link ti c) (hhead : (handlers c).head? = some x)
    (hcxx : x.isForeign = false) {n : Int} {next : Option Ptr}
    (hlink : link x.block = some (.cxx n next)) (hpos : 0 < n)
    (htag : ti.foreignExceptionState = .none)
    : ThreadInv (Function.update link x.block (some (.cxx (-n) next)))
        { ti with uncaughtExceptions := ti.uncaughtExceptions + 1 } (.unwinding x :: c) := by
  have hx : x ∈ excs c := mem_excs_of_head hhead
  have hn := hinv.handlerCount_eq hx hcxx hlink
  have hflight : x ∉ inFlight c := by
    intro hmem
    rw [handlerCount_of_mem hmem] at hn
    omega
  rw [handlerCount_of_not_mem hflight] at hn
  constructor
  . apply hinv.nested.rethrow hhead
    intro hmem
    exact absurd hmem hflight
  . intro y hy hycxx
    by_cases heq : y = x
    . subst heq
      rw [Function.update_self, handlerCount_unwinding_self, ← hn]
      exact ⟨next, rfl⟩
    . rw [excs_unwinding, List.mem_cons] at hy
      have hy := hy.resolve_left heq
      rw [hinv.update_block hx hy heq, handlerCount_unwinding_of_ne heq]
      exact hinv.cxx y hy hycxx
  . intro y hy hyforeign
    have hne : y ≠ x := Exc.ne_of_isForeign hcxx hyforeign
    rw [excs_unwinding, List.mem_cons] at hy
    have hy := hy.resolve_left hne
    rw [hinv.update_block hx hy hne]
    exact hinv.foreign y hy hyforeign
  . rw [caughtStack_unwinding]
    apply hinv.chain.congr
    intro p _
    exact nextLink_update_cxx hlink p
  . rw [uncaught_unwinding, ← hinv.uncaught_eq]
    simp [hcxx]
  . dsimp only
    rw [htag]
    trivial

theorem rethrow_foreign (hinv : ThreadInv link ti c) (hhead : (handlers c).head? = some x)
    (hforeign : x.isForeign) (htag : ti.foreignExceptionState ≠ .none)
    : ThreadInv link { ti with foreignExceptionState := .rethrown } (.unwinding x :: c) := by
  have hx : x ∈ excs c := mem_excs_of_head hhead
  constructor
  . exact hinv.nested.rethrow hhead fun _ => hforeign
  . intro y hy hycxx
    have hne : y ≠ x := (Exc.ne_of_isForeign hycxx hforeign).symm
    rw [excs_unwinding, List.mem_cons] at hy
    rw [handlerCount_unwinding_of_ne hne]
    exact hinv.cxx y (hy.resolve_left hne) hycxx
  . rw [excs_unwinding, List.forall_mem_cons]
    exact ⟨fun _ => hinv.foreign x hx hforeign, hinv.foreign⟩
  . exact hinv.chain
  . rw [uncaught_unwinding, ← hinv.uncaught_eq]
    simp [hforeign]
  . refine ⟨x, ?_, hforeign, by simp⟩
    rw [handlers_unwinding]
    rcases hinv.tag.handlers_eq htag with ⟨y, hy, _⟩
    rw [hy] at hhead ⊢
    simpa using hhead

end ThreadInv

end LibCxxRt
