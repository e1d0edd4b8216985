import LibCxxRt.Exception.Lemmas.View
import LibCxxRt.Exception.Lemmas.Thread

/-!
This module contains the ways in which a step of one thread keeps the invariant of the whole process:
the exceptions of the thread stay the same, a new one is raised, or the last handler of one is closed.
-/

namespace LibCxxRt

open Util

@[simp]
theorem blocks_nil : blocks [] = ∅ := by
  simp [blocks]

@[simp]
theorem blocks_cons (a : Activity) (c : List Activity)
    : blocks (a :: c) = insert a.exc.block (blocks c) := by
  ext b
  simp [blocks, excs, eq_comm]

theorem mem_blocks {c : List Activity} {x : Exc} (hx : x ∈ excs c) : x.block ∈ blocks c := by
  exact ⟨x, hx, rfl⟩

theorem ThreadInv.link_ne_none {link : Nat → Option Link} {ti : CxaThreadInfo} {c : List Activity}
    (hinv : ThreadInv link ti c) {b : Nat} (hb : b ∈ blocks c) : link b ≠ none := by
  rcases hb with ⟨x, hx, rfl⟩
  cases hforeign : x.isForeign with
  | false =>
    rcases hinv.cxx x hx hforeign with ⟨next, hlink⟩
    simp [hlink]
  | true => simp [hinv.foreign x hx hforeign]

-- a thread after it has raised a C++ exception
def raisedThread (ti : CxaThreadInfo) : CxaThreadInfo :=
  { ti with uncaughtExceptions := ti.uncaughtExceptions + 1 }

namespace State

variable {s s' : State} {i b : Nat} {c' : List Activity}

theorem mem_owned_iff (hactivities : s'.activities = Function.update s.activities i c')
    : b ∈ s'.owned ↔ b ∈ blocks c' ∨ ∃ j, j ≠ i ∧ b ∈ blocks (s.activities j) := by
  unfold owned
  rw [Set.mem_ofPred_eq, hactivities]
  constructor
  . rintro ⟨j, hj⟩
    by_cases heq : j = i
    . rw [heq, Function.update_self] at hj
      exact .inl hj
    . rw [Function.update_of_ne heq] at hj
      exact .inr ⟨j, heq, hj⟩
  . rintro (hi | ⟨j, heq, hj⟩)
    . refine ⟨i, ?_⟩
      rw [Function.update_self]
      exact hi
    . refine ⟨j, ?_⟩
      rw [Function.update_of_ne heq]
      exact hj

theorem mem_owned (hb : b ∈ blocks (s.activities i)) : b ∈ s.owned := by
  exact ⟨i, hb⟩

namespace Inv

theorem link_ne_none (hinv : s.Inv) (hb : b ∈ s.owned) : s.process.heap.link b ≠ none := by
  rcases hb with ⟨j, hj⟩
  exact (hinv.thread j).link_ne_none hj

theorem not_mem_owned (hinv : s.Inv) (hb : s.process.heap b = none) : b ∉ s.owned := by
  intro hmem
  apply hinv.link_ne_none hmem
  rw [Heap.link_eq_none_iff]
  exact hb

-- one thread has done something
theorem of_thread (hinv : s.Inv) (hactivities : s'.activities = Function.update s.activities i c')
    (hthread : ThreadInv s'.process.heap.link (s'.process.threads i) c')
    (hthreads : ∀ j, j ≠ i → s'.process.threads j = s.process.threads j)
    (hlink : ∀ j, j ≠ i → ∀ b ∈ blocks (s.activities j),
      s'.process.heap.link b = s.process.heap.link b)
    (hblocks : ∀ b ∈ blocks c', ∀ j, j ≠ i → b ∉ blocks (s.activities j))
    (hidle : ∀ b n next, s'.process.heap.link b = some (.cxx n next) → b ∉ s'.owned → n = 0)
    (howners : OwnerInv s'.process.heap.kind s'.owned s'.references s'.thrown)
    : s'.Inv := by
  constructor
  . intro j
    rw [hactivities]
    by_cases heq : j = i
    . rw [heq, Function.update_self]
      exact hthread
    . rw [Function.update_of_ne heq, hthreads j heq]
      apply (hinv.thread j).congr
      intro x hx
      exact hlink j heq x.block (mem_blocks hx)
  . intro j k hjk b hj
    rw [hactivities] at hj ⊢
    by_cases hji : j = i
    . rw [hji, Function.update_self] at hj
      rw [Function.update_of_ne (hji ▸ hjk.symm)]
      exact hblocks b hj k (hji ▸ hjk.symm)
    . rw [Function.update_of_ne hji] at hj
      by_cases hki : k = i
      . rw [hki, Function.update_self]
        intro hk
        exact hblocks b hk j hji hj
      . rw [Function.update_of_ne hki]
        exact hinv.disjoint j k hjk b hj
  . exact hidle
  . exact howners

theorem owned_eq_of_blocks (hactivities : s'.activities = Function.update s.activities i c')
    (hblocks : blocks c' = blocks (s.activities i)) : s'.owned = s.owned := by
  ext b
  rw [mem_owned_iff hactivities, mem_owned_iff (Function.update_eq_self i s.activities).symm, hblocks]

theorem of_view (hinv : s.Inv) (hview : s'.process.view = s.process.view)
    (hactivities : s'.activities = s.activities) (hreferences : s'.references = s.references)
    (hthrown : s'.thrown = s.thrown) : s'.Inv := by
  have hlink : s'.process.heap.link = s.process.heap.link := congrArg View.link hview
  have hkind : s'.process.heap.kind = s.process.heap.kind := congrArg View.kind hview
  have hthreads : s'.process.threads = s.process.threads := congrArg View.threads hview
  have howned : s'.owned = s.owned := by
    unfold owned
    rw [hactivities]
  constructor
  . rw [hlink, hthreads, hactivities]
    exact hinv.thread
  . rw [hactivities]
    exact hinv.disjoint
  . rw [hlink, howned]
    exact hinv.idle
  . rw [hkind, howned, hreferences, hthrown]
    exact hinv.owners

-- the exceptions of the thread are the same as before
theorem keep (hinv : s.Inv) (hactivities : s'.activities = Function.update s.activities i c')
    (hblocks : blocks c' = blocks (s.activities i))
    (hthread : ThreadInv s'.process.heap.link (s'.process.threads i) c')
    (hthreads : ∀ j, j ≠ i → s'.process.threads j = s.process.threads j)
    (hlink : ∀ b, b ∉ blocks (s.activities i) → s'.process.heap.link b = s.process.heap.link b)
    (hkind : s'.process.heap.kind = s.process.heap.kind) (hreferences : s'.references = s.references)
    (hthrown : s'.thrown = s.thrown) : s'.Inv := by
  have howned := owned_eq_of_blocks hactivities hblocks
  have hothers (j : Nat) (hj : j ≠ i) (b : Nat) (hb : b ∈ blocks (s.activities j))
      : b ∉ blocks (s.activities i) := hinv.disjoint j i hj b hb
  apply hinv.of_thread hactivities hthread hthreads
  . intro j hj b hb
    exact hlink b (hothers j hj b hb)
  . intro b hb j hj
    rw [hblocks] at hb
    exact hinv.disjoint i j hj.symm b hb
  . intro b n next hb hmem
    rw [howned] at hmem
    rw [hlink b fun hi => hmem (mem_owned hi)] at hb
    exact hinv.idle b n next hb hmem
  . rw [hkind, howned, hreferences, hthrown]
    exact hinv.owners

-- no thread catches or raises anything
theorem refer (hinv : s.Inv) (hactivities : s'.activities = s.activities)
    (hthreads : s'.process.threads = s.process.threads)
    (hlink : ∀ b ∈ s.owned, s'.process.heap.link b = s.process.heap.link b)
    (hidle : ∀ b n next, s'.process.heap.link b = some (.cxx n next) → b ∉ s.owned → n = 0)
    (howners : OwnerInv s'.process.heap.kind s.owned s'.references s'.thrown) : s'.Inv := by
  have howned : s'.owned = s.owned := by
    unfold owned
    rw [hactivities]
  constructor
  . intro j
    rw [hactivities, hthreads]
    apply (hinv.thread j).congr
    intro x hx
    exact hlink x.block (mem_owned (mem_blocks hx))
  . rw [hactivities]
    exact hinv.disjoint
  . rw [howned]
    exact hidle
  . rw [howned]
    exact howners

section

variable {f : Bool} {l : Link}

-- a new exception is in flight
theorem raise (hinv : s.Inv)
    (hactivities : s'.activities = Function.update s.activities i (.unwinding ⟨b, f⟩ :: s.activities i))
    (hb : s.process.heap b = none)
    (hlink : s'.process.heap.link = Function.update s.process.heap.link b (some l))
    (hl : ∀ n next, l = .cxx n next → n = 0)
    (hthread : ThreadInv s'.process.heap.link (s'.process.threads i)
      (.unwinding ⟨b, f⟩ :: s.activities i))
    (hthreads : ∀ j, j ≠ i → s'.process.threads j = s.process.threads j)
    (howners : b ∈ s'.owned → (∀ b', b' ≠ b → (b' ∈ s'.owned ↔ b' ∈ s.owned))
      → OwnerInv s'.process.heap.kind s'.owned s'.references s'.thrown) : s'.Inv := by
  have hnot := hinv.not_mem_owned hb
  have hself : b ∈ s'.owned := by
    rw [mem_owned_iff hactivities]
    exact .inl (by simp [Activity.exc])
  have howned (b' : Nat) (hb' : b' ≠ b) : b' ∈ s'.owned ↔ b' ∈ s.owned := by
    rw [mem_owned_iff hactivities, mem_owned_iff (Function.update_eq_self i s.activities).symm]
    simp [Activity.exc, hb']
  apply hinv.of_thread hactivities hthread hthreads
  . intro j _ b' hb'
    rw [hlink, Function.update_of_ne]
    rintro rfl
    exact hnot (mem_owned hb')
  . intro b' hb' j hj hmem
    rw [blocks_cons, Set.mem_insert_iff] at hb'
    rcases hb' with heq | hi
    . subst heq
      exact hnot (mem_owned hmem)
    . exact hinv.disjoint i j hj.symm b' hi hmem
  . intro b' n next hb' hmem
    rw [hlink] at hb'
    by_cases heq : b' = b
    . rw [heq, Function.update_self, Option.some.injEq] at hb'
      exact hl n next hb'
    . rw [Function.update_of_ne heq] at hb'
      exact hinv.idle b' n next hb' (by rwa [← howned b' heq])
  . exact howners hself howned

theorem congr_fresh (hinv : s.Inv) (hb : s.process.heap b = none) (o : Option Link) (j : Nat)
    : ThreadInv (Function.update s.process.heap.link b o) (s.process.threads j) (s.activities j) := by
  apply (hinv.thread j).congr
  intro x hx
  rw [Function.update_of_ne]
  rintro rfl
  exact hinv.not_mem_owned hb (mem_owned (mem_blocks hx))

theorem raise_cxx (hinv : s.Inv)
    (hactivities : s'.activities
      = Function.update s.activities i (.unwinding ⟨b, false⟩ :: s.activities i))
    (hb : s.process.heap b = none)
    (hlink : s'.process.heap.link = Function.update s.process.heap.link b (some (.cxx 0 none)))
    (hthreads : s'.process.threads
      = Function.update s.process.threads i (raisedThread (s.process.threads i)))
    (howners : b ∈ s'.owned → (∀ b', b' ≠ b → (b' ∈ s'.owned ↔ b' ∈ s.owned))
      → OwnerInv s'.process.heap.kind s'.owned s'.references s'.thrown) : s'.Inv := by
  apply hinv.raise hactivities hb hlink
  . simp +contextual
  . rw [hlink, hthreads, Function.update_self]
    apply (hinv.congr_fresh hb _ i).raise_cxx
    . intro hx
      exact hinv.not_mem_owned hb (mem_owned (mem_blocks hx))
    . rfl
    . exact Function.update_self ..
  . intro j hj
    rw [hthreads, Function.update_of_ne hj]
  . exact howners

theorem raise_foreign (hinv : s.Inv)
    (hactivities : s'.activities
      = Function.update s.activities i (.unwinding ⟨b, true⟩ :: s.activities i))
    (hb : s.process.heap b = none)
    (hlink : s'.process.heap.link = Function.update s.process.heap.link b (some .foreign))
    (hthreads : s'.process.threads = s.process.threads)
    (howners : b ∈ s'.owned → (∀ b', b' ≠ b → (b' ∈ s'.owned ↔ b' ∈ s.owned))
      → OwnerInv s'.process.heap.kind s'.owned s'.references s'.thrown) : s'.Inv := by
  apply hinv.raise hactivities hb hlink
  . simp
  . rw [hlink, hthreads]
    apply (hinv.congr_fresh hb _ i).raise_foreign
    . intro hx
      exact hinv.not_mem_owned hb (mem_owned (mem_blocks hx))
    . rfl
    . exact Function.update_self ..
  . intro j _
    rw [hthreads]
  . exact howners

end

section

variable {c : List Activity} {x : Exc}

-- the last handler of an exception that is not in flight has been closed
theorem owned_of_close (hinv : s.Inv)
    (hactivities : s'.activities = Function.update s.activities i c')
    (hhandlers : handlers (s.activities i) = x :: handlers c')
    (hflight : inFlight (s.activities i) = inFlight c') (hx : x ∉ excs c')
    : b ∈ s'.owned ↔ b ∈ s.owned ∧ b ≠ x.block := by
  have hexcs (y : Exc) : y ∈ excs (s.activities i) ↔ y = x ∨ y ∈ excs c' := by
    rw [mem_excs_iff, mem_excs_iff, hhandlers, hflight, List.mem_cons, or_assoc]
  have hxi : x ∈ excs (s.activities i) := (hexcs x).mpr (.inl rfl)
  have hblocks : b ∈ blocks c' ↔ b ∈ blocks (s.activities i) ∧ b ≠ x.block := by
    constructor
    . rintro ⟨y, hy, rfl⟩
      have hyi := (hexcs y).mpr (.inr hy)
      refine ⟨mem_blocks hyi, ?_⟩
      intro heq
      rw [(hinv.thread i).eq_of_block_eq hyi hxi heq] at hy
      exact hx hy
    . rintro ⟨⟨y, hy, rfl⟩, hne⟩
      have hy := (hexcs y).mp hy
      exact mem_blocks (hy.resolve_left (by rintro rfl; exact hne rfl))
  have hothers (j : Nat) (hj : j ≠ i) (hb : b ∈ blocks (s.activities j)) : b ≠ x.block := by
    rintro rfl
    exact hinv.disjoint j i hj x.block hb (mem_blocks hxi)
  rw [mem_owned_iff hactivities, mem_owned_iff (Function.update_eq_self i s.activities).symm,
    hblocks, or_and_right]
  constructor
  . rintro (hi | ⟨j, hj, hb⟩)
    . exact .inl hi
    . exact .inr ⟨⟨j, hj, hb⟩, hothers j hj hb⟩
  . rintro (hi | ⟨hj, _⟩)
    . exact .inl hi
    . exact .inr hj

theorem close (hinv : s.Inv) (hactivities : s'.activities = Function.update s.activities i c')
    (hhandlers : handlers (s.activities i) = x :: handlers c')
    (hflight : inFlight (s.activities i) = inFlight c') (hx : x ∉ excs c')
    (link : Nat → Option Link) (hthread : ThreadInv link (s'.process.threads i) c')
    (hthreads : ∀ j, j ≠ i → s'.process.threads j = s.process.threads j)
    (hlink : ∀ b, b ≠ x.block → link b = s.process.heap.link b)
    (hlink' : ∀ b, b ≠ x.block → s'.process.heap.link b = s.process.heap.link b
      ∨ s'.process.heap.link b = none ∧ b ∉ s.owned)
    (hidle : ∀ n next, s'.process.heap.link x.block = some (.cxx n next) → n = 0)
    (howners : x.block ∈ s.owned → (∀ b, b ∈ s'.owned ↔ b ∈ s.owned ∧ b ≠ x.block)
      → OwnerInv s'.process.heap.kind s'.owned s'.references s'.thrown) : s'.Inv := by
  have howned (b : Nat) : b ∈ s'.owned ↔ b ∈ s.owned ∧ b ≠ x.block :=
    hinv.owned_of_close hactivities hhandlers hflight hx
  have hstay (b : Nat) (hb : b ∈ s'.owned) : s'.process.heap.link b = s.process.heap.link b := by
    rw [howned] at hb
    exact (hlink' b hb.2).resolve_right fun h => h.2 hb.1
  apply hinv.of_thread hactivities
  . apply hthread.congr
    intro y hy
    have hmem : y.block ∈ s'.owned := by
      rw [mem_owned_iff hactivities]
      exact .inl (mem_blocks hy)
    rw [hstay y.block hmem, hlink]
    exact ((howned y.block).mp hmem).2
  . exact hthreads
  . intro j hj b hb
    apply hstay
    rw [mem_owned_iff hactivities]
    exact .inr ⟨j, hj, hb⟩
  . rintro b ⟨y, hy, rfl⟩ j hj
    apply hinv.disjoint i j hj.symm
    apply mem_blocks
    rw [mem_excs_iff] at hy ⊢
    rw [hhandlers, hflight, List.mem_cons]
    exact hy.imp_left .inr
  . intro b n next hb hmem
    by_cases heq : b = x.block
    . rw [heq] at hb
      exact hidle n next hb
    . rcases hlink' b heq with hsame | ⟨hnone, _⟩
      . rw [hsame] at hb
        apply hinv.idle b n next hb
        intro hb
        exact hmem ((howned b).mpr ⟨hb, heq⟩)
      . rw [hnone] at hb
        contradiction
  . apply howners
    . apply mem_owned (i := i)
      apply mem_blocks
      rw [mem_excs_iff, hhandlers]
      simp
    . exact howned

end

end Inv

end State

end LibCxxRt
