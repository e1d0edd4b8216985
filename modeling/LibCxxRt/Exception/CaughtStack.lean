import LibCxxRt.Exception.RefCount

/-!
This module contains the proof that the list of caught exceptions of a thread is the stack of the
exceptions that it has handlers open for, and that `__cxa_end_catch` acts on the exception whose
handler is left.
-/

namespace LibCxxRt

open Util

theorem Releases.released {w w' : Process} {b : Nat} (hrelease : Releases w w' b)
    : ∃ events, w'.log = w.log ++ events ∧ .released ⟨b, 0⟩ ∈ events := by
  cases hrelease with
  | primary _ _ _ _ hlog => exact ⟨_, hlog, List.mem_cons_self⟩
  | dependent _ _ _ _ _ _ hlog => exact ⟨_, hlog, List.mem_cons_self⟩

namespace State

variable {img : Image} {s : State} {i : Nat}

namespace Inv

theorem caughtStack_nodup (hinv : s.Inv) (i : Nat)
    : ((caughtStack (s.activities i)).map Exc.ptr).Nodup := by
  apply List.Nodup.map_on
  . intro x hx y hy heq
    rw [mem_caughtStack] at hx hy
    apply (hinv.thread i).eq_of_block_eq
    . rw [mem_excs_iff]
      exact .inl hx
    . rw [mem_excs_iff]
      exact .inl hy
    . exact congrArg Ptr.block heq
  . exact List.nodup_dedup _

theorem mem_caught_iff (hinv : s.Inv) {l : List Ptr}
    (hl : Chain (nextLink s.process.heap.link) (s.process.threads i).caughtExceptions l) {x : Exc}
    (hx : x ∈ excs (s.activities i)) : x.ptr ∈ l ↔ x ∈ handlers (s.activities i) := by
  rw [hl.unique (hinv.thread i).chain, List.mem_map]
  constructor
  . rintro ⟨y, hy, heq⟩
    rw [mem_caughtStack] at hy
    have hyexcs : y ∈ excs (s.activities i) := by
      rw [mem_excs_iff]
      exact .inl hy
    rw [← (hinv.thread i).eq_of_block_eq hyexcs hx (congrArg Ptr.block heq)]
    exact hy
  . intro hx
    exact ⟨x, mem_caughtStack.mpr hx, rfl⟩

theorem handlerCount_eq_zero (hinv : s.Inv) (hno : s.NoForeign) {b : Nat} {e : CxaException}
    (hb : s.process.heap b = some (.cxx e)) (hcaught : ¬ s.Caught b) : e.handlerCount = 0 := by
  by_cases hmem : b ∈ s.owned
  . rcases hmem with ⟨j, x, hx, rfl⟩
    rcases hinv.cxx_of_mem hx (hno j x hx) with ⟨e', he', hcount, _⟩
    rw [hb] at he'
    cases he'
    have hhandlers : x ∉ handlers (s.activities j) := by
      intro hmem
      apply hcaught
      exact ⟨j, _, (hinv.thread j).chain, ((hinv.mem_caught_iff (hinv.thread j).chain hx).mpr hmem)⟩
    rw [hcount]
    unfold handlerCount
    rw [List.count_eq_zero.mpr hhandlers]
    simp
  . exact hinv.idle b _ _ (Heap.link_of_cxx hb) hmem

theorem leave_view (hinv : s.Inv) (hno : s.NoForeign) (img : Image) {action : Action} {x : Exc}
    {c' : List Activity} (hl : Leaves (s.activities i) action x c')
    : ∃ s' events, step img s (i, action) = some s' ∧ s'.activities i = c' ∧ s'.Inv
      ∧ s'.process.log = s.process.log ++ events
      ∧ (.released x.ptr ∈ events ↔ x ∉ handlers c' ∧ x ∉ inFlight c') := by
  have hxi : x ∈ excs (s.activities i) := hl.mem_excs
  have hcxx := hno i x hxi
  rw [step_leaves img hl, ← not_or, ← mem_excs_iff]
  by_cases hx : x ∈ excs c'
  . rcases hinv.endCatch_keep hl hcxx hx with
      ⟨w, hend, hlog, _, _, hpres⟩
    rw [hend, toOption_ok_bind]
    refine ⟨_, [], rfl, by simp, hpres, ?_, by simp [hx]⟩
    rw [List.append_nil]
    exact hlog
  . rcases hinv.endCatch_delete hl hcxx hx with
      ⟨w, hend, hrelease, _, hpres⟩
    rcases hrelease.released with ⟨events, hlog, hmem⟩
    rw [hend, toOption_ok_bind]
    refine ⟨_, events, rfl, by simp, hpres, hlog, ?_⟩
    exact iff_of_true hmem hx

end Inv

theorem caughtStack_intact (img : Image) (hs : Reach State.init (step img) CxxOnly s)
    (i : Nat)
    : (∃ l, Chain (nextLink s.process.heap.link) (s.process.threads i).caughtExceptions l
        ∧ l.Nodup ∧ l = (handlers (s.activities i)).dedup.map Exc.ptr
        ∧ ∀ p, p ∈ l ↔ ∃ x ∈ handlers (s.activities i), x.ptr = p)
      ∧ (∀ x ∈ handlers (s.activities i), ∃ e, s.process.heap x.block = some (.cxx e)
        ∧ e.handlerCount.natAbs = (handlers (s.activities i)).count x
        ∧ (e.handlerCount < 0 ↔ x ∈ inFlight (s.activities i)))
      ∧ (∀ b e, s.process.heap b = some (.cxx e) → ¬ s.Caught b → e.handlerCount = 0)
      ∧ ∀ action x c', Leaves (s.activities i) action x c'
        → (s.process.threads i).caughtExceptions = some x.ptr
          ∧ ∃ s' events, step img s (i, action) = some s' ∧ s'.activities i = c'
            ∧ (∀ l, Chain (nextLink s'.process.heap.link) (s'.process.threads i).caughtExceptions l
              → (x.ptr ∈ l ↔ x ∈ handlers c'))
            ∧ s'.process.log = s.process.log ++ events
            ∧ (.released x.ptr ∈ events ↔ x ∉ handlers c' ∧ x ∉ inFlight c') := by
  rcases noForeign_of_reach hs with ⟨hinv, hno⟩
  refine ⟨?_, ?_, ?_, ?_⟩
  . refine ⟨_, (hinv.thread i).chain, hinv.caughtStack_nodup i, rfl, ?_⟩
    intro p
    rw [List.mem_map]
    constructor
    . rintro ⟨x, hx, heq⟩
      exact ⟨x, mem_caughtStack.mp hx, heq⟩
    . rintro ⟨x, hx, heq⟩
      exact ⟨x, mem_caughtStack.mpr hx, heq⟩
  . intro x hx
    have hxi : x ∈ excs (s.activities i) := by
      rw [mem_excs_iff]
      exact .inl hx
    rcases hinv.cxx_of_mem hxi (hno i x hxi) with ⟨e, he, hcount, _⟩
    have hpos := List.count_pos_iff.mpr hx
    refine ⟨e, he, ?_⟩
    rw [hcount]
    unfold handlerCount
    split
    . next hflight =>
      refine ⟨by omega, iff_of_true (by omega) hflight⟩
    . next hflight =>
      refine ⟨by omega, iff_of_false (by omega) hflight⟩
  . intro b e hb hcaught
    exact hinv.handlerCount_eq_zero hno hb hcaught
  . intro action x c' hl
    have hhead : (handlers (s.activities i)).head? = some x := hl.head_eq
    refine ⟨hinv.caughtExceptions_eq hhead, ?_⟩
    rcases hinv.leave_view hno img hl with ⟨s', events, hstep, hactivities, hinv', hlog, hreleased⟩
    refine ⟨s', events, hstep, hactivities, ?_, hlog, hreleased⟩
    intro l hchain
    have hexcs {y : Exc} (hy : y = x ∨ y ∈ handlers c') : y ∈ excs (s.activities i) := by
      rw [mem_excs_iff, hl.handlers_eq, List.mem_cons]
      exact .inl hy
    have hthread := hinv'.thread i
    rw [hactivities] at hthread
    rw [hchain.unique hthread.chain, List.mem_map]
    constructor
    . rintro ⟨y, hy, heq⟩
      rw [mem_caughtStack] at hy
      rw [← (hinv.thread i).eq_of_block_eq (hexcs (.inr hy)) (hexcs (.inl rfl))
        (congrArg Ptr.block heq)]
      exact hy
    . intro hx
      exact ⟨x, mem_caughtStack.mpr hx, rfl⟩

-- an exception that is caught within the handler of another one
theorem caughtStack_intact_nested
    : ∃ s, Reach State.init (step Sample.img) CxxOnly s
      ∧ Chain (nextLink s.process.heap.link) (s.process.threads 0).caughtExceptions
        [⟨1, 0⟩, ⟨0, 0⟩] := by
  have hrun : ∃ s, Reach State.init (step Sample.img) CxxOnly s
      ∧ s.activities 0 = [.handler ⟨1, false⟩, .handler ⟨0, false⟩] := by
    exact ⟨_, Reach.of_run .init (by simp [CxxOnly])
      (rfl : run _ _ [(0, .throw 0 0x2000 0), (0, .beginCatch), (0, .throw 1 0x2000 0),
        (0, .beginCatch)] = some _), rfl⟩
  rcases hrun with ⟨s, hs, hc⟩
  rcases (caughtStack_intact Sample.img hs 0).1 with ⟨l, hl, _, heq, _⟩
  rw [hc] at heq
  have hl' : l = [⟨1, 0⟩, ⟨0, 0⟩] := by
    rw [heq]
    decide
  rw [hl'] at hl
  exact ⟨s, hs, hl⟩

end State

end LibCxxRt
