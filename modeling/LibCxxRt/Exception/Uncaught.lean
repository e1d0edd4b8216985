import LibCxxRt.Exception.Cleanup
import LibCxxRt.Exception.Lemmas.Step

/-!
This module contains the proof that `uncaughtExceptions` is the number of C++ exceptions in flight,
until `__cxa_rethrow` or `__cxa_end_catch` takes a foreign exception for a C++ one.
-/

namespace LibCxxRt

open Util

namespace State

variable {img : Image} {s s' : State} {i b : Nat}

theorem Inv.uncaught_pos (hinv : s.Inv) {x : Exc} {c : List Activity}
    (hc : s.activities i = .unwinding x :: c) (hcxx : x.isForeign = false)
    : 0 < (s.process.threads i).uncaughtExceptions := by
  rw [(hinv.thread i).uncaught_eq, hc, uncaught_unwinding, hcxx]
  simp

-- the state of the thread after `__cxa_rethrow` has taken a foreign exception for a C++ one
theorem Inv.rethrow_mistaken (hinv : s.Inv) (hclean : ¬ s.Clean (i, .rethrow))
    (hstep : step img s (i, .rethrow) = some s')
    : (s'.process.threads i).uncaughtExceptions = uncaught (s'.activities i) + 1 := by
  have hmistaken : ∃ x, (handlers (s.activities i)).head? = some x ∧ x.isForeign
      ∧ (s.process.threads i).foreignExceptionState = .none := by
    unfold Clean at hclean
    simpa using hclean
  rcases hmistaken with ⟨x, hhead, hforeign, htag⟩
  have hxi : x ∈ excs (s.activities i) := mem_excs_of_head hhead
  rcases Heap.foreign_of_kind (hinv.foreign_of_mem hxi hforeign) with ⟨header, beyond, hobj, _⟩
  have htail : s.process.heap.tail ⟨x.block, 0⟩ = .ok beyond := by
    simp [Heap.tail, hobj]
  have huncaught := (hinv.thread i).uncaught_eq
  unfold step cxaRethrow at hstep
  dsimp only at hstep
  rw [hinv.caughtExceptions_eq hhead] at hstep
  dsimp only at hstep
  rw [if_neg (by simpa using htag), htail, Res.ok_bind] at hstep
  split at hstep
  . rw [Res.pure_eq_ok, toOption_ok_bind] at hstep
    simp only [pure, Option.some.injEq] at hstep
    subst hstep
    have hthreads (t : CxaTail) (ti : CxaThreadInfo)
        : ((s.process.setThread i ti).setTail ⟨x.block, 0⟩ t).threads i = ti := by
      simp [Process.setTail, Process.setThread]
    have hstill (t : CxaTail) (ti : CxaThreadInfo)
        : ((s.process.setThread i ti).setTail ⟨x.block, 0⟩ t).heap.isForeign x.block = true := by
      simp [Process.setTail, Process.setThread, Heap.setTail, hobj, Heap.isForeign]
    rw [setActivities_process, setProcess_process, setActivities_activities, Function.update_self,
      hthreads, Ptr.add_mk, hstill, uncaught_unwinding, ← huncaught]
    rfl
  . contradiction

theorem uncaughtExceptions_eq (img : Image) (hs : Reach State.init (step img) Clean s)
    : (∀ i, (s.process.threads i).uncaughtExceptions = uncaught (s.activities i))
      ∧ (∀ i x c, s.activities i = .unwinding x :: c → x.isForeign = false
        → 0 < (s.process.threads i).uncaughtExceptions)
      ∧ ∀ i s', step img s (i, .rethrow) = some s' → ¬ s.Clean (i, .rethrow)
        → (s'.process.threads i).uncaughtExceptions ≠ uncaught (s'.activities i) := by
  have hinv := Inv.of_reach hs
  refine ⟨?_, ?_, ?_⟩
  . intro i
    exact (hinv.thread i).uncaught_eq
  . intro i x c hc hcxx
    exact hinv.uncaught_pos hc hcxx
  . intro i s' hstep hclean
    rw [hinv.rethrow_mistaken hclean hstep]
    omega

-- an exception that is raised while another one is in flight
theorem uncaughtExceptions_eq_nested
    : ∃ s, Reach State.init (step Sample.img) Clean s
      ∧ (s.process.threads 0).uncaughtExceptions = 2 := by
  have hs : Reach State.init (step Sample.img) Clean _ :=
    Reach.of_run .init (by simp [Clean])
      (rfl : run _ _ [(0, .throw 0 0x2000 0), (0, .throw 1 0x2000 0)] = some _)
  refine ⟨_, hs, ?_⟩
  rw [(uncaughtExceptions_eq Sample.img hs).1 0]
  rfl

/--
A foreign exception that has lost its tag is rethrown. What the runtime takes for the handler count
is positive, so it counts the exception.
-/
theorem rethrow_counts_foreign
    : ∃ s, Reach State.init (step Sample.img) (fun _ _ => True) s
      ∧ (s.process.threads 0).uncaughtExceptions = 1 ∧ uncaught (s.activities 0) = 0 := by
  have hs : Reach State.init (step Sample.img) (fun _ _ => True) _ :=
    Reach.of_run .init (fun _ _ _ => trivial)
      (rfl : run _ _ [
        (0, .raiseForeign 0 0 none { CxaException.zero.toCxaTail with handlerCount := 1 }),
        (0, .beginCatch), (0, .throw 1 0x2000 0), (0, .beginCatch), (0, .endCatch), (0, .rethrow)
      ] = some _)
  exact ⟨_, hs, rfl, rfl⟩

end State

end LibCxxRt
