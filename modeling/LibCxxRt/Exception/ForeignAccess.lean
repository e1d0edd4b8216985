import LibCxxRt.Exception.Cleanup
import LibCxxRt.Exception.Lemmas.Access
import LibCxxRt.Exception.Lemmas.View

/-!
This module contains what the runtime accesses when the innermost handled exception is a foreign one.
The memory of this exception that it may access is its `_Unwind_Exception`, which are the first 32
bytes. Several functions take the exception for a `__cxa_exception` without a look at
`foreign_exception_state`.
-/

namespace LibCxxRt

open Util

namespace Access

-- the innermost handled exception of the thread is the foreign exception `b`
structure ForeignHead (w : Process) (i b : Nat) : Prop where
  tag : (w.threads i).foreignExceptionState ≠ .none
  caught : (w.threads i).caughtExceptions = some ⟨b, 0⟩
  kind : w.heap.kind b = some .foreign

def InUnwindException (b : Nat) (a : Access) : Prop :=
  a.ptr.block = b → 0 ≤ a.ptr.off ∧ a.ptr.off + a.size ≤ 32

inductive Entry where
  | currentPrimary
  | currentType
  | endCatch
  | rethrow (err : Option UnwindReasonCode)
  | threadCleanup (fuel : Nat)
  | terminate (stdException : Addr)
  deriving DecidableEq, Repr

/--
The function only accesses the `_Unwind_Exception`, and the queries find no C++ exception.
-/
def Entry.Respects (img : Image) (private1 : Nat → Addr) (i b : Nat) (w : Process) : Entry → Prop
  | .currentPrimary => Traced.Only (InUnwindException b) (cxaCurrentPrimaryException i w)
    ∧ (cxaCurrentPrimaryException i w).result = .ok (none, w)
  | .currentType => Traced.Only (InUnwindException b) (cxaCurrentExceptionType private1 i w)
    ∧ (cxaCurrentExceptionType private1 i w).result = .ok 0
  | .endCatch => Traced.Only (InUnwindException b) (cxaEndCatch i w)
  | .rethrow err => Traced.Only (InUnwindException b) (cxaRethrow img i err w)
  | .threadCleanup fuel => Traced.Only (InUnwindException b) (Access.threadCleanup fuel i w)
  | .terminate stdException =>
    Traced.Only (InUnwindException b) (terminateWithDiagnostics img private1 stdException i w)

def Entry.Sound (private1 : Nat → Addr) (b : Nat) : Entry → Prop
  | .currentPrimary | .terminate _ => False
  | .currentType => private1 b = 0
  | .endCatch | .threadCleanup _ => True
  | .rethrow err => err ≠ some .endOfStack

variable {P : Access → Prop} {img : Image} {private1 : Nat → Addr} {i b : Nat} {w : Process}

@[simp]
theorem only_read (p : Ptr) (size : Nat) : Traced.Only P (read p size) ↔ P ⟨p, size, false⟩ := by
  exact Traced.only_note _

@[simp]
theorem only_write (p : Ptr) (size : Nat) : Traced.Only P (write p size) ↔ P ⟨p, size, true⟩ := by
  exact Traced.only_note _

theorem inUnwindException_iff {off : Int} {size : Nat} {isWrite : Bool}
    : InUnwindException b ⟨⟨b, off⟩, size, isWrite⟩ ↔ 0 ≤ off ∧ off + size ≤ 32 := by
  simp [InUnwindException]

-- the class of a `__cxa_exception` is not in the `_Unwind_Exception` at its beginning
theorem not_only_realExceptionFromException (h : Heap)
    : ¬ Traced.Only (InUnwindException b) (realExceptionFromException h ⟨b, 0⟩) := by
  unfold realExceptionFromException
  rw [Traced.only_bind, only_read]
  rintro ⟨hread, _⟩
  simp [inUnwindException_iff, unwindHeader, exceptionClass] at hread

theorem not_only_reportFailure
    : ¬ Traced.Only (InUnwindException b) (reportFailure img i .endOfStack ⟨b, 0⟩ w) := by
  unfold reportFailure cxaBeginCatch
  simp only [Traced.only_bind, only_read]
  rintro ⟨⟨hread, _⟩, _⟩
  simp [inUnwindException_iff, unwindHeader, exceptionClass] at hread

namespace ForeignHead

theorem only_callExceptionCleanup (h : ForeignHead w i b)
    : Traced.Only (InUnwindException b) (callExceptionCleanup ⟨b, 0⟩ w) := by
  rcases Heap.foreign_of_kind h.kind with ⟨header, beyond, hobj, _, hcleanup⟩
  have hheader : w.heap.unwindException ⟨b, 0⟩ = .ok header := by
    simp [Heap.unwindException, hobj]
  unfold callExceptionCleanup
  simp only [Traced.only_bind, only_read, Traced.only_liftM, Traced.result_liftM, true_and]
  refine ⟨by simp [inUnwindException_iff, exceptionCleanup], ?_⟩
  intro _ _ header' hheader'
  rw [hheader, Except.ok.injEq] at hheader'
  subst hheader'
  rcases hcleanup with hnone | ⟨fn, hfn⟩
  . rw [hnone]
    exact Traced.only_pure w
  . rw [hfn]
    exact Traced.only_pure _

theorem only_cxaRethrow (h : ForeignHead w i b) (err : Option UnwindReasonCode)
    : Traced.Only (InUnwindException b) (cxaRethrow img i err w) ↔ err ≠ some .endOfStack := by
  have hnegate : negateHandlerCount (w.threads i) ⟨b, 0⟩ w = pure () := if_pos h.tag
  have hrethrow : LibCxxRt.cxaRethrow i w
      = .ok (⟨b, 0⟩, w.setThread i { w.threads i with foreignExceptionState := .rethrown }) := by
    simp [LibCxxRt.cxaRethrow, h.caught, h.tag]
  unfold cxaRethrow
  simp only [h.caught, hnegate, Traced.only_bind, Traced.only_pure, Traced.only_liftM,
    Traced.result_pure, Traced.result_liftM, hrethrow, true_and, Except.ok.injEq, forall_const]
  constructor
  . rintro honly rfl
    exact not_only_reportFailure (honly _ rfl)
  . rintro herr _ rfl
    cases err with
    | none => exact Traced.only_pure _
    | some err =>
      cases err <;> first | contradiction | exact Traced.only_lift _

theorem respects_iff (h : ForeignHead w i b) (entry : Entry)
    : entry.Respects img private1 i b w ↔ entry.Sound private1 b := by
  cases entry with
  | currentPrimary =>
    refine iff_of_false ?_ id
    rintro ⟨honly, _⟩
    unfold cxaCurrentPrimaryException at honly
    rw [h.caught, Traced.only_bind] at honly
    exact not_only_realExceptionFromException _ honly.1
  | currentType =>
    rcases Heap.foreign_of_kind h.kind with ⟨header, beyond, hobj, _⟩
    unfold Entry.Respects Entry.Sound cxaCurrentExceptionType exceptionTypeOf
    simp only [h.caught, hobj, Traced.only_bind, only_read, Traced.only_pure, Traced.result_bind,
      Traced.result_pure, result_read, Res.ok_bind, Except.ok.injEq, and_true, forall_const,
      Ptr.add_mk]
    exact and_iff_right (by simp [inUnwindException_iff, exceptionType])
  | endCatch =>
    refine iff_of_true ?_ trivial
    unfold Entry.Respects cxaEndCatch
    simp only [h.caught, h.tag, ne_eq, not_false_eq_true, ↓reduceIte]
    split
    . simp only [Traced.only_bind, Traced.only_pure, implies_true, and_true]
      exact h.only_callExceptionCleanup
    . exact Traced.only_pure _
  | rethrow err => exact h.only_cxaRethrow err
  | threadCleanup fuel =>
    refine iff_of_true ?_ trivial
    unfold Entry.Respects Access.threadCleanup
    simp only [h.caught, h.tag, ne_eq, not_false_eq_true, ↓reduceIte, Traced.only_bind,
      Traced.only_pure, implies_true, and_true]
    exact h.only_callExceptionCleanup
  | terminate stdException =>
    refine iff_of_false ?_ id
    intro honly
    dsimp only [Entry.Respects] at honly
    unfold terminateWithDiagnostics at honly
    rw [h.caught, Traced.only_bind] at honly
    exact not_only_realExceptionFromException _ honly.1

end ForeignHead

/--
Which functions leave the memory of a foreign exception alone that is not an `_Unwind_Exception`.
-/
theorem respects_iff_sound (img : Image) (private1 : Nat → Addr) (h : ForeignHead w i b)
    (entry : Entry) : entry.Respects img private1 i b w ↔ entry.Sound private1 b := by
  exact h.respects_iff entry

-- a foreign exception has been caught
theorem respects_iff_sound_caught
    : ∃ s, Reach State.init (step Sample.img) State.Clean s ∧ ForeignHead s.process 0 0
      ∧ Entry.endCatch.Respects Sample.img (fun _ => 0) 0 0 s.process
      ∧ ¬ (Entry.rethrow (some .endOfStack)).Respects Sample.img (fun _ => 0) 0 0 s.process := by
  have hrun : ∃ s, Reach State.init (step Sample.img) State.Clean s ∧ ForeignHead s.process 0 0 :=
    ⟨_, Reach.of_run .init (by simp [State.Clean])
      (rfl : run _ _ [(0, .raiseForeign 0 0 none CxaException.zero.toCxaTail), (0, .beginCatch)]
        = some _), by decide, rfl, rfl⟩
  rcases hrun with ⟨s, hs, hhead⟩
  refine ⟨s, hs, hhead, ?_, ?_⟩
  . exact (respects_iff_sound Sample.img (fun _ => 0) hhead .endCatch).mpr trivial
  . rw [respects_iff_sound Sample.img (fun _ => 0) hhead]
    simp [Entry.Sound]

-- `__cxa_current_primary_exception` reads the class that a `__cxa_exception` would have
theorem currentPrimary_reads_beyond
    : ∃ s, Reach State.init (step Sample.img) State.Clean s ∧ ForeignHead s.process 0 0
      ∧ ⟨⟨0, 96⟩, 8, false⟩ ∈ (cxaCurrentPrimaryException 0 s.process).record
      ∧ ¬ Entry.currentPrimary.Respects Sample.img (fun _ => 0) 0 0 s.process := by
  have hrun : ∃ s, Reach State.init (step Sample.img) State.Clean s ∧ ForeignHead s.process 0 0
      ∧ ⟨⟨0, 96⟩, 8, false⟩ ∈ (cxaCurrentPrimaryException 0 s.process).record :=
    ⟨_, Reach.of_run .init (by simp [State.Clean])
      (rfl : run _ _ [(0, .raiseForeign 0 0 none CxaException.zero.toCxaTail), (0, .beginCatch)]
        = some _), ⟨by decide, rfl, rfl⟩, .head _⟩
  rcases hrun with ⟨s, hs, hhead, hread⟩
  refine ⟨s, hs, hhead, hread, ?_⟩
  rintro ⟨honly, _⟩
  have hin := honly _ hread
  simp [inUnwindException_iff] at hin

end Access

end LibCxxRt
