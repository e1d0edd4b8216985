import LibCxxRt.Exception.Impl.Access

/-!
This module shows that the functions with a record of their accesses compute what the functions of the
runtime compute.
-/

namespace LibCxxRt

open Util

namespace Access

@[simp]
theorem result_read (p : Ptr) (size : Nat) : (read p size).result = .ok () := by
  rfl

@[simp]
theorem result_write (p : Ptr) (size : Nat) : (write p size).result = .ok () := by
  rfl

theorem realExceptionFromException_result (h : Heap) (ex : Ptr)
    : (realExceptionFromException h ex).result = LibCxxRt.realExceptionFromException h ex := by
  unfold realExceptionFromException LibCxxRt.realExceptionFromException
  simp only [Traced.result_bind, result_read, Res.ok_bind, Traced.result_liftM]
  congr
  funext t
  split
  . rfl
  . simp only [Traced.result_bind, result_read, Res.ok_bind, Traced.result_liftM]
    congr
    funext e
    cases e.countWord with
    | referenceCount n => rfl
    | primaryException p => cases p <;> rfl

theorem addReference_result (ex : Ptr) (w : Process)
    : (addReference ex w).result = LibCxxRt.addReference ex w := by
  simp [addReference]

theorem subReference_result (ex : Ptr) (w : Process)
    : (subReference ex w).result = LibCxxRt.subReference ex w := by
  simp [subReference]

theorem cxaFreeException_result (thrownException : Ptr) (w : Process)
    : (cxaFreeException thrownException w).result = LibCxxRt.cxaFreeException thrownException w := by
  simp [cxaFreeException]

theorem releaseException_result (depth : Nat) (p : Ptr) (w : Process)
    : (releaseException depth p w).result = LibCxxRt.releaseException depth p w
      ∧ (cxaFreeDependentException depth p w).result
        = LibCxxRt.cxaFreeDependentException depth p w := by
  induction depth generalizing p w with
  | zero => exact ⟨rfl, rfl⟩
  | succ depth ih =>
    constructor
    . unfold releaseException LibCxxRt.releaseException
      simp only [Traced.result_bind, result_read, Res.ok_bind, Traced.result_liftM]
      congr
      funext t
      split
      . exact (ih ..).2
      . simp only [Traced.result_bind, subReference_result]
        congr
        funext counted
        split
        . exact cxaFreeException_result ..
        . rfl
    . unfold cxaFreeDependentException LibCxxRt.cxaFreeDependentException
      simp only [Traced.result_bind, result_read, Res.ok_bind, Traced.result_liftM]
      congr
      funext e
      split
      . rfl
      . simp only [Traced.result_bind, result_read, Res.ok_bind]
        split
        . simp [realExceptionFromException_result, (ih ..).1]
        . rfl

theorem callExceptionCleanup_result (e : Ptr) (w : Process)
    : (callExceptionCleanup e w).result = LibCxxRt.callExceptionCleanup e w := by
  unfold callExceptionCleanup LibCxxRt.callExceptionCleanup
  simp only [Traced.result_bind, result_read, Res.ok_bind, Traced.result_liftM]
  congr
  funext header
  cases header.exceptionCleanup with
  | none => rfl
  | some fn =>
    cases fn with
    | exceptionCleanup => exact cxaFreeException_result ..
    | dependentExceptionCleanup => exact (releaseException_result ..).2
    | foreign fn => rfl

theorem freeExceptionList_result (fuel : Nat) (ex : Ptr) (w : Process)
    : (freeExceptionList fuel ex w).result = LibCxxRt.freeExceptionList fuel ex w := by
  induction fuel generalizing ex w with
  | zero => rfl
  | succ fuel ih =>
    unfold freeExceptionList LibCxxRt.freeExceptionList
    simp only [Traced.result_bind, result_read, Res.ok_bind, Traced.result_liftM]
    congr
    funext t
    cases t.nextException with
    | some next => simp only [Traced.result_bind, ih, cxaFreeException_result]
    | none => exact cxaFreeException_result ..

theorem threadCleanup_result (fuel i : Nat) (w : Process)
    : (threadCleanup fuel i w).result = LibCxxRt.threadCleanup fuel i w := by
  unfold threadCleanup LibCxxRt.threadCleanup
  dsimp only
  cases (w.threads i).caughtExceptions with
  | none => rfl
  | some ex =>
    dsimp only
    split
    . simp [callExceptionCleanup_result]
    . simp [freeExceptionList_result]

theorem cxaCurrentPrimaryException_result (i : Nat) (w : Process)
    : (cxaCurrentPrimaryException i w).result = LibCxxRt.cxaCurrentPrimaryException i w := by
  unfold cxaCurrentPrimaryException LibCxxRt.cxaCurrentPrimaryException
  cases (w.threads i).caughtExceptions with
  | none => rfl
  | some ex => simp [realExceptionFromException_result, addReference_result]

theorem cxaBeginCatch_result (img : Image) (i : Nat) (exceptionObject : Ptr) (w : Process)
    : (cxaBeginCatch img i exceptionObject w).result
        =
      LibCxxRt.cxaBeginCatch img i exceptionObject w := by
  unfold cxaBeginCatch
  cases hheader : w.heap.unwindException exceptionObject with
  | error e => simp [hheader, LibCxxRt.cxaBeginCatch]
  | ok header =>
    simp only [Traced.result_bind, result_read, Res.ok_bind, Traced.result_liftM]
    split
    . next hcxx =>
      cases htail : w.heap.tail (exceptionFromPointer exceptionObject) with
      | error e => simp [hheader, hcxx, htail, LibCxxRt.cxaBeginCatch]
      | ok t =>
        simp only [Traced.result_bind, result_read, Res.ok_bind, Traced.result_liftM]
        split <;> simp
    . rfl

theorem cxaEndCatch_result (i : Nat) (w : Process)
    : (cxaEndCatch i w).result = LibCxxRt.cxaEndCatch i w := by
  unfold cxaEndCatch LibCxxRt.cxaEndCatch endCatchForeign
  dsimp only
  cases (w.threads i).caughtExceptions with
  | none => rfl
  | some ex =>
    dsimp only
    split
    . split
      . simp [callExceptionCleanup_result]
      . rfl
    . simp only [Traced.result_bind, result_read, Res.ok_bind, Traced.result_liftM]
      congr
      funext t
      simp only [result_write, Res.ok_bind]
      generalize (if t.handlerCount < 0 then t.handlerCount + 1 else t.handlerCount - 1) = n
      by_cases hn : n = 0
      . simp only [hn, ↓reduceIte, Traced.result_bind, result_read, Res.ok_bind]
        split
        . exact (releaseException_result ..).1
        . rfl
      . simp only [hn, ↓reduceIte]
        rfl

-- the unwinder has found a handler
theorem cxaRethrow_result (img : Image) (i : Nat) (w : Process)
    : (cxaRethrow img i none w).result = LibCxxRt.cxaRethrow i w := by
  unfold cxaRethrow
  cases hcaught : (w.threads i).caughtExceptions with
  | none => simp [LibCxxRt.cxaRethrow, hcaught]
  | some ex =>
    simp only [Traced.result_bind, Traced.result_liftM]
    unfold negateHandlerCount
    split
    . cases LibCxxRt.cxaRethrow i w <;> rfl
    . next htag =>
      cases htail : w.heap.tail ex with
      | error e => simp_all [LibCxxRt.cxaRethrow]
      | ok t =>
        simp only [Traced.result_bind, result_read, Res.ok_bind, Traced.result_liftM]
        split
        . cases LibCxxRt.cxaRethrow i w <;> rfl
        . cases LibCxxRt.cxaRethrow i w <;> rfl

end Access

end LibCxxRt
