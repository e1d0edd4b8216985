import LibCxxRt.Exception.Impl.Runtime
import LibCxxRt.Util.Reach
import Mathlib.Logic.Function.Basic
import Mathlib.Tactic.Simps.Basic

/-!
This module contains the programs that use the runtime, as a labelled transition system. A step is
one whole operation of one thread.

A thread keeps track of the handlers that it has open and of the exceptions that it has in flight,
innermost first. A handler is left in one of two ways, by reaching its end or because the exception
in flight propagates out of it, the compiler calls `__cxa_end_catch` for both. An exception that has
been delivered to a landing pad of a handler is not in flight any more. Code that runs on behalf of
an exception in flight, such as a destructor, can use exceptions of its own, but they do not
propagate out of it.

`references` counts the references that the program holds like a `std::exception_ptr` does, `thrown`
tells which exceptions have been thrown with `__cxa_throw`.
-/

namespace LibCxxRt

open Util

structure Exc where
  block : Nat
  isForeign : Bool
  deriving DecidableEq, Repr

namespace Exc

-- what `caughtExceptions` and `nextException` contain for the exception
def ptr (x : Exc) : Ptr :=
  ⟨x.block, 0⟩

-- the `_Unwind_Exception`
def object (x : Exc) : Ptr :=
  if x.isForeign then ⟨x.block, 0⟩ else ⟨x.block, 96⟩

end Exc

inductive Activity where
  | handler (x : Exc)
  | unwinding (x : Exc)
  deriving DecidableEq, Repr

namespace Activity

def exc : Activity → Exc
  | .handler x | .unwinding x => x

def handler? : Activity → Option Exc
  | .handler x => some x
  | .unwinding _ => none

def unwinding? : Activity → Option Exc
  | .handler _ => none
  | .unwinding x => some x

end Activity

def handlers (c : List Activity) : List Exc :=
  c.filterMap Activity.handler?

def inFlight (c : List Activity) : List Exc :=
  c.filterMap Activity.unwinding?

structure State where
  process : Process
  activities : Nat → List Activity
  references : Nat → Nat
  thrown : Nat → Bool

namespace State

@[simps -fullyApplied]
def setActivities (s : State) (i : Nat) (c : List Activity) : State :=
  { s with activities := Function.update s.activities i c }

@[simps -fullyApplied]
def setReferences (s : State) (b n : Nat) : State :=
  { s with references := Function.update s.references b n }

@[simps -fullyApplied]
def setThrown (s : State) (b : Nat) (thrown : Bool) : State :=
  { s with thrown := Function.update s.thrown b thrown }

@[simps -fullyApplied]
def setProcess (s : State) (w : Process) : State :=
  { s with process := w }

def init : State where
  process := {
    heap := fun _ => none
    threads := fun _ => .zero
    terminateHandler := 0
    unexpectedHandler := 0
    log := []
  }
  activities := fun _ => []
  references := fun _ => 0
  thrown := fun _ => false

end State

namespace Heap

def isForeign (h : Heap) (b : Nat) : Bool :=
  match h b with
  | some (.foreign ..) => true
  | _ => false

def isPrimary (h : Heap) (b : Nat) : Bool :=
  match h b with
  | some (.cxx e) => e.unwindHeader.exceptionClass == exceptionClass
  | _ => false

end Heap

inductive Action where
  | throw (b : Nat) (tinfo dest : Addr)
  | initPrimary (b : Nat) (tinfo dest : Addr)
  | raiseForeign (b : Nat) (cls : BitVec 64) (cleanup : Option Addr) (beyond : CxaTail)
  -- what the personality routine caches in the header of the exception that is in flight
  | cache (handlerSwitchValue : BitVec 32)
      (actionRecord languageSpecificData catchTemp adjustedPtr : Addr)
  | beginCatch
  | callUnexpected
  | endCatch
  | endCatchUnwinding
  | rethrow
  | currentPrimary
  | increment (b : Nat)
  | decrement (b : Nat)
  | rethrowPrimary (b d : Nat)
  deriving DecidableEq, Repr

-- `none` if the program does not get to the end of the action
def step (img : Image) (s : State) (l : Nat × Action) : Option State :=
  let i := l.1
  let w := s.process
  let c := s.activities i
  match l.2 with
  | .throw b tinfo dest => do
    let (object, w) ← (cxaAllocateException b w).toOption
    let (_, w) ← (cxaThrow i object tinfo dest w).toOption
    return ((s.setProcess w).setActivities i (.unwinding ⟨b, false⟩ :: c)).setThrown b true
  | .initPrimary b tinfo dest => do
    let (object, w) ← (cxaAllocateException b w).toOption
    let (_, w) ← (cxaInitPrimaryException object tinfo dest w).toOption
    return (s.setProcess w).setThrown b false
  | .raiseForeign b cls cleanup beyond =>
    if w.heap b = none ∧ ¬ isCxxException cls then
      let header : UnwindException := ⟨cls, cleanup.map .foreign⟩
      let w := { w with heap := w.heap.set b (.foreign header beyond) }
      some ((s.setProcess w).setActivities i (.unwinding ⟨b, true⟩ :: c))
    else
      none
  | .cache handlerSwitchValue actionRecord languageSpecificData catchTemp adjustedPtr =>
    match c with
    | .unwinding ⟨b, false⟩ :: _ => do
      let t ← (w.heap.tail ⟨b, 0⟩).toOption
      return s.setProcess (w.setTail ⟨b, 0⟩
        { t with
          handlerSwitchValue, actionRecord, languageSpecificData, catchTemp, adjustedPtr })
    | _ => none
  | .beginCatch =>
    match c with
    | .unwinding x :: c => do
      let (_, w) ← (cxaBeginCatch img i x.object w).toOption
      return (s.setProcess w).setActivities i (.handler x :: c)
    | _ => none
  | .callUnexpected =>
    match c with
    | .unwinding x :: c => do
      let (_, w) ← (cxaCallUnexpected img i x.object w).toOption
      return (s.setProcess w).setActivities i (.handler x :: c)
    | _ => none
  | .endCatch =>
    match c with
    | .handler _ :: c => do
      let w ← (cxaEndCatch i w).toOption
      return (s.setProcess w).setActivities i c
    | _ => none
  | .endCatchUnwinding =>
    match c with
    | .unwinding x :: .handler _ :: c => do
      let w ← (cxaEndCatch i w).toOption
      return (s.setProcess w).setActivities i (.unwinding x :: c)
    | _ => none
  | .rethrow => do
    let (raised, w) ← (cxaRethrow i w).toOption
    let x : Exc := ⟨raised.block, w.heap.isForeign raised.block⟩
    return (s.setProcess w).setActivities i (.unwinding x :: c)
  | .currentPrimary => do
    let (thrown, w) ← (cxaCurrentPrimaryException i w).toOption
    match thrown with
    | some p => return (s.setProcess w).setReferences p.block (s.references p.block + 1)
    | none => return s.setProcess w
  | .increment b =>
    if w.heap.isPrimary b then do
      let w ← (cxaIncrementExceptionRefcount (some ⟨b, 128⟩) w).toOption
      return (s.setProcess w).setReferences b (s.references b + 1)
    else
      none
  | .decrement b =>
    if 0 < s.references b then do
      let w ← (cxaDecrementExceptionRefcount (some ⟨b, 128⟩) w).toOption
      return (s.setProcess w).setReferences b (s.references b - 1)
    else
      none
  | .rethrowPrimary b d =>
    if 0 < s.references b then do
      let (_, w) ← (cxaRethrowPrimaryException img i d (some ⟨b, 128⟩) w).toOption
      return (s.setProcess w).setActivities i (.unwinding ⟨d, false⟩ :: c)
    else
      none

end LibCxxRt
