import LibCxxRt.Exception.Client
import LibCxxRt.Util.Chain
import LibCxxRt.Util.Grouped
import Mathlib.Data.Set.Card
import Mathlib.Tactic.Simps.Basic

/-!
This module contains the invariant of the runtime under the programs that use it. It has two halves,
each of which looks at the heap through a view of its own.

The first half is about one thread: its caught exceptions are the exceptions that it has handlers
open for, and their handler counts are the numbers of these handlers. It depends on the heap through
the `Link` of each object only. The second half is about all threads: the reference count of a
primary exception is the number of its owners. It depends on the heap through the `Kind` of each
object only.
-/

namespace LibCxxRt

open Util

inductive Link where
  | cxx (handlerCount : Int) (nextException : Option Ptr)
  | foreign
  deriving DecidableEq, Repr

inductive Kind where
  | primary (referenceCount : Nat)
  | dependent (primaryException : Nat)
  | foreign
  -- not an exception that is ready to be thrown
  | other
  deriving DecidableEq, Repr

namespace CxaException

def kind (e : CxaException) : Kind :=
  if e.unwindHeader = ⟨exceptionClass, some .exceptionCleanup⟩ then
    match e.countWord with
    | .referenceCount n => .primary n
    | .primaryException _ => .other
  else if e.unwindHeader = ⟨dependentExceptionClass, some .dependentExceptionCleanup⟩ then
    match e.countWord with
    | .primaryException (some ⟨p, 128⟩) => .dependent p
    | _ => .other
  else
    .other

end CxaException

namespace Obj

def link : Obj → Link
  | .cxx e => .cxx e.handlerCount e.nextException
  | .foreign .. => .foreign

def kind : Obj → Kind
  | .cxx e => e.kind
  | .foreign header _ =>
    if isCxxException header.exceptionClass then
      .other
    else
      match header.exceptionCleanup with
      | none | some (.foreign _) => .foreign
      | _ => .other

end Obj

namespace Heap

def link (h : Heap) (b : Nat) : Option Link :=
  (h b).map Obj.link

def kind (h : Heap) (b : Nat) : Option Kind :=
  (h b).map Obj.kind

end Heap

@[ext]
structure View where
  link : Nat → Option Link
  kind : Nat → Option Kind
  threads : Nat → CxaThreadInfo
  log : List Event

namespace View

@[simps -fullyApplied]
def setLink (v : View) (b : Nat) (o : Option Link) : View :=
  { v with link := Function.update v.link b o }

@[simps -fullyApplied]
def setKind (v : View) (b : Nat) (o : Option Kind) : View :=
  { v with kind := Function.update v.kind b o }

@[simps -fullyApplied]
def setThread (v : View) (i : Nat) (ti : CxaThreadInfo) : View :=
  { v with threads := Function.update v.threads i ti }

@[simps -fullyApplied]
def append (v : View) (events : List Event) : View :=
  { v with log := v.log ++ events }

def free (v : View) (b : Nat) : View :=
  (v.setLink b none).setKind b none

end View

namespace Process

@[simps -fullyApplied]
def view (w : Process) : View where
  link := w.heap.link
  kind := w.heap.kind
  threads := w.threads
  log := w.log

end Process

def excs (c : List Activity) : List Exc :=
  c.map Activity.exc

def blocks (c : List Activity) : Set Nat :=
  { b | ∃ x ∈ excs c, x.block = b }

/--
What can come on top of the activities `c`. An exception that is raised or caught again is the one of
the innermost open handler. A foreign exception is only caught when no handler is open, it can be
raised again while it is in flight.
-/
structure OnTop (a : Activity) (c : List Activity) : Prop where
  innermost : a.exc ∈ handlers c → (handlers c).head? = some a.exc
  raisedAgain : a.exc ∈ inFlight c →
    a = .unwinding a.exc ∧ a.exc.isForeign ∧ a.exc ∈ handlers c
  onlyHandler : ∀ x, a = .handler x → x.isForeign → handlers c = []

def Nested : List Activity → Prop
  | [] => True
  | a :: c => Nested c ∧ OnTop a c

-- the handler of `x` is left, either at its end or by the exception in flight
inductive Leaves : List Activity → Action → Exc → List Activity → Prop where
  | finish {x : Exc} {c : List Activity} : Leaves (.handler x :: c) .endCatch x c
  | unwinding {x y : Exc} {c : List Activity} :
      Leaves (.unwinding y :: .handler x :: c) .endCatchUnwinding x (.unwinding y :: c)

-- the number of open handlers, negative if the exception is in flight
def handlerCount (c : List Activity) (x : Exc) : Int :=
  if x ∈ inFlight c then -((handlers c).count x : Int) else (handlers c).count x

-- the caught exceptions, in the order in which the oldest of their handlers have been opened
def caughtStack (c : List Activity) : List Exc :=
  (handlers c).dedup

def uncaught (c : List Activity) : Nat :=
  (inFlight c).countP fun x => !x.isForeign

def nextLink (link : Nat → Option Link) (p : Ptr) : Option (Option Ptr) :=
  if p.off = 0 then
    match link p.block with
    | some (.cxx _ next) => some next
    | some .foreign => some none
    | none => none
  else
    none

def TagMatches (tag : ForeignExceptionState) (c : List Activity) : Prop :=
  match tag with
  | .none => True
  | .caught => ∃ x, handlers c = [x] ∧ x.isForeign ∧ x ∉ inFlight c
  | .rethrown => ∃ x, handlers c = [x] ∧ x.isForeign ∧ x ∈ inFlight c

structure ThreadInv (link : Nat → Option Link) (ti : CxaThreadInfo) (c : List Activity) : Prop where
  nested : Nested c
  cxx : ∀ x ∈ excs c, x.isForeign = false →
    ∃ next, link x.block = some (.cxx (handlerCount c x) next)
  foreign : ∀ x ∈ excs c, x.isForeign → link x.block = some .foreign
  chain : Chain (nextLink link) ti.caughtExceptions ((caughtStack c).map Exc.ptr)
  uncaught_eq : ti.uncaughtExceptions = uncaught c
  tag : TagMatches ti.foreignExceptionState c

-- the dependent exceptions that own a reference to the primary exception
def dependents (kind : Nat → Option Kind) (b : Nat) : Set Nat :=
  { d | kind d = some (.dependent b) }

open Classical in
noncomputable def owners (kind : Nat → Option Kind) (owned : Set Nat) (references : Nat → Nat)
    (b : Nat) : Nat :=
  (if b ∈ owned then 1 else 0) + references b + (dependents kind b).ncard

structure OwnerInv (kind : Nat → Option Kind) (owned : Set Nat) (references : Nat → Nat)
    (thrown : Nat → Bool) : Prop where
  finite : { b | kind b ≠ none }.Finite
  ready : ∀ b, kind b ≠ some .other
  dependent : ∀ d p, kind d = some (.dependent p) → ∃ n, kind p = some (.primary n)
  count : ∀ b n, kind b = some (.primary n) → n = owners kind owned references b
  referenced : ∀ b, references b ≠ 0 → ∃ n, kind b = some (.primary n)
  thrown_eq : ∀ b n, b ∈ owned → kind b = some (.primary n) → thrown b = true

namespace State

-- the exceptions that are in flight or have an open handler
def owned (s : State) : Set Nat :=
  { b | ∃ i, b ∈ blocks (s.activities i) }

structure Inv (s : State) : Prop where
  thread : ∀ i, ThreadInv s.process.heap.link (s.process.threads i) (s.activities i)
  disjoint : ∀ i j, i ≠ j → ∀ b ∈ blocks (s.activities i), b ∉ blocks (s.activities j)
  idle : ∀ b n next, s.process.heap.link b = some (.cxx n next) → b ∉ s.owned → n = 0
  owners : OwnerInv s.process.heap.kind s.owned s.references s.thrown

-- the runtime is not going to mistake a foreign exception for one of its own
def Clean (s : State) (l : Nat × Action) : Prop :=
  match l.2 with
  | .rethrow | .endCatch | .endCatchUnwinding =>
    ∀ x, (handlers (s.activities l.1)).head? = some x → x.isForeign
      → (s.process.threads l.1).foreignExceptionState ≠ .none
  | _ => True

end State

end LibCxxRt
