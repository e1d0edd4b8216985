import LibCxxRt.Exception.Impl.ActionRecord
import Mathlib.Data.List.Forall2

/-!
This module contains the decoded form of the action records of a call site and what they mean for an
exception. `ReadsChain` relates the bytes of an action chain to its clauses, `Clause.verdict` says
what one clause means for an exception and `resolve` what a whole chain means.
-/

namespace LibCxxRt

inductive Clause where
  | cleanup
  | handler (filter : BitVec 32) (type : Addr)
  | spec (filter : BitVec 32) (types : List Addr)
  deriving DecidableEq, Repr

namespace Clause

def filter : Clause → BitVec 32
  | .cleanup => 0
  | .handler filter _ => filter
  | .spec filter _ => filter

-- the iterations that the loop over the types of the clause needs
def size : Clause → Nat
  | .cleanup | .handler .. => 0
  | .spec _ types => types.length + 1

end Clause

inductive ReadsSpec (m : Mem) (context : UnwindContext) (lsda : DwarfEhLsda) :
    Addr → List Addr → Prop where
  | nil {p : Addr} (hbyte : m.byte p = .ok 0) : ReadsSpec m context lsda p []
  | cons {p : Addr} {index : BitVec 8} {type : Addr} {types : List Addr}
      (hbyte : m.byte p = .ok index) (hindex : index ≠ 0)
      (htype : getTypeInfoEntry m context lsda (index.setWidth 32) = .ok type)
      (htypes : ReadsSpec m context lsda (p + 1) types) :
      ReadsSpec m context lsda p (type :: types)

inductive ReadsClause (m : Mem) (context : UnwindContext) (lsda : DwarfEhLsda) :
    BitVec 32 → Clause → Prop where
  | cleanup : ReadsClause m context lsda 0 .cleanup
  | handler {filter : BitVec 32} {type : Addr} (hfilter : (0 : BitVec 32).slt filter)
      (htype : getTypeInfoEntry m context lsda filter = .ok type) :
      ReadsClause m context lsda filter (.handler filter type)
  | spec {filter : BitVec 32} {types : List Addr} (hfilter : filter.slt 0)
      (htypes : ReadsSpec m context lsda (lsda.typeTable - filter.signExtend 64 - 1) types) :
      ReadsClause m context lsda filter (.spec filter types)

inductive ReadsChain (m : Mem) (context : UnwindContext) (lsda : DwarfEhLsda) :
    Addr → List Clause → Prop where
  | nil : ReadsChain m context lsda 0 []
  | cons {p q : Addr} {filter displacement : BitVec 64} {r : Addr} {c : Clause} {cs : List Clause}
      (hp : p ≠ 0) (hfilter : readSleb128 m p = .ok (filter, q))
      (hdisplacement : readSleb128 m q = .ok (displacement, r))
      (hclause : ReadsClause m context lsda (filter.setWidth 32) c)
      (hrest : ReadsChain m context lsda
        (if displacement.setWidth 32 ≠ (0 : BitVec 32) then
          q + (displacement.setWidth 32).signExtend 64
        else
          0) cs) :
      ReadsChain m context lsda p (c :: cs)

inductive Verdict where
  -- the clause does not concern the exception
  | pass
  | cleanup
  -- an exception specification that permits the exception
  | permit (adjustedPtr : Addr)
  -- a foreign exception does not have an adjusted pointer
  | handle (adjustedPtr : Option Addr)
  -- an exception specification that does not permit the exception
  | violate
  deriving DecidableEq, Repr

namespace Verdict

def decides : Verdict → Bool
  | .handle _ | .violate => true
  | .pass | .cleanup | .permit _ => false

def permitted : Verdict → Option Addr
  | .permit adjustedPtr => some adjustedPtr
  | .pass | .cleanup | .handle _ | .violate => none

def isPermit (v : Verdict) : Bool :=
  v.permitted.isSome

end Verdict

-- the adjusted pointer if the exception with the header at `ex` has a type that `type` accepts
def matchType (img : Image) (h : Heap) (ex : Ptr) (type : Addr) : Res (Option Addr) := do
  let (matched, adjustedPtr) ← checkTypeSignature img h (some ex) type 0
  return if matched then some adjustedPtr else none

def matchSpec (img : Image) (h : Heap) (ex : Ptr) : List Addr → Res (Option Addr)
  | [] => .ok none
  | type :: types => do
    match ← matchType img h ex type with
    | some adjustedPtr => return some adjustedPtr
    | none => matchSpec img h ex types

namespace Clause

def verdict (img : Image) (h : Heap) (ex : Option Ptr) (c : Clause) : Res Verdict :=
  match c, ex with
  | .cleanup, _ => .ok .cleanup
  | .handler _ type, some ex => do
    match ← matchType img h ex type with
    | some adjustedPtr => return .handle (some adjustedPtr)
    | none => return .pass
  | .handler _ type, none => .ok (if type = 0 then .handle none else .pass)
  | .spec _ types, some ex => do
    match ← matchSpec img h ex types with
    | some adjustedPtr => return .permit adjustedPtr
    | none => return .violate
  | .spec .., none => .ok .pass

end Clause

-- a clause by its filter and its verdict
abbrev Judged := BitVec 32 × Verdict

def Judges (img : Image) (h : Heap) (ex : Option Ptr) (c : Clause) (j : Judged) : Prop :=
  j.1 = c.filter ∧ c.verdict img h ex = .ok j.2

-- the adjusted pointers of the satisfied exception specifications
def permitted (js : List Judged) : List Addr :=
  js.filterMap (·.2.permitted)

/--
A satisfied exception specification comes after a cleanup, and no cleanup comes after the
specification.
-/
def PermitAfterCleanup (js : List Judged) : Prop :=
  ∃ pre j post, js = pre ++ j :: post ∧ (∃ j ∈ pre, j.2 = .cleanup) ∧ j.2.isPermit
    ∧ ∀ j ∈ post, j.2 ≠ .cleanup

-- the filter of a satisfied exception specification is not the one of a cleanup
def PermitsHaveFilters (js : List Judged) : Prop :=
  ∀ j ∈ js, j.2.isPermit → j.1.slt 0

/--
What a chain means for an exception: the first clause that decides makes the frame a handler,
without one the frame is a cleanup if one of the clauses is.
-/
def resolve (js : List Judged) (found : HandlerType) (selector : BitVec 64) (adjustedPtr : Addr) :
    HandlerType × BitVec 64 × Addr :=
  match js with
  | [] => (found, selector, adjustedPtr)
  | (filter, v) :: js =>
    match v with
    | .pass => resolve js found selector adjustedPtr
    | .cleanup => resolve js .handlerCleanup 0 adjustedPtr
    | .permit adjustedPtr => resolve js found (filter.signExtend 64) adjustedPtr
    | .handle adjustedPtr' => (.handlerCatch, filter.signExtend 64, adjustedPtr'.getD adjustedPtr)
    | .violate => (.handlerCatch, filter.signExtend 64, adjustedPtr)

-- the iterations that `checkActionRecord` needs for a chain
def chainSize : List Clause → Nat
  | [] => 0
  | c :: cs => c.size + 1 + chainSize cs

end LibCxxRt
