import LibCxxRt.Exception.ActionTable
import LibCxxRt.Exception.Impl.Unwinder

/-!
This module contains the decoded form of a frame and the notion of an exception that is being
raised. A `FrameView` is what the personality routine finds in the tables for a frame, with the
clauses of the action chain or, once an exception is fixed, with their verdicts.
-/

namespace LibCxxRt

inductive FrameView (α : Type) where
  | noLsda
  | noCallsite
  | site (action : DwarfEhAction) (chain : Option (List α))

namespace FrameView

-- the clauses of a frame, without an action record there are none
def clauses {α : Type} : FrameView α → List α
  | .noLsda | .noCallsite | .site _ none => []
  | .site _ (some cs) => cs

def size (v : FrameView Clause) : Nat :=
  chainSize v.clauses

end FrameView

inductive ReadsSite (m : Mem) (context : UnwindContext) (lsda : DwarfEhLsda)
    (action : DwarfEhAction) : Option (List Clause) → Prop where
  | none (haction : action.actionRecord = 0) : ReadsSite m context lsda action none
  | some {cs : List Clause} (haction : action.actionRecord ≠ 0)
      (hchain : ReadsChain m context lsda action.actionRecord cs) :
      ReadsSite m context lsda action (some cs)

inductive ReadsFrame (m : Mem) (context : UnwindContext) : FrameView Clause → Prop where
  | noLsda (hlsda : context.languageSpecificData = 0) : ReadsFrame m context .noLsda
  | noCallsite {lsda : DwarfEhLsda} {action : DwarfEhAction}
      (hlsda : context.languageSpecificData ≠ 0)
      (hparse : parseLsda m context context.languageSpecificData = .ok lsda)
      (hfind : dwarfEhFindCallsite m context lsda = .ok (false, action)) :
      ReadsFrame m context .noCallsite
  | site {lsda : DwarfEhLsda} {action : DwarfEhAction} {chain : Option (List Clause)}
      (hlsda : context.languageSpecificData ≠ 0)
      (hparse : parseLsda m context context.languageSpecificData = .ok lsda)
      (hfind : dwarfEhFindCallsite m context lsda = .ok (true, action))
      (hsite : ReadsSite m context lsda action chain) :
      ReadsFrame m context (.site action chain)

-- the tables of a frame for which an action record comes with a landing pad
def FrameView.HasLandingPads {α : Type} : FrameView α → Prop
  | .noLsda | .noCallsite => True
  | .site action _ => action.actionRecord ≠ 0 → action.landingPad ≠ 0

inductive JudgesFrame (img : Image) (h : Heap) (ex : Option Ptr) :
    FrameView Clause → FrameView Judged → Prop where
  | noLsda : JudgesFrame img h ex .noLsda .noLsda
  | noCallsite : JudgesFrame img h ex .noCallsite .noCallsite
  | site {action : DwarfEhAction} {chain : Option (List Clause)} {jchain : Option (List Judged)}
      (hchain : Option.Rel (List.Forall₂ (Judges img h ex)) chain jchain) :
      JudgesFrame img h ex (.site action chain) (.site action jchain)

/--
An exception object that is handed to the unwinder with the class `cls`. For a C++ exception `ex` is
its header, `real` the header of the primary exception and `t` the part of the header that the
personality routine writes to. For a foreign exception there is no header and `t` is arbitrary.
-/
inductive Raised (h : Heap) (obj : Ptr) (cls : BitVec 64) :
    Option Ptr → Option Ptr → CxaTail → Prop where
  | cxx {e : CxaException} {real : Ptr} (hoff : obj.off = 96)
      (hheader : h obj.block = some (.cxx e)) (hcls : cls = e.unwindHeader.exceptionClass)
      (hcxx : isCxxException cls)
      (hreal : realExceptionFromException h (exceptionFromPointer obj) = .ok real) :
      Raised h obj cls (some (exceptionFromPointer obj)) (some real) e.toCxaTail
  | foreign {u : UnwindException} {beyond t : CxaTail} (hoff : obj.off = 0)
      (hheader : h obj.block = some (.foreign u beyond)) (hcls : cls = u.exceptionClass)
      (hforeign : ¬ isCxxException cls) :
      Raised h obj cls none none t

namespace Heap

-- the heap after the personality routine has written the header at `ex`
def withTail (h : Heap) (ex : Option Ptr) (t : CxaTail) : Heap :=
  match ex with
  | some ex => h.setTail ex t
  | none => h

-- the part of an exception that the verdicts depend on
def typeOf (h : Heap) (ex : Option Ptr) : Option (Res Addr) :=
  ex.map fun p => (h.cxa p).map (·.exceptionType)

end Heap

namespace CxaTail

-- the fields that carry the result of the search phase to the cleanup phase
def cache (t : CxaTail) : BitVec 32 × Addr × Addr :=
  (t.handlerSwitchValue, t.catchTemp, t.adjustedPtr)

end CxaTail

/--
Code that leaves an exception alone: it keeps the object, its type and what the personality routine
has cached in the header. It can throw, catch and destroy other exceptions, and it can open and close
handlers of this one.
-/
def LandingPadCode.Spares (code : LandingPadCode) (obj : Ptr) (cls : BitVec 64)
    (ex real : Option Ptr) : Prop :=
  ∀ context h t, Raised h obj cls ex real t →
    ∃ t', Raised (code context h) obj cls ex real t' ∧ t'.cache = t.cache
      ∧ (code context h).typeOf real = h.typeOf real

def resolveSite (chain : Option (List Judged)) (adjustedPtr : Addr) :
    HandlerType × BitVec 64 × Addr :=
  match chain with
  | some js => resolve js .handlerNone 0 adjustedPtr
  | none => (.handlerCleanup, 0, adjustedPtr)

namespace FrameView

-- the search phase stops here
def stops : FrameView Judged → Bool
  | .noLsda => false
  | .noCallsite => true
  | .site _ chain => (resolveSite chain 0).1 == .handlerCatch

-- `adjustedPtr` after the search phase has looked at a frame
def searchAdjusted (j : FrameView Judged) (adjustedPtr : Addr) : Addr :=
  match j with
  | .noLsda | .noCallsite => adjustedPtr
  | .site _ chain => (resolveSite chain adjustedPtr).2.2

-- `adjustedPtr` after the cleanup phase has looked at a frame
def cleanupAdjusted (j : FrameView Judged) (adjustedPtr : Addr) : Addr :=
  match j with
  | .noLsda | .noCallsite => adjustedPtr
  | .site action chain =>
    if action.landingPad = 0 then adjustedPtr else (resolveSite chain adjustedPtr).2.2

-- the header after the search phase has looked at a frame
def searchTail (j : FrameView Judged) (context : UnwindContext) (t : CxaTail) : CxaTail :=
  match j with
  | .noLsda | .noCallsite => t
  | .site action chain =>
    if (resolveSite chain 0).1 = .handlerCatch then
      {
        t with
        handlerSwitchValue := (resolveSite chain 0).2.1.setWidth 32
        actionRecord := action.actionRecord
        languageSpecificData := context.languageSpecificData
        catchTemp := action.landingPad
        adjustedPtr := (resolveSite chain t.adjustedPtr).2.2
      }
    else
      { t with adjustedPtr := (resolveSite chain t.adjustedPtr).2.2 }

-- what the personality routine answers for a frame that does not have the handler
def cleanupAnswer (j : FrameView Judged) (obj : Ptr) (context : UnwindContext) :
    UnwindReasonCode × UnwindContext :=
  match j with
  | .noLsda | .noCallsite => (.continueUnwind, context)
  | .site action chain =>
    if action.landingPad ≠ 0 ∧ (resolveSite chain 0).1 = .handlerCleanup then
      (.installContext,
        installContext context obj (resolveSite chain 0).2.1 action.landingPad)
    else
      (.continueUnwind, context)

/--
The cleanup phase enters the frame as a cleanup, with the selector of the satisfied exception
specification that comes last.
-/
def ClobbersSelector : FrameView Judged → Prop
  | .noLsda | .noCallsite | .site _ none => False
  | .site action (some js) =>
    action.landingPad ≠ 0 ∧ (∀ j ∈ js, j.2.decides = false) ∧ PermitAfterCleanup js

-- there is code to run when an exception propagates through the frame
def HasCleanup : FrameView Judged → Prop
  | .noLsda | .noCallsite => False
  | .site action none => action.landingPad ≠ 0
  | .site action (some js) => action.landingPad ≠ 0 ∧ ∃ j ∈ js, j.2 = .cleanup

-- no clause of the frame catches the exception or stops it
def LetsThrough (j : FrameView Judged) : Prop :=
  ∀ c ∈ j.clauses, c.2.decides = false

-- the adjusted pointers that the cleanup phase computes for the frame
def permitted : FrameView Judged → List Addr
  | .noLsda | .noCallsite | .site _ none => []
  | .site action (some js) => if action.landingPad = 0 then [] else LibCxxRt.permitted js

-- what the frame with the handler is entered with when nothing could be cached in a header
def handlerContext (j : FrameView Judged) (obj : Ptr) (context : UnwindContext) : UnwindContext :=
  match j with
  | .noLsda | .noCallsite => installContext context obj 0 0
  | .site action chain => installContext context obj (resolveSite chain 0).2.1 action.landingPad

end FrameView

-- what is in the tables for a frame, `fuel` is enough to find out
def Known (img : Image) (h : Heap) (real : Option Ptr) (fuel : Nat) (context : UnwindContext)
    (j : FrameView Judged) : Prop :=
  ∃ v, ReadsFrame img.mem context v ∧ JudgesFrame img h real v j ∧ v.size ≤ fuel

def WellFormed (img : Image) (h : Heap) (real : Option Ptr) (fuel : Nat)
    (context : UnwindContext) : Prop :=
  ∃ j, Known img h real fuel context j ∧ j.HasLandingPads

end LibCxxRt
