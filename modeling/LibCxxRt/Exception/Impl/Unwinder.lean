import LibCxxRt.Exception.Impl.Personality

/-!
This module contains the part of the Itanium unwinder that drives the personality routine, over the
contexts of the frames on the stack, innermost first.

`LandingPadCode` is what the program does from a landing pad on, until the landing pad resumes with
the next frame or, for a handler, until the exception is raised again. `cleanupPass` is the walk
over the frames that the exception propagates through, it returns what the personality routine
answered for each of them. The second phase is such a walk up to the frame that reported the
handler, a forced unwind is one over the whole stack.
-/

namespace LibCxxRt

inductive SearchResult where
  | handlerFound (passed : List UnwindContext) (handler : UnwindContext)
  | endOfStack
  | fatalPhase1Error
  deriving DecidableEq, Repr

namespace SearchResult

def push (f : UnwindContext) : SearchResult → SearchResult
  | .handlerFound passed handler => .handlerFound (f :: passed) handler
  | .endOfStack => .endOfStack
  | .fatalPhase1Error => .fatalPhase1Error

end SearchResult

abbrev LandingPadCode := UnwindContext → Heap → Heap

abbrev Answer := UnwindReasonCode × UnwindContext

section

variable (img : Image) (fuel : Nat) (code : LandingPadCode) (cls : BitVec 64) (exceptionObject : Ptr)

def searchPhase : List UnwindContext → Heap → Res (SearchResult × Heap)
  | [], h => .ok (.endOfStack, h)
  | f :: fs, h => do
    let (reason, _, h) ← gxxPersonalityV0 img fuel 1 .searchPhase cls exceptionObject f h
    match reason with
    | .handlerFound => return (.handlerFound [] f, h)
    | .continueUnwind =>
      let (res, h) ← searchPhase fs h
      return (res.push f, h)
    | _ => return (.fatalPhase1Error, h)

def cleanupPass (actions : UnwindAction) : List UnwindContext → Heap → Res (List Answer × Heap)
  | [], h => .ok ([], h)
  | f :: fs, h => do
    let (reason, context, h) ← gxxPersonalityV0 img fuel 1 actions cls exceptionObject f h
    let h := if reason = .installContext then code context h else h
    let (answers, h) ← cleanupPass actions fs h
    return ((reason, context) :: answers, h)

structure Delivery where
  passed : List Answer
  handler : Answer
  heap : Heap

def deliver (passed : List UnwindContext) (handler : UnwindContext) (h : Heap) : Res Delivery := do
  let (answers, h) ← cleanupPass img fuel code cls exceptionObject .cleanupPhase passed h
  let (reason, context, h) ←
    gxxPersonalityV0 img fuel 1 (.cleanupPhase ||| .handlerFrame) cls exceptionObject handler h
  return { passed := answers, handler := (reason, context), heap := h }

def forcedUnwind (frames : List UnwindContext) (h : Heap) : Res (List Answer × Heap) :=
  cleanupPass img fuel code cls exceptionObject (.cleanupPhase ||| .forceUnwind) frames h

-- one exception object can be raised and forcibly unwound any number of times
inductive Episode where
  | raise (frames : List UnwindContext)
  | forced (frames : List UnwindContext)

namespace Episode

def frames : Episode → List UnwindContext
  | .raise frames | .forced frames => frames

end Episode

def runEpisode (e : Episode) (h : Heap) : Res Heap :=
  match e with
  | .raise frames => do
    let (res, h) ← searchPhase img fuel cls exceptionObject frames h
    match res with
    | .handlerFound passed handler =>
      let d ← deliver img fuel code cls exceptionObject passed handler h
      return code d.handler.2 d.heap
    | .endOfStack | .fatalPhase1Error => return h
  | .forced frames => do
    let (_, h) ← forcedUnwind img fuel code cls exceptionObject frames h
    return h

def runEpisodes : List Episode → Heap → Res Heap
  | [], h => .ok h
  | e :: es, h => do
    let h ← runEpisode img fuel code cls exceptionObject e h
    runEpisodes es h

end

end LibCxxRt
