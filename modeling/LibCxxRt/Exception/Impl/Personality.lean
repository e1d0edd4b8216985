import LibCxxRt.Exception.Impl.ActionRecord

/-!
This module contains the personality routine `__gxx_personality_v0`. It returns the context with the
registers that it has set and the heap with the exception header that it has written to.
-/

namespace LibCxxRt

def saveLandingPad (h : Heap) (ex : Option Ptr) (selector : BitVec 32) (landingPad : Addr) :
    Res Heap :=
  match ex with
  | some ex => do
    let t ← h.tail ex
    return h.setTail ex { t with handlerSwitchValue := selector, catchTemp := landingPad }
  | none => .ok h

def loadLandingPad (h : Heap) (ex : Option Ptr) (selector : BitVec 64) (landingPad : Addr) :
    Res (BitVec 64 × Addr) :=
  match ex with
  | some ex => do
    let t ← h.tail ex
    return (t.handlerSwitchValue.signExtend 64, t.catchTemp)
  | none => .ok (selector, landingPad)

-- the call of `check_action_record` with `ex->adjustedPtr` passed by reference
def checkActionRecordOf (img : Image) (fuel : Nat) (context : UnwindContext) (lsda : DwarfEhLsda)
    (actionRecord : Addr) (ex realEx : Option Ptr) (selector : BitVec 64) (h : Heap) :
    Res (HandlerType × BitVec 64 × Heap) :=
  match ex with
  | some ex => do
    let t ← h.tail ex
    let (found, selector, adjustedPtr) ←
      checkActionRecord img h fuel context lsda actionRecord realEx selector t.adjustedPtr
    return (found, selector, h.setTail ex { t with adjustedPtr })
  | none => do
    -- without an exception nothing is written through the reference
    let (found, selector, _) ←
      checkActionRecord img h fuel context lsda actionRecord realEx selector 0
    return (found, selector, h)

def realExceptionOf (h : Heap) : Option Ptr → Res (Option Ptr)
  | some ex => do return some (← realExceptionFromException h ex)
  | none => .ok none

def installContext (context : UnwindContext) (exceptionObject : Ptr) (selector : BitVec 64)
    (landingPad : Addr) : UnwindContext :=
  { context with ip := landingPad, gr0 := some exceptionObject, gr1 := selector }

def gxxPersonalityV0 (img : Image) (fuel : Nat) (version : Nat) (actions : UnwindAction)
    (cls : BitVec 64) (exceptionObject : Ptr) (context : UnwindContext) (h : Heap) :
    Res (UnwindReasonCode × UnwindContext × Heap) :=
  if version ≠ 1 then
    .ok (.fatalPhase1Error, context, h)
  else do
    let ex := if isCxxException cls then some (exceptionFromPointer exceptionObject) else none
    let realEx ← realExceptionOf h ex
    let lsdaAddr := context.languageSpecificData
    if lsdaAddr = 0 then
      return (.continueUnwind, context, h)
    else if actions.has .searchPhase then
      let lsda ← parseLsda img.mem context lsdaAddr
      let (found, action) ← dwarfEhFindCallsite img.mem context lsda
      if !found then
        return (.handlerFound, context, h)
      else
        let (foundHandler, selector, h) ←
          checkActionRecordOf img fuel context lsda action.actionRecord ex realEx 0 h
        if foundHandler = .handlerCatch then
          match ex with
          | some ex =>
            let h ← saveLandingPad h (some ex) (selector.setWidth 32) action.landingPad
            let t ← h.tail ex
            let h := h.setTail ex
              { t with languageSpecificData := lsdaAddr, actionRecord := action.actionRecord }
            return (.handlerFound, context, h)
          | none => return (.handlerFound, context, h)
        else
          return (.continueUnwind, context, h)
    else if !actions.has .handlerFrame then
      let lsda ← parseLsda img.mem context lsdaAddr
      let (_, action) ← dwarfEhFindCallsite img.mem context lsda
      if action.landingPad = 0 then
        return (.continueUnwind, context, h)
      else
        let (foundHandler, selector, h) ←
          checkActionRecordOf img fuel context lsda action.actionRecord ex realEx 0 h
        if foundHandler ≠ .handlerCleanup then
          return (.continueUnwind, context, h)
        else
          return (.installContext, installContext context exceptionObject selector action.landingPad,
            h)
    else
      match ex with
      | none =>
        let lsda ← parseLsda img.mem context lsdaAddr
        let (_, action) ← dwarfEhFindCallsite img.mem context lsda
        let (_, selector, h) ←
          checkActionRecordOf img fuel context lsda action.actionRecord none none 0 h
        return (.installContext, installContext context exceptionObject selector action.landingPad,
          h)
      | some ex =>
        let t ← h.tail ex
        if t.catchTemp = 0 then
          .error .terminate
        else
          let (selector, landingPad) ← loadLandingPad h (some ex) 0 0
          let h := h.setTail ex { t with catchTemp := 0, handlerSwitchValue := 0 }
          return (.installContext, installContext context exceptionObject selector landingPad, h)

end LibCxxRt
