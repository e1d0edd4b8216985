import LibCxxRt.Basic
import Mathlib.Logic.Function.Basic

/-!
This module contains the stack of the exceptions that cleanups are run for, which the runtime keeps in
builds for ARM EHABI, `pushCleanupException` and `__cxa_get_cleanup` of `exception.cc`. An `E` is the
address of an `_Unwind_Exception`, the exceptions for which `isCXXException` holds have a
`__cxa_exception` around it.
-/

namespace LibCxxRt

namespace ArmCleanup

-- one thread and the headers of the exceptions, a null pointer is `none`
structure State (E : Type) where
  -- `currentCleanup` of the record of the thread, if there is a record
  threadInfo : Option (Option E)
  cleanupCount : E → Int
  nextCleanup : E → Option E

variable {E : Type} [DecidableEq E] (isCXXException : E → Bool)

-- `thread_info_fast`
def State.currentCleanup (s : State E) : Res (Option E) :=
  match s.threadInfo with
  | some current => .ok current
  | none => .error .fault

def State.setCurrentCleanup (s : State E) (current : Option E) : State E :=
  { s with threadInfo := some current }

-- a C++ exception is raised by functions that call `thread_info`
def raise (s : State E) (e : E) : State E :=
  if isCXXException e ∧ s.threadInfo = none then
    { s with threadInfo := some none }
  else
    s

def pushCleanupException (s : State E) (exceptionObject : E) : Res (State E) := do
  let current ← s.currentCleanup
  if isCXXException exceptionObject then
    let count := s.cleanupCount exceptionObject + 1
    let s := { s with cleanupCount := Function.update s.cleanupCount exceptionObject count }
    if count > 1 then
      if current = some exceptionObject then
        .ok s
      else
        .error .assertion
    else
      let s := { s with nextCleanup := Function.update s.nextCleanup exceptionObject current }
      return s.setCurrentCleanup (some exceptionObject)
  else
    -- a foreign exception has no place for the link
    return s.setCurrentCleanup (some exceptionObject)

def cxaGetCleanup (s : State E) : Res (E × State E) := do
  match ← s.currentCleanup with
  -- `exceptionObject->exception_class`
  | none => .error .fault
  | some exceptionObject =>
    if isCXXException exceptionObject then
      let count := s.cleanupCount exceptionObject - 1
      let s := { s with cleanupCount := Function.update s.cleanupCount exceptionObject count }
      if count = 0 then
        let current := s.nextCleanup exceptionObject
        let s := { s with nextCleanup := Function.update s.nextCleanup exceptionObject none }
        return (exceptionObject, s.setCurrentCleanup current)
      else
        return (exceptionObject, s)
    else
      return (exceptionObject, s.setCurrentCleanup none)

-- the cleanups that a thread runs one after the other, and those that run inside of each
inductive Cleanups (E : Type) where
  | done
  | run (e : E) (inner rest : Cleanups E)

/--
The exception that each call of `__cxa_get_cleanup` returns is recorded together with the value of
`currentCleanup` after the call.
-/
def Cleanups.exec (s : State E) : Cleanups E → Res (List (E × Option (Option E)) × State E)
  | done => .ok ([], s)
  | run e inner rest => do
    let s ← pushCleanupException isCXXException (raise isCXXException s e) e
    let (before, s) ← inner.exec s
    let (returned, s) ← cxaGetCleanup isCXXException s
    let (after, s') ← rest.exec s
    return (before ++ (returned, s.threadInfo) :: after, s')

end ArmCleanup

end LibCxxRt
