import LibCxxRt.Exception.Impl.Runtime
import Mathlib.Logic.Function.Basic

/-!
This module contains the functions that set, get and call the terminate and unexpected handlers. The
process is linked against a full pthread implementation, so each thread has a record of its own, and
the record can be allocated.

Four of the functions keep a pointer to a record in a function-local static variable, which is
initialised when the function is called for the first time, by whichever thread that is.
-/

namespace LibCxxRt

namespace Handlers

-- what the functions for the two kinds of handlers differ in is the fields that they use
inductive Slot where
  | terminate
  | unexpected
  deriving DecidableEq, Repr

-- the variables `info`
inductive Static where
  | pathscaleSet (k : Slot)
  | std (k : Slot)
  deriving DecidableEq, Repr

end Handlers

open Handlers

namespace CxaThreadInfo

def handler (ti : CxaThreadInfo) : Slot → Addr
  | .terminate => ti.terminateHandler
  | .unexpected => ti.unexpectedHandler

def setHandler (ti : CxaThreadInfo) (k : Slot) (f : Addr) : CxaThreadInfo :=
  match k with
  | .terminate => { ti with terminateHandler := f }
  | .unexpected => { ti with unexpectedHandler := f }

@[simp]
theorem handler_setHandler_self (ti : CxaThreadInfo) (k : Slot) (f : Addr)
    : (ti.setHandler k f).handler k = f := by
  cases k <;> rfl

theorem handler_setHandler_of_ne {k k' : Slot} (ti : CxaThreadInfo) (f : Addr) (hk : k' ≠ k)
    : (ti.setHandler k f).handler k' = ti.handler k' := by
  cases k <;> cases k' <;> first | rfl | contradiction

end CxaThreadInfo

namespace Process

-- the global handlers
def handler (w : Process) : Slot → Addr
  | .terminate => w.terminateHandler
  | .unexpected => w.unexpectedHandler

def setHandler (w : Process) (k : Slot) (f : Addr) : Process :=
  match k with
  | .terminate => { w with terminateHandler := f }
  | .unexpected => { w with unexpectedHandler := f }

end Process

namespace Handlers

structure State where
  process : Process
  threadLocalHandlers : Bool
  -- the thread whose record a variable points to
  info : Static → Option Nat

namespace State

-- `static __cxa_thread_info *info = thread_info();`
def static (s : State) (x : Static) (i : Nat) : Nat × State :=
  match s.info x with
  | some j => (j, s)
  | none => (i, { s with info := Function.update s.info x (some i) })

end State

def setUseThreadLocalHandlers (flag : Bool) (s : State) : State :=
  { s with threadLocalHandlers := flag }

def pathscaleSet (k : Slot) (i : Nat) (f : Addr) (s : State) : Addr × State :=
  let (j, s) := s.static (.pathscaleSet k) i
  let info := s.process.threads j
  (info.handler k, { s with process := s.process.setThread j (info.setHandler k f) })

def pathscaleSetUnexpected := pathscaleSet .unexpected

def pathscaleSetTerminate := pathscaleSet .terminate

def stdSet (k : Slot) (i : Nat) (f : Addr) (s : State) : Addr × State :=
  if s.threadLocalHandlers then
    pathscaleSet k i f s
  else
    (s.process.handler k, { s with process := s.process.setHandler k f })

def setUnexpected := stdSet .unexpected

def setTerminate := stdSet .terminate

-- the handler that is called
def stdCall (k : Slot) (i : Nat) (s : State) : Addr × State :=
  let (j, s) := s.static (.std k) i
  let info := s.process.threads j
  (if info.handler k ≠ 0 then info.handler k else s.process.handler k, s)

def terminate := stdCall .terminate

def unexpected := stdCall .unexpected

def stdGet (k : Slot) (i : Nat) (s : State) : Addr :=
  let info := s.process.threads i
  if info.handler k ≠ 0 then info.handler k else s.process.handler k

def getUnexpected := stdGet .unexpected

def getTerminate := stdGet .terminate

inductive Call where
  | pathscaleSetUnexpected (f : Addr)
  | pathscaleSetTerminate (f : Addr)
  | setUnexpected (f : Addr)
  | setTerminate (f : Addr)
  | terminate
  | unexpected
  | getUnexpected
  | getTerminate
  deriving DecidableEq, Repr

def step (s : State) (i : Nat) : Call → Addr × State
  | .pathscaleSetUnexpected f => pathscaleSetUnexpected i f s
  | .pathscaleSetTerminate f => pathscaleSetTerminate i f s
  | .setUnexpected f => setUnexpected i f s
  | .setTerminate f => setTerminate i f s
  | .terminate => terminate i s
  | .unexpected => unexpected i s
  | .getUnexpected => (getUnexpected i s, s)
  | .getTerminate => (getTerminate i s, s)

-- each call is an atomic step
def run (s : State) : List (Nat × Call) → State
  | [] => s
  | (i, c) :: ls => run (step s i c).2 ls

-- the first call of a process in which no thread has installed a handler
def start (w : Process) : State :=
  setUseThreadLocalHandlers true ⟨w, false, fun _ => none⟩

end Handlers

end LibCxxRt
