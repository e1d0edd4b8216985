import LibCxxRt.Basic
import Mathlib.Logic.Function.Basic

/-!
This module contains the registry of exit handlers for Solaris, `__cxa_atexit` and `__cxa_finalize` of
`cxa_atexit.c`, as one thread sees it. A node keeps its contents when it is freed, a read of such a node
is noted in `staleReads`. `called` contains the handlers that have been called, `registered` those that
have been registered, the newest one first.
-/

namespace LibCxxRt

namespace AtExit

inductive Stop where
  -- the mutex is not recursive and the thread already has it
  | deadlock
  -- the traversal takes more iterations than the model runs it for
  | outOfFuel
  deriving DecidableEq, Repr

-- a registration
structure Handler where
  f : Addr
  p : Addr
  d : Addr
  deriving DecidableEq, Repr

-- `struct atexit_handler`, a null pointer is `none`
structure AtexitHandler extends Handler where
  next : Option Nat
  deriving DecidableEq, Repr

structure State where
  node : Nat → AtexitHandler
  live : Nat → Bool
  head : Option Nat
  locked : Bool
  called : List Handler
  registered : List Handler
  staleReads : List Nat

/--
What a handler registers while it runs, and what `malloc` returns for each of these registrations. It can
depend on the handlers that have been called before.
-/
abbrev Body := List Handler → Handler → List (Handler × Option Nat)

namespace State

def init : State where
  node := fun _ => ⟨⟨0, 0, 0⟩, none⟩
  live := fun _ => false
  head := none
  locked := false
  called := []
  registered := []
  staleReads := []

-- the fields of a node are read
def read (s : State) (h : Nat) : AtexitHandler × State :=
  (s.node h, if s.live h then s else { s with staleReads := s.staleReads ++ [h] })

-- `*last = next`, where `last` is the address of `head` or of the link in a node
def setLast (s : State) (last next : Option Nat) : State :=
  match last with
  | none => { s with head := next }
  | some h => { s with node := Function.update s.node h { s.node h with next } }

def free (s : State) (h : Nat) : State :=
  { s with live := Function.update s.live h false }

-- the node is the result of `malloc`
def push (s : State) (h : Nat) (handler : Handler) : State :=
  { s with
    node := Function.update s.node h ⟨handler, s.head⟩
    live := Function.update s.live h true
    head := some h
    registered := handler :: s.registered
  }

end State

def cxaAtexit (s : State) (handler : Handler) (malloc : Option Nat) : Except Stop (Int × State) :=
  if s.locked then
    .error .deadlock
  else
    match malloc with
    | none => .ok (1, s)
    | some h => .ok (0, s.push h handler)

def registerAll (s : State) : List (Handler × Option Nat) → Except Stop State
  | [] => .ok s
  | (handler, malloc) :: requests => do
    let (_, s) ← cxaAtexit s handler malloc
    registerAll s requests

-- `h->f(h->p)`
def invoke (body : Body) (s : State) (handler : Handler) : Except Stop State :=
  registerAll { s with called := s.called ++ [handler] } (body s.called handler)

def cxaFinalize (body : Body) (s : State) (d : Addr) (fuel : Nat) : Except Stop State :=
  if s.locked then
    .error .deadlock
  else do
    let s ← go fuel none s.head { s with locked := true }
    return { s with locked := false }
where
  go : Nat → Option Nat → Option Nat → State → Except Stop State
    | 0, _, _, _ => .error .outOfFuel
    | _ + 1, _, none, s => .ok s
    | fuel + 1, last, some h, s =>
      let (handler, s) := s.read h
      if handler.d = d ∨ d = 0 then do
        let s := s.setLast last handler.next
        let s ← invoke body s handler.toHandler
        let s := s.free h
        -- `h = h->next`
        let (handler, s) := s.read h
        go fuel last handler.next s
      else
        let (handler, s) := s.read h
        go fuel (some h) handler.next s

end AtExit

end LibCxxRt
