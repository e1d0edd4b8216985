import LibCxxRt.Util.Once
import Mathlib.Logic.Function.Basic
import Mathlib.Tactic.Simps.Basic

/-!
This module contains the guards of static variables of `guard.cc`. A step of a thread is a step of
one atomic operation, together with the code from there to the next one. The log contains what the
functions do and return, `__cxa_guard_acquire` returns 1 if the thread must initialise the variable.

The assertion at the end of `DoubleWordGuard::unlock` reads the init word once more, without an
atomic operation and after the lock word has been given up. It has a step of its own, the release or
the abort is finished before it.
-/

namespace LibCxxRt

open Util

structure GuardLayout (w : Nat) where
  lockedBit : Nat
  initBit : Nat
  -- where the byte begins that is the first one in memory
  firstByte : Nat
  lockedBit_lt : lockedBit < w
  initBit_lt : initBit < w
  lockedBit_ne : lockedBit ≠ initBit
  firstByte_le : firstByte ≤ initBit
  lt_firstByte : initBit < firstByte + 8

namespace GuardLayout

-- the instances of the templates, by `_LP64` and `__LITTLE_ENDIAN__`
def arm : GuardLayout 32 :=
  ⟨31, 0, 0, by decide, by decide, by decide, by decide, by decide⟩

def lp64LittleEndian : GuardLayout 64 :=
  ⟨63, 0, 0, by decide, by decide, by decide, by decide, by decide⟩

def lp64BigEndian : GuardLayout 64 :=
  ⟨0, 56, 56, by decide, by decide, by decide, by decide, by decide⟩

def ilp32LittleEndian : GuardLayout 32 :=
  ⟨31, 0, 0, by decide, by decide, by decide, by decide, by decide⟩

def ilp32BigEndian : GuardLayout 32 :=
  ⟨0, 24, 24, by decide, by decide, by decide, by decide, by decide⟩

variable {w : Nat}

def locked (layout : GuardLayout w) : BitVec w :=
  1#w <<< layout.lockedBit

def initialised (layout : GuardLayout w) : BitVec w :=
  1#w <<< layout.initBit

-- `*reinterpret_cast<uint8_t*>(&word)`
def byte (layout : GuardLayout w) (word : BitVec w) : BitVec 8 :=
  (word >>> layout.firstByte).setWidth 8

def isInitialised (layout : GuardLayout w) (word : BitVec w) : Bool :=
  word &&& layout.initialised == layout.initialised

end GuardLayout

inductive GuardState where
  | initDone
  | initLockSucceeded
  | initLockFailed
  deriving DecidableEq, Repr

/--
The result, the new value of `expected` and the new value of the word. The operation can fail
although the word has the expected value.
-/
def compareExchange {w : Nat} (word expected desired : BitVec w) (spurious : Bool) :
    Bool × BitVec w × BitVec w :=
  if word = expected ∧ ¬ spurious then
    (true, expected, desired)
  else
    (false, word, word)

-- the atomic operation that a thread is about to execute
inductive GuardPc where
  | idle
  -- the check of `__cxa_guard_acquire` that does not take the lock
  | checking
  -- the `compare_exchange` of `try_lock`
  | locking
  -- the check of the init word in `try_lock`, and the store with which it gives the lock up again
  | rechecking
  | yielding
  -- `__cxa_guard_acquire` has returned 1
  | initialising
  -- the stores of `unlock`
  | unlocking (isInitialised : Bool)
  | unlockingSecond (isInitialised : Bool)
  | asserting (isInitialised : Bool)
  deriving DecidableEq, Repr

structure GuardProcess (γ : Type) where
  guard : γ
  pcs : Nat → GuardPc
  log : List (OnceEvent Nat)

namespace GuardProcess

variable {γ : Type}

@[simps -fullyApplied]
def setGuard (s : GuardProcess γ) (guard : γ) : GuardProcess γ :=
  { s with guard }

@[simps -fullyApplied]
def goto (s : GuardProcess γ) (t : Nat) (pc : GuardPc) : GuardProcess γ :=
  { s with pcs := Function.update s.pcs t pc }

@[simps -fullyApplied]
def record (s : GuardProcess γ) (events : List (OnceEvent Nat)) : GuardProcess γ :=
  { s with log := s.log ++ events }

end GuardProcess

inductive GuardAction where
  -- the thread calls one of the three functions
  | acquire
  | release
  | abort
  -- it goes on with the function that it has called
  | run (spurious : Bool)
  deriving DecidableEq, Repr

section

variable {γ : Type}

-- what `__cxa_guard_acquire` makes of the result of `try_lock`
def guardAcquired (s : GuardProcess γ) (t : Nat) : GuardState → GuardProcess γ
  | .initDone => (s.goto t .idle).record [.acquired t false]
  | .initLockSucceeded => (s.goto t .initialising).record [.acquired t true]
  | .initLockFailed => s.goto t .locking

def guardStep (run : GuardProcess γ → Nat → Bool → Option (GuardProcess γ)) (s : GuardProcess γ)
    (l : Nat × GuardAction) : Option (GuardProcess γ) :=
  let t := l.1
  match l.2 with
  | .acquire => if s.pcs t = .idle then some (s.goto t .checking) else none
  | .release =>
    if s.pcs t = .initialising then
      some ((s.goto t (.unlocking true)).record [.releasing t])
    else
      none
  | .abort =>
    if s.pcs t = .initialising then
      some ((s.goto t (.unlocking false)).record [.aborting t])
    else
      none
  | .run spurious => run s t spurious

end

namespace SingleWordGuard

variable {w : Nat} (layout : GuardLayout w)

def init : GuardProcess (BitVec w) where
  guard := 0
  pcs := fun _ => .idle
  log := []

def tryLock (val : BitVec w) (spurious : Bool) : GuardState × BitVec w :=
  let (swapped, old, val) := compareExchange val 0 layout.locked spurious
  if swapped then
    (.initLockSucceeded, val)
  else if old = layout.initialised then
    (.initDone, val)
  else
    (.initLockFailed, val)

def run (s : GuardProcess (BitVec w)) (t : Nat) (spurious : Bool) :
    Option (GuardProcess (BitVec w)) :=
  match s.pcs t with
  | .checking =>
    if layout.isInitialised s.guard then
      some (guardAcquired s t .initDone)
    else
      some (s.goto t .locking)
  | .locking =>
    let (result, val) := tryLock layout s.guard spurious
    some (guardAcquired (s.setGuard val) t result)
  | .unlocking isInitialised =>
    let s := s.setGuard (if isInitialised then layout.initialised else 0)
    if layout.byte layout.initialised ≠ 0 then
      some ((s.goto t .idle).record ((if isInitialised then [.stored t] else []) ++ [.left t]))
    else
      none
  | _ => none

def step : GuardProcess (BitVec w) → Nat × GuardAction → Option (GuardProcess (BitVec w)) :=
  guardStep (run layout)

end SingleWordGuard

structure DoubleWordGuard where
  initWord : BitVec 32
  lockWord : BitVec 32
  deriving DecidableEq, Repr

namespace DoubleWordGuard

variable (layout : GuardLayout 32)

def init : GuardProcess DoubleWordGuard where
  guard := ⟨0, 0⟩
  pcs := fun _ => .idle
  log := []

def run (s : GuardProcess DoubleWordGuard) (t : Nat) (spurious : Bool) :
    Option (GuardProcess DoubleWordGuard) :=
  let g := s.guard
  match s.pcs t with
  | .checking =>
    if layout.isInitialised g.initWord then
      some (guardAcquired s t .initDone)
    else
      some (s.goto t .locking)
  | .locking =>
    let (swapped, _, lockWord) := compareExchange g.lockWord 0 layout.locked spurious
    let s := s.setGuard { g with lockWord }
    if swapped then
      some (s.goto t .rechecking)
    else
      some (guardAcquired s t .initLockFailed)
  | .rechecking =>
    if layout.isInitialised g.initWord then
      some (s.goto t .yielding)
    else
      some (guardAcquired s t .initLockSucceeded)
  | .yielding => some (guardAcquired (s.setGuard { g with lockWord := 0 }) t .initDone)
  | .unlocking isInitialised =>
    let s := s.setGuard { g with initWord := if isInitialised then layout.initialised else 0 }
    some ((s.goto t (.unlockingSecond isInitialised)).record
      (if isInitialised then [.stored t] else []))
  | .unlockingSecond isInitialised =>
    let s := s.setGuard { g with lockWord := 0 }
    some ((s.goto t (.asserting isInitialised)).record [.left t])
  | .asserting isInitialised =>
    if (layout.byte g.initWord != 0) = isInitialised then some (s.goto t .idle) else none
  | _ => none

def step : GuardProcess DoubleWordGuard → Nat × GuardAction → Option (GuardProcess DoubleWordGuard) :=
  guardStep (run layout)

end DoubleWordGuard

end LibCxxRt
