import LibCxxRt.Basic

/-!
This module contains the interface of the generic unwind library that the runtime is written
against, as declared in `unwind-itanium.h`. Of `_Unwind_Exception` it leaves out the two words that
are private to the unwinder. An `UnwindContext` holds the values that the runtime can ask an
`_Unwind_Context` for and the registers that it can set, `gr0` and `gr1` are the ones that
`__builtin_eh_return_data_regno` names.

A `Ptr` is a pointer to an exception: the allocation it points into and the byte offset in there.
The header of a C++ exception starts at offset 0 of its allocation, its `unwindHeader` is at offset
96 and the thrown object at offset 128. A foreign `_Unwind_Exception` is at offset 0.
-/

namespace LibCxxRt

inductive UnwindReasonCode where
  | noReason
  | foreignExceptionCaught
  | fatalPhase2Error
  | fatalPhase1Error
  | normalStop
  | endOfStack
  | handlerFound
  | installContext
  | continueUnwind
  deriving DecidableEq, Repr

abbrev UnwindAction := BitVec 32

namespace UnwindAction

def searchPhase : UnwindAction := 1
def cleanupPhase : UnwindAction := 2
def handlerFrame : UnwindAction := 4
def forceUnwind : UnwindAction := 8

def has (actions flag : UnwindAction) : Bool :=
  actions &&& flag != 0

end UnwindAction

structure Ptr where
  block : Nat
  off : Int
  deriving DecidableEq, Repr

namespace Ptr

def add (p : Ptr) (i : Int) : Ptr :=
  ⟨p.block, p.off + i⟩

@[simp]
theorem add_mk (b : Nat) (o i : Int) : (⟨b, o⟩ : Ptr).add i = ⟨b, o + i⟩ := by
  rfl

end Ptr

inductive CleanupFn where
  | exceptionCleanup
  | dependentExceptionCleanup
  -- a function of another runtime
  | foreign (fn : Addr)
  deriving DecidableEq, Repr

structure UnwindException where
  exceptionClass : BitVec 64
  exceptionCleanup : Option CleanupFn
  deriving DecidableEq, Repr

structure UnwindContext where
  ip : Addr
  regionStart : Addr
  languageSpecificData : Addr
  textRelBase : Addr
  dataRelBase : Addr
  gr0 : Option Ptr
  gr1 : BitVec 64
  deriving DecidableEq, Repr

end LibCxxRt
