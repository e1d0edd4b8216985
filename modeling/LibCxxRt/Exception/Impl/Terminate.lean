import LibCxxRt.Exception.Impl.Runtime
import LibCxxRt.TypeInfo.Impl.DynamicCast
import LibCxxRt.Util.Traced

/-!
This module contains the default handler for `std::terminate`, `terminate_with_diagnostics`, with a
record of what it prints. `__cxa_demangle` is a parameter, it takes the mangled name and returns the
string that is printed if its status is 0. The class `std::exception` has no bases.
-/

namespace LibCxxRt

open Util

inductive TypeName where
  | demangled (s : String)
  | mangled (name : Addr)
  deriving DecidableEq, Repr

inductive Diagnostic where
  | terminating (ex : Ptr)
  -- `e->what()` is called for the `std::exception` at `e`
  | what (e : Addr)
  | ofType (name : TypeName)
  | backtrace
  deriving DecidableEq, Repr

def typeName (demangle : Addr → Option String) (mangled : Addr) : TypeName :=
  match demangle mangled with
  | some s => .demangled s
  | none => .mangled mangled

-- the call of `what` for an exception whose type is a class
def diagnoseClass (m : Mem) (stdException throwTi : ClassTypeInfo) (obj : Addr) :
    Traced Diagnostic Stop Unit := do
  let e ← stdException.castTo m obj throwTi
  if e ≠ 0 then
    .note (.what e)
  else
    pure ()

def terminateWithDiagnostics (img : Image) (stdException : ClassTypeInfo)
    (demangle : Addr → Option String) (i : Nat) (w : Process) : Traced Diagnostic Stop Unit := do
  match (w.threads i).caughtExceptions with
  | none => pure ()
  | some ex =>
    .note (.terminating ex)
    let ex ← realExceptionFromException w.heap ex
    let e ← w.heap.cxa ex
    let type ← img.typeInfo e.exceptionType
    match type with
    | .class throwTi => diagnoseClass img.mem stdException throwTi (img.addr (thrownObject ex))
    | _ => pure ()
    .note (.ofType (typeName demangle type.name))
    .note .backtrace
  .lift (.error .abort)

end LibCxxRt
