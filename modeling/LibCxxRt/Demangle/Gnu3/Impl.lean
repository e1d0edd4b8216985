import LibCxxRt.Demangle.Gnu3.Impl.Parse

/-!
This module contains `__cxa_demangle_gnu3`. A null pointer as its argument is left out.
-/

namespace LibCxxRt

namespace Demangle

namespace Gnu3

-- the vectors have no container before `dataInit`
def initial (env : Env) : CppDemangleData where
  env := env
  outputs := [.empty Str VECTOR_DEF_CAPACITY]
  subst := .empty Str VECTOR_DEF_CAPACITY
  tmpl := .empty Str VECTOR_DEF_CAPACITY
  classType := .empty Str VECTOR_DEF_CAPACITY
  curOutput := 0
  cmd := .empty ReadCmdItem VECTOR_DEF_CAPACITY
  memRst := false
  memVat := false
  memCst := false
  memRef := false
  memRref := false
  isTmpl := false
  isFunctype := false
  refQualifier := false
  refQualifierType := .ref
  pushQualifier := .allQualifier
  funcType := 0
  cur := 0
  lastSname := none
  mallocs := 0

-- the containers of `output`, `subst`, `tmpl`, `class_type` and `cmd`
def dataInit (cur : Nat) : P Unit := do
  let _ ← malloc
  let _ ← malloc
  let _ ← malloc
  let _ ← malloc
  let _ ← malloc
  modify fun d => { d with cur := cur }

def popFunctionName : P Unit := do
  doIf ((← peek) ≠ 0) do
    modify fun d => { d with subst := d.subst.pop }

-- the return type of a template function is read into a vector of its own
def enterReturnType : P Bool := do
  if (← get).isTmpl then
    modify fun d => { d with isTmpl := false }
    let retType ← vectorStrInit
    modify fun d => { d with curOutput := d.outputs.length, outputs := d.outputs ++ [retType] }
    pure true
  else
    pure false

def pushReturnType : P Unit := do
  let retType ← vecPushStr (← getOutput 1) (ascii " ")
  let output ← vectorStrPushVectorHead (← getOutput 0) retType
  modify fun d => { d with curOutput := 0, outputs := [output] }

def readSignature (p : Parsers) : (tries : Nat) → TypeDelimit → (hasRet moreType : Bool)
    → P (TypeDelimit × Bool)
  | 0, _, _, _ => fail
  | tries + 1, td, hasRet, moreType => do
    let c ← peek
    if c = 0 then
      pure (td, moreType)
    else if c = chr '@' ∧ (← peekAt 1) = chr '@' then
      pure (td, moreType)
    else if hasRet then
      readPlainType p
      pushReturnType
      readSignature p tries td false true
    else
      let td ← readDelimitedType p td
      readSignature p tries td false false

def pushOutputIf (c : Bool) (s : String) : P Unit :=
  doIf c do
    let v ← vecPushStr (← getOutput 0) (ascii s)
    setOutput 0 v

def pushSuffixes (td : TypeDelimit) : P Unit := do
  pushOutputIf td.paren ")"
  let d ← get
  pushOutputIf d.memVat " volatile"
  pushOutputIf d.memCst " const"
  pushOutputIf d.memRst " restrict"
  pushOutputIf d.memRef " &"
  pushOutputIf d.memRref " &&"

def demangleType (p : Parsers) : P (Option CString) := do
  dataInit 0
  readPlainType p
  vectorStrGetFlat (← getOutput 0)

def demangleEncoding (p : Parsers) : P (Option CString) := do
  dataInit 2
  readEncoding p
  popFunctionName
  let hasRet ← enterReturnType
  let r ← readSignature p tries ⟨false, true⟩ hasRet false
  failIf r.2
  failIf ((← outputSize 0) = 0)
  pushSuffixes r.1
  vectorStrGetFlat (← getOutput 0)

def demangleGlobal : P (Option CString) := do
  let _ ← malloc
  let s := ascii "global constructors keyed to " ++ (← get).env.org.bytes.drop 11
  pure (some (copyString s s.length))

def isGlobal (org : CString) : Bool :=
  11 < org.strlen ∧ org.bytes.take 11 = ascii "_GLOBAL__I_"

def isEncoding (org : CString) : Bool :=
  2 ≤ org.strlen ∧ org.bytes.take 2 = ascii "_Z"

def demangle (env : Env) (fuel : Nat) : P (Option CString) :=
  if !isEncoding env.org then
    demangleType (parsers fuel)
  else if isGlobal env.org then
    demangleGlobal
  else
    demangleEncoding (parsers fuel)

/--
The demangled name, `none` is a null pointer. The depth of the recursion is bounded by the length of the
mangled name.
-/
def cxaDemangleGnu3 (env : Env) : Res (Option CString) :=
  match demangle env (env.org.strlen + 2) (initial env) with
  | .ok (s, _) => .ok s
  | .error .zero => .ok none
  | .error (.stop s) => .error s

-- a platform on which `malloc` does not fail
def Env.plain (org : CString) : Env where
  org := org
  malloc _ := true
  signedChar := true
  strtolSetsErrno := false
  sizeofLongDouble := 16
  printFp _ _ := lit ""

end Gnu3

end Demangle

end LibCxxRt
