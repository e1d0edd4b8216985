import LibCxxRt.Demangle.Gnu3.Impl.Number
import LibCxxRt.Demangle.Gnu3.Impl.Qualifier
import LibCxxRt.Demangle.Gnu3.Impl.Tables

/-!
This module contains the functions of the demangler that call each other. Each of them has the functions
through which the recursion goes as an argument, `parsers` puts them together.
-/

namespace LibCxxRt

namespace Demangle

namespace Gnu3

def CPP_DEMANGLE_TRY_LIMIT : Nat :=
  128

-- `limit++ > CPP_DEMANGLE_TRY_LIMIT` ends a loop behind this many iterations
def tries : Nat :=
  CPP_DEMANGLE_TRY_LIMIT + 2

structure TypeDelimit where
  paren : Bool
  firstp : Bool

-- the variables of `cpp_demangle_read_type` at its label `again`
structure TypeFrame where
  v : VectorTypeQualifier
  output : Nat
  pIdx : Nat
  td : Option TypeDelimit

structure Parsers where
  readTypeAgain : TypeFrame → P (Option TypeDelimit)
  readEncoding : P Unit
  readExpression : P Unit
  readName : P Unit

variable (p : Parsers)

-- push what comes before an argument
def delimit (td : TypeDelimit) : P TypeDelimit := do
  doIf (!td.paren) do
    demPushStr (ascii "(")
    failIf ((← outputSize 0) < 2)
  doIf (!td.firstp) do
    doIf ((← peek) ≠ chr 'I') (demPushStr (ascii ", "))
  pure { td with paren := true }

def delimitOption : Option TypeDelimit → P (Option TypeDelimit)
  | none => pure none
  | some td => some <$> delimit td

def readType (td : Option TypeDelimit) : P (Option TypeDelimit) := do
  let output := (← get).curOutput
  let td ← delimitOption td
  let v ← vectorTypeQualifierInit
  let pIdx ← outputSize output
  p.readTypeAgain ⟨v, output, pIdx, td⟩

-- `cpp_demangle_read_type(ddata, NULL)`
def readPlainType : P Unit := do
  let _ ← readType p none

def readDelimitedType (td : TypeDelimit) : P TypeDelimit := do
  return (← readType p (some td)).getD td

def readExpressionFlat : P Flat := do
  let pIdx ← outputSize 0
  p.readExpression
  let exp ← failIfNone (← outputSubstr 0 pIdx)
  outputTruncate 0 pIdx
  pure exp

def failAtEnd : P Unit := do
  failIf ((← peek) = 0)

-- fail if there is another character
def expect (c : Char) : P Unit := do
  failIf ((← peek) ≠ chr c)
  advance 1

-- what follows the dimension of an array
def readArrayElement (dimension : List Byte) : P Unit := do
  expect '_'
  failAtEnd
  readPlainType p
  demPushStr (ascii " [")
  demPushStr dimension
  demPushStr (ascii "]")

def readArray : P Unit := do
  advance 1
  failAtEnd
  if (← peek) = chr '_' then
    advance 1
    failAtEnd
    readPlainType p
    demPushStr (ascii " []")
  else if isDigit (← peek) then
    let num ← skipWhile isDigit
    readArrayElement p num
  else
    let exp ← readExpressionFlat p
    readArrayElement p exp.text.bytes

def readBool : P Unit := do
  failIf ((← peekAt 2) ≠ chr 'E')
  advance 1
  if (← peek) = chr '0' then
    advance 2
    demPushStr (ascii "false")
  else if (← peek) = chr '1' then
    advance 2
    demPushStr (ascii "true")
  else
    fail

def readIntegerLiteral : P Unit := do
  advance 1
  doIf ((← peek) = chr 'n') do
    demPushStr (ascii "-")
    advance 1
  let num ← skipWhile isDigit
  expect 'E'
  pushStr num num.length

def readExprPrimary : P Unit := do
  advance 1
  failAtEnd
  let c ← peek
  if c = chr '_' ∧ (← peekAt 1) = chr 'Z' then
    advance 2
    failAtEnd
    p.readEncoding
    advance 1
  else if c = chr 'b' then
    readBool
  else if c = chr 'd' then
    advance 1
    pushFp decodeFpToDouble
  else if c = chr 'e' then
    advance 1
    pushFp (if (← get).env.sizeofLongDouble = 10 then decodeFpToDouble else decodeFpToFloat80)
  else if c = chr 'f' then
    advance 1
    pushFp decodeFpToFloat
  else if c = chr 'g' then
    advance 1
    pushFp (if (← get).env.sizeofLongDouble = 16 then decodeFpToDouble else decodeFpToFloat128)
  else if c ∈ ascii "ijlmnstxy" then
    readIntegerLiteral
  else
    fail

def readSeqId : P Nat := do
  let nth := incrementLong (← peekLong 36)
  let _ ← skipTo '_'
  stopIf (nth ≤ 0) .assertion
  pure nth.toNat

def readTmplParam : P Unit := do
  expect 'T'
  if (← peek) = chr '_' then
    getTmplParam 0
  else
    getTmplParam (← readSeqId)

def readTmplArg : P Unit := do
  failAtEnd
  let c ← peek
  if c = chr 'L' then
    readExprPrimary p
  else if c = chr 'X' then
    advance 1
    p.readExpression
    expect 'E'
  else
    readPlainType p

def readTmplArgsLoop (output : Nat) : (tries : Nat) → P Unit
  | 0 => fail
  | tries + 1 => do
    let idx ← outputSize output
    readTmplArg p
    let arg ← failIfNone (← outputSubstr output idx)
    addTmpl arg.text arg.text.strlen
    let c ← peek
    if c = chr 'E' then
      advance 1
      demPushStr (ascii ">")
      modify fun d => { d with isTmpl := true }
    else
      doIf (c ≠ chr 'I') (demPushStr (ascii ", "))
      readTmplArgsLoop output tries

def readTmplArgList : P Unit := do
  demPushStr (ascii "<")
  let output := (← get).curOutput
  readTmplArgsLoop p output tries

def readTmplArgs : P Unit := do
  failAtEnd
  advance 1
  vectorReadCmdPush ⟨.tmpl, none⟩
  readTmplArgList p
  vectorReadCmdPop

def readUqname : P Unit := do
  failAtEnd
  let c ← peek
  let hash ← peekHash
  if hash = codeHash "cv" then
    demPushStr (ascii "operator(cast)")
    advance 2
    readPlainType p
  else
    match lookupHash operatorNames hash with
    | some name =>
      demPushStr (ascii name)
      advance 2
    | none =>
      if c = chr 'v' ∧ isDigit (← peekAt 1) then
        demPushStr (ascii "vendor extened operator ")
        pushStr [← peekAt 1] 1
        advance 2
        readSname
      else
        match lookupHash ctorDtorNames hash with
        | some pre =>
          let name ← lastSname
          failIf (name.length = 0)
          demPushStr (ascii pre)
          demPushStr name
          advance 2
        | none =>
          if isDigit c then
            readSname
          else if c = chr 'L' then
            localSourceName

-- the output from `pIdx` on is one more part of the name in `v`
def pushSubstPart (output pIdx : Nat) (v : VectorStr) : P VectorStr := do
  let s ← failIfNone (← outputSubstr output pIdx)
  let v ← vecPushStr v s.text.bytes
  pushSubstV v
  pure v

def readNameTmplArgs (output : Nat) (v : VectorStr) : P Unit := do
  if (← peek) = chr 'I' then
    let pIdx ← outputSize output
    readTmplArgs p
    let _ ← pushSubstPart output pIdx v

def readSubstStd : P Unit := do
  let v ← vectorStrInit
  demPushStr (ascii "std::")
  let v ← vecPushStr v (ascii "std::")
  advance 2
  let output := (← get).curOutput
  let pIdx ← outputSize output
  readUqname p
  let v ← pushSubstPart output pIdx v
  readNameTmplArgs p output v

def readSubstStdtmpl (str : List Byte) : P Unit := do
  let output := (← get).curOutput
  let pIdx ← outputSize output
  readTmplArgs p
  let substr ← failIfNone (← outputSubstr output pIdx)
  let _ ← malloc
  let name := copyString (str ++ substr.text.bytes) (str.length + substr.text.strlen)
  pushSubst name name.strlen

def readSubst : P Unit := do
  failAtEnd
  let hash ← peekHash
  match lookupHash stdAbbreviations hash with
  | some (name, sname) =>
    demPushStr (ascii name)
    modify fun d => { d with lastSname := (sname.map fun s => .literal (ascii s)).or d.lastSname }
    advance 2
    doIf ((← peek) = chr 'I') (readSubstStdtmpl p (ascii name))
  | none =>
    if hash = codeHash "St" then
      readSubstStd p
    else
      advance 1
      failAtEnd
      let c ← peek
      if !isDigit c ∧ !isUpper c ∧ c ≠ chr '_' then
        advance 1
      else if c = chr '_' then
        getSubst 0
      else
        getSubst (← readSeqId)

def isMemQualifier (c : Byte) : Bool :=
  c ∈ ascii "rVKRO"

def readMemQualifiers : P Unit := do
  let s ← skipWhile isMemQualifier
  modify fun d => { d with
    memRst := d.memRst || s.contains (chr 'r')
    memVat := d.memVat || s.contains (chr 'V')
    memCst := d.memCst || s.contains (chr 'K')
    memRef := d.memRef || s.contains (chr 'R')
    memRref := d.memRref || s.contains (chr 'O') }

def readNestedPart : P Unit := do
  let c ← peek
  if c = chr 'I' then
    readTmplArgs p
  else if c = chr 'S' then
    readSubst p
  else if c = chr 'T' then
    readTmplParam
  else
    readUqname p

-- there may be nothing new in the output
def pushNestedPart (output pIdx size : Nat) (v : VectorStr) : P VectorStr :=
  if pIdx = size then
    pure v
  else
    pushSubstPart output pIdx v

def readNestedLoop (output : Nat) : (tries : Nat) → VectorStr → P Unit
  | 0, _ => fail
  | tries + 1, v => do
    let pIdx ← outputSize output
    readNestedPart p
    let size ← outputSize output
    let v ← pushNestedPart output pIdx size v
    let c ← peek
    if c = chr 'E' then
      advance 1
    else if c ≠ chr 'I' ∧ c ≠ chr 'C' ∧ c ≠ chr 'D' ∧ pIdx ≠ size then
      demPushStr (ascii "::")
      let v ← vecPushStr v (ascii "::")
      readNestedLoop output tries v
    else
      readNestedLoop output tries v

def readNestedName : P Unit := do
  expect 'N'
  failAtEnd
  readMemQualifiers
  let output := (← get).curOutput
  let v ← vectorStrInit
  readNestedLoop p output tries v

-- the arguments of the function that a local name belongs to
def readLocalTypes : (tries : Nat) → TypeDelimit → (moreType : Bool) → P (TypeDelimit × Bool)
  | 0, _, _ => fail
  | tries + 1, td, moreType => do
    if (← peek) = 0 then
      pure (td, moreType)
    else
      let td ← readDelimitedType p td
      if (← peek) = chr 'E' then
        pure (td, false)
      else
        readLocalTypes tries td false

def enterLocalName : P Nat := do
  let localName ← vectorStrInit
  let i := (← get).outputs.length
  modify fun d => { d with outputs := d.outputs ++ [localName], curOutput := i }
  pure i

def leaveLocalName (i : Nat) : P Unit := do
  let v ← vectorStrPushVector (← getOutput 0) (← getOutput i)
  modify fun d => { d with outputs := d.outputs.dropLast.set 0 v }

-- a template function has its return type before the arguments
def readReturnType : P Bool := do
  if (← get).isTmpl then
    modify fun d => { d with isTmpl := false }
    readPlainType p
    pure true
  else
    pure false

-- whatever `cur_output` was before, it is `output` from here on
def readLocalFunction : P Bool := do
  let i ← enterLocalName
  p.readEncoding
  modify fun d => { d with curOutput := 0 }
  let moreType ← readReturnType p
  leaveLocalName i
  pure moreType

-- what is in the function, a string literal or a name
def readEntity : P Unit := do
  if (← peek) = chr 's' then
    advance 1
  else
    demPushStr (ascii "::")
    p.readName

def readLocalName : P Unit := do
  advance 1
  failAtEnd
  let moreType ← readLocalFunction p
  let r ← readLocalTypes p tries ⟨false, true⟩ moreType
  failIf r.2
  advance 1
  failAtEnd
  doIf r.1.paren (demPushStr (ascii ")"))
  readEntity p
  skipDiscriminator

def readSourceName : P Unit := do
  let output := (← get).curOutput
  let v ← vectorStrInit
  let pIdx ← outputSize output
  readUqname p
  let s ← failIfNone (← outputSubstr output pIdx)
  if 8 < s.text.strlen ∧ strstr s.text (ascii "operator") then
    pure ()
  else
    let v ← vecPushStr v s.text.bytes
    pushSubstV v
    readNameTmplArgs p output v

def readName : P Unit := do
  failAtEnd
  let c ← peek
  if c = chr 'S' then
    readSubst p
  else if c = chr 'N' then
    readNestedName p
  else if c = chr 'Z' then
    readLocalName p
  else
    readSourceName p

def setPushQualifier (q : PushQualifier) : P Unit :=
  modify fun d => { d with pushQualifier := q }

def pushPointerToMember (nonCvQualifier : Bool) (rc : ReadCmdItem) : P Unit := do
  doIf nonCvQualifier (demPushStr (ascii " "))
  let classType ← failIfNone (← get).classType.items.getLast?
  demPushStr classType.text.bytes
  demPushStr (ascii "::*")
  setPushQualifier .allQualifier
  let v ← failIfNone rc.data
  pushTypeQualifier v none
  modify fun d => { d with funcType := d.funcType + 1 }

def pushPointerToMemberOption (nonCvQualifier : Bool) : Option ReadCmdItem → P Unit
  | none => pure ()
  | some rc => pushPointerToMember nonCvQualifier rc

def readFunctionArgs : (tries : Nat) → TypeDelimit → P TypeDelimit
  | 0, _ => fail
  | tries + 1, td => do
    let td ← readDelimitedType p td
    if (← peek) = chr 'E' then
      pure td
    else
      readFunctionArgs tries td

def TypeQualifier.printRef : TypeQualifier → Option String
  | .ref => some " &"
  | .rref => some " &&"
  | _ => none

def pushRefQualifier : P Unit := do
  let d ← get
  doIf d.refQualifier do
    let s ← failIfNone d.refQualifierType.printRef
    demPushStr (ascii s)
    modify fun d => { d with refQualifier := false }

-- the qualifiers before the arguments
def pushDeclarator (v : VectorTypeQualifier) : P Unit := do
  demPushStr (ascii " ")
  let nonCvQualifier := v.qContainer.items.any fun t => !t.isCv
  let rc := readCmdFind (← get).cmd .ptrmem
  doIf (nonCvQualifier ∨ rc.isSome) (demPushStr (ascii "("))
  setPushQualifier .nonCvQualifier
  pushTypeQualifier v none
  pushPointerToMemberOption nonCvQualifier rc
  doIf (nonCvQualifier ∨ rc.isSome) (demPushStr (ascii ")"))

-- what follows the return type, the qualifiers are used up
def readFunctionType (v : VectorTypeQualifier) : P VectorTypeQualifier := do
  pushDeclarator v
  modify fun d => { d with isFunctype := true }
  let td ← readFunctionArgs p tries ⟨false, true⟩
  modify fun d => { d with isFunctype := false }
  doIf td.paren (demPushStr (ascii ")"))
  setPushQualifier .cvQualifier
  pushTypeQualifier v none
  setPushQualifier .allQualifier
  let v ← vectorTypeQualifierInit
  pushRefQualifier
  pure v

def readFunction (v : VectorTypeQualifier) : P VectorTypeQualifier := do
  expect 'F'
  let _ ← skipIf 'Y'
  readPlainType p
  if (← peek) = chr 'E' then
    advance 1
    pure v
  else
    let v ← readFunctionType p v
    advance 1
    pure v

-- the class is read into `output`, which need not be the current one
def readClassType : P Flat := do
  let pIdx ← outputSize 0
  readPlainType p
  let classType ← failIfNone (← outputSubstr 0 pIdx)
  outputTruncate 0 pIdx
  pure classType

def pushClass (classType : CString) (v : VectorTypeQualifier) : P Unit := do
  vectorReadCmdPush ⟨.ptrmem, some v⟩
  let w ← vecPushStr (← get).classType classType.bytes
  modify fun d => { d with classType := w }

def popClass : P Unit := do
  modify fun d => { d with classType := d.classType.pop }
  vectorReadCmdPop

def readMemberType (classType : CString) : P Unit := do
  let funcType := (← get).funcType
  readPlainType p
  doIf (funcType = (← get).funcType) do
    demPushStr (ascii " ")
    demPushStr classType.bytes
    demPushStr (ascii "::*")

def readPointerToMember (v : VectorTypeQualifier) : P VectorTypeQualifier := do
  expect 'M'
  failAtEnd
  let classType ← readClassType p
  pushClass classType.text v
  readMemberType p classType.text
  popClass
  vectorTypeQualifierInit

-- `vector_str_find` returns -1 if there is no `type_str`
def pushSubstType : Option Flat → P Unit
  | none => pure ()
  | some s => addSubst s.text s.text.strlen

-- at the label `rtn`
def readTypeRtn (f : TypeFrame) (isBuiltin skipRefQualifier : Bool) : P (Option TypeDelimit) := do
  let typeStr ← outputSubstr f.output f.pIdx
  doIf (!isBuiltin) (pushSubstType typeStr)
  doIf (!skipRefQualifier) (pushTypeQualifier f.v typeStr)
  pure (f.td.map fun td => { td with firstp := false })

def TypeFrame.qualify (f : TypeFrame) (v : VectorTypeQualifier) : TypeFrame :=
  { f with v := v, td := f.td.map fun td => { td with firstp := false } }

def readQualifier (f : TypeFrame) (t : TypeQualifier) : P (Option TypeDelimit) := do
  let v ← vectorTypeQualifierPush f.v t
  advance 1
  p.readTypeAgain (f.qualify v)

def readReference (f : TypeFrame) (t : TypeQualifier) : P (Option TypeDelimit) := do
  failIf (← get).refQualifier
  let v ← vectorTypeQualifierPush f.v t
  modify fun d => { d with refQualifier := true, refQualifierType := t }
  advance 1
  p.readTypeAgain (f.qualify v)

def readBuiltin (f : TypeFrame) (name : String) : P (Option TypeDelimit) := do
  demPushStr (ascii name)
  advance 1
  readTypeRtn f true false

-- the dimension of a vector type
def readVectorSize : P (List Byte) := do
  if (← peek) = chr '_' then
    advance 1
    let exp ← readExpressionFlat p
    let _ ← exp.strlen
    pure exp.text.bytes
  else
    readNumberAsString

def readVectorType (f : TypeFrame) : P (Option TypeDelimit) := do
  advance 1
  let name ← readVectorSize p
  let extName ← vecPushStr f.v.extName name
  expect '_'
  let v ← vectorTypeQualifierPush { f.v with extName := extName } .vec
  p.readTypeAgain (f.qualify v)

def readTypeD (f : TypeFrame) : P (Option TypeDelimit) := do
  advance 1
  let c ← peek
  match lookup builtinTypesD c with
  | some name => readBuiltin f name
  | none =>
    if c = chr 'v' then
      readVectorType p f
    else
      fail

def readVendorQualifier (f : TypeFrame) : P (Option TypeDelimit) := do
  advance 1
  let len ← readNumber
  failIf (len ≤ 0)
  let extName ← vecPush f.v.extName (← rest) len.toNat
  advance len.toNat
  let v ← vectorTypeQualifierPush { f.v with extName := extName } .ext
  p.readTypeAgain (f.qualify v)

-- only references follow the `void`, if anything does
def isOnlyVoid (s : List Byte) : Bool :=
  match (s.tail.dropWhile fun c => c == chr 'R' || c == chr 'O').head? with
  | none => true
  | some c => c == chr 'E'

def readVoid (f : TypeFrame) : P (Option TypeDelimit) := do
  if f.td.any TypeDelimit.firstp ∧ isOnlyVoid (← rest) then
    advance 1
    readTypeRtn f true false
  else
    readBuiltin f "void"

def readTypeTmplArgs (f : TypeFrame) : P (Option TypeDelimit) := do
  let pIdx ← outputSize f.output
  readTmplArgs p
  let s ← failIfNone (← outputSubstr f.output pIdx)
  let sv ← vectorStrInit
  let sv ← vecPushStr sv s.text.bytes
  pushSubstV sv
  readTypeRtn { f with pIdx := pIdx } true false

-- a reference without a type is the one of a member function
def readTypeEnd (f : TypeFrame) : P (Option TypeDelimit) := do
  let d ← get
  failIf ¬(d.refQualifier ∧ d.isFunctype)
  popStr
  readTypeRtn f true true

-- the types that are not built in, a function and a pointer to member use up the qualifiers
def readCompound (v : VectorTypeQualifier) (c : Byte) : P VectorTypeQualifier := do
  if c = chr 'F' then
    readFunction p v
  else if c = chr 'M' then
    readPointerToMember p v
  else if c = chr 'A' then
    readArray p
    pure v
  else if c = chr 'S' then
    readSubst p
    pure v
  else if c = chr 'T' then
    readTmplParam
    pure v
  else if c = chr 'u' then
    advance 1
    readSname
    pure v
  else
    readName p
    pure v

def readCompoundType (f : TypeFrame) (c : Byte) : P (Option TypeDelimit) := do
  let v ← readCompound p f.v c
  readTypeRtn { f with v := v } false false

def clearRefQualifier (c : Byte) : P Unit :=
  doIf (c ≠ chr 'R' ∧ c ≠ chr 'O' ∧ c ≠ chr 'E') do
    modify fun d => { d with refQualifier := false }

def readTypeAgain (f : TypeFrame) : P (Option TypeDelimit) := do
  let c ← peek
  clearRefQualifier c
  match lookup builtinTypes c with
  | some name => readBuiltin f name
  | none =>
    match lookup typeQualifiers c with
    | some t => readQualifier p f t
    | none =>
      if c = chr 'D' then
        readTypeD p f
      else if c = chr 'E' then
        readTypeEnd f
      else if c = chr 'I' then
        readTypeTmplArgs p f
      else if c = chr 'O' then
        readReference p f .rref
      else if c = chr 'R' then
        readReference p f .ref
      else if c = chr 'U' then
        readVendorQualifier p f
      else if c = chr 'v' then
        readVoid f
      else
        readCompoundType p f c

def readExpressionOperator (arity : Arity) (name : List Byte) : P Unit := do
  p.readExpression
  demPushStr name
  match arity with
  | .unary => pure ()
  | .binary => p.readExpression
  | .trinary =>
    p.readExpression
    demPushStr (ascii ":")
    p.readExpression

def readExpression : P Unit := do
  failAtEnd
  let c ← peek
  let hash ← peekHash
  if hash = codeHash "st" then
    advance 2
    readPlainType p
  else if hash = codeHash "sr" then
    advance 2
    readPlainType p
    readUqname p
    doIf ((← peek) = chr 'I') (readTmplArgs p)
  else
    match lookupHash expressionOperators hash with
    | some (arity, name) =>
      advance 2
      readExpressionOperator p arity (ascii name)
    | none =>
      if c = chr 'L' then
        readExprPrimary p
      else if c = chr 'T' then
        readTmplParam
      else
        fail

-- the text of a name or a type, which is taken out of the output again
def flatten (read : P Unit) : P Flat := do
  let output := (← get).curOutput
  let pIdx ← outputSize output
  read
  let s ← failIfNone (← outputSubstr output pIdx)
  outputTruncate output pIdx
  pure s

def pushFlat (s : Flat) : P Unit := do
  let len ← s.strlen
  pushStr s.text.bytes len

def readReferenceTemporary : P Unit := do
  demPushStr (ascii "reference temporary #")
  advance 2
  failAtEnd
  let name ← flatten (readName p)
  let num ← readNumberAsString
  demPushStr num
  demPushStr (ascii " for ")
  pushFlat name

def readTransactionClone : P Unit := do
  advance 2
  failAtEnd
  let name := if (← peek) = chr 'n' then "non-transaction clone for " else "transaction clone for "
  demPushStr (ascii name)
  advance 1
  p.readEncoding

def readConstructionVtable : P Unit := do
  demPushStr (ascii "construction vtable for ")
  advance 2
  failAtEnd
  let type ← flatten (readPlainType p)
  let _ ← readNumber
  expect '_'
  readPlainType p
  demPushStr (ascii "-in-")
  pushFlat type

-- a special name of what `read` reads
def readSpecial (name : String) (read : P Unit) : P Unit := do
  demPushStr (ascii name)
  advance 2
  failAtEnd
  read

def readThunk (name : String) (offset : P Unit) : P Unit :=
  readSpecial name do
    offset
    p.readEncoding

def readEncoding : P Unit := do
  failAtEnd
  let hash ← peekHash
  if hash = codeHash "GA" then
    readSpecial "hidden alias for " p.readEncoding
  else if hash = codeHash "GR" then
    readReferenceTemporary p
  else if hash = codeHash "GT" then
    readTransactionClone p
  else if hash = codeHash "GV" then
    demPushStr (ascii "guard variable for ")
    advance 2
    readName p
  else if hash = codeHash "Tc" then
    readThunk p "virtual function covariant override " do
      readOffset
      readOffset
  else if hash = codeHash "TC" then
    readConstructionVtable p
  else if hash = codeHash "Th" then
    readThunk p "virtual function non-virtual override " readNvOffset
  else if hash = codeHash "TH" then
    readSpecial "TLS init function for " (readName p)
  else if hash = codeHash "Tv" then
    readThunk p "virtual function virtual override " readVOffset
  else if hash = codeHash "TW" then
    readSpecial "TLS wrapper function for " (readName p)
  else
    match lookupHash specialTypeNames hash with
    | some name => readSpecial name (readPlainType p)
    | none => readName p

/--
The functions with a bound for the depth of the recursion.
-/
def parsers : (fuel : Nat) → Parsers
  | 0 => ⟨fun _ => stop .outOfFuel, stop .outOfFuel, stop .outOfFuel, stop .outOfFuel⟩
  | fuel + 1 =>
    let p := parsers fuel
    ⟨readTypeAgain p, readEncoding p, readExpression p, readName p⟩

end Gnu3

end Demangle

end LibCxxRt
