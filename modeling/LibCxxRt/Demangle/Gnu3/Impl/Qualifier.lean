import LibCxxRt.Demangle.Gnu3.Impl.Data

/-!
This module contains `cpp_demangle_push_type_qualifier`, which prints the qualifiers of a type behind it
and makes each of the types on the way a candidate for substitution.
-/

namespace LibCxxRt

namespace Demangle

namespace Gnu3

namespace TypeQualifier

def isCv (t : TypeQualifier) : Bool :=
  t == .rst || t == .vat || t == .cst

-- what is printed for a qualifier, the last argument is the name of a vendor extension
def print : TypeQualifier → List Byte → List Byte
  | .ptr, _ => ascii "*"
  | .ref, _ => ascii "&"
  | .rref, _ => ascii "&&"
  | .cmx, _ => ascii " complex"
  | .img, _ => ascii " imaginary"
  | .rst, _ => ascii " restrict"
  | .vat, _ => ascii " volatile"
  | .cst, _ => ascii " const"
  | .ext, name => ascii " " ++ name
  | .vec, name => ascii " __vector(" ++ name ++ ascii ")"

def hasName (t : TypeQualifier) : Bool :=
  t == .ext || t == .vec

end TypeQualifier

-- the variables of the loop, `substV` is there if there is a `type_str`
structure PushState where
  cv : Bool
  eIdx : Nat
  substV : Option VectorStr

def isSkipped (q : PushQualifier) (cv : Bool) (t : TypeQualifier) : Bool :=
  if t.isCv then
    (q == .nonCvQualifier && cv) || (q == .cvQualifier && !cv)
  else
    q == .cvQualifier

-- the name of a vendor extension, for the other qualifiers it is empty
def extensionName (extName : VectorStr) (t : TypeQualifier) (eIdx : Nat) : P (List Byte) :=
  if t.hasName then do
    let name ← failIfNone (texts extName)[eIdx]?
    failIf (name.strlen = 0)
    let _ ← malloc
    pure name.bytes
  else
    pure []

-- `next` is the qualifier that is pushed after this one
def pushSubstQualifier (substV : Option VectorStr) (t : TypeQualifier) (next : Option TypeQualifier)
    (str : List Byte) : P (Option VectorStr) :=
  match substV with
  | none => pure none
  | some v => do
    let v ← vecPushStr v str
    if t.isCv && next.any TypeQualifier.isCv then
      pure (some v)
    else do
      pushSubstV v
      pure (some v)

def pushQualifier (extName : VectorStr) (t : TypeQualifier) (next : Option TypeQualifier)
    (s : PushState) : P PushState := do
  let cv := s.cv && t.isCv
  if isSkipped (← get).pushQualifier s.cv t then
    pure { s with cv := cv }
  else do
    let name ← extensionName extName t s.eIdx
    demPushStr (t.print name)
    let substV ← pushSubstQualifier s.substV t next (t.print name)
    pure ⟨cv, if t.hasName then s.eIdx + 1 else s.eIdx, substV⟩

-- the qualifiers are in the reverse order of the vector
def pushQualifiers (extName : VectorStr) : List TypeQualifier → PushState → P Unit
  | [], _ => pure ()
  | t :: ts, s => do
    let s ← pushQualifier extName t ts.head? s
    pushQualifiers extName ts s

def pushTypeQualifier (v : VectorTypeQualifier) (typeStr : Option Flat) : P Unit := do
  if v.qContainer.size = 0 then
    pure ()
  else
    match typeStr with
    | none => pushQualifiers v.extName v.qContainer.items.reverse ⟨true, 0, none⟩
    | some str =>
      let substV ← vectorStrInit
      let len ← str.strlen
      let substV ← vecPush substV str.text.bytes len
      pushQualifiers v.extName v.qContainer.items.reverse ⟨true, 0, some substV⟩

end Gnu3

end Demangle

end LibCxxRt
