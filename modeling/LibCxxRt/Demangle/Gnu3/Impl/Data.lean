import LibCxxRt.Demangle.Gnu3.Impl.Text
import LibCxxRt.Util.Discipline
import LibCxxRt.Util.Growable

/-!
This module contains the state of the demangler, `cpp_demangle_data`, and the operations on its vectors of
strings. Functions lose the prefix `cpp_demangle_` of the source.
-/

namespace LibCxxRt

namespace Demangle

namespace CString

def concat (strs : List CString) : CString where
  bytes := strs.flatMap CString.bytes
  nonzero b hb := by
    rcases List.mem_flatMap.1 hb with ⟨s, _, hs⟩
    exact s.nonzero b hs

-- the byte at an index up to the one of the terminator
def read (s : CString) (i : Nat) : Option (BitVec 8) :=
  if i = s.strlen then some 0 else s.bytes[i]?

end CString

namespace Gnu3

-- a string in a vector, it is at the address that the `addr`-th call of `malloc` has returned
structure Str where
  addr : Nat
  text : CString

abbrev VectorStr := Util.Growable Str

def VECTOR_DEF_CAPACITY : Nat :=
  8

inductive TypeQualifier where
  | ptr
  | ref
  | cmx
  | img
  | ext
  | rst
  | vat
  | cst
  | vec
  | rref
  deriving DecidableEq, Repr

structure VectorTypeQualifier where
  qContainer : Util.Growable TypeQualifier
  extName : VectorStr

-- of `enum read_cmd`, the members that are used
inductive ReadCmd where
  | tmpl
  | ptrmem
  deriving DecidableEq, Repr

/--
The `data` is a pointer to the qualifiers of the pointer to member. They do not change as long as the item
is in the vector.
-/
structure ReadCmdItem where
  cmd : ReadCmd
  data : Option VectorTypeQualifier

inductive PushQualifier where
  | allQualifier
  | cvQualifier
  | nonCvQualifier
  deriving DecidableEq, Repr

-- `last_sname` points to a literal or to a string in an output vector
inductive Sname where
  | literal (s : List Byte)
  | element (addr : Nat)
  deriving DecidableEq, Repr

inductive FpType where
  | float
  | double
  | longDouble
  deriving DecidableEq, Repr

/--
What stays the same during a call: the mangled name and the platform.
-/
structure Env where
  org : CString
  -- whether the `n`-th call of `malloc` succeeds
  malloc : Nat → Bool
  signedChar : Bool
  -- whether `strtol` sets `errno` if there are no digits
  strtolSetsErrno : Bool
  sizeofLongDouble : Nat
  -- what `%f` and `%Lf` make of an object with these bytes
  printFp : FpType → List Byte → CString

structure CppDemangleData where
  env : Env
  -- `output`, and behind it the vectors `ret_type` and `local_name` of the active calls
  outputs : List VectorStr
  subst : VectorStr
  tmpl : VectorStr
  classType : VectorStr
  -- `cur_output`, as an index of `outputs`
  curOutput : Nat
  cmd : Util.Growable ReadCmdItem
  memRst : Bool
  memVat : Bool
  memCst : Bool
  memRef : Bool
  memRref : Bool
  isTmpl : Bool
  isFunctype : Bool
  refQualifier : Bool
  -- not read before `refQualifier` is set
  refQualifierType : TypeQualifier
  pushQualifier : PushQualifier
  funcType : Nat
  -- an index of the mangled name
  cur : Nat
  lastSname : Option Sname
  -- the number of calls of `malloc` so far
  mallocs : Nat

inductive Halt where
  -- the function returns 0, its callers do too
  | zero
  | stop (s : Stop)
  deriving DecidableEq, Repr

abbrev P (α : Type) := Util.Prog CppDemangleData Halt α

def fail {α : Type} : P α :=
  throw .zero

def stop {α : Type} (s : Stop) : P α :=
  throw (.stop s)

def failIf (c : Prop) [Decidable c] : P Unit :=
  if c then fail else pure ()

def stopIf (c : Prop) [Decidable c] (s : Stop) : P Unit :=
  if c then stop s else pure ()

def doIf (c : Prop) [Decidable c] (m : P Unit) : P Unit :=
  if c then m else pure ()

def failIfNone {α : Type} : Option α → P α
  | none => fail
  | some a => pure a

def faultIfNone {α : Type} : Option α → P α
  | none => stop .fault
  | some a => pure a

def readAt (i : Nat) : P Byte := do
  faultIfNone ((← get).env.org.read i)

-- `*ddata->cur`
def peek : P Byte := do
  readAt (← get).cur

def peekAt (n : Nat) : P Byte := do
  readAt ((← get).cur + n)

def advance (n : Nat) : P Unit :=
  modify fun d => { d with cur := d.cur + n }

-- the bytes before the terminator
def rest : P (List Byte) := do
  let d ← get
  if d.cur ≤ d.env.org.strlen then
    pure (d.env.org.bytes.drop d.cur)
  else
    stop .fault

-- go on as long as the condition holds, it does not hold for the terminator
def skipWhile (p : Byte → Bool) : P (List Byte) := do
  let s ← rest
  let skipped := s.takeWhile p
  advance skipped.length
  pure skipped

-- go on to a character without a check for the terminator
def skipTo (c : Char) : P (List Byte) := do
  let s ← rest
  let skipped := s.takeWhile (· != chr c)
  if skipped.length < s.length then
    advance skipped.length
    pure skipped
  else
    stop .fault

def tryMalloc : P (Option Nat) := do
  let d ← get
  modify fun d => { d with mallocs := d.mallocs + 1 }
  pure (if d.env.malloc d.mallocs then some d.mallocs else none)

def malloc : P Nat := do
  failIfNone (← tryMalloc)

def vectorStrInit : P VectorStr := do
  let _ ← malloc
  pure (.empty Str VECTOR_DEF_CAPACITY)

def vectorStrGrow (v : VectorStr) : P (Option VectorStr) := do
  let tmpCap := bufferGrow v.capacity
  if v.capacity = 0 ∨ tmpCap ≤ v.capacity then
    stop .assertion
  else
    match ← tryMalloc with
    | none => pure none
    | some _ => some <$> faultIfNone (v.resize tmpCap)

-- the first part of `vector_str_push`
def ensureCapacity (v : VectorStr) : P (Option VectorStr) :=
  if v.size = v.capacity then
    vectorStrGrow v
  else
    pure (some v)

-- the vector may have grown when the push fails
def vectorStrPush (v : VectorStr) (str : List Byte) (len : Nat) : P (VectorStr × Bool) := do
  match ← ensureCapacity v with
  | none => pure (v, false)
  | some v =>
    match ← tryMalloc with
    | none => pure (v, false)
    | some addr => (·, true) <$> faultIfNone (v.push ⟨addr, copyString str len⟩)

-- `vector_str_push` where the caller returns 0 if it fails
def vecPush (v : VectorStr) (str : List Byte) (len : Nat) : P VectorStr := do
  let r ← vectorStrPush v str len
  if r.2 then
    pure r.1
  else
    fail

-- `VEC_PUSH_STR`
def vecPushStr (v : VectorStr) (s : List Byte) : P VectorStr :=
  vecPush v s s.length

def vectorStrFind (v : VectorStr) (o : CString) (l : Nat) : Bool :=
  v.items.any fun s => strncmpEq s.text o l

def texts (v : VectorStr) : List CString :=
  v.items.map Str.text

def getStrlenSum (v : VectorStr) : Nat :=
  ((texts v).map CString.strlen).sum

def vectorStrGetFlat (v : VectorStr) : P (Option CString) := do
  if v.size = 0 ∨ getStrlenSum v = 0 then
    pure none
  else
    match ← tryMalloc with
    | none => pure none
    | some _ => pure (some (.concat (texts v)))

/--
A string that `vector_str_substr` has allocated. It has no terminator if nothing has been copied to it.
-/
structure Flat where
  text : CString
  terminated : Bool

def Flat.strlen (s : Flat) : P Nat :=
  if s.terminated then
    pure s.text.strlen
  else
    stop .fault

/--
The strings of a vector from `begin` to its last one. The index of the last one is the largest `size_t` if
the vector is empty, and one more is 0.
-/
def vectorStrSubstr (v : VectorStr) (begin : Nat) : P (Option Flat) := do
  if v.size = 0 then
    match ← tryMalloc with
    | none => pure none
    | some _ => pure (some ⟨.concat [], false⟩)
  else if v.size - 1 < begin then
    pure none
  else
    match ← tryMalloc with
    | none => pure none
    | some _ => pure (some ⟨.concat ((texts v).drop begin), true⟩)

def strdupAll : List Str → P (List Str)
  | [] => pure []
  | s :: strs => do
    let addr ← malloc
    let strs ← strdupAll strs
    pure (⟨addr, s.text⟩ :: strs)

-- the items of `dst` are moved to a container for both
def vectorStrMerge (dst org : VectorStr) (merge : List Str → List Str → List Str) : P VectorStr := do
  let _ ← malloc
  let strs ← strdupAll org.items
  faultIfNone (Util.Growable.ofList (merge dst.items strs) (bufferGrow (dst.size + org.size)))

def vectorStrPushVectorHead (dst org : VectorStr) : P VectorStr :=
  vectorStrMerge dst org fun items strs => strs ++ items

def vectorStrPushVector (dst org : VectorStr) : P VectorStr :=
  vectorStrMerge dst org fun items strs => items ++ strs

def getOutput (i : Nat) : P VectorStr := do
  faultIfNone (← get).outputs[i]?

def setOutput (i : Nat) (v : VectorStr) : P Unit :=
  modify fun d => { d with outputs := d.outputs.set i v }

def outputSize (i : Nat) : P Nat := do
  return (← getOutput i).size

def outputSubstr (i : Nat) (begin : Nat) : P (Option Flat) := do
  vectorStrSubstr (← getOutput i) begin

-- pop the strings from `begin` on
def outputTruncate (i : Nat) (begin : Nat) : P Unit := do
  setOutput i ((← getOutput i).take begin)

def tryPushStr (str : List Byte) (len : Nat) : P Bool :=
  if len = 0 then
    pure false
  else do
    modify fun d => { d with isTmpl := false }
    let i := (← get).curOutput
    let r ← vectorStrPush (← getOutput i) str len
    setOutput i r.1
    pure r.2

def pushStr (str : List Byte) (len : Nat) : P Unit := do
  failIf !(← tryPushStr str len)

-- `DEM_PUSH_STR`
def demPushStr (s : List Byte) : P Unit :=
  pushStr s s.length

def popStr : P Unit := do
  let i := (← get).curOutput
  setOutput i (← getOutput i).pop

-- add a string to one of the tables unless it is found
def addUnfound (table : CppDemangleData → VectorStr)
    (update : VectorStr → CppDemangleData → CppDemangleData) (str : CString) (len : Nat) : P Unit := do
  if vectorStrFind (table (← get)) str len then
    pure ()
  else
    let v ← vecPush (table (← get)) str.bytes len
    modify (update v)

def addSubst : CString → Nat → P Unit :=
  addUnfound CppDemangleData.subst fun v d => { d with subst := v }

-- the arguments that `T_` refers to
def addTmpl : CString → Nat → P Unit :=
  addUnfound CppDemangleData.tmpl fun v d => { d with tmpl := v }

def pushSubst (str : CString) (len : Nat) : P Unit := do
  failIf (len = 0)
  addSubst str len

def pushSubstV (v : VectorStr) : P Unit := do
  let str ← failIfNone (← vectorStrGetFlat v)
  pushSubst str str.strlen

def getSubst (idx : Nat) : P Unit := do
  let s ← failIfNone (← get).subst.items[idx]?
  demPushStr s.text.bytes
  advance 1

def getTmplParam (idx : Nat) : P Unit := do
  let s ← failIfNone (← get).tmpl.items[idx]?
  demPushStr s.text.bytes
  advance 1

def readCmdFind (cmd : Util.Growable ReadCmdItem) (dst : ReadCmd) : Option ReadCmdItem :=
  cmd.items.reverse.find? fun item => item.cmd = dst

-- `vector_read_cmd_push` and `vector_type_qualifier_push`
def vectorPush {α : Type} (v : Util.Growable α) (a : α) : P (Util.Growable α) := do
  if v.size = v.capacity then
    let _ ← malloc
    let w ← faultIfNone (v.resize (bufferGrow v.capacity))
    faultIfNone (w.push a)
  else
    faultIfNone (v.push a)

def vectorReadCmdPush (item : ReadCmdItem) : P Unit := do
  let cmd ← vectorPush (← get).cmd item
  modify fun d => { d with cmd := cmd }

def vectorReadCmdPop : P Unit := do
  failIf ((← get).cmd.size = 0)
  modify fun d => { d with cmd := d.cmd.pop }

def vectorTypeQualifierInit : P VectorTypeQualifier := do
  let _ ← malloc
  let extName ← vectorStrInit
  pure ⟨.empty TypeQualifier VECTOR_DEF_CAPACITY, extName⟩

def vectorTypeQualifierPush (v : VectorTypeQualifier) (t : TypeQualifier) : P VectorTypeQualifier := do
  return { v with qContainer := ← vectorPush v.qContainer t }

-- the characters that `last_sname` points to, the string has to be in one of the output vectors still
def snameText (outputs : List VectorStr) : Sname → Option (List Byte)
  | .literal s => some s
  | .element addr => ((outputs.flatMap (·.items)).find? fun s => s.addr = addr).map fun s => s.text.bytes

def lastSname : P (List Byte) := do
  let d ← get
  let sname ← failIfNone d.lastSname
  faultIfNone (snameText d.outputs sname)

end Gnu3

end Demangle

end LibCxxRt
