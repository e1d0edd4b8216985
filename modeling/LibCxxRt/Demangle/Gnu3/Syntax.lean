import LibCxxRt.Demangle.Gnu3.Impl
import Mathlib.Data.Nat.Digits.Defs

/-!
This module contains types and names as a compiler has them before it mangles them, and how they are encoded.
They may refer to what has come before by a number.
-/

namespace LibCxxRt

namespace Demangle

namespace Gnu3

structure Identifier where
  text : CString
  head : text.bytes.head?.any fun c => !isDigit c
  length : text.strlen ≤ LONG_MAX

inductive Unqualified where
  | identifier (id : Identifier)
  | operator (e : String × String) (h : e ∈ operatorNames)

-- the qualifiers of a member function
structure MemQualifiers where
  rst : Bool
  vat : Bool
  cst : Bool
  ref : Bool
  rref : Bool
  deriving DecidableEq, Repr

def MemQualifiers.none : MemQualifiers :=
  ⟨false, false, false, false, false⟩

mutual

inductive Ty where
  | builtin (e : Char × String) (h : e ∈ builtinTypes)
  | builtinD (e : Char × String) (h : e ∈ builtinTypesD)
  | void
  | qualified (q : TypeQualifier) (t : Ty)
  | named (n : Name)
  | subst (i : Nat)
  | param (i : Nat)
  | array (dimension : Option Nat) (t : Ty)
  | function (ret : Ty) (params : List Ty)

-- without template arguments the list of them is empty
inductive Name where
  | source (u : Unqualified) (args : List Ty)
  | std (u : Unqualified) (args : List Ty)
  | abbreviation (e : String × String × Option String) (h : e ∈ stdAbbreviations) (args : List Ty)
  | nested (quals : MemQualifiers) (parts : List Part)

inductive Part where
  | unqualified (u : Unqualified)
  | std (u : Unqualified) (args : List Ty)
  | abbreviation (e : String × String × Option String) (h : e ∈ stdAbbreviations) (args : List Ty)
  | args (ts : List Ty)
  | subst (i : Nat)
  | param (i : Nat)
  | ctorDtor (e : String × String) (h : e ∈ ctorDtorNames)

end

-- what a mangled name is the one of, only a template function has its return type in it
inductive Encoding where
  | data (n : Name)
  | function (n : Name) (ret : Option Ty) (params : List Ty)

def digitByte (n : Nat) : Byte :=
  if n < 10 then
    chr '0' + BitVec.ofNat 8 n
  else
    chr 'A' + BitVec.ofNat 8 (n - 10)

def numeral (base n : Nat) : List Byte :=
  if n = 0 then
    [chr '0']
  else
    (Nat.digits base n).reverse.map digitByte

-- the first one has no number
def seqId : Nat → List Byte
  | 0 => [chr '_']
  | i + 1 => numeral 36 i ++ [chr '_']

-- a vendor extension and a vector are not among the types here
def TypeQualifier.code : TypeQualifier → Byte
  | .ptr => chr 'P'
  | .ref => chr 'R'
  | .rref => chr 'O'
  | .cmx => chr 'C'
  | .img => chr 'G'
  | .rst => chr 'r'
  | .vat => chr 'V'
  | .cst => chr 'K'
  | .ext => chr 'U'
  | .vec => chr 'D'

def Unqualified.encode : Unqualified → List Byte
  | .identifier id => numeral 10 id.text.strlen ++ id.text.bytes
  | .operator e _ => ascii e.1

def encodeIf (c : Bool) (code : Char) : List Byte :=
  if c then [chr code] else []

def MemQualifiers.encode (q : MemQualifiers) : List Byte :=
  encodeIf q.rst 'r' ++ encodeIf q.vat 'V' ++ encodeIf q.cst 'K' ++ encodeIf q.ref 'R'
    ++ encodeIf q.rref 'O'

def encodeDimension : Option Nat → List Byte
  | none => []
  | some n => numeral 10 n

mutual

def Ty.encode : Ty → List Byte
  | .builtin e _ => [chr e.1]
  | .builtinD e _ => [chr 'D', chr e.1]
  | .void => [chr 'v']
  | .qualified q t => q.code :: t.encode
  | .named n => n.encode
  | .subst i => chr 'S' :: seqId i
  | .param i => chr 'T' :: seqId i
  | .array dimension t => chr 'A' :: (encodeDimension dimension ++ chr '_' :: t.encode)
  | .function ret params => chr 'F' :: (ret.encode ++ (encodeParams params ++ [chr 'E']))

def Name.encode : Name → List Byte
  | .source u args => u.encode ++ encodeArgs args
  | .std u args => chr 'S' :: chr 't' :: (u.encode ++ encodeArgs args)
  | .abbreviation e _ args => ascii e.1 ++ encodeArgs args
  | .nested quals parts => chr 'N' :: (quals.encode ++ (encodeParts parts ++ [chr 'E']))

def Part.encode : Part → List Byte
  | .unqualified u => u.encode
  | .std u ts => chr 'S' :: chr 't' :: (u.encode ++ encodeArgs ts)
  | .abbreviation e _ ts => ascii e.1 ++ encodeArgs ts
  | .args ts => encodeArgs ts
  | .subst i => chr 'S' :: seqId i
  | .param i => chr 'T' :: seqId i
  | .ctorDtor e _ => ascii e.1

def encodeParts : List Part → List Byte
  | [] => []
  | part :: parts => part.encode ++ encodeParts parts

def encodeTypes : List Ty → List Byte
  | [] => []
  | t :: ts => t.encode ++ encodeTypes ts

-- a function without parameters has `void` in their place
def encodeParams : List Ty → List Byte
  | [] => [chr 'v']
  | t :: ts => t.encode ++ encodeTypes ts

def encodeArgs : List Ty → List Byte
  | [] => []
  | t :: ts => chr 'I' :: (t.encode ++ (encodeTypes ts ++ [chr 'E']))

end

def encodeReturn : Option Ty → List Byte
  | none => []
  | some t => t.encode

def Encoding.encode : Encoding → List Byte
  | .data n => ascii "_Z" ++ n.encode
  | .function n ret params => ascii "_Z" ++ (n.encode ++ (encodeReturn ret ++ encodeParams params))

def Identifier.shown (id : Identifier) : CString :=
  if id.text.bytes = ascii "_GLOBAL__N_1" then lit "(anonymous namespace)" else id.text

namespace Identifier

variable (id : Identifier)

theorem strlen_pos : 0 < id.text.strlen := by
  have hhead := id.head
  cases h : id.text.bytes with
  | nil =>
    rw [h] at hhead
    cases hhead
  | cons b s =>
    rw [CString.strlen, h]
    exact Nat.succ_pos _

theorem strlen_shown : id.shown.strlen ≠ 0 := by
  unfold shown
  split
  . decide
  . exact Nat.ne_of_gt id.strlen_pos

end Identifier

def Unqualified.text : Unqualified → CString
  | .identifier id => id.shown
  | .operator e _ => lit e.2

-- a name that is not a candidate for substitution and that has no template arguments
def isOperatorName (s : CString) : Bool :=
  8 < s.strlen ∧ strstr s (ascii "operator")

def TypeQualifier.isRef (q : TypeQualifier) : Bool :=
  q == .ref || q == .rref

def Ty.isRef : Ty → Bool
  | .qualified q _ => q.isRef
  | _ => false

def Ty.isVoid : Ty → Bool
  | .void => true
  | _ => false

def Unqualified.isOperator : Unqualified → Bool
  | .identifier _ => false
  | .operator _ _ => true

def Part.isOperator : Part → Bool
  | .unqualified u => u.isOperator
  | _ => false

def Part.isArgs : Part → Bool
  | .args _ => true
  | _ => false

-- without template arguments of its own, though the demangler looks for them
def Part.isStdOnly : Part → Bool
  | .std _ ts => ts.isEmpty
  | .abbreviation _ _ ts => ts.isEmpty
  | _ => false

-- the name of a type does not start with an operator
def Name.isTypeName : Name → Bool
  | .source u _ => !u.isOperator
  | _ => true

-- numbers that do not fit into a `long` are not among them
def isIndex (i : Nat) : Bool :=
  decide ((i : Int) ≤ LONG_MAX)

mutual

/--
What the grammar of types excludes: references to references, parameters of type `void`, more types in a list
than the demangler tries to read.
-/
def Ty.valid : Ty → Bool
  | .builtin _ _ => true
  | .builtinD _ _ => true
  | .void => true
  | .qualified q t => !q.hasName && !(q.isRef && t.isRef) && t.valid
  | .named n => n.isTypeName && n.valid
  | .subst i => isIndex i
  | .param i => isIndex i
  | .array _ t => t.valid
  | .function ret params => ret.valid && decide (params.length ≤ tries) && validParams params

def Name.valid : Name → Bool
  | .source u args =>
    (args.isEmpty || !isOperatorName u.text) && decide (args.length ≤ tries) && validTypes args
  | .std _ args => decide (args.length ≤ tries) && validTypes args
  | .abbreviation _ _ args => decide (args.length ≤ tries) && validTypes args
  | .nested _ parts =>
    !parts.isEmpty && !parts.head?.any Part.isOperator && decide (parts.length ≤ tries) && validParts parts

def Part.valid : Part → Bool
  | .unqualified _ => true
  | .std _ ts => decide (ts.length ≤ tries) && validTypes ts
  | .abbreviation _ _ ts => decide (ts.length ≤ tries) && validTypes ts
  | .args ts => !ts.isEmpty && decide (ts.length ≤ tries) && validTypes ts
  | .subst i => isIndex i
  | .param i => isIndex i
  | .ctorDtor _ _ => true

def validParts : List Part → Bool
  | [] => true
  | part :: parts => part.valid && !(part.isStdOnly && parts.head?.any Part.isArgs) && validParts parts

def validTypes : List Ty → Bool
  | [] => true
  | t :: ts => t.valid && validTypes ts

def validParams : List Ty → Bool
  | [] => true
  | t :: ts => !t.isVoid && t.valid && validParams ts

end

def Part.isTemplate : Part → Bool
  | .std _ ts => !ts.isEmpty
  | .abbreviation _ _ ts => !ts.isEmpty
  | .args _ => true
  | _ => false

def Name.isTemplate : Name → Bool
  | .source _ args => !args.isEmpty
  | .std _ args => !args.isEmpty
  | .abbreviation _ _ args => !args.isEmpty
  | .nested _ parts => parts.getLast?.any Part.isTemplate

-- one round of the loop over the parameters is for the end, and one for the return type
def Encoding.valid : Encoding → Bool
  | .data n => n.valid
  | .function n none params =>
    n.valid && !n.isTemplate && validParams params && decide (params.length + 1 ≤ tries)
  | .function n (some t) params =>
    n.valid && n.isTemplate && t.valid && validParams params && decide (params.length + 2 ≤ tries)

end Gnu3

end Demangle

end LibCxxRt
