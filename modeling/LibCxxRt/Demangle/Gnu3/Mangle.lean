import LibCxxRt.Demangle.Gnu3.Printer
import LibCxxRt.Util.Dictionary

/-!
This module contains how types and names are spelled in C++, and how a compiler mangles them: it keeps a
dictionary of the components that it has mangled and replaces one that comes again by its number.

Left out are types and names that the demangler does not number like a compiler: function types, parameters
of templates, abbreviations without template arguments, and a template that is used again with other arguments
outside of a nested name.
-/

namespace LibCxxRt

namespace Demangle

namespace Gnu3

open Util

def spell (s : String) : List Byte :=
  (lit s).bytes

def TypeQualifier.spelling (q : TypeQualifier) : List Byte :=
  q.text.bytes

def Unqualified.spelling (u : Unqualified) : List Byte :=
  u.text.bytes

def spellDimension : Option Nat → List Byte
  | none => spell " []"
  | some n => spell " [" ++ (numeral 10 n ++ spell "]")

-- the name of the class for its constructors and its destructor
def Unqualified.className (u : Unqualified) (name : Option (List Byte)) : Option (List Byte) :=
  if u.isOperator then name else some u.spelling

def Part.className (name : Option (List Byte)) : Part → Option (List Byte)
  | .unqualified u => u.className name
  | .std u _ => u.className name
  | _ => name

-- the scope is followed by `::` if this part is not template arguments
def spellScope (scope : List Byte) (part : Part) : List Byte :=
  if scope.isEmpty || !part.isUnqualified then scope else scope ++ spell "::"

mutual

def Ty.spelling : Ty → List Byte
  | .builtin e _ => spell e.2
  | .builtinD e _ => spell e.2
  | .void => spell "void"
  | .qualified q t => t.spelling ++ q.spelling
  | .named n => n.spelling
  | .array dimension t => t.spelling ++ spellDimension dimension
  | .subst _ => []
  | .param _ => []
  | .function _ _ => []

def Name.spelling : Name → List Byte
  | .source u args => u.spelling ++ spellArgs args
  | .std u args => spell "std::" ++ u.spelling ++ spellArgs args
  | .abbreviation e _ args => spell e.2.1 ++ spellArgs args
  | .nested _ parts => spellParts [] none parts

def Part.spelling (name : Option (List Byte)) : Part → List Byte
  | .unqualified u => u.spelling
  | .std u args => spell "std::" ++ u.spelling ++ spellArgs args
  | .abbreviation e _ args => spell e.2.1 ++ spellArgs args
  | .args ts => spellArgs ts
  | .ctorDtor e _ => spell e.2 ++ name.getD []
  | .subst _ => []
  | .param _ => []

def spellParts (scope : List Byte) (name : Option (List Byte)) : List Part → List Byte
  | [] => scope
  | part :: parts => spellParts (spellScope scope part ++ part.spelling name) (part.className name) parts

def spellArgs : List Ty → List Byte
  | [] => []
  | t :: ts => spell "<" ++ t.spelling ++ spellTypes ts ++ spell ">"

def spellTypes : List Ty → List Byte
  | [] => []
  | t :: ts => spell ", " ++ t.spelling ++ spellTypes ts

end

def Name.quals : Name → MemQualifiers
  | .nested quals _ => quals
  | _ => .none

def spellParams : List Ty → List Byte
  | [] => spell "("
  | t :: ts => spell "(" ++ t.spelling ++ spellTypes ts

def MemQualifiers.spelling (q : MemQualifiers) : List Byte :=
  q.texts.flatMap CString.bytes

def spellReturn : Option Ty → List Byte
  | none => []
  | some t => t.spelling ++ spell " "

def Encoding.spelling : Encoding → List Byte
  | .data n => n.spelling ++ n.quals.spelling
  | .function n ret params =>
    spellReturn ret ++ n.spelling ++ spellParams params ++ spell ")" ++ n.quals.spelling

-- by how they are spelled
abbrev Components := List (List Byte)

-- there is no number for the empty string
def number (d : Components) (s : List Byte) : Option Nat :=
  if s.isEmpty then none else d.idxOf? s

-- replace a component that has come before by its number
def component (s : List Byte) (d : Components) (m : Option (Ty × Components)) : Option (Ty × Components) :=
  match number d s with
  | some i => some (.subst i, d)
  | none => m.map fun r => (r.1, Dictionary.add r.2 s)

def Part.isCtorDtor : Part → Bool
  | .ctorDtor _ _ => true
  | _ => false

-- the name of a class, a member function is not among them
def Name.isClass : Name → Bool
  | .nested quals parts => quals == .none && !parts.any Part.isCtorDtor
  | _ => true

-- the longest scope that has come before: how many parts it has and its number
def knownScope (d : Components) (scope : List Byte) (name : Option (List Byte)) : List Part → Option (Nat × Nat)
  | [] => none
  | part :: parts =>
    let scope := spellScope scope part ++ part.spelling name
    match knownScope d scope (part.className name) parts with
    | some (k, i) => some (k + 1, i)
    | none => (number d scope).map fun i => (1, i)

def addScope (d : Components) (scope : List Byte) : Components :=
  if scope.isEmpty then d else Dictionary.add d scope

mutual

-- `isCv` if the type is qualified further in the same list of cv qualifiers
def Ty.compress (isCv : Bool) (t : Ty) (d : Components) : Option (Ty × Components) :=
  match t with
  | .builtin e h => some (.builtin e h, d)
  | .builtinD e h => some (.builtinD e h, d)
  | .void => some (.void, d)
  | .qualified q t =>
    let m := (t.compress q.isCv d).map fun r => (.qualified q r.1, r.2)
    if isCv && q.isCv then m else component (t.spelling ++ q.spelling) d m
  | .named n =>
    if n.isClass then
      component n.spelling d ((n.compress d).map fun r => (.named r.1, r.2))
    else
      none
  | .array dimension t =>
    component (t.spelling ++ spellDimension dimension) d
      ((t.compress false d).map fun r => (.array dimension r.1, r.2))
  | .subst _ => none
  | .param _ => none
  | .function _ _ => none

-- the name as a whole is left to the type
def Name.compress (n : Name) (d : Components) : Option (Name × Components) :=
  match n with
  | .source u args =>
    if args.isEmpty then
      some (.source u [], d)
    else if isOperatorName u.text ∨ u.spelling ∈ d then
      none
    else
      (compressTypes args (Dictionary.add d u.spelling)).map fun r => (.source u r.1, r.2)
  | .std u args =>
    let s := spell "std::" ++ u.spelling
    if args.isEmpty then
      some (.std u [], d)
    else if s ∈ d then
      none
    else
      (compressTypes args (Dictionary.add d s)).map fun r => (.std u r.1, r.2)
  | .abbreviation e h args =>
    if args.isEmpty || e.2.2.isSome then
      none
    else
      (compressTypes args d).map fun r => (.abbreviation e h r.1, r.2)
  | .nested quals parts =>
    if parts.isEmpty then
      none
    else
      match knownScope d [] none parts with
      | some (k, i) => (compressParts k [] none parts d).map fun r => (.nested quals (.subst i :: r.1), r.2)
      | none => (compressParts 0 [] none parts d).map fun r => (.nested quals r.1, r.2)

def Part.compress (scope : List Byte) (name : Option (List Byte)) (part : Part) (d : Components)
    : Option (List Part × Components) :=
  match part with
  | .unqualified u => some ([.unqualified u], d)
  | .std u args =>
    let s := spell "std::" ++ u.spelling
    if !scope.isEmpty then
      none
    else if args.isEmpty then
      some ([.std u []], d)
    else
      match number d s with
      | some i => (compressTypes args d).map fun r => ([.subst i, .args r.1], r.2)
      | none => (compressTypes args (Dictionary.add d s)).map fun r => ([.std u r.1], r.2)
  | .abbreviation e h args =>
    if !scope.isEmpty || args.isEmpty || e.2.2.isSome then
      none
    else
      (compressTypes args d).map fun r => ([.abbreviation e h r.1], r.2)
  | .args ts =>
    if scope.isEmpty || ts.isEmpty then
      none
    else
      (compressTypes ts d).map fun r => ([.args r.1], r.2)
  | .ctorDtor e h => if scope.isEmpty || name.isNone then none else some ([.ctorDtor e h], d)
  | .subst _ => none
  | .param _ => none

-- the first `k` parts are replaced by a number already
def compressParts (k : Nat) (scope : List Byte) (name : Option (List Byte)) (parts : List Part) (d : Components)
    : Option (List Part × Components) :=
  match parts with
  | [] => some ([], d)
  | part :: parts =>
    let next := spellScope scope part ++ part.spelling name
    match k with
    | k + 1 => compressParts k next (part.className name) parts d
    | 0 =>
      (part.compress scope name (addScope d scope)).bind fun r =>
        (compressParts 0 next (part.className name) parts r.2).map fun r' => (r.1 ++ r'.1, r'.2)

def compressTypes (ts : List Ty) (d : Components) : Option (List Ty × Components) :=
  match ts with
  | [] => some ([], d)
  | t :: ts =>
    (t.compress false d).bind fun r => (compressTypes ts r.2).map fun r' => (r.1 :: r'.1, r'.2)

end

def compressReturn (ret : Option Ty) (d : Components) : Option (Option Ty × Components) :=
  match ret with
  | none => some (none, d)
  | some t => (t.compress false d).map fun r => (some r.1, r.2)

def Encoding.compress : Encoding → Option (Encoding × Components)
  | .data n => (n.compress []).map fun r => (.data r.1, r.2)
  | .function n ret params =>
    (n.compress []).bind fun r =>
      (compressReturn ret r.2).bind fun r' =>
        (compressTypes params r'.2).map fun r'' => (.function r.1 r'.1 r''.1, r''.2)

end Gnu3

end Demangle

end LibCxxRt
