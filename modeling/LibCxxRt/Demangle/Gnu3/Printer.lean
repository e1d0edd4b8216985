import LibCxxRt.Demangle.Gnu3.Syntax

/-!
This module contains what is printed for a type or a name, as a list of strings. The printer keeps the strings
that the numbers in types refer to.
-/

namespace LibCxxRt

namespace Demangle

namespace Gnu3

def TypeQualifier.text (q : TypeQualifier) : CString :=
  copyString (q.print []) (q.print []).length

-- in a table of strings, the beginning of one of them is found too
def isFound (table : List CString) (s : CString) : Bool :=
  table.any fun t => s.bytes.isPrefixOf t.bytes

def addString (table : List CString) (s : CString) : List CString :=
  if isFound table s then table else table ++ [s]

-- the qualifiers that are printed, the innermost one first
def shownQualifiers : PushQualifier → List TypeQualifier → List TypeQualifier
  | .allQualifier, qs => qs
  | .cvQualifier, qs => qs.takeWhile TypeQualifier.isCv
  | .nonCvQualifier, qs => qs.dropWhile TypeQualifier.isCv

structure Page where
  output : List CString
  subst : List CString
  tmpl : List CString
  mode : PushQualifier
  -- the last thing that is printed are template arguments
  isTmpl : Bool
  -- the last name that is not in template arguments
  sname : Option { s : CString // s.strlen ≠ 0 }
  -- the number of lists of template arguments around
  depth : Nat
  mem : MemQualifiers

namespace Page

def push (p : Page) (s : CString) : Page :=
  { p with output := p.output ++ [s], isTmpl := false }

def addSubst (p : Page) (s : CString) : Page :=
  { p with subst := addString p.subst s }

def addTmpl (p : Page) (s : CString) : Page :=
  { p with tmpl := addString p.tmpl s }

def setMode (p : Page) (q : PushQualifier) : Page :=
  { p with mode := q }

-- what is printed from the `n`-th string on
def since (p : Page) (n : Nat) : CString :=
  .concat (p.output.drop n)

-- print a string of a table
def pushEntry (p : Page) (s : Option CString) : Option Page :=
  s.bind fun s => if s.strlen = 0 then none else some (p.push s)

def pushIdentifier (p : Page) (id : Identifier) : Page :=
  let p := p.push id.shown
  if p.depth = 0 then { p with sname := some ⟨id.shown, id.strlen_shown⟩ } else p

def ofLiteral (s : String) : Option { s : CString // s.strlen ≠ 0 } :=
  if h : (lit s).strlen ≠ 0 then some ⟨lit s, h⟩ else none

-- some of the abbreviations have a name for their constructors
def pushAbbreviation (p : Page) (e : String × String × Option String) : Page :=
  { p.push (lit e.2.1) with sname := (e.2.2.bind ofLiteral).or p.sname }

-- with the qualifiers up to a certain one, the type is a candidate for substitution
def pushQualifiers (p : Page) : Option (List CString) → List TypeQualifier → Page
  | _, [] => p
  | none, q :: qs => (p.push q.text).pushQualifiers none qs
  | some strs, q :: qs =>
    let strs := strs ++ [q.text]
    let p := p.push q.text
    if q.isCv && qs.head?.any TypeQualifier.isCv then
      p.pushQualifiers (some strs) qs
    else
      (p.addSubst (.concat strs)).pushQualifiers (some strs) qs

def pushShown (p : Page) (strs : Option (List CString)) (qs : List TypeQualifier) : Page :=
  p.pushQualifiers strs (shownQualifiers p.mode qs.reverse)

-- the type that is printed from the `n`-th string on is complete except for its qualifiers
def finish (p : Page) (n : Nat) (isBuiltin : Bool) (qs : List TypeQualifier) : Page :=
  let s := p.since n
  let p := if isBuiltin then p else p.addSubst s
  p.pushShown (some [s]) qs

-- the qualifiers of a function type except for those that belong to the function itself
def pushDeclarator (p : Page) (qs : List TypeQualifier) : Page :=
  let p := p.push (lit " ")
  if qs.all TypeQualifier.isCv then
    p.setMode .nonCvQualifier
  else
    (((p.push (lit "(")).setMode .nonCvQualifier).pushShown none qs).push (lit ")")

-- behind the parameters
def finishFunction (p : Page) (n : Nat) (qs : List TypeQualifier) : Page :=
  let p := ((p.push (lit ")")).setMode .cvQualifier).pushShown none qs
  (p.setMode .allQualifier).finish n false []

def addMem (p : Page) (q : MemQualifiers) : Page :=
  { p with mem := ⟨p.mem.rst || q.rst, p.mem.vat || q.vat, p.mem.cst || q.cst, p.mem.ref || q.ref,
    p.mem.rref || q.rref⟩ }

def enterArgs (p : Page) : Page :=
  { p with depth := p.depth + 1 }

def leaveArgs (p : Page) : Page :=
  { p with depth := p.depth - 1, isTmpl := true }

end Page

def Unqualified.print (u : Unqualified) (p : Page) : Page :=
  match u with
  | .identifier id => p.pushIdentifier id
  | .operator e _ => p.push (lit e.2)

def Part.isUnqualified : Part → Bool
  | .args _ => false
  | .ctorDtor _ _ => false
  | _ => true

-- a scope is followed by `::`, but not by the one of template arguments
def pushScope (next : List Part) (strs : List CString) (p : Page) : List CString × Page :=
  if next.head?.any Part.isUnqualified then
    (strs ++ [lit "::"], p.push (lit "::"))
  else
    (strs, p)

def pushDimension (dimension : Option Nat) (p : Page) : Page :=
  match dimension with
  | none => p.push (lit " []")
  | some n =>
    let s := numeral 10 n
    ((p.push (lit " [")).push (copyString s s.length)).push (lit "]")

-- the strings that the name consists of so far, and what is printed for it
def printStd (u : Unqualified) (p : Page) : List CString × Page :=
  let p₁ := p.push (lit "std::")
  let p₂ := u.print p₁
  let strs := [lit "std::", p₂.since p₁.output.length]
  (strs, p₂.addSubst (.concat strs))

mutual

def Ty.print (qs : List TypeQualifier) (t : Ty) (p : Page) : Option Page :=
  match t with
  | .builtin e _ => some ((p.push (lit e.2)).finish p.output.length true qs)
  | .builtinD e _ => some ((p.push (lit e.2)).finish p.output.length true qs)
  | .void => some ((p.push (lit "void")).finish p.output.length true qs)
  | .qualified q t => t.print (qs ++ [q]) p
  | .named n => (n.print p).map fun p' => p'.finish p.output.length false qs
  | .subst i => (p.pushEntry p.subst[i]?).map fun p' => p'.finish p.output.length false qs
  | .param i => (p.pushEntry p.tmpl[i]?).map fun p' => p'.finish p.output.length false qs
  | .array dimension t =>
    (t.print [] p).map fun p' => (pushDimension dimension p').finish p.output.length false qs
  | .function ret params =>
    (ret.print [] p).bind fun p₁ =>
      (printParams params (p₁.pushDeclarator qs)).map fun p₂ => p₂.finishFunction p.output.length qs

def Name.print (n : Name) (p : Page) : Option Page :=
  match n with
  | .source u args =>
    let p₁ := u.print p
    let s := p₁.since p.output.length
    if isOperatorName s then
      some p₁
    else
      printArgsOption [s] args (p₁.addSubst s)
  | .std u args => printArgsOption (printStd u p).1 args (printStd u p).2
  | .abbreviation e _ args => printArgsOption [lit e.2.1] args (p.pushAbbreviation e)
  | .nested quals parts => printParts [] parts (p.addMem quals)

def Part.print (part : Part) (p : Page) : Option Page :=
  match part with
  | .unqualified u => some (u.print p)
  | .std u ts => printArgsOption (printStd u p).1 ts (printStd u p).2
  | .abbreviation e _ ts => printArgsOption [lit e.2.1] ts (p.pushAbbreviation e)
  | .args ts => printArgs ts p
  | .subst i => p.pushEntry p.subst[i]?
  | .param i => p.pushEntry p.tmpl[i]?
  | .ctorDtor e _ => p.sname.map fun s => (p.push (lit e.2)).push s.1

-- the scope consists of `strs` before
def printParts (strs : List CString) (parts : List Part) (p : Page) : Option Page :=
  match parts with
  | [] => if strs.isEmpty then none else some p
  | part :: parts =>
    (part.print p).bind fun p₁ =>
      let strs := strs ++ [p₁.since p.output.length]
      let next := pushScope parts strs (p₁.addSubst (.concat strs))
      printParts next.1 parts next.2

-- with its arguments, a template that consists of `strs` is a candidate for substitution once more
def printArgsOption (strs : List CString) (args : List Ty) (p : Page) : Option Page :=
  match args with
  | [] => some p
  | t :: ts =>
    (t.print [] (p.enterArgs.push (lit "<"))).bind fun p₁ =>
      (printArgList ts (p₁.addTmpl (p₁.since (p.output.length + 1)))).map fun p₂ =>
        let p₃ := (p₂.push (lit ">")).leaveArgs
        p₃.addSubst (.concat (strs ++ [p₃.since p.output.length]))

def printArgs (args : List Ty) (p : Page) : Option Page :=
  match args with
  | [] => none
  | t :: ts =>
    (t.print [] (p.enterArgs.push (lit "<"))).bind fun p₁ =>
      (printArgList ts (p₁.addTmpl (p₁.since (p.output.length + 1)))).map fun p₂ =>
        (p₂.push (lit ">")).leaveArgs

def printArgList (ts : List Ty) (p : Page) : Option Page :=
  match ts with
  | [] => some p
  | t :: ts =>
    (t.print [] (p.push (lit ", "))).bind fun p₁ =>
      printArgList ts (p₁.addTmpl (p₁.since (p.output.length + 1)))

def printParams (params : List Ty) (p : Page) : Option Page :=
  match params with
  | [] => some (p.push (lit "("))
  | t :: ts => (t.print [] (p.push (lit "("))).bind (printTypes ts)

def printTypes (ts : List Ty) (p : Page) : Option Page :=
  match ts with
  | [] => some p
  | t :: ts => (t.print [] (p.push (lit ", "))).bind (printTypes ts)

end

def Page.blank : Page where
  output := []
  subst := []
  tmpl := []
  mode := .allQualifier
  isTmpl := false
  sname := none
  depth := 0
  mem := .none

-- the whole name of a function is not a candidate for substitution
def Page.dropCandidate (p : Page) : Page :=
  { p with subst := p.subst.dropLast }

-- a return type comes before the name, in which there are no names to refer to from here on
def printReturn (ret : Option Ty) (p : Page) : Option Page :=
  match ret with
  | none => some p
  | some t => (t.print [] { p with output := [], isTmpl := false }).map fun p' =>
    { p' with output := p'.output ++ lit " " :: p.output, sname := none }

def textIf (c : Bool) (s : String) : List CString :=
  if c then [lit s] else []

def MemQualifiers.texts (q : MemQualifiers) : List CString :=
  textIf q.vat " volatile" ++ textIf q.cst " const" ++ textIf q.rst " restrict" ++ textIf q.ref " &"
    ++ textIf q.rref " &&"

def Ty.demangled (t : Ty) : Option CString :=
  (t.print [] .blank).map fun p => .concat p.output

def Encoding.demangled : Encoding → Option CString
  | .data n => (n.print .blank).map fun p => .concat (p.output ++ p.mem.texts)
  | .function n ret params =>
    (n.print .blank).bind fun p =>
      (printReturn ret p.dropCandidate).bind fun p₁ =>
        (printParams params p₁).map fun p₂ => .concat (p₂.output ++ lit ")" :: p₂.mem.texts)

end Gnu3

end Demangle

end LibCxxRt
