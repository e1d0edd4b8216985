import LibCxxRt.Demangle.Gnu3.Impl.Data

/-!
This module contains the codes that the demangler looks up and what it prints for them. Codes of two
characters are looked up by their hash, which other pairs of characters may have as well.
-/

namespace LibCxxRt

namespace Demangle

namespace Gnu3

def lookup {α : Type} (table : List (Char × α)) (c : Byte) : Option α :=
  (table.find? fun e => chr e.1 == c).map Prod.snd

def codeHash (code : String) : Int :=
  match ascii code with
  | [x, y] => 64 * x.toNat + y.toNat
  | _ => 0

def lookupHash {α : Type} (table : List (String × α)) (hash : Int) : Option α :=
  (table.find? fun e => codeHash e.1 == hash).map Prod.snd

-- `SIMPLE_HASH(*ddata->cur, *(ddata->cur + 1))`
def peekHash : P Int := do
  let x ← peek
  let y ← peekAt 1
  return simpleHash (← get).env.signedChar x y

-- of the switch of `cpp_demangle_read_type`, `v` is not among them
def builtinTypes : List (Char × String) := [
  ('a', "signed char"), ('b', "bool"), ('c', "char"), ('d', "double"), ('e', "long double"),
  ('f', "float"), ('g', "__float128"), ('h', "unsigned char"), ('i', "int"), ('j', "unsigned int"),
  ('l', "long"), ('m', "unsigned long"), ('n', "__int128"), ('o', "unsigned __int128"),
  ('s', "short"), ('t', "unsigned short"), ('w', "wchar_t"), ('x', "long long"),
  ('y', "unsigned long long"), ('z', "...")
]

-- behind a `D`
def builtinTypesD : List (Char × String) := [
  ('a', "auto"), ('c', "decltype(auto)"), ('d', "decimal64"), ('e', "decimal128"),
  ('f', "decimal32"), ('h', "half"), ('i', "char32_t"), ('n', "decltype(nullptr)"),
  ('s', "char16_t")
]

def typeQualifiers : List (Char × TypeQualifier) := [
  ('C', .cmx), ('G', .img), ('K', .cst), ('P', .ptr), ('r', .rst), ('V', .vat)
]

-- of `cpp_demangle_read_uqname`, with what it prints
def operatorNames : List (String × String) := [
  ("aa", "operator&&"), ("ad", "operator&"), ("an", "operator&"), ("aN", "operator&="),
  ("aS", "operator="), ("cl", "operator()"), ("cm", "operator,"), ("co", "operator~"),
  ("da", "operator delete []"), ("de", "operator*"), ("dl", "operator delete"), ("dv", "operator/"),
  ("dV", "operator/="), ("eo", "operator^"), ("eO", "operator^="), ("eq", "operator=="),
  ("ge", "operator>="), ("gt", "operator>"), ("ix", "operator[]"), ("le", "operator<="),
  ("ls", "operator<<"), ("lS", "operator<<="), ("lt", "operator<"), ("mi", "operator-"),
  ("mI", "operator-="), ("ml", "operator*"), ("mL", "operator*="), ("mm", "operator--"),
  ("na", "operator new []"), ("ne", "operator!="), ("ng", "operator-"), ("nt", "operator!"),
  ("nw", "operator new"), ("oo", "operator||"), ("or", "operator|"), ("oR", "operator|="),
  ("pl", "operator+"), ("pL", "operator+="), ("pm", "operator->*"), ("pp", "operator++"),
  ("ps", "operator+"), ("pt", "operator->"), ("qu", "operator?"), ("rm", "operator%"),
  ("rM", "operator%="), ("rs", "operator>>"), ("rS", "operator>>="), ("rz", "operator sizeof "),
  ("sr", "scope resolution operator "), ("sv", "operator sizeof ")
]

-- what is printed before the name of the class
def ctorDtorNames : List (String × String) := [
  ("C1", "::"), ("C2", "::"), ("C3", "::"), ("D0", "::~"), ("D1", "::~"), ("D2", "::~")
]

inductive Arity where
  | unary
  | binary
  | trinary
  deriving DecidableEq, Repr

-- of `cpp_demangle_read_expression`
def expressionOperators : List (String × Arity × String) := [
  ("aa", .binary, "&&"), ("ad", .unary, "&"), ("an", .binary, "&"), ("aN", .binary, "&="),
  ("aS", .binary, "="), ("cl", .binary, "()"), ("cm", .binary, ","), ("co", .binary, "~"),
  ("cv", .binary, "(cast)"), ("da", .unary, "delete []"), ("de", .unary, "*"),
  ("dl", .unary, "delete"), ("dv", .binary, "/"), ("dV", .binary, "/="), ("eo", .binary, "^"),
  ("eO", .binary, "^="), ("eq", .binary, "=="), ("ge", .binary, ">="), ("gt", .binary, ">"),
  ("ix", .binary, "[]"), ("le", .binary, "<="), ("ls", .binary, "<<"), ("lS", .binary, "<<="),
  ("lt", .binary, "<"), ("mi", .binary, "-"), ("mI", .binary, "-="), ("ml", .binary, "*"),
  ("mL", .binary, "*="), ("mm", .binary, "--"), ("na", .unary, "new []"), ("ne", .binary, "!="),
  ("ng", .unary, "-"), ("nt", .binary, "!"), ("nw", .unary, "new"), ("oo", .binary, "||"),
  ("or", .binary, "|"), ("oR", .binary, "|="), ("pl", .binary, "+"), ("pL", .binary, "+="),
  ("pm", .binary, "->*"), ("pp", .binary, "++"), ("ps", .unary, "+"), ("pt", .binary, "->"),
  ("qu", .trinary, "?"), ("rm", .binary, "%"), ("rM", .binary, "%="), ("rs", .binary, ">>"),
  ("rS", .binary, ">>="), ("rz", .unary, "sizeof"), ("sv", .unary, "sizeof")
]

-- of `cpp_demangle_read_subst`, with the new `last_sname`
def stdAbbreviations : List (String × String × Option String) := [
  ("Sa", "std::allocator", none),
  ("Sb", "std::basic_string", none),
  ("Sd", "std::basic_iostream<char, std::char_traits<char>>", some "basic_iostream"),
  ("Si", "std::basic_istream<char, std::char_traits<char>>", some "basic_istream"),
  ("So", "std::basic_ostream<char, std::char_traits<char>>", some "basic_ostream"),
  ("Ss", "std::string", some "string")
]

-- of `cpp_demangle_read_encoding`, special names of a type
def specialTypeNames : List (String × String) := [
  ("TF", "typeinfo fn for "), ("TI", "typeinfo for "), ("TJ", "java Class for "),
  ("TS", "typeinfo name for "), ("TT", "VTT for "), ("TV", "vtable for ")
]

end Gnu3

end Demangle

end LibCxxRt
