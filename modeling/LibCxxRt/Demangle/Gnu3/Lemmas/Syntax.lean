import LibCxxRt.Demangle.Gnu3.Lemmas.Numeral

/-!
This module determines which characters the encoding of a type or a name starts with.
-/

namespace LibCxxRt

namespace Demangle

namespace Gnu3

variable {b : Byte} {c : Char}

def isTypeStart (b : Byte) : Bool :=
  isDigit b || (ascii "abcdefghijlmnostwxyzDvPRCOGrVKSTAFN").contains b

theorem ne_of_isTypeStart (hb : isTypeStart b = true) (hc : isTypeStart (chr c) = false) : b ≠ chr c := by
  rintro rfl
  rw [hb] at hc
  cases hc

theorem isTypeStart_of_isDigit (hb : isDigit b = true) : isTypeStart b = true := by
  rw [isTypeStart, hb]
  rfl

theorem ne_zero_of_isTypeStart (hb : isTypeStart b = true) : b ≠ 0 := by
  rintro rfl
  cases hb

-- of a source name or an operator
def isUnqualifiedStart (b : Byte) : Bool :=
  isDigit b || isLower b

theorem ne_of_isUnqualifiedStart (hb : isUnqualifiedStart b = true)
    (hc : isUnqualifiedStart (chr c) = false) : b ≠ chr c := by
  rintro rfl
  rw [hb] at hc
  cases hc

theorem headD_append {a s : List Byte} (ha : a ≠ []) : (a ++ s).headD 0 = a.headD 0 := by
  cases a with
  | nil => exact absurd rfl ha
  | cons b a => rfl

theorem Unqualified.encode_ne_nil (u : Unqualified) : u.encode ≠ [] := by
  cases u with
  | identifier id =>
    rw [encode]
    simp [numeral_ne_nil]
  | operator e he =>
    have h : ∀ e ∈ operatorNames, ascii e.1 ≠ [] := by decide
    exact h e he

theorem Unqualified.isUnqualifiedStart_headD (u : Unqualified) (s : List Byte)
    : isUnqualifiedStart ((u.encode ++ s).headD 0) = true := by
  cases u with
  | identifier id =>
    rw [encode, List.append_assoc, isUnqualifiedStart, isDigit_numeral]
    rfl
  | operator e he =>
    have h : ∀ e ∈ operatorNames, ascii e.1 ≠ [] ∧ isUnqualifiedStart ((ascii e.1).headD 0) = true := by
      decide
    rw [encode, headD_append (h e he).1]
    exact (h e he).2

theorem Unqualified.isDigit_headD {u : Unqualified} (hu : u.isOperator = false) (s : List Byte)
    : isDigit ((u.encode ++ s).headD 0) = true := by
  cases u with
  | identifier id =>
    rw [encode, List.append_assoc]
    exact isDigit_numeral _ _
  | operator e he => cases hu

theorem stdAbbreviation_code {e : String × String × Option String} (he : e ∈ stdAbbreviations)
    : ∃ y, ascii e.1 = [chr 'S', y] ∧ (∀ signed, simpleHash signed (chr 'S') y = codeHash e.1)
        ∧ lookupHash stdAbbreviations (codeHash e.1) = some e.2 := by
  have h : ∀ e ∈ stdAbbreviations, ascii e.1 = [chr 'S', (ascii e.1).getD 1 0]
      ∧ (∀ signed, simpleHash signed (chr 'S') ((ascii e.1).getD 1 0) = codeHash e.1)
      ∧ lookupHash stdAbbreviations (codeHash e.1) = some e.2 := by
    decide
  exact ⟨_, h e he⟩

theorem stdAbbreviation_headD {e : String × String × Option String} (he : e ∈ stdAbbreviations) (s : List Byte)
    : (ascii e.1 ++ s).headD 0 = chr 'S' := by
  rcases stdAbbreviation_code he with ⟨y, hcode, _⟩
  rw [hcode]
  rfl

theorem Name.headD_abbreviation {e : String × String × Option String} (he : e ∈ stdAbbreviations)
    (args : List Ty) (s : List Byte)
    : ((Name.abbreviation e he args).encode ++ s).headD 0 = chr 'S' := by
  rw [encode, List.append_assoc]
  exact stdAbbreviation_headD he _

theorem Part.headD_abbreviation {e : String × String × Option String} (he : e ∈ stdAbbreviations)
    (args : List Ty) (s : List Byte)
    : ((Part.abbreviation e he args).encode ++ s).headD 0 = chr 'S' := by
  rw [encode, List.append_assoc]
  exact stdAbbreviation_headD he _

theorem code_isTypeStart {q : TypeQualifier} (hq : q.hasName = false) : isTypeStart q.code = true := by
  cases q <;> first | rfl | cases hq

theorem Name.isTypeStart_headD {n : Name} (hn : n.isTypeName = true) (s : List Byte)
    : isTypeStart ((n.encode ++ s).headD 0) = true := by
  cases n with
  | source u args =>
    rw [encode, List.append_assoc]
    apply isTypeStart_of_isDigit
    apply Unqualified.isDigit_headD
    simpa [isTypeName] using hn
  | std u args => rfl
  | abbreviation e he args =>
    rw [headD_abbreviation]
    rfl
  | nested quals parts => rfl

theorem Ty.isTypeStart_headD {t : Ty} (ht : t.valid = true) (s : List Byte)
    : isTypeStart ((t.encode ++ s).headD 0) = true := by
  cases t with
  | builtin e he =>
    have h : ∀ e ∈ builtinTypes, isTypeStart (chr e.1) = true := by decide
    exact h e he
  | qualified q t =>
    rw [valid] at ht
    apply code_isTypeStart
    simp only [Bool.and_eq_true, Bool.not_eq_true'] at ht
    exact ht.1.1
  | named n =>
    rw [valid, Bool.and_eq_true] at ht
    exact n.isTypeStart_headD ht.1 s
  | _ => rfl

theorem Ty.encode_ne_nil {t : Ty} (ht : t.valid = true) : t.encode ≠ [] := by
  intro h
  have hstart := t.isTypeStart_headD ht []
  rw [h] at hstart
  cases hstart

-- what follows a type in a list is another type or the end
theorem headD_encodeTypes_ne {ts : List Ty} (hts : validTypes ts = true) (s : List Byte)
    : (encodeTypes ts ++ chr 'E' :: s).headD 0 ≠ chr 'I' := by
  cases ts with
  | nil => exact (by decide : chr 'E' ≠ chr 'I')
  | cons t ts =>
    rw [validTypes, Bool.and_eq_true] at hts
    rw [encodeTypes, List.append_assoc]
    exact ne_of_isTypeStart (t.isTypeStart_headD hts.1 _) rfl

-- whether the demangler puts `::` before the part
def isScopeStart (b : Byte) : Prop :=
  b ≠ chr 'I' ∧ b ≠ chr 'C' ∧ b ≠ chr 'D'

instance (b : Byte) : Decidable (isScopeStart b) := by
  unfold isScopeStart
  infer_instance

theorem isScopeStart_of_isUnqualifiedStart (hb : isUnqualifiedStart b = true) : isScopeStart b :=
  ⟨ne_of_isUnqualifiedStart hb rfl, ne_of_isUnqualifiedStart hb rfl, ne_of_isUnqualifiedStart hb rfl⟩

theorem ctorDtor_headD {e : String × String} (he : e ∈ ctorDtorNames)
    : ascii e.1 ≠ [] ∧ (ascii e.1).headD 0 ≠ chr 'E' ∧ ¬ isScopeStart ((ascii e.1).headD 0) := by
  revert e
  decide

theorem Part.headD_ne {part : Part} (h : part.valid = true) (s : List Byte)
    : (part.encode ++ s).headD 0 ≠ chr 'E' := by
  cases part with
  | unqualified u => exact ne_of_isUnqualifiedStart (u.isUnqualifiedStart_headD s) rfl
  | std u ts => exact (by decide : chr 'S' ≠ chr 'E')
  | abbreviation e he ts =>
    rw [headD_abbreviation]
    decide
  | args ts =>
    cases ts with
    | nil => cases h
    | cons t ts => exact (by decide : chr 'I' ≠ chr 'E')
  | subst i => exact (by decide : chr 'S' ≠ chr 'E')
  | param i => exact (by decide : chr 'T' ≠ chr 'E')
  | ctorDtor e he =>
    rw [encode, headD_append (ctorDtor_headD he).1]
    exact (ctorDtor_headD he).2.1

theorem Part.isScopeStart_headD {part : Part} (h : part.valid = true) (s : List Byte)
    : isScopeStart ((part.encode ++ s).headD 0) ↔ part.isUnqualified = true := by
  cases part with
  | unqualified u =>
    exact iff_of_true (isScopeStart_of_isUnqualifiedStart (u.isUnqualifiedStart_headD s)) rfl
  | std u ts => exact iff_of_true (by decide : isScopeStart (chr 'S')) rfl
  | abbreviation e he ts =>
    rw [headD_abbreviation]
    exact iff_of_true (by decide : isScopeStart (chr 'S')) rfl
  | args ts =>
    cases ts with
    | nil => cases h
    | cons t ts => exact iff_of_false (by decide : ¬ isScopeStart (chr 'I')) Bool.false_ne_true
  | subst i => exact iff_of_true (by decide : isScopeStart (chr 'S')) rfl
  | param i => exact iff_of_true (by decide : isScopeStart (chr 'T')) rfl
  | ctorDtor e he =>
    rw [encode, headD_append (ctorDtor_headD he).1]
    exact iff_of_false (ctorDtor_headD he).2.2 Bool.false_ne_true

-- only template arguments start with an `I`
theorem Part.headD_ne_of_not_isArgs {part : Part} (hargs : part.isArgs = false) (s : List Byte)
    : (part.encode ++ s).headD 0 ≠ chr 'I' := by
  cases part with
  | unqualified u => exact ne_of_isUnqualifiedStart (u.isUnqualifiedStart_headD s) rfl
  | std u ts => exact (by decide : chr 'S' ≠ chr 'I')
  | abbreviation e he ts =>
    rw [headD_abbreviation]
    decide
  | args ts => cases hargs
  | subst i => exact (by decide : chr 'S' ≠ chr 'I')
  | param i => exact (by decide : chr 'T' ≠ chr 'I')
  | ctorDtor e he =>
    have h : ∀ e ∈ ctorDtorNames, (ascii e.1).headD 0 ≠ chr 'I' := by decide
    rw [encode, headD_append (ctorDtor_headD he).1]
    exact h e he

theorem headD_encodeParts_ne {parts : List Part} (h : parts.head?.any Part.isArgs = false) (s : List Byte)
    : (encodeParts parts ++ chr 'E' :: s).headD 0 ≠ chr 'I' := by
  cases parts with
  | nil => exact (by decide : chr 'E' ≠ chr 'I')
  | cons part parts =>
    rw [encodeParts, List.append_assoc]
    exact part.headD_ne_of_not_isArgs h _

-- the qualifiers of a member function are read before the first part
theorem Part.isMemQualifier_headD {part : Part} (h : part.valid = true) (hoperator : part.isOperator = false)
    (s : List Byte) : isMemQualifier ((part.encode ++ s).headD 0) = false := by
  cases part with
  | unqualified u =>
    have hdigit : ∀ b : Byte, isDigit b = true → isMemQualifier b = false := by decide
    exact hdigit _ (u.isDigit_headD hoperator s)
  | std u ts => exact (by decide : isMemQualifier (chr 'S') = false)
  | abbreviation e he ts =>
    rw [headD_abbreviation]
    decide
  | args ts =>
    cases ts with
    | nil => cases h
    | cons t ts => exact (by decide : isMemQualifier (chr 'I') = false)
  | subst i => exact (by decide : isMemQualifier (chr 'S') = false)
  | param i => exact (by decide : isMemQualifier (chr 'T') = false)
  | ctorDtor e he =>
    have h : ∀ e ∈ ctorDtorNames, isMemQualifier ((ascii e.1).headD 0) = false := by decide
    rw [encode, headD_append (ctorDtor_headD he).1]
    exact h e he

theorem Part.headD_ne_zero {part : Part} (h : part.valid = true) (s : List Byte)
    : (part.encode ++ s).headD 0 ≠ 0 := by
  cases part with
  | unqualified u =>
    have hne : ∀ b : Byte, isUnqualifiedStart b = true → b ≠ 0 := by decide
    exact hne _ (u.isUnqualifiedStart_headD s)
  | std u ts => exact (by decide : chr 'S' ≠ 0)
  | abbreviation e he ts =>
    rw [headD_abbreviation]
    decide
  | args ts =>
    cases ts with
    | nil => cases h
    | cons t ts => exact (by decide : chr 'I' ≠ 0)
  | subst i => exact (by decide : chr 'S' ≠ 0)
  | param i => exact (by decide : chr 'T' ≠ 0)
  | ctorDtor e he =>
    have h : ∀ e ∈ ctorDtorNames, (ascii e.1).headD 0 ≠ 0 := by decide
    rw [encode, headD_append (ctorDtor_headD he).1]
    exact h e he

end Gnu3

end Demangle

end LibCxxRt
