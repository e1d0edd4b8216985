import LibCxxRt.Demangle.Gnu3.Lemmas.Vector
import LibCxxRt.Demangle.Gnu3.Printer
import Mathlib.Data.Nat.Digits.Lemmas

/-!
This module determines that each type and each name prints something behind what there is.
-/

namespace LibCxxRt

namespace Demangle

namespace Gnu3

-- the new strings are not empty
structure Grows (p p' : Page) : Prop where
  output : ∃ strs, p'.output = p.output ++ strs ∧ ∀ s ∈ strs, s.strlen ≠ 0
  depth : p'.depth = p.depth

structure Prints (p p' : Page) : Prop extends Grows p p' where
  length : p.output.length < p'.output.length

theorem strlen_concat (strs : List CString) : (CString.concat strs).strlen = (strs.map CString.strlen).sum := by
  unfold CString.strlen
  rw [CString.bytes_concat, List.length_flatMap]

theorem concat_singleton (s : CString) : CString.concat [s] = s := by
  apply CString.ext
  simp

theorem strlen_append_ne_zero {strs strs' : List CString}
    (h : (CString.concat strs).strlen ≠ 0 ∨ (CString.concat strs').strlen ≠ 0)
    : (CString.concat (strs ++ strs')).strlen ≠ 0 := by
  rw [strlen_concat, strlen_concat] at h
  rw [strlen_concat, List.map_append, List.sum_append]
  omega

namespace Grows

variable {p p' p'' : Page}

theorem of_eq (houtput : p'.output = p.output) (hdepth : p'.depth = p.depth) : Grows p p' := by
  refine ⟨⟨[], ?_, fun s hs => absurd hs List.not_mem_nil⟩, hdepth⟩
  rw [houtput, List.append_nil]

theorem refl (p : Page) : Grows p p :=
  of_eq rfl rfl

theorem trans (h : Grows p p') (h' : Grows p' p'') : Grows p p'' := by
  rcases h.output with ⟨strs, houtput, hstrs⟩
  rcases h'.output with ⟨strs', houtput', hstrs'⟩
  refine ⟨⟨strs ++ strs', ?_, ?_⟩, h'.depth.trans h.depth⟩
  . rw [houtput', houtput, List.append_assoc]
  . intro s hs
    rcases List.mem_append.1 hs with hs | hs
    . exact hstrs s hs
    . exact hstrs' s hs

theorem length_le (h : Grows p p') : p.output.length ≤ p'.output.length := by
  rcases h.output with ⟨strs, houtput, _⟩
  rw [houtput, List.length_append]
  exact Nat.le_add_right _ _

theorem prints (h : Grows p p') (h' : Prints p' p'') : Prints p p'' :=
  ⟨h.trans h'.toGrows, Nat.lt_of_le_of_lt h.length_le h'.length⟩

end Grows

namespace Prints

variable {p p' p'' : Page}

theorem push (p : Page) {s : CString} (hs : s.strlen ≠ 0) : Prints p (p.push s) := by
  refine ⟨⟨⟨[s], rfl, ?_⟩, rfl⟩, ?_⟩
  . intro t ht
    cases List.mem_singleton.1 ht
    exact hs
  . show _ < (p.output ++ [s]).length
    rw [List.length_append]
    exact Nat.lt_succ_self _

theorem grows (h : Prints p p') (h' : Grows p' p'') : Prints p p'' :=
  ⟨h.toGrows.trans h', Nat.lt_of_lt_of_le h.length h'.length_le⟩

theorem trans (h : Prints p p') (h' : Prints p' p'') : Prints p p'' :=
  h.grows h'.toGrows

theorem strlen_since (h : Prints p p') : (p'.since p.output.length).strlen ≠ 0 := by
  rcases h.output with ⟨strs, houtput, hstrs⟩
  have hlength := h.length
  rw [Page.since, houtput, List.drop_left, strlen_concat]
  cases strs with
  | nil =>
    rw [houtput, List.append_nil] at hlength
    exact absurd hlength (Nat.lt_irrefl _)
  | cons s strs =>
    have hs := hstrs s List.mem_cons_self
    rw [List.map_cons, List.sum_cons]
    omega

end Prints

theorem strlen_text_ne_zero (t : TypeQualifier) : t.text.strlen ≠ 0 := by
  cases t <;> decide

namespace Page

variable (p : Page)

theorem length_push (s : CString) : (p.push s).output.length = p.output.length + 1 :=
  List.length_append

theorem grows_addSubst (s : CString) : Grows p (p.addSubst s) :=
  .of_eq rfl rfl

theorem grows_addTmpl (s : CString) : Grows p (p.addTmpl s) :=
  .of_eq rfl rfl

theorem grows_setMode (q : PushQualifier) : Grows p (p.setMode q) :=
  .of_eq rfl rfl

theorem grows_pushQualifiers (strs : Option (List CString)) (qs : List TypeQualifier)
    : Grows p (p.pushQualifiers strs qs) := by
  induction qs generalizing p strs with
  | nil =>
    rw [pushQualifiers]
    exact .refl _
  | cons q qs ih =>
    have hpush := (Prints.push p (strlen_text_ne_zero q)).toGrows
    cases strs with
    | none => exact hpush.trans (ih _ none)
    | some strs =>
      rw [pushQualifiers]
      split
      . exact hpush.trans (ih _ _)
      . exact (hpush.trans (grows_addSubst _ _)).trans (ih _ _)

theorem grows_pushShown (strs : Option (List CString)) (qs : List TypeQualifier)
    : Grows p (p.pushShown strs qs) :=
  grows_pushQualifiers _ _ _

theorem grows_finish (n : Nat) (isBuiltin : Bool) (qs : List TypeQualifier)
    : Grows p (p.finish n isBuiltin qs) := by
  unfold finish
  split
  . exact grows_pushShown _ _ _
  . exact (grows_addSubst _ _).trans (grows_pushShown _ _ _)

theorem prints_pushDeclarator (qs : List TypeQualifier) : Prints p (p.pushDeclarator qs) := by
  have hpush : Prints p (p.push (lit " ")) := .push p (by decide)
  unfold pushDeclarator
  dsimp only
  split
  . exact hpush.grows (grows_setMode _ _)
  . apply hpush.trans
    apply (Prints.push _ (s := lit "(") (by decide)).grows
    apply (grows_setMode _ .nonCvQualifier).trans
    exact (grows_pushShown _ _ _).trans (Prints.push _ (s := lit ")") (by decide)).toGrows

theorem prints_finishFunction (n : Nat) (qs : List TypeQualifier) : Prints p (p.finishFunction n qs) := by
  apply (Prints.push p (s := lit ")") (by decide)).grows
  apply (grows_setMode _ .cvQualifier).trans
  exact ((grows_pushShown _ none qs).trans (grows_setMode _ _)).trans (grows_finish _ _ _ _)

theorem prints_pushIdentifier (id : Identifier) : Prints p (p.pushIdentifier id) := by
  have hpush := Prints.push p id.strlen_shown
  unfold pushIdentifier
  dsimp only
  split
  . exact hpush.grows (.of_eq rfl rfl)
  . exact hpush

theorem prints_of_pushEntry {p p' : Page} {s : Option CString} (h : p.pushEntry s = some p') : Prints p p' := by
  rcases Option.bind_eq_some_iff.1 h with ⟨s, _, hs⟩
  split at hs
  . cases hs
  . next hlen =>
    cases hs
    exact Prints.push p hlen

end Page

theorem Unqualified.strlen_text (u : Unqualified) : u.text.strlen ≠ 0 := by
  cases u with
  | identifier id => exact id.strlen_shown
  | operator e he =>
    have h : ∀ e ∈ operatorNames, (lit e.2).strlen ≠ 0 := by decide
    exact h e he

theorem Unqualified.prints (u : Unqualified) (p : Page) : Prints p (u.print p) := by
  cases u with
  | identifier id => exact p.prints_pushIdentifier id
  | operator e h => exact Prints.push p (Unqualified.operator e h).strlen_text

theorem Unqualified.output_print (u : Unqualified) (p : Page) : (u.print p).output = p.output ++ [u.text] := by
  cases u with
  | identifier id =>
    show (p.pushIdentifier id).output = _
    unfold Page.pushIdentifier
    dsimp only
    split <;> rfl
  | operator e h => rfl

theorem Unqualified.since_print (u : Unqualified) (p : Page)
    : (u.print p).since p.output.length = u.text := by
  rw [Page.since, u.output_print, List.drop_left, concat_singleton]

theorem pushScope_nil (strs : List CString) (p : Page) : pushScope [] strs p = (strs, p) := by
  rfl

theorem pushScope_of_isUnqualified {part : Part} (h : part.isUnqualified = true) (parts : List Part)
    (strs : List CString) (p : Page)
    : pushScope (part :: parts) strs p = (strs ++ [lit "::"], p.push (lit "::")) := by
  rw [pushScope, if_pos]
  exact h

theorem pushScope_of_not_isUnqualified {part : Part} (h : part.isUnqualified = false) (parts : List Part)
    (strs : List CString) (p : Page) : pushScope (part :: parts) strs p = (strs, p) := by
  rw [pushScope, if_neg]
  simpa using h

theorem printParts_nil (strs : List CString) (s : CString) (p : Page)
    : printParts (strs ++ [s]) [] p = some p := by
  rw [printParts, if_neg]
  simp

theorem grows_pushScope (next : List Part) (strs : List CString) (p : Page)
    : Grows p (pushScope next strs p).2 := by
  unfold pushScope
  split
  . exact (Prints.push p (s := lit "::") (by decide)).toGrows
  . exact .refl _

theorem digitByte_ne_zero {n : Nat} (hn : n < 36) : digitByte n ≠ 0 := by
  revert n
  decide

theorem numeral_ne_nil (base n : Nat) : numeral base n ≠ [] := by
  unfold numeral
  split
  . simp
  . next hn => simpa [Nat.digits_eq_nil_iff_eq_zero] using hn

theorem numeral_nonzero (n : Nat) : ∀ b ∈ numeral 10 n, b ≠ 0 := by
  intro b hb
  unfold numeral at hb
  split at hb
  . cases List.mem_singleton.1 hb
    decide
  . rcases List.mem_map.1 hb with ⟨d, hd, rfl⟩
    have hlt : d < 10 := Nat.digits_lt_base (by decide) (List.mem_reverse.1 hd)
    exact digitByte_ne_zero (by omega)

theorem strlen_numeral (n : Nat) : (copyString (numeral 10 n) (numeral 10 n).length).strlen ≠ 0 := by
  rw [CString.strlen, bytes_copyString_of_nonzero (numeral_nonzero n)]
  exact fun h => numeral_ne_nil 10 n (List.length_eq_zero_iff.1 h)

theorem prints_pushDimension (dimension : Option Nat) (p : Page) : Prints p (pushDimension dimension p) := by
  cases dimension with
  | none => exact Prints.push p (by decide)
  | some n =>
    apply (Prints.push p (s := lit " [") (by decide)).trans
    exact (Prints.push _ (strlen_numeral n)).trans (Prints.push _ (s := lit "]") (by decide))

theorem prints_printStd (u : Unqualified) (p : Page) : Prints p (printStd u p).2 := by
  apply (Prints.push p (s := lit "std::") (by decide)).trans
  exact (u.prints _).grows (Page.grows_addSubst _ _)

-- between the brackets the depth is one more
theorem prints_brackets {p p₁ : Page} (h : Grows (p.enterArgs.push (lit "<")) p₁)
    : Prints p (p₁.push (lit ">")).leaveArgs := by
  have hdepth : (p₁.push (lit ">")).leaveArgs.depth = p.depth := by
    show p₁.depth - 1 = p.depth
    rw [h.depth]
    exact Nat.add_sub_cancel _ _
  have hopen : Prints p.enterArgs (p.enterArgs.push (lit "<")) := .push _ (by decide)
  have hclose : Prints p₁ (p₁.push (lit ">")) := .push _ (by decide)
  have houtput := (hopen.grows h).trans hclose
  exact ⟨⟨houtput.output, hdepth⟩, houtput.length⟩

theorem strlen_builtin {e : Char × String} (he : e ∈ builtinTypes) : (lit e.2).strlen ≠ 0 := by
  have h : ∀ e ∈ builtinTypes, (lit e.2).strlen ≠ 0 := by decide
  exact h e he

theorem strlen_builtinD {e : Char × String} (he : e ∈ builtinTypesD) : (lit e.2).strlen ≠ 0 := by
  have h : ∀ e ∈ builtinTypesD, (lit e.2).strlen ≠ 0 := by decide
  exact h e he

theorem strlen_ctorDtor {e : String × String} (he : e ∈ ctorDtorNames) : (lit e.2).strlen ≠ 0 := by
  have h : ∀ e ∈ ctorDtorNames, (lit e.2).strlen ≠ 0 := by decide
  exact h e he

theorem strlen_abbreviation {e : String × String × Option String} (he : e ∈ stdAbbreviations)
    : (lit e.2.1).strlen ≠ 0 := by
  have h : ∀ e ∈ stdAbbreviations, (lit e.2.1).strlen ≠ 0 := by decide
  exact h e he

theorem ofLiteral_abbreviation {e : String × String × Option String} (he : e ∈ stdAbbreviations)
    {name : String} (hname : e.2.2 = some name)
    : ∃ s, Page.ofLiteral name = some s ∧ s.1.bytes = ascii name := by
  have h : ∀ e ∈ stdAbbreviations, e.2.2.all fun name =>
      decide ((lit name).strlen ≠ 0) && (lit name).bytes == ascii name := by
    decide
  have hall := h e he
  rw [hname, Option.all_some, Bool.and_eq_true, decide_eq_true_eq, beq_iff_eq] at hall
  exact ⟨⟨lit name, hall.1⟩, dif_pos hall.1, hall.2⟩

theorem prints_pushAbbreviation {e : String × String × Option String} (he : e ∈ stdAbbreviations) (p : Page)
    : Prints p (p.pushAbbreviation e) :=
  (Prints.push p (strlen_abbreviation he)).grows (.of_eq rfl rfl)

mutual

theorem Ty.prints (t : Ty) {qs : List TypeQualifier} {p p' : Page} (h : t.print qs p = some p')
    : Prints p p' := by
  cases t with
  | builtin e he =>
    rw [Ty.print] at h
    cases h
    exact (Prints.push p (strlen_builtin he)).grows (Page.grows_finish _ _ _ _)
  | builtinD e he =>
    rw [Ty.print] at h
    cases h
    exact (Prints.push p (strlen_builtinD he)).grows (Page.grows_finish _ _ _ _)
  | void =>
    rw [Ty.print] at h
    cases h
    exact (Prints.push p (s := lit "void") (by decide)).grows (Page.grows_finish _ _ _ _)
  | qualified q t =>
    rw [Ty.print] at h
    exact t.prints h
  | named n =>
    rw [Ty.print] at h
    rcases Option.map_eq_some_iff.1 h with ⟨p₁, hn, rfl⟩
    exact (n.prints hn).grows (Page.grows_finish _ _ _ _)
  | subst i =>
    rw [Ty.print] at h
    rcases Option.map_eq_some_iff.1 h with ⟨p₁, hp, rfl⟩
    exact (Page.prints_of_pushEntry hp).grows (Page.grows_finish _ _ _ _)
  | param i =>
    rw [Ty.print] at h
    rcases Option.map_eq_some_iff.1 h with ⟨p₁, hp, rfl⟩
    exact (Page.prints_of_pushEntry hp).grows (Page.grows_finish _ _ _ _)
  | array dimension t =>
    rw [Ty.print] at h
    rcases Option.map_eq_some_iff.1 h with ⟨p₁, ht, rfl⟩
    exact ((t.prints ht).trans (prints_pushDimension _ _)).grows (Page.grows_finish _ _ _ _)
  | function ret params =>
    rw [Ty.print] at h
    rcases Option.bind_eq_some_iff.1 h with ⟨p₁, hret, h⟩
    rcases Option.map_eq_some_iff.1 h with ⟨p₂, hparams, rfl⟩
    have h₁ := (ret.prints hret).trans (Page.prints_pushDeclarator p₁ qs)
    exact (h₁.grows (prints_printParams params hparams).toGrows).trans (Page.prints_finishFunction _ _ _)

theorem Name.prints (n : Name) {p p' : Page} (h : n.print p = some p') : Prints p p' := by
  cases n with
  | source u args =>
    rw [Name.print] at h
    split at h
    . cases h
      exact u.prints p
    . exact ((u.prints p).grows (Page.grows_addSubst _ _)).grows (grows_printArgsOption args h)
  | std u args =>
    rw [Name.print] at h
    exact (prints_printStd u p).grows (grows_printArgsOption args h)
  | abbreviation e he args =>
    rw [Name.print] at h
    exact (prints_pushAbbreviation he p).grows (grows_printArgsOption args h)
  | nested quals parts =>
    rw [Name.print] at h
    cases parts with
    | nil =>
      rw [printParts] at h
      cases h
    | cons part parts =>
      rw [printParts] at h
      rcases Option.bind_eq_some_iff.1 h with ⟨p₁, hpart, hparts⟩
      have hmem : Grows p (p.addMem quals) := .of_eq rfl rfl
      have h₁ := hmem.prints (part.prints hpart)
      apply h₁.grows
      apply (Page.grows_addSubst _ _).trans
      exact (grows_pushScope parts _ _).trans (grows_printParts parts hparts)

theorem Part.prints (part : Part) {p p' : Page} (h : part.print p = some p') : Prints p p' := by
  cases part with
  | unqualified u =>
    rw [Part.print] at h
    cases h
    exact u.prints p
  | std u args =>
    rw [Part.print] at h
    exact (prints_printStd u p).grows (grows_printArgsOption args h)
  | abbreviation e he args =>
    rw [Part.print] at h
    exact (prints_pushAbbreviation he p).grows (grows_printArgsOption args h)
  | args ts =>
    rw [Part.print] at h
    exact prints_printArgs ts h
  | subst i =>
    rw [Part.print] at h
    exact Page.prints_of_pushEntry h
  | param i =>
    rw [Part.print] at h
    exact Page.prints_of_pushEntry h
  | ctorDtor e he =>
    rw [Part.print] at h
    rcases Option.map_eq_some_iff.1 h with ⟨s, _, rfl⟩
    exact (Prints.push p (strlen_ctorDtor he)).trans (Prints.push _ s.2)

theorem grows_printParts (parts : List Part) {strs : List CString} {p p' : Page}
    (h : printParts strs parts p = some p') : Grows p p' := by
  cases parts with
  | nil =>
    rw [printParts] at h
    split at h
    . cases h
    . cases h
      exact .refl _
  | cons part parts =>
    rw [printParts] at h
    rcases Option.bind_eq_some_iff.1 h with ⟨p₁, hpart, hparts⟩
    apply (part.prints hpart).toGrows.trans
    apply (Page.grows_addSubst _ _).trans
    exact (grows_pushScope parts _ _).trans (grows_printParts parts hparts)

theorem grows_printArgsOption (args : List Ty) {strs : List CString} {p p' : Page}
    (h : printArgsOption strs args p = some p') : Grows p p' := by
  cases args with
  | nil =>
    rw [printArgsOption] at h
    cases h
    exact .refl _
  | cons t ts =>
    rw [printArgsOption] at h
    rcases Option.bind_eq_some_iff.1 h with ⟨p₁, ht, h⟩
    rcases Option.map_eq_some_iff.1 h with ⟨p₂, hts, rfl⟩
    have h₁ := ((t.prints ht).toGrows.trans (Page.grows_addTmpl _ _)).trans (grows_printArgList ts hts)
    exact (prints_brackets h₁).toGrows.trans (Page.grows_addSubst _ _)

theorem prints_printArgs (args : List Ty) {p p' : Page} (h : printArgs args p = some p') : Prints p p' := by
  cases args with
  | nil =>
    rw [printArgs] at h
    cases h
  | cons t ts =>
    rw [printArgs] at h
    rcases Option.bind_eq_some_iff.1 h with ⟨p₁, ht, h⟩
    rcases Option.map_eq_some_iff.1 h with ⟨p₂, hts, rfl⟩
    have h₁ := ((t.prints ht).toGrows.trans (Page.grows_addTmpl _ _)).trans (grows_printArgList ts hts)
    exact prints_brackets h₁

theorem grows_printArgList (ts : List Ty) {p p' : Page} (h : printArgList ts p = some p') : Grows p p' := by
  cases ts with
  | nil =>
    rw [printArgList] at h
    cases h
    exact .refl _
  | cons t ts =>
    rw [printArgList] at h
    rcases Option.bind_eq_some_iff.1 h with ⟨p₁, ht, hts⟩
    have h₁ := (Prints.push p (s := lit ", ") (by decide)).trans (t.prints ht)
    exact (h₁.toGrows.trans (Page.grows_addTmpl _ _)).trans (grows_printArgList ts hts)

theorem prints_printParams (params : List Ty) {p p' : Page} (h : printParams params p = some p')
    : Prints p p' := by
  cases params with
  | nil =>
    rw [printParams] at h
    cases h
    exact Prints.push p (by decide)
  | cons t ts =>
    rw [printParams] at h
    rcases Option.bind_eq_some_iff.1 h with ⟨p₁, ht, hts⟩
    have h₁ := (Prints.push p (s := lit "(") (by decide)).trans (t.prints ht)
    exact h₁.grows (grows_printTypes ts hts)

theorem grows_printTypes (ts : List Ty) {p p' : Page} (h : printTypes ts p = some p') : Grows p p' := by
  cases ts with
  | nil =>
    rw [printTypes] at h
    cases h
    exact .refl _
  | cons t ts =>
    rw [printTypes] at h
    rcases Option.bind_eq_some_iff.1 h with ⟨p₁, ht, hts⟩
    have h₁ := (Prints.push p (s := lit ", ") (by decide)).trans (t.prints ht)
    exact h₁.toGrows.trans (grows_printTypes ts hts)

end

-- with its arguments, the template is a candidate as a whole
theorem printArgsOption_cons (strs : List CString) (t : Ty) (ts : List Ty) (page : Page)
    : printArgsOption strs (t :: ts) page
        =
      (printArgs (t :: ts) page).map fun p => p.addSubst (.concat (strs ++ [p.since page.output.length])) := by
  rw [printArgsOption, printArgs]
  cases t.print [] (page.enterArgs.push (lit "<")) with
  | none => rfl
  | some p₁ =>
    simp only [Option.bind_some, Option.map_map]
    rfl

-- whether template arguments are the last thing that has been printed
def EndsWithArgs (p p' : Page) (b : Bool) : Prop :=
  p'.isTmpl = b ∧ (b = true → p.output.length + 2 ≤ p'.output.length)

theorem Prints.endsWithArgs {p p' p'' : Page} {b : Bool} (h : Prints p p') (h' : EndsWithArgs p' p'' b)
    : EndsWithArgs p p'' b := by
  refine ⟨h'.1, ?_⟩
  intro hb
  have hlength := h.length
  have hle := h'.2 hb
  omega

theorem endsWithArgs_printArgs {args : List Ty} {p p' : Page} (h : printArgs args p = some p')
    : EndsWithArgs p p' true := by
  cases args with
  | nil =>
    rw [printArgs] at h
    cases h
  | cons t ts =>
    rw [printArgs] at h
    rcases Option.bind_eq_some_iff.1 h with ⟨p₁, ht, h⟩
    rcases Option.map_eq_some_iff.1 h with ⟨p₂, hts, rfl⟩
    have h₁ := ((t.prints ht).grows (Page.grows_addTmpl _ _)).grows (grows_printArgList ts hts)
    have hlength := h₁.length
    rw [Page.length_push] at hlength
    refine ⟨rfl, ?_⟩
    intro _
    show p.output.length + 2 ≤ (p₂.push (lit ">")).output.length
    rw [Page.length_push]
    exact Nat.succ_le_succ (Nat.le_of_lt hlength)

theorem endsWithArgs_printArgsOption {strs : List CString} {args : List Ty} {p p' : Page}
    (hp : p.isTmpl = false) (h : printArgsOption strs args p = some p') : EndsWithArgs p p' (!args.isEmpty) := by
  cases args with
  | nil =>
    rw [printArgsOption] at h
    cases h
    exact ⟨hp, fun h => nomatch h⟩
  | cons t ts =>
    rw [printArgsOption_cons] at h
    rcases Option.map_eq_some_iff.1 h with ⟨p₁, hargs, rfl⟩
    have hends := endsWithArgs_printArgs hargs
    exact ⟨hends.1, hends.2⟩

theorem Unqualified.isTmpl_print (u : Unqualified) (p : Page) : (u.print p).isTmpl = false := by
  cases u with
  | identifier id =>
    show (p.pushIdentifier id).isTmpl = false
    unfold Page.pushIdentifier
    dsimp only
    split <;> rfl
  | operator e h => rfl

theorem isTmpl_of_pushEntry {p p' : Page} {s : Option CString} (h : p.pushEntry s = some p')
    : p'.isTmpl = false := by
  rcases Option.bind_eq_some_iff.1 h with ⟨s, _, hs⟩
  split at hs
  . cases hs
  . cases hs
    rfl

theorem Part.endsWithArgs_print {part : Part} {p p' : Page} (h : part.print p = some p')
    : EndsWithArgs p p' part.isTemplate := by
  cases part with
  | unqualified u =>
    rw [Part.print] at h
    cases h
    exact ⟨u.isTmpl_print p, fun h => nomatch h⟩
  | std u args =>
    rw [Part.print] at h
    exact (prints_printStd u p).endsWithArgs (endsWithArgs_printArgsOption (u.isTmpl_print _) h)
  | abbreviation e he args =>
    rw [Part.print] at h
    exact (prints_pushAbbreviation he p).endsWithArgs (endsWithArgs_printArgsOption rfl h)
  | args ts =>
    rw [Part.print] at h
    exact endsWithArgs_printArgs h
  | subst i =>
    rw [Part.print] at h
    exact ⟨isTmpl_of_pushEntry h, fun h => nomatch h⟩
  | param i =>
    rw [Part.print] at h
    exact ⟨isTmpl_of_pushEntry h, fun h => nomatch h⟩
  | ctorDtor e he =>
    rw [Part.print] at h
    rcases Option.map_eq_some_iff.1 h with ⟨s, _, rfl⟩
    exact ⟨rfl, fun h => nomatch h⟩

-- only the last part counts
theorem endsWithArgs_printParts {part : Part} {parts : List Part} {strs : List CString} {p p' : Page}
    (h : printParts strs (part :: parts) p = some p')
    : EndsWithArgs p p' ((part :: parts).getLast?.any Part.isTemplate) := by
  induction parts generalizing part strs p with
  | nil =>
    rw [printParts] at h
    rcases Option.bind_eq_some_iff.1 h with ⟨p₁, hpart, h⟩
    dsimp only at h
    rw [pushScope_nil, printParts_nil] at h
    cases h
    have hends := part.endsWithArgs_print hpart
    exact ⟨hends.1, hends.2⟩
  | cons part' parts ih =>
    rw [printParts] at h
    rcases Option.bind_eq_some_iff.1 h with ⟨p₁, hpart, h⟩
    have hih := ih h
    rw [List.getLast?_cons_cons]
    apply ((part.prints hpart).grows (Page.grows_addSubst _ _)).endsWithArgs
    refine ⟨hih.1, ?_⟩
    intro hb
    exact Nat.le_trans (Nat.add_le_add_right (grows_pushScope _ _ _).length_le 2) (hih.2 hb)

theorem Name.endsWithArgs_print {n : Name} (hvalid : n.valid = true) {p p' : Page} (h : n.print p = some p')
    : EndsWithArgs p p' n.isTemplate := by
  cases n with
  | source u args =>
    simp only [Name.valid, Bool.and_eq_true, Bool.or_eq_true, Bool.not_eq_true'] at hvalid
    rw [Name.print, u.since_print] at h
    split at h
    . next hname =>
      cases h
      rcases hvalid.1.1 with hempty | hfalse
      . rw [Name.isTemplate, hempty]
        exact ⟨u.isTmpl_print p, fun h => nomatch h⟩
      . rw [hname] at hfalse
        cases hfalse
    . have hp : ((u.print p).addSubst u.text).isTmpl = false := u.isTmpl_print p
      exact ((u.prints p).grows (Page.grows_addSubst _ _)).endsWithArgs (endsWithArgs_printArgsOption hp h)
  | std u args =>
    rw [Name.print] at h
    exact (prints_printStd u p).endsWithArgs (endsWithArgs_printArgsOption (u.isTmpl_print _) h)
  | abbreviation e he args =>
    rw [Name.print] at h
    exact (prints_pushAbbreviation he p).endsWithArgs (endsWithArgs_printArgsOption rfl h)
  | nested quals parts =>
    rw [Name.print] at h
    cases parts with
    | nil =>
      rw [printParts] at h
      cases h
    | cons part parts =>
      have hends := endsWithArgs_printParts h
      exact ⟨hends.1, hends.2⟩

end Gnu3

end Demangle

end LibCxxRt
