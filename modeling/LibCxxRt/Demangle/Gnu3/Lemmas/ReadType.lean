import LibCxxRt.Demangle.Gnu3.Lemmas.Read

/-!
This module determines that the demangler does for the types in an encoding what the printer does for them.
-/

namespace LibCxxRt

namespace Demangle

namespace Gnu3

variable {v : View} {s : List Byte} {p : Parsers} {page : Page} {t : Ty} {ts : List Ty} {f : TypeFrame}
variable {qs : List TypeQualifier}

-- the qualifiers are pushed behind the type
theorem readTypeRtn_gives (hf : FrameFor f qs v) (hprints : Prints v.page page) (isBuiltin : Bool)
    : Gives (readTypeRtn f isBuiltin false) ((v.setPage page).setInput s)
        (f.td.map fun td => { td with firstp := false })
        ((v.setPage (page.finish v.page.output.length isBuiltin qs)).setInput s) := by
  have hlength := hprints.length
  unfold readTypeRtn
  rw [hf.output, hf.pIdx]
  apply Util.Yields.bind (outputSubstr_gives (v := (v.setPage page).setInput s) hlength)
  cases isBuiltin with
  | true =>
    apply Util.Yields.bind (doIf_of_neg (by decide))
    have hpush := pushTypeQualifier_some (v := (v.setPage page).setInput s) hf.qualifiers hf.hasName
      (page.since v.page.output.length)
    apply Util.Yields.bind hpush
    exact Util.Yields.pure _ _
  | false =>
    apply Util.Yields.bind (addSubst_gives (v := (v.setPage page).setInput s) _)
    have hpush := pushTypeQualifier_some
      (v := (v.setPage (page.addSubst (page.since v.page.output.length))).setInput s) hf.qualifiers hf.hasName
      (page.since v.page.output.length)
    apply Util.Yields.bind hpush
    exact Util.Yields.pure _ _

theorem clearRefQualifier_gives {c : Byte} (hR : c ≠ chr 'R') (hO : c ≠ chr 'O') (hE : c ≠ chr 'E')
    : Gives (clearRefQualifier c) v () v.unref := by
  rw [clearRefQualifier, doIf, if_pos ⟨hR, hO, hE⟩]
  apply Util.Evaluates.modify
  intro d hd
  exact { hd with refQualifier := rfl }

theorem builtin_lookup {e : Char × String} (he : e ∈ builtinTypes)
    : lookup builtinTypes (chr e.1) = some e.2 ∧ chr e.1 ≠ chr 'R' ∧ chr e.1 ≠ chr 'O' ∧ chr e.1 ≠ chr 'E' := by
  have h : ∀ e ∈ builtinTypes, lookup builtinTypes (chr e.1) = some e.2 ∧ chr e.1 ≠ chr 'R'
      ∧ chr e.1 ≠ chr 'O' ∧ chr e.1 ≠ chr 'E' := by
    decide
  exact h e he

theorem builtinD_lookup {e : Char × String} (he : e ∈ builtinTypesD)
    : lookup builtinTypesD (chr e.1) = some e.2 := by
  have h : ∀ e ∈ builtinTypesD, lookup builtinTypesD (chr e.1) = some e.2 := by
    decide
  exact h e he

theorem readBuiltin_gives {name : String} (hf : FrameFor f qs v) (hname : (lit name).strlen ≠ 0) (c : Byte)
    : Gives (readBuiltin f name) (v.setInput (c :: s)) (f.td.map fun td => { td with firstp := false })
        ((v.setPage ((v.page.push (lit name)).finish v.page.output.length true qs)).setInput s) := by
  have hne : ascii name ≠ [] := by
    intro h
    apply hname
    rw [lit, h]
    rfl
  apply Util.Yields.bind (demPushStr_gives hne)
  apply Util.Yields.bind (skip_gives (v := v.push (lit name)) c s)
  exact readTypeRtn_gives hf (.push v.page hname) true

theorem FrameFor.unref (hf : FrameFor f qs v) : FrameFor f qs v.unref :=
  ⟨hf.qualifiers, hf.hasName, hf.output, hf.pIdx⟩

theorem readTypeAgain_builtin {e : Char × String} (he : e ∈ builtinTypes) (hf : FrameFor f qs v)
    : Gives (readTypeAgain p f) (v.setInput (chr e.1 :: s)) (f.td.map fun td => { td with firstp := false })
        ((v.unref.setPage ((v.page.push (lit e.2)).finish v.page.output.length true qs)).setInput s) := by
  obtain ⟨hlookup, hR, hO, hE⟩ := builtin_lookup he
  apply Util.Yields.bind peek_gives
  apply Util.Yields.bind (clearRefQualifier_gives hR hO hE)
  rw [List.headD_cons, hlookup]
  exact readBuiltin_gives hf.unref (strlen_builtin he) _

theorem readTypeAgain_builtinD {e : Char × String} (he : e ∈ builtinTypesD) (hf : FrameFor f qs v)
    : Gives (readTypeAgain p f) (v.setInput (chr 'D' :: chr e.1 :: s))
        (f.td.map fun td => { td with firstp := false })
        ((v.unref.setPage ((v.page.push (lit e.2)).finish v.page.output.length true qs)).setInput s) := by
  apply Util.Yields.bind peek_gives
  apply Util.Yields.bind (clearRefQualifier_gives (c := chr 'D') (by decide) (by decide) (by decide))
  apply Util.Yields.bind (skip_gives (v := v.unref) _ _)
  apply Util.Yields.bind peek_gives
  rw [List.headD_cons, builtinD_lookup he]
  exact readBuiltin_gives hf.unref (strlen_builtinD he) _

theorem readTypeAgain_void (hfirstp : f.td.any TypeDelimit.firstp = false) (hf : FrameFor f qs v)
    : Gives (readTypeAgain p f) (v.setInput (chr 'v' :: s)) (f.td.map fun td => { td with firstp := false })
        ((v.unref.setPage ((v.page.push (lit "void")).finish v.page.output.length true qs)).setInput s) := by
  apply Util.Yields.bind peek_gives
  apply Util.Yields.bind (clearRefQualifier_gives (c := chr 'v') (by decide) (by decide) (by decide))
  apply Util.Yields.bind (rest_gives (v := v.unref))
  rw [if_neg (by simp [hfirstp])]
  exact readBuiltin_gives hf.unref (by decide) _

theorem FrameFor.qualify {q : TypeQualifier} {w : VectorTypeQualifier} (hf : FrameFor f qs v)
    (hw : HoldsQualifiers w (qs ++ [q])) (hq : q.hasName = false) : FrameFor (f.qualify w) (qs ++ [q]) v := by
  refine ⟨hw, ?_, hf.output, hf.pIdx⟩
  intro q' hq'
  rcases List.mem_append.1 hq' with hq' | hq'
  . exact hf.hasName q' hq'
  . rw [List.mem_singleton.1 hq']
    exact hq

-- the qualifier is the last one of the frame
theorem ReadsType.qualify {q : TypeQualifier} {w : VectorTypeQualifier} (h : ReadsType p t)
    (hf : FrameFor f qs v) (hw : HoldsQualifiers w (qs ++ [q])) (hq : q.hasName = false)
    (href : t.isRef = true → v.refQualifier = false) (hs : s.headD 0 ≠ chr 'I')
    (hprint : t.print (qs ++ [q]) v.page = some page)
    : Gives (p.readTypeAgain (f.qualify w)) (v.setInput (t.encode ++ s))
        (f.td.map fun td => { td with firstp := false }) ((v.unref.setPage page).setInput s) := by
  have hfirstp : (f.qualify w).td.any TypeDelimit.firstp = false := by
    unfold TypeFrame.qualify
    cases f.td <;> rfl
  have hgives := h (hf.qualify hw hq) (fun _ => hfirstp) href hs hprint
  have htd : (f.qualify w).td.map (fun td => { td with firstp := false })
      = f.td.map fun td => { td with firstp := false } := by
    unfold TypeFrame.qualify
    cases f.td <;> rfl
  rw [htd] at hgives
  exact hgives

theorem code_lookup {q : TypeQualifier} (hq : q.hasName = false) (href : q.isRef = false)
    : lookup builtinTypes q.code = none ∧ lookup typeQualifiers q.code = some q ∧ q.code ≠ chr 'R'
        ∧ q.code ≠ chr 'O' ∧ q.code ≠ chr 'E' := by
  revert hq href
  cases q <;> decide

theorem readTypeAgain_qualified {q : TypeQualifier} (hq : q.hasName = false) (href : q.isRef = false)
    (h : ReadsType p t) (hf : FrameFor f qs v) (hs : s.headD 0 ≠ chr 'I')
    (hprint : t.print (qs ++ [q]) v.page = some page)
    : Gives (readTypeAgain p f) (v.setInput (q.code :: (t.encode ++ s)))
        (f.td.map fun td => { td with firstp := false }) ((v.unref.setPage page).setInput s) := by
  obtain ⟨hbuiltin, hlookup, hR, hO, hE⟩ := code_lookup hq href
  apply Util.Yields.bind peek_gives
  apply Util.Yields.bind (clearRefQualifier_gives hR hO hE)
  rw [List.headD_cons, hbuiltin]
  dsimp only
  rw [hlookup]
  apply Util.Evaluates.bind (vectorTypeQualifierPush_evals hf.qualifiers q)
  rintro w _ ⟨hw, rfl⟩
  apply Util.Yields.bind (skip_gives (v := v.unref) _ _)
  exact h.qualify hf.unref hw hq (fun _ => rfl) hs hprint

def View.ref (v : View) : View :=
  { v with refQualifier := true }

theorem readReference_gives (q : TypeQualifier) (hq : q.hasName = false) (h : ReadsType p t)
    (ht : t.isRef = false) (hv : v.refQualifier = false) (hf : FrameFor f qs v) (hs : s.headD 0 ≠ chr 'I')
    (hprint : t.print (qs ++ [q]) v.page = some page) (c : Byte)
    : Gives (readReference p f q) (v.setInput (c :: (t.encode ++ s)))
        (f.td.map fun td => { td with firstp := false }) ((v.unref.setPage page).setInput s) := by
  apply Util.Evaluates.get_bind
  intro d hd
  have href : d.refQualifier = v.refQualifier := hd.refQualifier
  apply Util.Yields.bind (failIf_gives (by simp [href, hv]))
  apply Util.Evaluates.bind (vectorTypeQualifierPush_evals hf.qualifiers q)
  rintro w _ ⟨hw, rfl⟩
  have hmodify : Gives (modify fun d => { d with refQualifier := true, refQualifierType := q })
      (v.setInput (c :: (t.encode ++ s))) () (v.ref.setInput (c :: (t.encode ++ s))) := by
    apply Util.Evaluates.modify
    intro d hd
    exact { hd with refQualifier := rfl }
  apply Util.Yields.bind hmodify
  apply Util.Yields.bind (skip_gives (v := v.ref) _ _)
  have hframe : FrameFor f qs v.ref := ⟨hf.qualifiers, hf.hasName, hf.output, hf.pIdx⟩
  exact h.qualify hframe hw hq (fun href => absurd (ht.symm.trans href) Bool.false_ne_true) hs hprint

theorem readTypeAgain_reference {q : TypeQualifier} (href : q.isRef = true)
    (h : ReadsType p t) (ht : t.isRef = false) (hv : v.refQualifier = false) (hf : FrameFor f qs v)
    (hs : s.headD 0 ≠ chr 'I') (hprint : t.print (qs ++ [q]) v.page = some page)
    : Gives (readTypeAgain p f) (v.setInput (q.code :: (t.encode ++ s)))
        (f.td.map fun td => { td with firstp := false }) ((v.unref.setPage page).setInput s) := by
  apply Util.Yields.bind peek_gives
  cases q with
  | ref =>
    apply Util.Yields.bind (doIf_of_neg fun h => h.1 rfl)
    exact readReference_gives .ref rfl h ht hv hf hs hprint _
  | rref =>
    apply Util.Yields.bind (doIf_of_neg fun h => h.2.1 rfl)
    exact readReference_gives .rref rfl h ht hv hf hs hprint _
  | _ => cases href

-- of a type that is not built in
def isCompoundStart (b : Byte) : Bool :=
  isDigit b || (ascii "STAFN").contains b

theorem ne_of_isCompoundStart {b : Byte} {c : Char} (hb : isCompoundStart b = true)
    (hc : isCompoundStart (chr c) = false) : b ≠ chr c := by
  rintro rfl
  rw [hb] at hc
  cases hc

theorem isCompoundStart_lookup {b : Byte} (hb : isCompoundStart b = true)
    : lookup builtinTypes b = none ∧ lookup typeQualifiers b = none := by
  have h : ∀ b ∈ ascii "0123456789STAFN", lookup builtinTypes b = none ∧ lookup typeQualifiers b = none := by
    decide
  have hmem : ∀ b : Byte, isCompoundStart b = true → b ∈ ascii "0123456789STAFN" := by decide
  exact h b (hmem b hb)

-- the type in the input is read by `readCompound`
theorem readTypeAgain_compound {input : List Byte} {qs' : List TypeQualifier}
    (hstart : isCompoundStart (input.headD 0) = true) (hprints : Prints v.page page)
    (hread : Evals (readCompound p f.v (input.headD 0)) (v.unref.setInput input) fun w v' =>
      FrameFor { f with v := w } qs' v ∧ v' = (v.unref.setPage page).setInput s)
    : Gives (readTypeAgain p f) (v.setInput input) (f.td.map fun td => { td with firstp := false })
        ((v.unref.setPage (page.finish v.page.output.length false qs')).setInput s) := by
  obtain ⟨hbuiltin, hqualifier⟩ := isCompoundStart_lookup hstart
  apply Util.Yields.bind peek_gives
  apply Util.Yields.bind (clearRefQualifier_gives (ne_of_isCompoundStart hstart rfl)
    (ne_of_isCompoundStart hstart rfl) (ne_of_isCompoundStart hstart rfl))
  rw [hbuiltin]
  dsimp only
  rw [hqualifier]
  dsimp only
  rw [if_neg (ne_of_isCompoundStart hstart rfl), if_neg (ne_of_isCompoundStart hstart rfl),
    if_neg (ne_of_isCompoundStart hstart rfl), if_neg (ne_of_isCompoundStart hstart rfl),
    if_neg (ne_of_isCompoundStart hstart rfl), if_neg (ne_of_isCompoundStart hstart rfl),
    if_neg (ne_of_isCompoundStart hstart rfl)]
  apply Util.Evaluates.bind hread
  rintro w _ ⟨hw, rfl⟩
  exact readTypeRtn_gives (f := { f with v := w }) hw.unref hprints false

-- a type that is not a function type leaves the qualifiers alone
theorem readTypeAgain_simple {input : List Byte} (hstart : isCompoundStart (input.headD 0) = true)
    (hf : FrameFor f qs v) (hprints : Prints v.page page)
    (hread : Gives (readCompound p f.v (input.headD 0)) (v.unref.setInput input) f.v
      ((v.unref.setPage page).setInput s))
    : Gives (readTypeAgain p f) (v.setInput input) (f.td.map fun td => { td with firstp := false })
        ((v.unref.setPage (page.finish v.page.output.length false qs)).setInput s) := by
  apply readTypeAgain_compound hstart hprints
  apply Util.Evaluates.imp hread
  rintro w v' ⟨rfl, rfl⟩
  exact ⟨hf, rfl⟩

theorem isCompoundStart_of_isDigit {b : Byte} (hb : isDigit b = true) : isCompoundStart b = true := by
  rw [isCompoundStart, hb]
  rfl

theorem readTypeAgain_named {n : Name} (htype : n.isTypeName = true) (hvalid : n.valid = true)
    (h : Reads p n.encode.length) (hf : FrameFor f qs v) (hs : s.headD 0 ≠ chr 'I')
    (hprint : n.print v.page = some page)
    : Gives (readTypeAgain p f) (v.setInput (n.encode ++ s)) (f.td.map fun td => { td with firstp := false })
        ((v.unref.setPage (page.finish v.page.output.length false qs)).setInput s) := by
  cases n with
  | source u args =>
    have hdigit : isDigit (((Name.source u args).encode ++ s).headD 0) = true := by
      rw [Name.encode, List.append_assoc]
      apply Unqualified.isDigit_headD
      simpa [Name.isTypeName] using htype
    apply readTypeAgain_simple (isCompoundStart_of_isDigit hdigit) hf ((Name.source u args).prints hprint)
    unfold readCompound
    rw [if_neg (ne_of_isDigit hdigit rfl), if_neg (ne_of_isDigit hdigit rfl), if_neg (ne_of_isDigit hdigit rfl),
      if_neg (ne_of_isDigit hdigit rfl), if_neg (ne_of_isDigit hdigit rfl), if_neg (ne_of_isDigit hdigit rfl)]
    apply Util.Yields.bind (readName_gives (v := v.unref) hvalid h rfl hs hprint)
    exact Util.Yields.pure _ _
  | std u args =>
    apply readTypeAgain_simple rfl hf ((Name.std u args).prints hprint)
    apply Util.Yields.bind (readStdName_gives (v := v.unref) hvalid h rfl hs hprint)
    exact Util.Yields.pure _ _
  | abbreviation e he args =>
    have hhead := Name.headD_abbreviation he args s
    have hread := readAbbreviation_gives (v := v.unref) hvalid h rfl hs hprint
    have hstart : isCompoundStart (((Name.abbreviation e he args).encode ++ s).headD 0) = true := by
      rw [hhead]
      rfl
    apply readTypeAgain_simple hstart hf ((Name.abbreviation e he args).prints hprint)
    rw [hhead]
    apply Util.Yields.bind hread
    exact Util.Yields.pure _ _
  | nested quals parts =>
    apply readTypeAgain_simple rfl hf ((Name.nested quals parts).prints hprint)
    apply Util.Yields.bind (readName_gives (v := v.unref) hvalid h rfl hs hprint)
    exact Util.Yields.pure _ _

theorem readTypeAgain_subst {i : Nat} (hi : isIndex i = true) (hf : FrameFor f qs v)
    (hprint : v.page.pushEntry v.page.subst[i]? = some page)
    : Gives (readTypeAgain p f) (v.setInput (chr 'S' :: (seqId i ++ s)))
        (f.td.map fun td => { td with firstp := false })
        ((v.unref.setPage (page.finish v.page.output.length false qs)).setInput s) := by
  apply readTypeAgain_simple rfl hf (Page.prints_of_pushEntry hprint)
  apply Util.Yields.bind (readSubst_number (v := v.unref) hi hprint s)
  exact Util.Yields.pure _ _

theorem readTypeAgain_param {i : Nat} (hi : isIndex i = true) (hf : FrameFor f qs v)
    (hprint : v.page.pushEntry v.page.tmpl[i]? = some page)
    : Gives (readTypeAgain p f) (v.setInput (chr 'T' :: (seqId i ++ s)))
        (f.td.map fun td => { td with firstp := false })
        ((v.unref.setPage (page.finish v.page.output.length false qs)).setInput s) := by
  apply readTypeAgain_simple rfl hf (Page.prints_of_pushEntry hprint)
  apply Util.Yields.bind (readTmplParam_gives (v := v.unref) hi hprint s)
  exact Util.Yields.pure _ _

theorem skipDigits_gives (n : Nat) (s : List Byte)
    : Gives (skipWhile isDigit) (v.setInput (numeral 10 n ++ chr '_' :: s)) (numeral 10 n)
        (v.setInput (chr '_' :: s)) := by
  have hdigits (b : Byte) (hb : b ∈ numeral 10 n) : isDigit b = true := by
    rw [← isDigitOf_ten]
    exact isDigitOf_of_mem_numeral (by decide) (by decide) hb
  have hstop (b : Byte) (hb : (chr '_' :: s).head? = some b) : isDigit b = false := by
    cases hb
    rfl
  obtain ⟨htake, hdrop⟩ := takeWhile_append_stop hdigits hstop
  have hskip := skipWhile_gives (v := v) (s := numeral 10 n ++ chr '_' :: s) isDigit
  rw [htake, hdrop] at hskip
  exact hskip

theorem readArray_gives {dimension : Option Nat} (ht : t.valid = true) (h : ReadsType p t)
    (hv : v.refQualifier = false) (hs : s.headD 0 ≠ chr 'I') (hprint : t.print [] v.page = some page)
    : Gives (readArray p) (v.setInput (chr 'A' :: (encodeDimension dimension ++ chr '_' :: (t.encode ++ s)))) ()
        ((v.setPage (pushDimension dimension page)).setInput s) := by
  have hzero := ne_zero_of_isTypeStart (t.isTypeStart_headD ht s)
  have hread := readPlainType_gives h hv hs hprint
  apply Util.Yields.bind (skip_gives _ _)
  cases dimension with
  | none =>
    apply Util.Yields.bind (failAtEnd_cons (by decide) _)
    apply Util.Yields.bind peek_gives
    apply Util.Yields.bind (skip_gives _ _)
    apply Util.Yields.bind (failAtEnd_gives hzero)
    apply Util.Yields.bind hread
    exact demPushStr_gives (by decide)
  | some n =>
    have hdigit := isDigit_numeral n (chr '_' :: (t.encode ++ s))
    rw [encodeDimension]
    apply Util.Yields.bind (failAtEnd_gives (ne_zero_of_isTypeStart (isTypeStart_of_isDigit hdigit)))
    apply Util.Yields.bind peek_gives
    rw [if_neg (ne_of_isDigit hdigit rfl)]
    apply Util.Yields.bind peek_gives
    rw [if_pos hdigit]
    apply Util.Yields.bind (skipDigits_gives n _)
    apply Util.Yields.bind (expect_gives '_' _)
    apply Util.Yields.bind (failAtEnd_gives hzero)
    apply Util.Yields.bind hread
    apply Util.Yields.bind (demPushStr_gives (by decide))
    apply Util.Yields.bind (demPushStr_gives (numeral_ne_nil 10 n))
    exact demPushStr_gives (by decide)

theorem readTypeAgain_array {dimension : Option Nat} (ht : t.valid = true) (h : ReadsType p t)
    (hf : FrameFor f qs v) (hs : s.headD 0 ≠ chr 'I') (hprint : t.print [] v.page = some page)
    : Gives (readTypeAgain p f)
        (v.setInput (chr 'A' :: (encodeDimension dimension ++ chr '_' :: (t.encode ++ s))))
        (f.td.map fun td => { td with firstp := false })
        ((v.unref.setPage ((pushDimension dimension page).finish v.page.output.length false qs)).setInput s) := by
  have hprints := (t.prints hprint).trans (prints_pushDimension dimension page)
  apply readTypeAgain_simple rfl hf hprints
  apply Util.Yields.bind (readArray_gives (v := v.unref) ht h rfl hs hprint)
  exact Util.Yields.pure _ _

-- the first parameter comes after a parenthesis
theorem delimit_first (hv : v.page.output ≠ [])
    : Gives (delimit ⟨false, true⟩) v ⟨true, true⟩ (v.push (lit "(")) := by
  have hlength : 2 ≤ (v.push (lit "(")).page.output.length := by
    rw [View.push, Page.length_push]
    have hpos := List.length_pos_iff.2 hv
    omega
  have hparen : Gives (do
      demPushStr (ascii "(")
      failIf ((← outputSize 0) < 2)) v () (v.push (lit "(")) := by
    apply Util.Yields.bind (demPushStr_gives (by decide))
    apply Util.Evaluates.bind (outputSize_zero_evals hlength)
    rintro n _ ⟨hn, rfl⟩
    exact failIf_gives (by omega)
  apply Util.Yields.bind hparen
  exact Util.Yields.pure _ _

theorem delimit_next (hs : s.headD 0 ≠ chr 'I')
    : Gives (delimit ⟨true, false⟩) (v.setInput s) ⟨true, false⟩ ((v.push (lit ", ")).setInput s) := by
  have hcomma : Gives (do doIf ((← peek) ≠ chr 'I') (demPushStr (ascii ", "))) (v.setInput s) ()
      ((v.push (lit ", ")).setInput s) := by
    apply Util.Yields.bind peek_gives
    rw [doIf, if_pos hs]
    exact demPushStr_gives (by decide)
  apply Util.Yields.bind (doIf_of_neg (by decide))
  apply Util.Yields.bind hcomma
  exact Util.Yields.pure _ _

theorem readDelimitedType_gives {td td' : TypeDelimit} {v' : View} (houtput : v'.output = v.output)
    (hdelimit : Gives (delimit td) (v.setInput (t.encode ++ s)) td' (v'.setInput (t.encode ++ s)))
    (ht : t.isVoid = false) (h : ReadsType p t) (hv : v'.refQualifier = false) (hs : s.headD 0 ≠ chr 'I')
    (hprint : t.print [] v'.page = some page)
    : Gives (readDelimitedType p td) (v.setInput (t.encode ++ s)) { td' with firstp := false }
        ((v'.setPage page).setInput s) := by
  have hread : Gives (readType p (some td)) (v.setInput (t.encode ++ s))
      (some { td' with firstp := false }) ((v'.setPage page).setInput s) := by
    apply Util.Evaluates.get_bind
    intro d hd
    have hcur : d.curOutput = v'.output := hd.curOutput.trans houtput.symm
    rw [hcur]
    apply Util.Yields.bind (Util.Yields.map (g := some) hdelimit)
    apply Util.Evaluates.bind vectorTypeQualifierInit_evals
    rintro w _ ⟨hw, rfl⟩
    apply Util.Yields.bind (outputSize_gives (v := v'.setInput (t.encode ++ s)))
    have hframe : FrameFor ⟨w, v'.output, v'.page.output.length, some td'⟩ [] v' :=
      ⟨hw, fun q hq => absurd hq List.not_mem_nil, rfl, rfl⟩
    have hgives := h hframe (fun hvoid => absurd (ht.symm.trans hvoid) Bool.false_ne_true) (fun _ => hv) hs hprint
    rw [View.unref_of_eq hv] at hgives
    exact hgives
  apply Util.Yields.bind hread
  exact Util.Yields.pure _ _

theorem validParams_cons (h : validParams (t :: ts) = true)
    : t.isVoid = false ∧ t.valid = true ∧ validParams ts = true := by
  simp only [validParams, Bool.and_eq_true, Bool.not_eq_true'] at h
  exact ⟨h.1.1, h.1.2, h.2⟩

theorem validTypes_of_validParams (h : validParams ts = true) : validTypes ts = true := by
  induction ts with
  | nil => rfl
  | cons t ts ih =>
    obtain ⟨_, ht, hts⟩ := validParams_cons h
    rw [validTypes, ht, ih hts]
    rfl

theorem readFunctionArgs_gives {n : Nat} {td td' : TypeDelimit} {w : View} (hparen : td'.paren = true)
    (houtput : w.output = v.output)
    (hdelimit : ∀ s, s.headD 0 ≠ chr 'I' → Gives (delimit td) (v.setInput s) td' (w.setInput s))
    (hvalid : validParams (t :: ts) = true) (h : ∀ t' ∈ t :: ts, ReadsType p t') (hn : (t :: ts).length ≤ n)
    (hv : w.refQualifier = false) (hprint : (t.print [] w.page).bind (printTypes ts) = some page)
    : Gives (readFunctionArgs p n td) (v.setInput (t.encode ++ (encodeTypes ts ++ chr 'E' :: s))) ⟨true, false⟩
        ((w.setPage page).setInput (chr 'E' :: s)) := by
  induction ts generalizing td td' v w t n with
  | nil =>
    cases n with
    | zero => cases hn
    | succ n =>
    obtain ⟨hvoid, ht, _⟩ := validParams_cons hvalid
    rcases Option.bind_eq_some_iff.1 hprint with ⟨page₁, hprint₁, hprint⟩
    rw [printTypes] at hprint
    cases hprint
    have hstart := t.isTypeStart_headD ht (encodeTypes [] ++ chr 'E' :: s)
    have hread := readDelimitedType_gives houtput (hdelimit _ (ne_of_isTypeStart hstart rfl)) hvoid
      (h t List.mem_cons_self) hv (headD_encodeTypes_ne rfl s) hprint₁
    apply Util.Yields.bind hread
    apply Util.Yields.bind peek_gives
    rw [hparen]
    exact Util.Yields.pure _ _
  | cons t' ts ih =>
    cases n with
    | zero => cases hn
    | succ n =>
    obtain ⟨hvoid, ht, hts⟩ := validParams_cons hvalid
    obtain ⟨_, ht', _⟩ := validParams_cons hts
    rcases Option.bind_eq_some_iff.1 hprint with ⟨page₁, hprint₁, hprint⟩
    rw [printTypes] at hprint
    have hstart := t.isTypeStart_headD ht (encodeTypes (t' :: ts) ++ chr 'E' :: s)
    have hread := readDelimitedType_gives houtput (hdelimit _ (ne_of_isTypeStart hstart rfl)) hvoid
      (h t List.mem_cons_self) hv (headD_encodeTypes_ne (validTypes_of_validParams hts) s) hprint₁
    apply Util.Yields.bind hread
    rw [encodeTypes, List.append_assoc]
    have hE := ne_of_isTypeStart (c := 'E') (t'.isTypeStart_headD ht' (encodeTypes ts ++ chr 'E' :: s)) rfl
    apply Util.Yields.bind peek_gives
    rw [if_neg hE, hparen]
    exact ih (v := w.setPage page₁) (w := (w.setPage page₁).push (lit ", ")) rfl rfl
      (fun s hs => delimit_next hs) hts (fun t ht => h t (List.mem_cons_of_mem _ ht)) (Nat.le_of_succ_le_succ hn)
      hv hprint

-- `p` reads the `void` in place of the parameters
def ReadsNone (p : Parsers) : Prop :=
  ∀ {f : TypeFrame} {v : View} {s : List Byte}, f.td = some ⟨true, true⟩ → FrameFor f [] v
    → v.page.output ≠ [] → (∀ c, s.head? = some c → c = chr 'E')
    → Gives (p.readTypeAgain f) (v.setInput (chr 'v' :: s)) (some ⟨true, false⟩) (v.unref.setInput s)

theorem readTypeAgain_none (htd : f.td = some ⟨true, true⟩) (hf : FrameFor f [] v) (hv : v.page.output ≠ [])
    (hs : ∀ c, s.head? = some c → c = chr 'E')
    : Gives (readTypeAgain p f) (v.setInput (chr 'v' :: s)) (some ⟨true, false⟩) (v.unref.setInput s) := by
  have honly : isOnlyVoid (chr 'v' :: s) = true := by
    cases s with
    | nil => rfl
    | cons c s =>
      cases hs c rfl
      rfl
  have hpos : 0 < v.page.output.length := List.length_pos_iff.2 hv
  apply Util.Yields.bind peek_gives
  apply Util.Yields.bind (clearRefQualifier_gives (c := chr 'v') (by decide) (by decide) (by decide))
  apply Util.Yields.bind (rest_gives (v := v.unref))
  rw [if_pos ⟨by rw [htd]; rfl, honly⟩]
  apply Util.Yields.bind (skip_gives (v := v.unref) _ _)
  unfold readTypeRtn
  rw [hf.output, hf.pIdx, htd]
  apply Util.Yields.bind (outputSubstr_none_gives (v := v.unref.setInput s) rfl hpos)
  apply Util.Yields.bind (doIf_of_neg (by decide))
  have hpush := pushTypeQualifier_none (v := v.unref.setInput s) hf.qualifiers hf.hasName
  rw [pushShown_nil] at hpush
  apply Util.Yields.bind hpush
  exact Util.Yields.pure _ _

theorem readDelimitedType_none (h : ReadsNone p) (hv : v.page.output ≠ []) (href : v.refQualifier = false)
    (hs : ∀ c, s.head? = some c → c = chr 'E')
    : Gives (readDelimitedType p ⟨false, true⟩) (v.setInput (chr 'v' :: s)) ⟨true, false⟩
        ((v.push (lit "(")).setInput s) := by
  have hread : Gives (readType p (some ⟨false, true⟩)) (v.setInput (chr 'v' :: s)) (some ⟨true, false⟩)
      ((v.push (lit "(")).setInput s) := by
    apply Util.Evaluates.get_bind
    intro d hd
    have hcur : d.curOutput = v.output := hd.curOutput
    rw [hcur]
    have hdelimit := delimit_first (v := v.setInput (chr 'v' :: s)) hv
    apply Util.Yields.bind (Util.Yields.map (g := some) hdelimit)
    apply Util.Evaluates.bind vectorTypeQualifierInit_evals
    rintro w _ ⟨hw, rfl⟩
    apply Util.Yields.bind (outputSize_gives (v := (v.push (lit "(")).setInput (chr 'v' :: s)))
    have hframe : FrameFor ⟨w, v.output, (v.push (lit "(")).page.output.length, some ⟨true, true⟩⟩ []
        (v.push (lit "(")) :=
      ⟨hw, fun q hq => absurd hq List.not_mem_nil, rfl, rfl⟩
    have hgives := h rfl hframe (by simp [View.push, Page.push]) hs
    rw [View.unref_of_eq (v := v.push (lit "(")) href] at hgives
    exact hgives
  apply Util.Yields.bind hread
  exact Util.Yields.pure _ _

-- the parameters and the parenthesis before them
theorem readParams_gives {params : List Ty} (hvalid : validParams params = true) (hn : params.length ≤ tries)
    (h : ∀ t ∈ params, ReadsType p t) (hnone : ReadsNone p) (hv : v.page.output ≠ [])
    (href : v.refQualifier = false) (hprint : printParams params v.page = some page)
    : Gives (readFunctionArgs p tries ⟨false, true⟩) (v.setInput (encodeParams params ++ chr 'E' :: s))
        ⟨true, false⟩ ((v.setPage page).setInput (chr 'E' :: s)) := by
  cases params with
  | nil =>
    rw [printParams] at hprint
    cases hprint
    have hE (c : Byte) (hc : (chr 'E' :: s).head? = some c) : c = chr 'E' := by
      cases hc
      rfl
    rw [encodeParams]
    apply Util.Yields.bind (readDelimitedType_none hnone hv href hE)
    apply Util.Yields.bind peek_gives
    exact Util.Yields.pure _ _
  | cons t ts =>
    rw [printParams] at hprint
    rw [encodeParams, List.append_assoc]
    exact readFunctionArgs_gives (w := v.push (lit "(")) rfl rfl
      (fun s _ => delimit_first (v := v.setInput s) hv) hvalid h hn href hprint

-- the qualifiers that belong to the function itself come behind the parameters
theorem pushShown_of_isCv (p : Page) {qs : List TypeQualifier} (hqs : qs.all TypeQualifier.isCv = true)
    : (p.setMode .nonCvQualifier).pushShown none qs = p.setMode .nonCvQualifier := by
  have hnil : shownQualifiers .nonCvQualifier qs.reverse = [] := by
    rw [shownQualifiers, List.dropWhile_eq_nil_iff]
    intro q hq
    exact List.all_eq_true.1 hqs q (List.mem_reverse.1 hq)
  rw [Page.pushShown]
  show (p.setMode .nonCvQualifier).pushQualifiers none (shownQualifiers .nonCvQualifier qs.reverse) = _
  rw [hnil, Page.pushQualifiers]

theorem pushDeclarator_gives {w : VectorTypeQualifier} (hw : HoldsQualifiers w qs)
    (hqs : ∀ q ∈ qs, q.hasName = false)
    : Gives (pushDeclarator w) v () (v.setPage (v.page.pushDeclarator qs)) := by
  apply Util.Yields.bind (demPushStr_gives (by decide))
  apply Util.Evaluates.get_bind
  intro d hd
  have hnone : readCmdFind d.cmd .ptrmem = none := readCmdFind_eq_none hd.cmd.1 (.inr (by decide))
  have hnonCv : (w.qContainer.items.any fun t => !t.isCv) = !qs.all TypeQualifier.isCv := by
    rw [hw.items, List.not_all_eq_any_not]
  rw [hnone, hnonCv]
  have hpush (v : View) := pushTypeQualifier_none (v := v.setPage (v.page.setMode .nonCvQualifier)) hw hqs
  rw [Page.pushDeclarator]
  cases hall : qs.all TypeQualifier.isCv with
  | true =>
    apply Util.Yields.bind (doIf_of_neg (by simp))
    apply Util.Yields.bind (setPushQualifier_gives _)
    apply Util.Yields.bind (hpush _)
    apply Util.Yields.bind (Util.Yields.pure () _)
    show Gives _ (v.setPage (((v.page.push (lit " ")).setMode .nonCvQualifier).pushShown none qs)) _ _
    rw [pushShown_of_isCv _ hall, if_pos rfl]
    exact doIf_of_neg (by simp)
  | false =>
    dsimp only
    rw [doIf, if_pos (by simp)]
    apply Util.Yields.bind (demPushStr_gives (by decide))
    apply Util.Yields.bind (setPushQualifier_gives _)
    apply Util.Yields.bind (hpush _)
    apply Util.Yields.bind (Util.Yields.pure () _)
    rw [doIf, if_pos (by simp)]
    exact demPushStr_gives (by decide)

theorem setFunctype_gives (b : Bool) : Gives (modify fun d => { d with isFunctype := b }) v () v := by
  apply Util.Evaluates.modify
  intro d hd
  exact { hd with malloc := hd.malloc }

theorem pushRefQualifier_gives (hv : v.refQualifier = false) : Gives pushRefQualifier v () v := by
  apply Util.Evaluates.get_bind
  intro d hd
  exact doIf_of_neg (by simp [hd.refQualifier, hv])

-- what is printed behind the parameters, before the type becomes a candidate
def Page.closeFunction (p : Page) (qs : List TypeQualifier) : Page :=
  (((p.push (lit ")")).setMode .cvQualifier).pushShown none qs).setMode .allQualifier

theorem prints_closeFunction (p : Page) (qs : List TypeQualifier) : Prints p (p.closeFunction qs) :=
  (Prints.push p (by decide)).grows
    (((Page.grows_setMode _ _).trans (Page.grows_pushShown _ _ _)).trans (Page.grows_setMode _ _))

theorem readFunctionType_gives {params : List Ty} {w : VectorTypeQualifier} (hvalid : validParams params = true)
    (hn : params.length ≤ tries) (h : ∀ t ∈ params, ReadsType p t) (hnone : ReadsNone p)
    (href : v.refQualifier = false) (hw : HoldsQualifiers w qs) (hqs : ∀ q ∈ qs, q.hasName = false)
    (hprint : printParams params (v.page.pushDeclarator qs) = some page)
    : Evals (readFunctionType p w) (v.setInput (encodeParams params ++ chr 'E' :: s)) fun w' v' =>
        HoldsQualifiers w' [] ∧ v' = (v.setPage (page.closeFunction qs)).setInput (chr 'E' :: s) := by
  have hdeclarator : (v.page.pushDeclarator qs).output ≠ [] := by
    have hlength := (Page.prints_pushDeclarator v.page qs).length
    exact List.length_pos_iff.1 (Nat.lt_of_le_of_lt (Nat.zero_le _) hlength)
  apply Util.Yields.bind (pushDeclarator_gives hw hqs)
  apply Util.Yields.bind (setFunctype_gives true)
  have hparams := readParams_gives (v := v.setPage (v.page.pushDeclarator qs)) (s := s) hvalid hn h hnone
    hdeclarator href hprint
  apply Util.Yields.bind hparams
  apply Util.Yields.bind (setFunctype_gives false)
  have hparen : Gives (doIf ((⟨true, false⟩ : TypeDelimit).paren = true) (demPushStr (ascii ")")))
      ((v.setPage page).setInput (chr 'E' :: s)) ()
      (((v.setPage page).push (lit ")")).setInput (chr 'E' :: s)) := by
    rw [doIf, if_pos rfl]
    exact demPushStr_gives (by decide)
  apply Util.Yields.bind hparen
  apply Util.Yields.bind (setPushQualifier_gives _)
  apply Util.Yields.bind (pushTypeQualifier_none hw hqs)
  apply Util.Yields.bind (setPushQualifier_gives _)
  apply Util.Evaluates.bind vectorTypeQualifierInit_evals
  rintro w' _ ⟨hw', rfl⟩
  have hrefQualifier := pushRefQualifier_gives
    (v := (v.setPage (page.closeFunction qs)).setInput (chr 'E' :: s)) href
  apply Util.Yields.bind hrefQualifier
  exact Util.Evaluates.pure ⟨hw', rfl⟩

theorem encodeParams_isTypeStart {params : List Ty} (hvalid : validParams params = true) (s : List Byte)
    : isTypeStart ((encodeParams params ++ s).headD 0) = true := by
  cases params with
  | nil => rfl
  | cons t ts =>
    obtain ⟨_, ht, _⟩ := validParams_cons hvalid
    rw [encodeParams, List.append_assoc]
    exact t.isTypeStart_headD ht _

theorem readTypeAgain_function {ret : Ty} {params : List Ty} {page' : Page} (hret : ret.valid = true)
    (hvalid : validParams params = true) (hn : params.length ≤ tries) (h : ∀ t ∈ ret :: params, ReadsType p t)
    (hnone : ReadsNone p) (hf : FrameFor f qs v) (hprint : ret.print [] v.page = some page)
    (hparams : printParams params (page.pushDeclarator qs) = some page')
    : Gives (readTypeAgain p f)
        (v.setInput (chr 'F' :: (ret.encode ++ (encodeParams params ++ chr 'E' :: s))))
        (f.td.map fun td => { td with firstp := false })
        ((v.unref.setPage (page'.finishFunction v.page.output.length qs)).setInput s) := by
  have hprints : Prints v.page (page'.closeFunction qs) :=
    (((ret.prints hprint).trans (Page.prints_pushDeclarator page qs)).trans
      (prints_printParams params hparams)).trans (prints_closeFunction page' qs)
  have hstart := encodeParams_isTypeStart hvalid (chr 'E' :: s)
  have hY := ne_of_isTypeStart (c := 'Y')
    (ret.isTypeStart_headD hret (encodeParams params ++ chr 'E' :: s)) rfl
  have hread := readPlainType_gives (v := v.unref) (h ret List.mem_cons_self) rfl (ne_of_isTypeStart hstart rfl) hprint
  have htype := readFunctionType_gives (v := v.unref.setPage page) (s := s) hvalid hn
    (fun t ht => h t (List.mem_cons_of_mem _ ht)) hnone rfl hf.qualifiers hf.hasName hparams
  apply readTypeAgain_compound rfl hprints
  apply Util.Yields.bind (expect_gives 'F' _)
  apply Util.Yields.bind (skipIf_gives_false hY)
  apply Util.Yields.bind hread
  apply Util.Yields.bind peek_gives
  rw [if_neg (ne_of_isTypeStart hstart rfl)]
  apply Util.Evaluates.bind htype
  rintro w' _ ⟨hw', rfl⟩
  apply Util.Yields.bind (skip_gives (v := v.unref.setPage (page'.closeFunction qs)) _ _)
  apply Util.Evaluates.pure
  exact ⟨⟨hw', fun q hq => absurd hq List.not_mem_nil, hf.output, hf.pIdx⟩, rfl⟩

theorem length_encode_le_encodeParams {params : List Ty} (ht : t ∈ params)
    : t.encode.length ≤ (encodeParams params).length := by
  cases params with
  | nil => cases ht
  | cons t' ts =>
    have hle := length_encode_le_of_mem ht
    rw [encodeTypes] at hle
    rw [encodeParams]
    exact hle

theorem readsNone_parsers (n : Nat) : ReadsNone (parsers (n + 1)) :=
  fun htd hf hv hs => readTypeAgain_none htd hf hv hs

theorem readsType_function {n : Nat} {ret : Ty} {params : List Ty} (ht : (Ty.function ret params).valid = true)
    (h : Reads (parsers n) n) (hn : (Ty.function ret params).encode.length ≤ n)
    : ReadsType (parsers (n + 1)) (.function ret params) := by
  intro f qs v s page hf _ _ _ hprint
  simp only [Ty.valid, Bool.and_eq_true, decide_eq_true_eq] at ht
  obtain ⟨⟨hret, htries⟩, hparams⟩ := ht
  simp only [Ty.encode, List.length_cons, List.length_append] at hn
  have hreads (t : Ty) (ht : t ∈ ret :: params) : ReadsType (parsers n) t := by
    rcases List.mem_cons.1 ht with rfl | ht
    . exact h t hret (by omega)
    . have hle := length_encode_le_encodeParams ht
      have hvalid := valid_of_mem (validTypes_of_validParams hparams) ht
      apply h t hvalid
      omega
  cases n with
  | zero => omega
  | succ n =>
    rw [Ty.print] at hprint
    rcases Option.bind_eq_some_iff.1 hprint with ⟨page₁, hprint₁, hprint⟩
    rcases Option.map_eq_some_iff.1 hprint with ⟨page₂, hprint₂, rfl⟩
    have hgives := readTypeAgain_function (s := s) hret hparams htries hreads (readsNone_parsers n) hf hprint₁ hprint₂
    have hinput : (Ty.function ret params).encode ++ s
        = chr 'F' :: (ret.encode ++ (encodeParams params ++ chr 'E' :: s)) := by
      simp [Ty.encode]
    rw [hinput]
    exact hgives

-- one more level of the recursion reads the types that are longer by one
theorem Reads.succ {n : Nat} (h : Reads (parsers n) n) : Reads (parsers (n + 1)) (n + 1) := by
  intro t ht hlt f qs v s page hf hvoid href hs hprint
  have hn : t.encode.length ≤ n := Nat.le_of_lt_succ hlt
  cases t with
  | builtin e he =>
    rw [Ty.print] at hprint
    cases hprint
    exact readTypeAgain_builtin he hf
  | builtinD e he =>
    rw [Ty.print] at hprint
    cases hprint
    exact readTypeAgain_builtinD he hf
  | void =>
    rw [Ty.print] at hprint
    cases hprint
    exact readTypeAgain_void (hvoid rfl) hf
  | qualified q t =>
    rw [Ty.print] at hprint
    simp only [Ty.valid, Bool.and_eq_true, Bool.not_eq_true', Bool.and_eq_false_iff] at ht
    obtain ⟨⟨hq, href'⟩, ht⟩ := ht
    have hread : ReadsType (parsers n) t := by
      apply h t ht
      rw [Ty.encode, List.length_cons] at hn
      omega
    rw [Ty.encode]
    cases hqref : q.isRef with
    | false => exact readTypeAgain_qualified hq hqref hread hf hs hprint
    | true =>
      have htref : t.isRef = false := by
        rcases href' with hfalse | htref
        . exact absurd (hqref.symm.trans hfalse) Bool.noConfusion
        . exact htref
      exact readTypeAgain_reference hqref hread htref (href hqref) hf hs hprint
  | named n =>
    rw [Ty.print] at hprint
    rcases Option.map_eq_some_iff.1 hprint with ⟨page', hprint', rfl⟩
    rw [Ty.valid, Bool.and_eq_true] at ht
    rw [Ty.encode] at *
    exact readTypeAgain_named ht.1 ht.2 (h.mono hn) hf hs hprint'
  | subst i =>
    rw [Ty.print] at hprint
    rcases Option.map_eq_some_iff.1 hprint with ⟨page', hprint', rfl⟩
    exact readTypeAgain_subst ht hf hprint'
  | param i =>
    rw [Ty.print] at hprint
    rcases Option.map_eq_some_iff.1 hprint with ⟨page', hprint', rfl⟩
    exact readTypeAgain_param ht hf hprint'
  | array dimension t =>
    rw [Ty.print] at hprint
    rcases Option.map_eq_some_iff.1 hprint with ⟨page', hprint', rfl⟩
    rw [Ty.valid] at ht
    have hread : ReadsType (parsers n) t := by
      apply h t ht
      simp only [Ty.encode, List.length_cons, List.length_append] at hn
      omega
    have hinput : (Ty.array dimension t).encode ++ s
        = chr 'A' :: (encodeDimension dimension ++ chr '_' :: (t.encode ++ s)) := by
      simp [Ty.encode]
    rw [hinput]
    exact readTypeAgain_array ht hread hf hs hprint'
  | function ret params => exact readsType_function ht h hn hf hvoid href hs hprint

theorem reads_parsers (n : Nat) : Reads (parsers n) n := by
  induction n with
  | zero => exact fun t ht hlt => absurd hlt (Nat.not_lt_zero _)
  | succ n ih => exact ih.succ

end Gnu3

end Demangle

end LibCxxRt
