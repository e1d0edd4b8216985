import LibCxxRt.Demangle.Gnu3.Lemmas.ReadType

/-!
This module determines that the demangler does for a whole mangled name what the printer does for it: the name,
the return type of a template function and the parameters.
-/

namespace LibCxxRt

namespace Demangle

namespace Gnu3

variable {v : View} {s : List Byte} {p : Parsers} {page : Page} {t : Ty} {ts : List Ty} {d : CppDemangleData}

-- no code of a special name has such a hash
def isNameHash (hash : Int) : Prop :=
  hash < 4600 ∨ (4800 ≤ hash ∧ hash < 5440) ∨ 5600 ≤ hash

instance (hash : Int) : Decidable (isNameHash hash) := by
  unfold isNameHash
  infer_instance

theorem le_charToInt (signed : Bool) (b : Byte) : -128 ≤ charToInt signed b := by
  have hlt := b.isLt
  unfold charToInt
  split
  . rw [BitVec.toInt_eq_toNat_cond]
    split <;> omega
  . omega

theorem charToInt_of_isLower {b : Byte} (hb : isLower b = true) (signed : Bool)
    : 97 ≤ charToInt signed b := by
  have h : ∀ b : Byte, isLower b = true → 97 ≤ charToInt true b ∧ 97 ≤ charToInt false b := by
    decide
  cases signed
  . exact (h b hb).2
  . exact (h b hb).1

theorem isNameHash_of_isUnqualifiedStart {x : Byte} (hx : isUnqualifiedStart x = true) (signed : Bool)
    (y : Byte) : isNameHash (simpleHash signed x y) := by
  rw [isUnqualifiedStart, Bool.or_eq_true] at hx
  rcases hx with hdigit | hlower
  . have hlt := simpleHash_lt hdigit signed y
    exact .inl (by omega)
  . have hle := charToInt_of_isLower hlower signed
    have hle' := le_charToInt signed y
    right
    right
    unfold simpleHash
    omega

theorem isNameHash_nested (signed : Bool) (y : Byte) : isNameHash (simpleHash signed (chr 'N') y) := by
  have hN : charToInt signed (chr 'N') = 78 := by
    cases signed <;> decide
  have hle := le_charToInt signed y
  have hlt := charToInt_lt signed y
  right
  left
  unfold simpleHash
  rw [hN]
  omega

theorem Name.headD_ne_zero {n : Name} (s : List Byte) : (n.encode ++ s).headD 0 ≠ 0 := by
  cases n with
  | source u args =>
    rw [encode, List.append_assoc]
    exact ne_zero_of_isUnqualifiedStart (u.isUnqualifiedStart_headD _)
  | std u args => exact (by decide : chr 'S' ≠ 0)
  | abbreviation e he args =>
    rw [headD_abbreviation]
    decide
  | nested quals parts => exact (by decide : chr 'N' ≠ 0)

theorem Name.isNameHash (n : Name) (s : List Byte) (signed : Bool)
    : isNameHash (simpleHash signed ((n.encode ++ s).headD 0) ((n.encode ++ s).getD 1 0)) := by
  cases n with
  | source u args =>
    rw [encode, List.append_assoc]
    exact isNameHash_of_isUnqualifiedStart (u.isUnqualifiedStart_headD _) signed _
  | std u args =>
    show Gnu3.isNameHash (simpleHash signed (chr 'S') (chr 't'))
    cases signed <;> decide
  | abbreviation e he args =>
    rcases stdAbbreviation_code he with ⟨y, hcode, hhash, _⟩
    rw [encode, List.append_assoc, hcode]
    show Gnu3.isNameHash (simpleHash signed (chr 'S') y)
    have h : ∀ e ∈ stdAbbreviations, Gnu3.isNameHash (codeHash e.1) := by decide
    rw [hhash]
    exact h e he
  | nested quals parts => exact isNameHash_nested signed _

theorem ne_of_isNameHash {hash : Int} {code : String} (hhash : isNameHash hash)
    (hcode : ¬ isNameHash (codeHash code)) : hash ≠ codeHash code := by
  rintro rfl
  exact hcode hhash

theorem readEncoding_gives {n : Name} (hvalid : n.valid = true) (h : Reads p n.encode.length)
    (hv : v.refQualifier = false) (hs : s.headD 0 ≠ chr 'I') (hprint : n.print v.page = some page)
    : Gives (readEncoding p) (v.setInput (n.encode ++ s)) () ((v.setPage page).setInput s) := by
  have hread := readName_gives hvalid h hv hs hprint
  have hzero := n.headD_ne_zero s
  have hhash := n.isNameHash s
  generalize n.encode ++ s = input at *
  have hne : input ≠ [] := by
    rintro rfl
    exact hzero rfl
  apply Util.Yields.bind (failAtEnd_gives hzero)
  apply Util.Evaluates.bind (peekHash_evals hne)
  rintro hash _ ⟨⟨signed, rfl⟩, rfl⟩
  have hname := hhash signed
  generalize simpleHash signed (input.headD 0) (input.getD 1 0) = hash at hname
  have hspecial : lookupHash specialTypeNames hash = none := by
    have htable : ∀ e ∈ specialTypeNames, ¬ isNameHash (codeHash e.1) := by decide
    exact lookupHash_eq_none fun e he => (ne_of_isNameHash hname (htable e he)).symm
  rw [if_neg (ne_of_isNameHash hname (by decide)), if_neg (ne_of_isNameHash hname (by decide)),
    if_neg (ne_of_isNameHash hname (by decide)), if_neg (ne_of_isNameHash hname (by decide)),
    if_neg (ne_of_isNameHash hname (by decide)), if_neg (ne_of_isNameHash hname (by decide)),
    if_neg (ne_of_isNameHash hname (by decide)), if_neg (ne_of_isNameHash hname (by decide)),
    if_neg (ne_of_isNameHash hname (by decide)), if_neg (ne_of_isNameHash hname (by decide)), hspecial]
  exact hread

theorem popFunctionName_nil : Gives popFunctionName (v.setInput []) () (v.setInput []) := by
  apply Util.Yields.bind peek_gives
  exact doIf_of_neg fun h => h rfl

theorem popFunctionName_gives (hs : s.headD 0 ≠ 0)
    : Gives popFunctionName (v.setInput s) () ((v.setPage v.page.dropCandidate).setInput s) := by
  apply Util.Yields.bind peek_gives
  rw [doIf, if_pos hs]
  apply Util.Evaluates.modify
  intro d hd
  have hsubst : Holds d.subst.pop v.page.subst.dropLast := by
    refine ⟨?_, hd.subst.2⟩
    have htexts : texts d.subst = v.page.subst := hd.subst.1
    rw [← htexts, texts, texts, Util.Growable.items_pop, List.map_dropLast]
  exact { hd with subst := hsubst }

theorem enterReturnType_gives_false (h : v.page.isTmpl = false) : Gives enterReturnType v false v := by
  apply Util.Evaluates.get_bind
  intro d hd
  rw [if_neg (by simp [hd.isTmpl, h])]
  exact Util.Yields.pure _ _

-- the output of the return type is a new one
def View.enterReturn (v : View) (h : 2 ≤ v.page.output.length) : View where
  page := { v.page with output := [], isTmpl := false }
  before := v.before ++ [v.page.output]
  length_before strs hstrs := by
    rcases List.mem_append.1 hstrs with hstrs | hstrs
    . exact v.length_before strs hstrs
    . rw [List.mem_singleton.1 hstrs]
      exact h
  input := v.input
  refQualifier := v.refQualifier

theorem enterReturnType_gives (h : v.page.isTmpl = true) (hlength : 2 ≤ v.page.output.length)
    : Gives enterReturnType v true (v.enterReturn hlength) := by
  apply Util.Evaluates.get_bind
  intro d hd
  rw [if_pos (by simp [hd.isTmpl, h])]
  have htmpl : Gives (modify fun d => { d with isTmpl := false }) v ()
      (v.setPage { v.page with isTmpl := false }) := by
    apply Util.Evaluates.modify
    intro d hd
    exact { hd with isTmpl := rfl }
  apply Util.Yields.bind htmpl
  apply Util.Evaluates.bind vectorStrInit_evals
  rintro w _ ⟨hw, rfl⟩
  have houtput : Gives (modify fun d =>
      { d with curOutput := d.outputs.length, outputs := d.outputs ++ [w] })
      (v.setPage { v.page with isTmpl := false }) () (v.enterReturn hlength) := by
    apply Util.Evaluates.modify
    intro d hd
    rcases hd.outputs with ⟨vs, o, houtputs, _, hbefore, ho⟩
    have hitems : w.items = [] := List.map_eq_nil_iff.1 hw.1
    have hflat : (d.outputs ++ [w]).flatMap (·.items) = d.outputs.flatMap (·.items) := by
      simp [hitems]
    have houtputs' : ShowsOutputs (d.outputs ++ [w]) d.outputs.length (v.before ++ [v.page.output]) [] := by
      refine ⟨d.outputs, w, rfl, rfl, ?_, hw⟩
      rw [houtputs]
      exact List.rel_append hbefore (.cons ho .nil)
    have hfresh : Fresh (d.outputs ++ [w]) d.mallocs := by
      constructor
      . rw [hflat]
        exact hd.fresh.lt
      . rw [hflat]
        exact hd.fresh.nodup
    have hsname (s : { s : CString // s.strlen ≠ 0 }) (hs : v.page.sname = some s)
        : d.lastSname.bind (snameText (d.outputs ++ [w])) = some s.1.bytes := by
      rw [← hd.sname s hs]
      cases d.lastSname with
      | none => rfl
      | some n =>
        cases n with
        | literal s => rfl
        | element addr =>
          show Option.map _ (List.find? _ _) = Option.map _ (List.find? _ _)
          rw [hflat]
    exact { hd with outputs := houtputs', fresh := hfresh, sname := hsname }
  apply Util.Yields.bind houtput
  exact Util.Yields.pure _ _

theorem malloc_of_malloc (hd : ∀ n, d.env.malloc n = true)
    : malloc d = .ok (d.mallocs, { d with mallocs := d.mallocs + 1 }) := by
  unfold malloc
  rw [Util.Prog.bind_of_ok (tryMalloc_apply d), if_pos (hd _)]
  rfl

-- the copies have new addresses
structure Copies (strs strs' : List Str) (m n : Nat) : Prop where
  text : strs'.map Str.text = strs.map Str.text
  addr : ∀ s ∈ strs', m ≤ s.addr ∧ s.addr < n
  nodup : (strs'.map Str.addr).Nodup

theorem strdupAll_of_malloc (hd : ∀ n, d.env.malloc n = true) (strs : List Str)
    : ∃ strs' n, strdupAll strs d = .ok (strs', { d with mallocs := d.mallocs + n })
        ∧ Copies strs strs' d.mallocs (d.mallocs + n) := by
  induction strs generalizing d with
  | nil => exact ⟨[], 0, rfl, rfl, fun s hs => absurd hs List.not_mem_nil, List.nodup_nil⟩
  | cons s strs ih =>
    rcases ih (d := { d with mallocs := d.mallocs + 1 }) hd with ⟨strs', n, heq, hcopies⟩
    refine ⟨⟨d.mallocs, s.text⟩ :: strs', n + 1, ?_, ?_⟩
    . rw [strdupAll, Util.Prog.bind_of_ok (malloc_of_malloc hd), Util.Prog.bind_of_ok heq, Nat.add_right_comm,
        Nat.add_assoc]
      rfl
    . have haddr (s : Str) (hs : s ∈ strs') : d.mallocs + 1 ≤ s.addr ∧ s.addr < d.mallocs + 1 + n :=
        hcopies.addr s hs
      constructor
      . rw [List.map_cons, List.map_cons, hcopies.text]
      . intro s' hs'
        rcases List.mem_cons.1 hs' with rfl | hs'
        . exact ⟨Nat.le_refl _, by simp⟩
        . have h := haddr s' hs'
          omega
      . rw [List.map_cons, List.nodup_cons]
        refine ⟨?_, hcopies.nodup⟩
        intro hmem
        rcases List.mem_map.1 hmem with ⟨s', hs', heq⟩
        have h := haddr s' hs'
        dsimp only at heq
        omega

theorem vectorStrPushVectorHead_of_malloc {u w : VectorStr} (hd : ∀ n, d.env.malloc n = true)
    (hw : 0 < w.size)
    : ∃ u' strs n, vectorStrPushVectorHead u w d = .ok (u', { d with mallocs := d.mallocs + n })
        ∧ u'.items = strs ++ u.items ∧ 0 < u'.capacity
        ∧ Copies w.items strs (d.mallocs + 1) (d.mallocs + n) := by
  rcases strdupAll_of_malloc (d := { d with mallocs := d.mallocs + 1 }) hd w.items with ⟨strs, n, hstrs, hcopies⟩
  have hlength : strs.length = w.size := by
    have h := congrArg List.length hcopies.text
    rw [List.length_map, List.length_map] at h
    exact h
  have hlt : u.size + w.size < bufferGrow (u.size + w.size) := lt_bufferGrow (by omega)
  have hfits : (strs ++ u.items).length ≤ bufferGrow (u.size + w.size) := by
    rw [List.length_append, hlength, Nat.add_comm]
    exact Nat.le_of_lt hlt
  rcases Util.Growable.exists_ofList hfits with ⟨u', hu'⟩
  obtain ⟨hitems, hcapacity⟩ := Util.Growable.ofList_eq_some.1 hu'
  refine ⟨u', strs, 1 + n, ?_, hitems, ?_, ?_⟩
  . unfold vectorStrPushVectorHead vectorStrMerge
    rw [Util.Prog.bind_of_ok (malloc_of_malloc hd), Util.Prog.bind_of_ok hstrs, hu', ← Nat.add_assoc]
    rfl
  . rw [hcapacity]
    omega
  . rw [← Nat.add_assoc]
    exact hcopies

theorem Fresh.append {u u' w : VectorStr} {org strs : List Str} {l m n : Nat} (h : Fresh [u, w] l)
    (hl : l ≤ m) (hn : l ≤ n) (hitems : u'.items = strs ++ u.items) (hcopies : Copies org strs m n)
    : Fresh [u'] n := by
  have hlt (s : Str) (hs : s ∈ u.items) : s.addr < l := h.lt s (by simp [hs])
  constructor
  . intro s hs
    rw [List.flatMap_singleton, hitems] at hs
    rcases List.mem_append.1 hs with hs | hs
    . exact (hcopies.addr s hs).2
    . exact Nat.lt_of_lt_of_le (hlt s hs) hn
  . rw [List.flatMap_singleton, hitems, List.map_append, List.nodup_append]
    refine ⟨hcopies.nodup, ?_, ?_⟩
    . have hnodup := h.nodup
      rw [List.flatMap_cons, List.map_append] at hnodup
      exact (List.nodup_append.1 hnodup).1
    . intro a ha b hb
      rcases List.mem_map.1 ha with ⟨s, hs, rfl⟩
      rcases List.mem_map.1 hb with ⟨s', hs', rfl⟩
      have hle := (hcopies.addr s hs).1
      have hlt' := hlt s' hs'
      omega

theorem pushReturnType_gives {strs : List CString} (hbefore : v.before = [strs])
    : Gives pushReturnType v () (v.leaveReturn strs) := by
  intro d hd
  rcases hd.outputs with ⟨vs, w, houtputs, hcur, hvs, hw⟩
  rw [hbefore] at hvs
  rcases List.forall₂_cons_right_iff.1 hvs with ⟨u, vs, hu, hnil, rfl⟩
  cases hnil
  have hget (i : Nat) (o : VectorStr) (n : Nat) (h : [u, w][i]? = some o)
      : getOutput i { d with mallocs := n } = .ok (o, { d with mallocs := n }) := by
    apply getOutput_of_eq
    show d.outputs[i]? = some o
    rw [houtputs]
    exact h
  rcases vectorStrPush_of_malloc hd.malloc hw.2 (ascii " ") (ascii " ").length with ⟨w', n, hpush, hw', _⟩
  have hvec : vecPushStr w (ascii " ") d = .ok (w', { d with mallocs := d.mallocs + (n + 1) }) := by
    unfold vecPushStr vecPush
    rw [Util.Prog.bind_of_ok hpush]
    rfl
  have hsize : 0 < w'.size := by
    rw [Util.Growable.size, hw', List.length_append]
    exact Nat.succ_pos _
  rcases vectorStrPushVectorHead_of_malloc (u := u) (d := { d with mallocs := d.mallocs + (n + 1) })
    hd.malloc hsize with ⟨u', copies, m, hmerge, hitems, hcapacity, hcopies⟩
  refine ⟨(), { d with mallocs := d.mallocs + (n + 1) + m, curOutput := 0, outputs := [u'] },
    v.leaveReturn strs, ?_, ?_, rfl, rfl⟩
  . unfold pushReturnType
    rw [Util.Prog.bind_of_ok (hget 1 w d.mallocs rfl), Util.Prog.bind_of_ok hvec,
      Util.Prog.bind_of_ok (hget 0 u _ rfl), Util.Prog.bind_of_ok hmerge]
    rfl
  . have htexts : texts u' = v.page.output ++ lit " " :: strs := by
      have hcopied : copies.map Str.text = texts w' := hcopies.text
      rw [texts, hitems, List.map_append, hcopied, texts_of_items hw', hw.1, List.append_assoc]
      show _ ++ ([lit " "] ++ texts u) = _
      rw [hu.1]
      rfl
    have hfresh : Fresh [u'] (d.mallocs + (n + 1) + m) := by
      have h := hd.fresh
      rw [houtputs] at h
      refine Fresh.append (u := u) (w := w) h (m := d.mallocs + (n + 1) + 1) ?_ ?_ hitems hcopies <;> omega
    have houtput : ShowsOutputs [u'] 0 [] (v.page.output ++ lit " " :: strs) :=
      ⟨[], u', rfl, rfl, .nil, htexts, hcapacity⟩
    exact { hd with outputs := houtput, fresh := hfresh, sname := fun s hs => by cases hs }

theorem readSignature_nil {n : Nat} (td : TypeDelimit) (hasRet moreType : Bool)
    : Gives (readSignature p (n + 1) td hasRet moreType) (v.setInput []) (td, moreType) (v.setInput []) := by
  rw [readSignature]
  apply Util.Yields.bind peek_gives
  exact Util.Yields.pure _ _

-- the next parameter
theorem readSignature_cons {n : Nat} {td td' : TypeDelimit} {moreType : Bool} {v' : View}
    {post : TypeDelimit × Bool → View → Prop}
    (hstart : isTypeStart (s.headD 0) = true)
    (hread : Gives (readDelimitedType p td) (v.setInput s) td' v')
    (hnext : Evals (readSignature p n td' false false) v' post)
    : Evals (readSignature p (n + 1) td false moreType) (v.setInput s) post := by
  rw [readSignature]
  apply Util.Yields.bind peek_gives
  rw [if_neg (ne_zero_of_isTypeStart hstart)]
  have hlength : 1 ≤ s.length := by
    cases s with
    | nil => cases hstart
    | cons b s => exact Nat.succ_le_succ (Nat.zero_le _)
  apply Util.Yields.bind (peekAt_gives hlength)
  rw [if_neg fun h => ne_of_isTypeStart hstart rfl h.1, if_neg Bool.false_ne_true]
  apply Util.Yields.bind hread
  exact hnext

theorem readSignature_gives {n : Nat} {td td' : TypeDelimit} {moreType : Bool} {w : View}
    (hparen : td'.paren = true) (houtput : w.output = v.output)
    (hdelimit : ∀ s, s.headD 0 ≠ chr 'I' → Gives (delimit td) (v.setInput s) td' (w.setInput s))
    (hvalid : validParams (t :: ts) = true) (h : ∀ t' ∈ t :: ts, ReadsType p t')
    (hn : (t :: ts).length + 1 ≤ n) (hv : w.refQualifier = false)
    (hprint : (t.print [] w.page).bind (printTypes ts) = some page)
    : Gives (readSignature p n td false moreType) (v.setInput (t.encode ++ encodeTypes ts))
        (⟨true, false⟩, false) ((w.setPage page).setInput []) := by
  induction ts generalizing td td' v w t n moreType with
  | nil =>
    cases n with
    | zero => cases hn
    | succ n =>
    obtain ⟨hvoid, ht, _⟩ := validParams_cons hvalid
    rcases Option.bind_eq_some_iff.1 hprint with ⟨page₁, hprint₁, hprint⟩
    rw [printTypes] at hprint
    cases hprint
    have hstart := t.isTypeStart_headD ht (encodeTypes [])
    have hread := readDelimitedType_gives (s := []) houtput (hdelimit _ (ne_of_isTypeStart hstart rfl)) hvoid
      (h t List.mem_cons_self) hv (by decide) hprint₁
    apply readSignature_cons hstart hread
    rw [hparen]
    cases n with
    | zero =>
      rw [List.length_singleton] at hn
      omega
    | succ n => exact readSignature_nil _ _ _
  | cons t' ts ih =>
    cases n with
    | zero => cases hn
    | succ n =>
    obtain ⟨hvoid, ht, hts⟩ := validParams_cons hvalid
    obtain ⟨_, ht', _⟩ := validParams_cons hts
    rcases Option.bind_eq_some_iff.1 hprint with ⟨page₁, hprint₁, hprint⟩
    rw [printTypes] at hprint
    have hstart := t.isTypeStart_headD ht (encodeTypes (t' :: ts))
    have hstart' := t'.isTypeStart_headD ht' (encodeTypes ts)
    have hread := readDelimitedType_gives (s := encodeTypes (t' :: ts)) houtput
      (hdelimit _ (ne_of_isTypeStart hstart rfl)) hvoid (h t List.mem_cons_self) hv
      (by rw [encodeTypes]; exact ne_of_isTypeStart hstart' rfl) hprint₁
    apply readSignature_cons hstart hread
    rw [hparen, encodeTypes]
    exact ih (v := w.setPage page₁) (w := (w.setPage page₁).push (lit ", ")) rfl rfl
      (fun s hs => delimit_next hs) hts (fun t ht => h t (List.mem_cons_of_mem _ ht)) (Nat.le_of_succ_le_succ hn)
      hv hprint

theorem readSignatureParams_gives {n : Nat} {params : List Ty} (moreType : Bool)
    (hvalid : validParams params = true) (hn : params.length + 1 ≤ n) (hn' : 2 ≤ n)
    (h : ∀ t ∈ params, ReadsType p t) (hnone : ReadsNone p) (hv : v.page.output ≠ [])
    (href : v.refQualifier = false) (hprint : printParams params v.page = some page)
    : Gives (readSignature p n ⟨false, true⟩ false moreType) (v.setInput (encodeParams params))
        (⟨true, false⟩, false) ((v.setPage page).setInput []) := by
  cases params with
  | nil =>
    rw [printParams] at hprint
    cases hprint
    have hread := readDelimitedType_none (s := []) hnone hv href fun c hc => nomatch hc
    rcases Nat.exists_eq_add_of_le' hn' with ⟨m, rfl⟩
    rw [encodeParams]
    apply readSignature_cons rfl hread
    exact readSignature_nil (v := v.push (lit "(")) _ _ _
  | cons t ts =>
    rw [printParams] at hprint
    rw [encodeParams]
    exact readSignature_gives (w := v.push (lit "(")) rfl rfl
      (fun s _ => delimit_first (v := v.setInput s) hv) hvalid h hn href hprint

theorem readSignatureReturn {n : Nat} (td : TypeDelimit) {strs : List CString}
    {post : TypeDelimit × Bool → View → Prop} (ht : t.valid = true) (h : ReadsType p t)
    (hbefore : v.before = [strs]) (hv : v.refQualifier = false) (hs : s.headD 0 ≠ chr 'I')
    (hprint : t.print [] v.page = some page)
    (hnext : Evals (readSignature p n td false true) (((v.setPage page).leaveReturn strs).setInput s) post)
    : Evals (readSignature p (n + 1) td true false) (v.setInput (t.encode ++ s)) post := by
  have hstart := t.isTypeStart_headD ht s
  have hread := readPlainType_gives h hv hs hprint
  generalize t.encode ++ s = input at hstart hread
  have hlength : 1 ≤ input.length := by
    cases input with
    | nil => cases hstart
    | cons b s => exact Nat.succ_le_succ (Nat.zero_le _)
  rw [readSignature]
  apply Util.Yields.bind peek_gives
  rw [if_neg (ne_zero_of_isTypeStart hstart)]
  apply Util.Yields.bind (peekAt_gives hlength)
  rw [if_neg fun h => ne_of_isTypeStart hstart rfl h.1, if_pos rfl]
  apply Util.Yields.bind hread
  apply Util.Yields.bind (pushReturnType_gives (v := (v.setPage page).setInput s) hbefore)
  exact hnext

end Gnu3

end Demangle

end LibCxxRt
