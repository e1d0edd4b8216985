import LibCxxRt.Demangle.Gnu3.Lemmas.Qualifier
import LibCxxRt.Demangle.Gnu3.Lemmas.Syntax

/-!
This module determines that the demangler does for the names in an encoding what the printer does for them.
-/

namespace LibCxxRt

namespace Demangle

namespace Gnu3

variable {v : View} {s : List Byte} (p : Parsers)

theorem failAtEnd_gives (hs : s.headD 0 ≠ 0) : Gives failAtEnd (v.setInput s) () (v.setInput s) := by
  apply Util.Yields.bind peek_gives
  exact failIf_gives hs

theorem failAtEnd_cons {c : Byte} (hc : c ≠ 0) (s : List Byte)
    : Gives failAtEnd (v.setInput (c :: s)) () (v.setInput (c :: s)) :=
  failAtEnd_gives hc

theorem expect_gives (c : Char) (s : List Byte) : Gives (expect c) (v.setInput (chr c :: s)) () (v.setInput s) := by
  apply Util.Yields.bind peek_gives
  apply Util.Yields.bind (failIf_gives (by simp))
  exact advance_append [chr c] s

theorem skip_gives (c : Byte) (s : List Byte) : Gives (advance 1) (v.setInput (c :: s)) () (v.setInput s) :=
  advance_append [c] s

-- the hash of the two characters at the cursor
theorem peekHash_evals (hs : s ≠ [])
    : Evals peekHash (v.setInput s) fun hash v' =>
        (∃ signed, hash = simpleHash signed (s.headD 0) (s.getD 1 0)) ∧ v' = v.setInput s := by
  have hlength : 1 ≤ s.length := List.length_pos_iff.2 hs
  apply Util.Yields.bind peek_gives
  apply Util.Yields.bind (peekAt_gives hlength)
  apply Util.Evaluates.get_bind
  intro d hd
  apply Util.Evaluates.pure
  exact ⟨⟨d.env.signedChar, rfl⟩, rfl⟩

theorem charToInt_lt (signed : Bool) (b : Byte) : charToInt signed b < 256 := by
  have hlt := b.isLt
  unfold charToInt
  split
  . rw [BitVec.toInt_eq_toNat_cond]
    split <;> omega
  . omega

-- no code starts with a digit
theorem simpleHash_lt {x : Byte} (hx : isDigit x = true) (signed : Bool) (y : Byte)
    : simpleHash signed x y < 4000 := by
  have hdigit : ∀ b : Byte, isDigit b = true → charToInt true b ≤ 57 ∧ charToInt false b ≤ 57 := by
    decide
  have hle : charToInt signed x ≤ 57 := by
    cases signed
    . exact (hdigit x hx).2
    . exact (hdigit x hx).1
  have hlt := charToInt_lt signed y
  unfold simpleHash
  omega

theorem lookupHash_eq_none {α : Type} {table : List (String × α)} {hash : Int}
    (h : ∀ e ∈ table, codeHash e.1 ≠ hash) : lookupHash table hash = none := by
  rw [lookupHash, Option.map_eq_none_iff, List.find?_eq_none]
  intro e he
  simpa using h e he

theorem lookupHash_of_lt {α : Type} {table : List (String × α)} {n hash : Int}
    (htable : table.all fun e => decide (n ≤ codeHash e.1)) (h : hash < n) : lookupHash table hash = none := by
  apply lookupHash_eq_none
  intro e he
  have hle := of_decide_eq_true (List.all_eq_true.1 htable e he)
  omega

theorem readUqname_identifier (id : Identifier) (s : List Byte)
    : Gives (readUqname p) (v.setInput (numeral 10 id.text.strlen ++ (id.text.bytes ++ s))) ()
        ((v.setPage (v.page.pushIdentifier id)).setInput s) := by
  have hread := readSname_gives (v := v) id s
  generalize hinput : numeral 10 id.text.strlen ++ (id.text.bytes ++ s) = input at hread
  have hdigit : isDigit (input.headD 0) = true := by
    rw [← hinput]
    exact isDigit_numeral _ _
  have hne : input ≠ [] := by
    rintro rfl
    cases hdigit
  have hstart := ne_zero_of_isTypeStart (isTypeStart_of_isDigit hdigit)
  apply Util.Yields.bind (failAtEnd_gives hstart)
  apply Util.Yields.bind peek_gives
  apply Util.Evaluates.bind (peekHash_evals hne)
  rintro hash _ ⟨⟨signed, rfl⟩, rfl⟩
  have hlt := simpleHash_lt hdigit signed (input.getD 1 0)
  generalize simpleHash signed (input.headD 0) (input.getD 1 0) = hash at hlt
  have hcast : ¬ hash = codeHash "cv" := by
    have h : 4000 ≤ codeHash "cv" := by decide
    omega
  rw [if_neg hcast, lookupHash_of_lt (by decide) hlt]
  apply Util.Yields.bind (peekAt_gives (List.length_pos_iff.2 hne))
  rw [if_neg fun h => ne_of_isDigit hdigit rfl h.1, lookupHash_of_lt (by decide) hlt]
  dsimp only
  rw [if_pos hdigit]
  exact hread

-- an entry is found if no other one has its hash
theorem lookupHash_of_nodup {α : Type} {table : List (String × α)} {e : String × α}
    (h : (table.map fun e => codeHash e.1).Nodup) (he : e ∈ table) : lookupHash table (codeHash e.1) = some e.2 := by
  induction table with
  | nil => cases he
  | cons e' table ih =>
    rw [List.map_cons, List.nodup_cons] at h
    rw [lookupHash, List.find?_cons]
    rcases List.mem_cons.1 he with rfl | he
    . rw [beq_self_eq_true]
      rfl
    . have hne : codeHash e'.1 ≠ codeHash e.1 := fun heq => h.1 (heq ▸ List.mem_map_of_mem he)
      rw [beq_eq_false_iff_ne.2 hne]
      exact ih h.2 he

theorem operatorHashes : operatorNames.map (fun e => codeHash e.1) = [
    6305, 6308, 6318, 6286, 6291, 6444, 6445, 6447, 6497, 6501, 6508, 6518, 6486, 6575, 6543, 6577, 6693, 6708,
    6840, 7013, 7027, 6995, 7028, 7081, 7049, 7084, 7052, 7085, 7137, 7141, 7143, 7156, 7159, 7215, 7218, 7186,
    7276, 7244, 7277, 7280, 7283, 7284, 7349, 7405, 7373, 7411, 7379, 7418, 7474, 7478] := by
  decide

-- an operator has a code of its own
theorem operator_code {e : String × String} (he : e ∈ operatorNames)
    : (∃ x y, ascii e.1 = [x, y] ∧ x ≠ 0 ∧ ∀ signed, simpleHash signed x y = codeHash e.1)
        ∧ codeHash e.1 ≠ codeHash "cv" ∧ lookupHash operatorNames (codeHash e.1) = some e.2
        ∧ ascii e.2 ≠ [] := by
  have h : ∀ e ∈ operatorNames, (ascii e.1 = [(ascii e.1).getD 0 0, (ascii e.1).getD 1 0]
      ∧ (ascii e.1).getD 0 0 ≠ 0
      ∧ ∀ signed, simpleHash signed ((ascii e.1).getD 0 0) ((ascii e.1).getD 1 0) = codeHash e.1)
      ∧ ascii e.2 ≠ [] := by
    decide
  have hnodup : (operatorNames.map fun e => codeHash e.1).Nodup := by
    rw [operatorHashes]
    decide
  have hcast : codeHash "cv" ∉ operatorNames.map fun e => codeHash e.1 := by
    rw [operatorHashes]
    decide
  refine ⟨⟨_, _, (h e he).1⟩, ?_, lookupHash_of_nodup hnodup he, (h e he).2⟩
  intro heq
  exact hcast (heq ▸ List.mem_map_of_mem he)

theorem readUqname_operator {e : String × String} (he : e ∈ operatorNames) (s : List Byte)
    : Gives (readUqname p) (v.setInput (ascii e.1 ++ s)) () ((v.push (lit e.2)).setInput s) := by
  rcases operator_code he with ⟨⟨x, y, hcode, hx, hhash⟩, hcast, hlookup, hname⟩
  rw [hcode]
  apply Util.Yields.bind (failAtEnd_gives (s := [x, y] ++ s) hx)
  apply Util.Yields.bind peek_gives
  apply Util.Evaluates.bind (peekHash_evals (s := [x, y] ++ s) (by simp))
  rintro hash _ ⟨⟨signed, rfl⟩, rfl⟩
  have hash : simpleHash signed (([x, y] ++ s).headD 0) (([x, y] ++ s).getD 1 0) = codeHash e.1 := hhash signed
  rw [hash, if_neg hcast, hlookup]
  apply Util.Yields.bind (demPushStr_gives hname)
  exact advance_append (v := v.push (lit e.2)) [x, y] s

theorem readUqname_gives (u : Unqualified) (s : List Byte)
    : Gives (readUqname p) (v.setInput (u.encode ++ s)) () ((v.setPage (u.print v.page)).setInput s) := by
  cases u with
  | identifier id =>
    rw [Unqualified.encode, List.append_assoc]
    exact readUqname_identifier p id s
  | operator e he => exact readUqname_operator p he s

theorem ctorDtorHashes
    : ctorDtorNames.map (fun e => codeHash e.1) = [4337, 4338, 4339, 4400, 4401, 4402] := by
  decide

theorem ctorDtor_code {e : String × String} (he : e ∈ ctorDtorNames)
    : (∃ x y, ascii e.1 = [x, y] ∧ x ≠ 0 ∧ x ≠ chr 'v' ∧ ∀ signed, simpleHash signed x y = codeHash e.1)
        ∧ codeHash e.1 ≠ codeHash "cv" ∧ lookupHash operatorNames (codeHash e.1) = none
        ∧ lookupHash ctorDtorNames (codeHash e.1) = some e.2 ∧ ascii e.2 ≠ [] := by
  have h : ∀ e ∈ ctorDtorNames, (ascii e.1 = [(ascii e.1).getD 0 0, (ascii e.1).getD 1 0]
      ∧ (ascii e.1).getD 0 0 ≠ 0 ∧ (ascii e.1).getD 0 0 ≠ chr 'v'
      ∧ ∀ signed, simpleHash signed ((ascii e.1).getD 0 0) ((ascii e.1).getD 1 0) = codeHash e.1)
      ∧ ascii e.2 ≠ [] := by
    decide
  have hlt : codeHash e.1 < 6000 := by
    have hall : ∀ n ∈ ctorDtorNames.map fun e => codeHash e.1, n < 6000 := by
      rw [ctorDtorHashes]
      decide
    exact hall _ (List.mem_map_of_mem he)
  have hcast : (6000 : Int) ≤ codeHash "cv" := by decide
  have hnodup : (ctorDtorNames.map fun e => codeHash e.1).Nodup := by
    rw [ctorDtorHashes]
    decide
  refine ⟨⟨_, _, (h e he).1⟩, ?_, lookupHash_of_lt (by decide) hlt, lookupHash_of_nodup hnodup he, (h e he).2⟩
  omega

theorem readUqname_ctorDtor {e : String × String} (he : e ∈ ctorDtorNames)
    {name : { s : CString // s.strlen ≠ 0 }} (hname : v.page.sname = some name) (s : List Byte)
    : Gives (readUqname p) (v.setInput (ascii e.1 ++ s)) ()
        (((v.push (lit e.2)).push name.1).setInput s) := by
  rcases ctorDtor_code he with ⟨⟨x, y, hcode, hx, hxv, hhash⟩, hcast, hoperator, hlookup, hpre⟩
  rw [hcode]
  apply Util.Yields.bind (failAtEnd_gives (s := [x, y] ++ s) hx)
  apply Util.Yields.bind peek_gives
  apply Util.Evaluates.bind (peekHash_evals (s := [x, y] ++ s) (by simp))
  rintro hash _ ⟨⟨signed, rfl⟩, rfl⟩
  have hash : simpleHash signed (([x, y] ++ s).headD 0) (([x, y] ++ s).getD 1 0) = codeHash e.1 := hhash signed
  rw [hash, if_neg hcast, hoperator]
  apply Util.Yields.bind (peekAt_gives (s := [x, y] ++ s) (by simp))
  rw [if_neg fun h => hxv h.1, hlookup]
  apply Util.Yields.bind (lastSname_gives (v := v.setInput ([x, y] ++ s)) hname)
  apply Util.Yields.bind (failIf_gives name.2)
  apply Util.Yields.bind (demPushStr_gives hpre)
  have hne : name.1.bytes ≠ [] := fun h => name.2 (List.length_eq_zero_iff.2 h)
  apply Util.Yields.bind (demPushStr_gives hne)
  rw [copyString_length_self]
  exact advance_append (v := (v.push (lit e.2)).push name.1) [x, y] s

/--
The frame of a type of which the qualifiers have been read.
-/
structure FrameFor (f : TypeFrame) (qs : List TypeQualifier) (v : View) : Prop where
  qualifiers : HoldsQualifiers f.v qs
  hasName : ∀ q ∈ qs, q.hasName = false
  output : f.output = v.output
  pIdx : f.pIdx = v.page.output.length

-- `p` reads the type, the frame says whether a parameter has been read before
def ReadsType (p : Parsers) (t : Ty) : Prop :=
  ∀ {f : TypeFrame} {qs : List TypeQualifier} {v : View} {s : List Byte} {page : Page},
    FrameFor f qs v → (t.isVoid = true → f.td.any TypeDelimit.firstp = false)
      → (t.isRef = true → v.refQualifier = false) → s.headD 0 ≠ chr 'I' → t.print qs v.page = some page
      → Gives (p.readTypeAgain f) (v.setInput (t.encode ++ s))
        (f.td.map fun td => { td with firstp := false }) ((v.unref.setPage page).setInput s)

variable {p} {page : Page} {t : Ty} {ts : List Ty}

theorem readType_gives (h : ReadsType p t) (hv : v.refQualifier = false) (hs : s.headD 0 ≠ chr 'I')
    (hprint : t.print [] v.page = some page)
    : Gives (readType p none) (v.setInput (t.encode ++ s)) none ((v.setPage page).setInput s) := by
  apply Util.Evaluates.get_bind
  intro d hd
  have houtput : d.curOutput = v.output := hd.curOutput
  rw [houtput]
  apply Util.Yields.bind (Util.Yields.pure none _)
  apply Util.Evaluates.bind vectorTypeQualifierInit_evals
  rintro w _ ⟨hw, rfl⟩
  apply Util.Yields.bind (outputSize_gives (v := v.setInput (t.encode ++ s)))
  have hframe : FrameFor ⟨w, v.output, v.page.output.length, none⟩ [] v :=
    ⟨hw, fun q hq => absurd hq List.not_mem_nil, rfl, rfl⟩
  have hgives := h hframe (fun _ => rfl) (fun _ => hv) hs hprint
  rw [View.unref_of_eq hv] at hgives
  exact hgives

theorem readPlainType_gives (h : ReadsType p t) (hv : v.refQualifier = false) (hs : s.headD 0 ≠ chr 'I')
    (hprint : t.print [] v.page = some page)
    : Gives (readPlainType p) (v.setInput (t.encode ++ s)) () ((v.setPage page).setInput s) := by
  apply Util.Yields.bind (readType_gives h hv hs hprint)
  exact Util.Yields.pure _ _

theorem readTmplArg_gives (h : ReadsType p t) (ht : t.valid = true) (hv : v.refQualifier = false)
    (hs : s.headD 0 ≠ chr 'I') (hprint : t.print [] v.page = some page)
    : Gives (readTmplArg p) (v.setInput (t.encode ++ s)) () ((v.setPage page).setInput s) := by
  have hstart := t.isTypeStart_headD ht s
  apply Util.Yields.bind (failAtEnd_gives (ne_zero_of_isTypeStart hstart))
  apply Util.Yields.bind peek_gives
  rw [if_neg (ne_of_isTypeStart hstart rfl), if_neg (ne_of_isTypeStart hstart rfl)]
  exact readPlainType_gives h hv hs hprint

-- the brackets around the template arguments
def closeArgs (p : Page) : Page :=
  { p.push (lit ">") with isTmpl := true }

-- the argument is read and becomes an entry of the table
theorem readTmplArgsLoop_cons {n : Nat} {post : Unit → View → Prop} (ht : t.valid = true) (h : ReadsType p t)
    (hv : v.refQualifier = false) (hs : s.headD 0 ≠ chr 'I') (hprint : t.print [] v.page = some page)
    (hnext : Evals (do
      let c ← peek
      if c = chr 'E' then
        advance 1
        demPushStr (ascii ">")
        modify fun d => { d with isTmpl := true }
      else
        doIf (c ≠ chr 'I') (demPushStr (ascii ", "))
        readTmplArgsLoop p v.output n)
      ((v.setPage (page.addTmpl (page.since v.page.output.length))).setInput s) post)
    : Evals (readTmplArgsLoop p v.output (n + 1)) (v.setInput (t.encode ++ s)) post := by
  rw [readTmplArgsLoop]
  apply Util.Yields.bind (outputSize_gives (v := v.setInput (t.encode ++ s)))
  apply Util.Yields.bind (readTmplArg_gives h ht hv hs hprint)
  have hlength := (t.prints hprint).length
  apply Util.Yields.bind (outputSubstr_gives (v := (v.setPage page).setInput s) hlength)
  apply Util.Yields.bind (failIfNone_gives rfl)
  apply Util.Yields.bind (addTmpl_gives _)
  exact hnext

theorem readTmplArgsLoop_gives {n : Nat} {page' : Page} (ht : t.valid = true) (hts : validTypes ts = true)
    (h : ∀ t' ∈ t :: ts, ReadsType p t') (hn : (t :: ts).length ≤ n) (hv : v.refQualifier = false)
    (hprint : t.print [] v.page = some page)
    (hprints : printArgList ts (page.addTmpl (page.since v.page.output.length)) = some page')
    : Gives (readTmplArgsLoop p v.output n) (v.setInput (t.encode ++ (encodeTypes ts ++ chr 'E' :: s))) ()
        ((v.setPage (closeArgs page')).setInput s) := by
  induction ts generalizing v t n page with
  | nil =>
    cases n with
    | zero => cases hn
    | succ n =>
    rw [printArgList] at hprints
    cases hprints
    apply readTmplArgsLoop_cons ht (h t List.mem_cons_self) hv (headD_encodeTypes_ne hts s) hprint
    apply Util.Yields.bind peek_gives
    apply Util.Yields.bind (skip_gives _ s)
    apply Util.Yields.bind (demPushStr_gives (by decide))
    apply Util.Evaluates.modify
    intro d hd
    exact { hd with isTmpl := rfl }
  | cons t' ts ih =>
    cases n with
    | zero => cases hn
    | succ n =>
    rw [printArgList] at hprints
    rcases Option.bind_eq_some_iff.1 hprints with ⟨page₁, hprint', hprints⟩
    have hvalid := hts
    rw [validTypes, Bool.and_eq_true] at hvalid
    have hne := headD_encodeTypes_ne hts s
    apply readTmplArgsLoop_cons ht (h t List.mem_cons_self) hv hne hprint
    rw [encodeTypes, List.append_assoc] at hne ⊢
    have hstart := t'.isTypeStart_headD hvalid.1 (encodeTypes ts ++ chr 'E' :: s)
    apply Util.Yields.bind peek_gives
    rw [if_neg (ne_of_isTypeStart hstart rfl), doIf, if_pos hne]
    apply Util.Yields.bind (demPushStr_gives (by decide))
    have hih := ih (v := (v.setPage (page.addTmpl (page.since v.page.output.length))).push (lit ", "))
      hvalid.1 hvalid.2 (fun t ht => h t (List.mem_cons_of_mem _ ht)) (Nat.le_of_succ_le_succ hn) hv hprint'
    apply hih
    rw [View.push, Page.length_push]
    exact hprints

theorem encodeArgs_cons (t : Ty) (ts : List Ty) (s : List Byte)
    : encodeArgs (t :: ts) ++ s = chr 'I' :: (t.encode ++ (encodeTypes ts ++ chr 'E' :: s)) := by
  simp [encodeArgs]

theorem readTmplArgs_gives {args : List Ty} (hvalid : validTypes args = true)
    (h : ∀ t ∈ args, ReadsType p t) (hn : args.length ≤ tries) (hv : v.refQualifier = false)
    (hprint : printArgs args v.page = some page)
    : Gives (readTmplArgs p) (v.setInput (encodeArgs args ++ s)) () ((v.setPage page).setInput s) := by
  cases args with
  | nil =>
    rw [printArgs] at hprint
    cases hprint
  | cons t ts =>
  rw [printArgs] at hprint
  rcases Option.bind_eq_some_iff.1 hprint with ⟨page₁, hprint₁, hprint⟩
  rcases Option.map_eq_some_iff.1 hprint with ⟨page₂, hprints, rfl⟩
  rw [validTypes, Bool.and_eq_true] at hvalid
  have hdepth : page₂.depth = v.page.depth + 1 :=
    (((t.prints hprint₁).toGrows.trans (Page.grows_addTmpl _ _)).trans (grows_printArgList ts hprints)).depth
  rw [← Page.length_push v.page (lit "<")] at hprints
  have hloop := readTmplArgsLoop_gives (v := (v.setPage v.page.enterArgs).push (lit "<")) (s := s)
    hvalid.1 hvalid.2 h hn hv hprint₁ hprints
  have hlist : Gives (readTmplArgList p)
      ((v.setPage v.page.enterArgs).setInput (t.encode ++ (encodeTypes ts ++ chr 'E' :: s))) ()
      ((v.setPage (closeArgs page₂)).setInput s) := by
    apply Util.Yields.bind (demPushStr_gives (by decide))
    apply Util.Evaluates.get_bind
    intro d hd
    have houtput : d.curOutput = v.output := hd.curOutput
    rw [houtput]
    exact hloop
  rw [encodeArgs_cons]
  apply Util.Yields.bind (failAtEnd_cons (by decide) _)
  apply Util.Yields.bind (skip_gives _ _)
  apply Util.Yields.bind enterArgs_gives
  apply Util.Yields.bind hlist
  have hpos : 0 < (page₂.push (lit ">")).depth := by
    show 0 < page₂.depth
    omega
  exact leaveArgs_gives (v := v.setInput s) hpos

-- the output from `n` on is one more part of the name
theorem pushSubstPart_evals {u : VectorStr} {strs : List CString} {n : Nat} (hu : Holds u strs)
    (hn : n < v.page.output.length) (hlen : (CString.concat (strs ++ [v.page.since n])).strlen ≠ 0)
    : Evals (pushSubstPart v.output n u) v fun w v' =>
        Holds w (strs ++ [v.page.since n])
          ∧ v' = v.setPage (v.page.addSubst (.concat (strs ++ [v.page.since n]))) := by
  apply Util.Yields.bind (outputSubstr_gives hn)
  apply Util.Yields.bind (failIfNone_gives rfl)
  apply Util.Evaluates.bind (vecPush_evals hu (v.page.since n).bytes (v.page.since n).bytes.length)
  rintro w v ⟨hw, rfl⟩
  rw [copyString_length_self] at hw
  apply Util.Yields.bind (pushSubstV_gives hw hlen)
  apply Util.Evaluates.pure
  exact ⟨hw, rfl⟩

theorem readNameTmplArgs_gives {args : List Ty} {u : VectorStr} {strs : List CString}
    (hu : Holds u strs) (hlen : (CString.concat strs).strlen ≠ 0) (hvalid : validTypes args = true)
    (h : ∀ t ∈ args, ReadsType p t) (hn : args.length ≤ tries) (hv : v.refQualifier = false)
    (hs : args = [] → s.headD 0 ≠ chr 'I') (hprint : printArgsOption strs args v.page = some page)
    : Gives (readNameTmplArgs p v.output u) (v.setInput (encodeArgs args ++ s)) ()
        ((v.setPage page).setInput s) := by
  apply Util.Yields.bind peek_gives
  cases args with
  | nil =>
    rw [printArgsOption] at hprint
    cases hprint
    have hne : (encodeArgs [] ++ s).headD 0 ≠ chr 'I' := by
      rw [encodeArgs]
      exact hs rfl
    rw [if_neg hne]
    exact Util.Yields.pure _ _
  | cons t ts =>
    rw [printArgsOption_cons] at hprint
    rcases Option.map_eq_some_iff.1 hprint with ⟨page', hargs, rfl⟩
    have heq : (encodeArgs (t :: ts) ++ s).headD 0 = chr 'I' := by
      rw [encodeArgs_cons]
      rfl
    rw [if_pos heq]
    apply Util.Yields.bind (outputSize_gives (v := v.setInput (encodeArgs (t :: ts) ++ s)))
    apply Util.Yields.bind (readTmplArgs_gives hvalid h hn hv hargs)
    have hlength := (prints_printArgs (t :: ts) hargs).length
    have hpush := pushSubstPart_evals (v := (v.setPage page').setInput s) hu hlength (strlen_append_ne_zero (.inl hlen))
    apply Util.Evaluates.bind hpush
    rintro w _ ⟨_, rfl⟩
    exact Util.Yields.pure _ _

theorem isOperatorName_iff (s : CString)
    : isOperatorName s = true ↔ 8 < s.strlen ∧ strstr s (ascii "operator") = true := by
  rw [isOperatorName, decide_eq_true_iff]

theorem readSourceName_gives {u : Unqualified} {args : List Ty} (hvalid : (Name.source u args).valid = true)
    (h : ∀ t ∈ args, ReadsType p t) (hv : v.refQualifier = false) (hs : s.headD 0 ≠ chr 'I')
    (hprint : (Name.source u args).print v.page = some page)
    : Gives (readSourceName p) (v.setInput (u.encode ++ (encodeArgs args ++ s))) ()
        ((v.setPage page).setInput s) := by
  rw [Name.valid] at hvalid
  simp only [Bool.and_eq_true, Bool.or_eq_true, Bool.not_eq_true', decide_eq_true_eq] at hvalid
  obtain ⟨⟨hoperator, hn⟩, htypes⟩ := hvalid
  rw [Name.print, u.since_print] at hprint
  apply Util.Evaluates.get_bind
  intro d hd
  have houtput : d.curOutput = v.output := hd.curOutput
  rw [houtput]
  apply Util.Evaluates.bind vectorStrInit_evals
  rintro w _ ⟨hw, rfl⟩
  apply Util.Yields.bind (outputSize_gives (v := v.setInput _))
  apply Util.Yields.bind (readUqname_gives p u _)
  have hlength := (u.prints v.page).length
  apply Util.Yields.bind (outputSubstr_gives (v := (v.setPage (u.print v.page)).setInput _) hlength)
  apply Util.Yields.bind (failIfNone_gives rfl)
  have hsince : ((v.setPage (u.print v.page)).setInput (encodeArgs args ++ s)).page.since v.page.output.length
      = u.text := u.since_print v.page
  dsimp only
  rw [hsince]
  split
  . next hname =>
    rw [if_pos ((isOperatorName_iff _).2 hname)] at hprint
    cases hprint
    rcases hoperator with hempty | hfalse
    . rw [List.isEmpty_iff] at hempty
      rw [hempty, encodeArgs]
      exact Util.Yields.pure _ _
    . rw [(isOperatorName_iff _).2 hname] at hfalse
      cases hfalse
  . next hname =>
    rw [if_neg fun h => hname ((isOperatorName_iff _).1 h)] at hprint
    apply Util.Evaluates.bind (vecPush_evals hw u.text.bytes u.text.bytes.length)
    rintro w' _ ⟨hw', rfl⟩
    rw [copyString_length_self] at hw'
    have hlen : (CString.concat [u.text]).strlen ≠ 0 := by
      rw [concat_singleton]
      exact u.strlen_text
    apply Util.Yields.bind (pushSubstV_gives hw' hlen)
    apply readNameTmplArgs_gives (v := v.setPage ((u.print v.page).addSubst (.concat [u.text]))) hw' hlen htypes
      h hn hv fun _ => hs
    rw [concat_singleton]
    exact hprint

theorem readSubstStd_gives {u : Unqualified} {args : List Ty} (hn : args.length ≤ tries)
    (htypes : validTypes args = true) (h : ∀ t ∈ args, ReadsType p t) (hv : v.refQualifier = false)
    (hs : args = [] → s.headD 0 ≠ chr 'I')
    (hprint : printArgsOption (printStd u v.page).1 args (printStd u v.page).2 = some page)
    : Gives (readSubstStd p) (v.setInput (chr 'S' :: chr 't' :: (u.encode ++ (encodeArgs args ++ s)))) ()
        ((v.setPage page).setInput s) := by
  apply Util.Evaluates.bind vectorStrInit_evals
  rintro w _ ⟨hw, rfl⟩
  apply Util.Yields.bind (demPushStr_gives (by decide))
  apply Util.Evaluates.bind (vecPush_evals hw (ascii "std::") (ascii "std::").length)
  rintro w' _ ⟨hw', rfl⟩
  apply Util.Yields.bind (advance_append (v := v.push (lit "std::")) [chr 'S', chr 't'] _)
  apply Util.Evaluates.get_bind
  intro d hd
  have houtput : d.curOutput = v.output := hd.curOutput
  rw [houtput]
  apply Util.Yields.bind (outputSize_gives (v := (v.push (lit "std::")).setInput _))
  apply Util.Yields.bind (readUqname_gives p u _)
  have hlength := (u.prints (v.page.push (lit "std::"))).length
  have hstd : (CString.concat [lit "std::"]).strlen ≠ 0 := by decide
  have hpart := pushSubstPart_evals
    (v := (v.setPage (u.print (v.page.push (lit "std::")))).setInput (encodeArgs args ++ s)) hw' hlength
    (strlen_append_ne_zero (.inl hstd))
  apply Util.Evaluates.bind hpart
  rintro w'' _ ⟨hw'', rfl⟩
  exact readNameTmplArgs_gives (v := v.setPage (printStd u v.page).2) hw'' (strlen_append_ne_zero (.inl hstd)) htypes
    h hn hv hs hprint

theorem charToInt_of_isSeqStart {b : Byte} (hb : isSeqStart b = true) (signed : Bool)
    : charToInt signed b ≤ 95 := by
  have h : ∀ b : Byte, isSeqStart b = true → charToInt true b ≤ 95 ∧ charToInt false b ≤ 95 := by
    decide
  cases signed
  . exact (h b hb).2
  . exact (h b hb).1

-- the codes of two letters are not those of numbers
theorem substHash {b : Byte} (hb : isSeqStart b = true) (signed : Bool)
    : lookupHash stdAbbreviations (simpleHash signed (chr 'S') b) = none
        ∧ simpleHash signed (chr 'S') b ≠ codeHash "St" := by
  have hle := charToInt_of_isSeqStart hb signed
  have hS : charToInt signed (chr 'S') = 83 := by
    cases signed <;> decide
  have hlt : simpleHash signed (chr 'S') b < 5408 := by
    unfold simpleHash
    omega
  have hSt : (5408 : Int) ≤ codeHash "St" := by decide
  exact ⟨lookupHash_of_lt (by decide) hlt, by omega⟩

theorem readSeqId_of_succ {i : Nat} (hi : isIndex (i + 1) = true) (s : List Byte)
    : Gives readSeqId (v.setInput (seqId (i + 1) ++ s)) (i + 1) (v.setInput (chr '_' :: s)) := by
  have hlt := of_decide_eq_true hi
  rw [seqId, List.append_assoc]
  exact readSeqId_gives (by omega) s

theorem readSubst_number {i : Nat} (hi : isIndex i = true)
    (hprint : v.page.pushEntry v.page.subst[i]? = some page) (s : List Byte)
    : Gives (readSubst p) (v.setInput (chr 'S' :: (seqId i ++ s))) () ((v.setPage page).setInput s) := by
  have hstart := isSeqStart_headD i s
  have hzero : (seqId i ++ s).headD 0 ≠ 0 := by
    intro h
    rw [h] at hstart
    cases hstart
  apply Util.Yields.bind (failAtEnd_cons (by decide) _)
  apply Util.Evaluates.bind (peekHash_evals (by simp))
  rintro hash _ ⟨⟨signed, rfl⟩, rfl⟩
  have hhash := substHash hstart signed
  rw [List.headD_cons, List.getD_cons_succ, ← List.headD_eq_getD, hhash.1]
  dsimp only
  rw [if_neg hhash.2]
  apply Util.Yields.bind (skip_gives _ _)
  apply Util.Yields.bind (failAtEnd_gives hzero)
  apply Util.Yields.bind peek_gives
  have hother : ¬ ((!isDigit ((seqId i ++ s).headD 0)) = true ∧ (!isUpper ((seqId i ++ s).headD 0)) = true
      ∧ (seqId i ++ s).headD 0 ≠ chr '_') := by
    rintro ⟨hdigit, hupper, hne⟩
    simp only [Bool.not_eq_true'] at hdigit hupper
    rw [isSeqStart, hdigit, hupper] at hstart
    exact hne (by simpa using hstart)
  rw [if_neg hother]
  cases i with
  | zero => exact getSubst_gives hprint
  | succ i =>
    rw [if_neg (headD_seqId_succ i s).2]
    apply Util.Yields.bind (readSeqId_of_succ hi s)
    exact getSubst_gives hprint

theorem readTmplParam_gives {i : Nat} (hi : isIndex i = true)
    (hprint : v.page.pushEntry v.page.tmpl[i]? = some page) (s : List Byte)
    : Gives readTmplParam (v.setInput (chr 'T' :: (seqId i ++ s))) () ((v.setPage page).setInput s) := by
  apply Util.Yields.bind (expect_gives 'T' _)
  apply Util.Yields.bind peek_gives
  cases i with
  | zero => exact getTmplParam_gives hprint
  | succ i =>
    rw [if_neg (headD_seqId_succ i s).2]
    apply Util.Yields.bind (readSeqId_of_succ hi s)
    exact getTmplParam_gives hprint

-- `St` and a name
theorem readSubst_std {u : Unqualified} {args : List Ty} (hn : args.length ≤ tries)
    (htypes : validTypes args = true) (h : ∀ t ∈ args, ReadsType p t) (hv : v.refQualifier = false)
    (hs : args = [] → s.headD 0 ≠ chr 'I')
    (hprint : printArgsOption (printStd u v.page).1 args (printStd u v.page).2 = some page)
    : Gives (readSubst p) (v.setInput (chr 'S' :: chr 't' :: (u.encode ++ (encodeArgs args ++ s)))) ()
        ((v.setPage page).setInput s) := by
  apply Util.Yields.bind (failAtEnd_cons (by decide) _)
  apply Util.Evaluates.bind (peekHash_evals (by simp))
  rintro hash _ ⟨⟨signed, rfl⟩, rfl⟩
  have hhash : lookupHash stdAbbreviations (simpleHash signed (chr 'S') (chr 't')) = none
      ∧ simpleHash signed (chr 'S') (chr 't') = codeHash "St" := by
    revert signed
    decide
  rw [List.headD_cons, List.getD_cons_succ, List.getD_cons_zero, hhash.1]
  dsimp only
  rw [if_pos hhash.2]
  exact readSubstStd_gives hn htypes h hv hs hprint

theorem pushAbbreviation_gives {e : String × String × Option String} (he : e ∈ stdAbbreviations)
    : Gives (modify fun d => { d with lastSname := (e.2.2.map fun s => .literal (ascii s)).or d.lastSname })
        (v.push (lit e.2.1)) () (v.setPage (v.page.pushAbbreviation e)) := by
  apply Util.Evaluates.modify
  intro d hd
  have hsname (s : { s : CString // s.strlen ≠ 0 })
      (hs : ((e.2.2.bind Page.ofLiteral).or v.page.sname) = some s)
      : (((e.2.2.map fun s => Sname.literal (ascii s)).or d.lastSname).bind (snameText d.outputs))
          = some s.1.bytes := by
    cases hname : e.2.2 with
    | none =>
      rw [hname] at hs
      exact hd.sname s hs
    | some name =>
      rcases ofLiteral_abbreviation he hname with ⟨s', hs', hbytes⟩
      rw [hname, Option.bind_some, hs'] at hs
      cases hs
      rw [hbytes]
      rfl
  exact { hd with sname := hsname }

theorem readSubstStdtmpl_gives {args : List Ty} {str : List Byte} (hstr : ∀ b ∈ str, b ≠ 0)
    (htypes : validTypes args = true) (h : ∀ t ∈ args, ReadsType p t) (hn : args.length ≤ tries)
    (hv : v.refQualifier = false) (hprint : printArgs args v.page = some page)
    : Gives (readSubstStdtmpl p str) (v.setInput (encodeArgs args ++ s)) ()
        ((v.setPage (page.addSubst (.concat [copyString str str.length, page.since v.page.output.length]))).setInput
          s) := by
  have hprints := prints_printArgs args hprint
  have hname (t : CString) : copyString (str ++ t.bytes) (str.length + t.strlen)
      = .concat [copyString str str.length, t] := by
    apply CString.ext
    have hlength : str.length + t.strlen = (str ++ t.bytes).length := List.length_append.symm
    have hnonzero : ∀ b ∈ str ++ t.bytes, b ≠ 0 := by
      intro b hb
      rcases List.mem_append.1 hb with hb | hb
      . exact hstr b hb
      . exact t.nonzero b hb
    rw [hlength, bytes_copyString_of_nonzero hnonzero]
    simp [bytes_copyString_of_nonzero hstr]
  apply Util.Evaluates.get_bind
  intro d hd
  have houtput : d.curOutput = v.output := hd.curOutput
  rw [houtput]
  apply Util.Yields.bind (outputSize_gives (v := v.setInput _))
  apply Util.Yields.bind (readTmplArgs_gives htypes h hn hv hprint)
  apply Util.Yields.bind (outputSubstr_gives (v := (v.setPage page).setInput s) hprints.length)
  apply Util.Yields.bind (failIfNone_gives rfl)
  apply Util.Evaluates.bind malloc_evals
  rintro a _ rfl
  dsimp only
  rw [hname]
  have hsince : (CString.concat [page.since v.page.output.length]).strlen ≠ 0 := by
    rw [concat_singleton]
    exact hprints.strlen_since
  have hlen : (CString.concat ([copyString str str.length] ++ [page.since v.page.output.length])).strlen ≠ 0 :=
    strlen_append_ne_zero (.inr hsince)
  apply Util.Yields.bind (failIf_gives hlen)
  exact addSubst_gives _

theorem readSubst_abbreviation {e : String × String × Option String} (he : e ∈ stdAbbreviations)
    {args : List Ty} (hn : args.length ≤ tries) (htypes : validTypes args = true)
    (h : ∀ t ∈ args, ReadsType p t) (hv : v.refQualifier = false) (hs : args = [] → s.headD 0 ≠ chr 'I')
    (hprint : printArgsOption [lit e.2.1] args (v.page.pushAbbreviation e) = some page)
    : Gives (readSubst p) (v.setInput (ascii e.1 ++ (encodeArgs args ++ s))) () ((v.setPage page).setInput s) := by
  rcases stdAbbreviation_code he with ⟨y, hcode, hhash, hlookup⟩
  have hname : ascii e.2.1 ≠ [] := by
    intro hnil
    apply strlen_abbreviation he
    rw [lit, hnil]
    rfl
  rw [hcode]
  have hS : ([chr 'S', y] ++ (encodeArgs args ++ s)).headD 0 ≠ 0 := (by decide : chr 'S' ≠ 0)
  apply Util.Yields.bind (failAtEnd_gives hS)
  apply Util.Evaluates.bind (peekHash_evals (s := [chr 'S', y] ++ (encodeArgs args ++ s)) (by simp))
  rintro hash _ ⟨⟨signed, rfl⟩, rfl⟩
  have hash : simpleHash signed (([chr 'S', y] ++ (encodeArgs args ++ s)).headD 0)
      (([chr 'S', y] ++ (encodeArgs args ++ s)).getD 1 0) = codeHash e.1 := hhash signed
  rw [hash, hlookup]
  apply Util.Yields.bind (demPushStr_gives hname)
  apply Util.Yields.bind (pushAbbreviation_gives (v := v.setInput _) he)
  apply Util.Yields.bind (advance_append (v := v.setPage (v.page.pushAbbreviation e)) [chr 'S', y] _)
  apply Util.Yields.bind peek_gives
  cases args with
  | nil =>
    rw [printArgsOption] at hprint
    cases hprint
    exact doIf_of_neg (hs rfl)
  | cons t ts =>
    rw [printArgsOption_cons] at hprint
    rcases Option.map_eq_some_iff.1 hprint with ⟨page', hargs, rfl⟩
    have heq : (encodeArgs (t :: ts) ++ s).headD 0 = chr 'I' := by
      rw [encodeArgs_cons]
      rfl
    have hnonzero : ∀ e ∈ stdAbbreviations, (ascii e.2.1).all (· != 0) := by decide
    have hstr (b : Byte) (hb : b ∈ ascii e.2.1) : b ≠ 0 := by
      simpa using List.all_eq_true.1 (hnonzero e he) b hb
    rw [doIf, if_pos heq]
    exact readSubstStdtmpl_gives (v := v.setPage (v.page.pushAbbreviation e)) hstr htypes h hn hv hargs

-- `p` reads the types with a short encoding
def Reads (p : Parsers) (k : Nat) : Prop :=
  ∀ t : Ty, t.valid = true → t.encode.length < k → ReadsType p t

theorem Reads.mono {k k' : Nat} (h : Reads p k) (hk : k' ≤ k) : Reads p k' :=
  fun t ht hlt => h t ht (Nat.lt_of_lt_of_le hlt hk)

theorem valid_of_mem (hts : validTypes ts = true) (ht : t ∈ ts) : t.valid = true := by
  induction ts with
  | nil => cases ht
  | cons t' ts ih =>
    rw [validTypes, Bool.and_eq_true] at hts
    rcases List.mem_cons.1 ht with rfl | ht
    . exact hts.1
    . exact ih hts.2 ht

theorem length_encode_le_of_mem (ht : t ∈ ts) : t.encode.length ≤ (encodeTypes ts).length := by
  induction ts with
  | nil => cases ht
  | cons t' ts ih =>
    rw [encodeTypes, List.length_append]
    rcases List.mem_cons.1 ht with rfl | ht
    . exact Nat.le_add_right _ _
    . exact Nat.le_trans (ih ht) (Nat.le_add_left _ _)

theorem length_encode_lt_of_mem {args : List Ty} (ht : t ∈ args)
    : t.encode.length < (encodeArgs args).length := by
  cases args with
  | nil => cases ht
  | cons t' ts =>
    have hle := length_encode_le_of_mem ht
    rw [encodeTypes] at hle
    simp only [encodeArgs, List.length_cons, List.length_append] at hle ⊢
    omega

theorem Reads.args {k : Nat} {args : List Ty} (h : Reads p k) (hk : (encodeArgs args).length ≤ k)
    (hvalid : validTypes args = true) : ∀ t ∈ args, ReadsType p t :=
  fun t ht => h t (valid_of_mem hvalid ht) (Nat.lt_of_lt_of_le (length_encode_lt_of_mem ht) hk)

-- the part that comes next in a nested name
theorem readNestedPart_gives {part : Part} (hvalid : part.valid = true) (h : Reads p part.encode.length)
    (hv : v.refQualifier = false) (hs : part.isStdOnly = true → s.headD 0 ≠ chr 'I')
    (hprint : part.print v.page = some page)
    : Gives (readNestedPart p) (v.setInput (part.encode ++ s)) () ((v.setPage page).setInput s) := by
  apply Util.Yields.bind peek_gives
  cases part with
  | unqualified u =>
    have hstart := u.isUnqualifiedStart_headD s
    rw [Part.print] at hprint
    cases hprint
    rw [Part.encode, if_neg (ne_of_isUnqualifiedStart hstart rfl), if_neg (ne_of_isUnqualifiedStart hstart rfl),
      if_neg (ne_of_isUnqualifiedStart hstart rfl)]
    exact readUqname_gives p u s
  | std u ts =>
    rw [Part.print] at hprint
    rw [Part.valid, Bool.and_eq_true, decide_eq_true_eq] at hvalid
    have hlength : (encodeArgs ts).length ≤ (Part.std u ts).encode.length := by
      simp only [Part.encode, List.length_cons, List.length_append]
      omega
    have hne : ts = [] → s.headD 0 ≠ chr 'I' := by
      rintro rfl
      exact hs rfl
    have hsubst := readSubst_std hvalid.1 hvalid.2 ((h.mono hlength).args (Nat.le_refl _) hvalid.2) hv hne hprint
    have hinput : (Part.std u ts).encode ++ s = chr 'S' :: chr 't' :: (u.encode ++ (encodeArgs ts ++ s)) := by
      simp [Part.encode]
    rw [hinput]
    exact hsubst
  | abbreviation e he ts =>
    rw [Part.print] at hprint
    rw [Part.valid, Bool.and_eq_true, decide_eq_true_eq] at hvalid
    have hlength : (encodeArgs ts).length ≤ (Part.abbreviation e he ts).encode.length := by
      rw [Part.encode, List.length_append]
      exact Nat.le_add_left _ _
    have hne : ts = [] → s.headD 0 ≠ chr 'I' := by
      rintro rfl
      exact hs rfl
    have hsubst := readSubst_abbreviation he hvalid.1 hvalid.2 (h.args hlength hvalid.2) hv hne hprint
    rw [Part.headD_abbreviation, if_neg (by decide), if_pos rfl, Part.encode, List.append_assoc]
    exact hsubst
  | args ts =>
    rw [Part.print] at hprint
    rw [Part.valid, Bool.and_eq_true, Bool.and_eq_true, decide_eq_true_eq] at hvalid
    have hread := readTmplArgs_gives (s := s) hvalid.2 (h.args (Nat.le_refl _) hvalid.2) hvalid.1.2 hv hprint
    cases ts with
    | nil =>
      rw [printArgs] at hprint
      cases hprint
    | cons t ts =>
      rw [Part.encode] at *
      rw [encodeArgs_cons] at *
      exact hread
  | subst i =>
    rw [Part.print] at hprint
    exact readSubst_number hvalid hprint s
  | param i =>
    rw [Part.print] at hprint
    exact readTmplParam_gives hvalid hprint s
  | ctorDtor e he =>
    rw [Part.print] at hprint
    rcases Option.map_eq_some_iff.1 hprint with ⟨name, hname, rfl⟩
    have hhead : ∀ e ∈ ctorDtorNames, (ascii e.1).headD 0 ≠ chr 'I' ∧ (ascii e.1).headD 0 ≠ chr 'S'
        ∧ (ascii e.1).headD 0 ≠ chr 'T' := by
      decide
    obtain ⟨hI, hS, hT⟩ := hhead e he
    rw [Part.encode, headD_append (ctorDtor_headD he).1, if_neg hI, if_neg hS, if_neg hT]
    exact readUqname_ctorDtor p he hname s

-- one round of the loop up to what comes behind the part
theorem readNestedLoop_cons {part : Part} {u : VectorStr} {strs : List CString} {n : Nat}
    {post : Unit → View → Prop} (hu : Holds u strs) (hvalid : part.valid = true)
    (h : Reads p part.encode.length) (hv : v.refQualifier = false)
    (hs : part.isStdOnly = true → s.headD 0 ≠ chr 'I') (hprint : part.print v.page = some page)
    (hnext : ∀ w, Holds w (strs ++ [page.since v.page.output.length]) → Evals (do
      let c ← peek
      if c = chr 'E' then
        advance 1
      else if isScopeStart c then
        demPushStr (ascii "::")
        let w ← vecPushStr w (ascii "::")
        readNestedLoop p v.output n w
      else
        readNestedLoop p v.output n w)
      ((v.setPage (page.addSubst (.concat (strs ++ [page.since v.page.output.length])))).setInput s) post)
    : Evals (readNestedLoop p v.output (n + 1) u) (v.setInput (part.encode ++ s)) post := by
  have hprints := part.prints hprint
  have hne : v.page.output.length ≠ page.output.length := Nat.ne_of_lt hprints.length
  rw [readNestedLoop]
  apply Util.Yields.bind (outputSize_gives (v := v.setInput (part.encode ++ s)))
  apply Util.Yields.bind (readNestedPart_gives hvalid h hv hs hprint)
  apply Util.Yields.bind (outputSize_gives (v := (v.setPage page).setInput s))
  have hpart : Evals (pushNestedPart v.output v.page.output.length page.output.length u)
      ((v.setPage page).setInput s) fun w v' => Holds w (strs ++ [page.since v.page.output.length])
        ∧ v' = (v.setPage (page.addSubst (.concat (strs ++ [page.since v.page.output.length])))).setInput s := by
    unfold pushNestedPart
    rw [if_neg hne]
    apply pushSubstPart_evals (v := (v.setPage page).setInput s) hu hprints.length
    apply strlen_append_ne_zero
    right
    rw [concat_singleton]
    exact hprints.strlen_since
  apply Util.Evaluates.bind hpart
  rintro w _ ⟨hw, rfl⟩
  have hcond (c : Byte) : (c ≠ chr 'I' ∧ c ≠ chr 'C' ∧ c ≠ chr 'D' ∧ v.page.output.length ≠ page.output.length)
      ↔ isScopeStart c := by
    simp [isScopeStart, hne]
  simp only [View.setInput, View.setPage, hcond]
  exact hnext w hw

theorem validParts_cons {part : Part} {parts : List Part} (h : validParts (part :: parts) = true)
    : part.valid = true ∧ (part.isStdOnly = true → parts.head?.any Part.isArgs = false)
        ∧ validParts parts = true := by
  rw [validParts, Bool.and_eq_true, Bool.and_eq_true, Bool.not_eq_true', Bool.and_eq_false_iff] at h
  refine ⟨h.1.1, ?_, h.2⟩
  intro hstd
  rcases h.1.2 with hfalse | hargs
  . rw [hstd] at hfalse
    cases hfalse
  . exact hargs

theorem readNestedLoop_gives {part : Part} {parts : List Part} {u : VectorStr} {strs : List CString} {n : Nat}
    (hu : Holds u strs) (hvalid : validParts (part :: parts) = true)
    (h : Reads p (encodeParts (part :: parts)).length) (hn : (part :: parts).length ≤ n)
    (hv : v.refQualifier = false) (hprint : printParts strs (part :: parts) v.page = some page)
    : Gives (readNestedLoop p v.output n u) (v.setInput (encodeParts (part :: parts) ++ chr 'E' :: s)) ()
        ((v.setPage page).setInput s) := by
  induction parts generalizing part u strs n v with
  | nil =>
    cases n with
    | zero => cases hn
    | succ n =>
    obtain ⟨hpart, _, _⟩ := validParts_cons hvalid
    rw [printParts] at hprint
    rcases Option.bind_eq_some_iff.1 hprint with ⟨page₁, hprint₁, hprint⟩
    dsimp only at hprint
    rw [pushScope_nil, printParts_nil] at hprint
    cases hprint
    rw [encodeParts, encodeParts, List.append_nil] at *
    have hE : (chr 'E' :: s).headD 0 ≠ chr 'I' := (by decide : chr 'E' ≠ chr 'I')
    apply readNestedLoop_cons hu hpart h hv (fun _ => hE) hprint₁
    intro w hw
    apply Util.Yields.bind peek_gives
    exact skip_gives _ s
  | cons part' parts ih =>
    cases n with
    | zero => cases hn
    | succ n =>
    obtain ⟨hpart, hstd, hparts⟩ := validParts_cons hvalid
    obtain ⟨hpart', _, _⟩ := validParts_cons hparts
    rw [printParts] at hprint
    rcases Option.bind_eq_some_iff.1 hprint with ⟨page₁, hprint₁, hprint⟩
    have hle : part.encode.length ≤ (encodeParts (part :: part' :: parts)).length := by
      rw [encodeParts, List.length_append]
      exact Nat.le_add_right _ _
    have hle' : (encodeParts (part' :: parts)).length ≤ (encodeParts (part :: part' :: parts)).length := by
      rw [encodeParts.eq_def (part :: part' :: parts), List.length_append]
      exact Nat.le_add_left _ _
    have hnext (hstd' : part.isStdOnly = true)
        : (encodeParts (part' :: parts) ++ chr 'E' :: s).headD 0 ≠ chr 'I' :=
      headD_encodeParts_ne (hstd hstd') s
    rw [encodeParts, List.append_assoc]
    apply readNestedLoop_cons hu hpart (h.mono hle) hv hnext hprint₁
    intro w hw
    have hE : (encodeParts (part' :: parts) ++ chr 'E' :: s).headD 0 ≠ chr 'E' := by
      rw [encodeParts, List.append_assoc]
      exact part'.headD_ne hpart' _
    have hscope : isScopeStart ((encodeParts (part' :: parts) ++ chr 'E' :: s).headD 0)
        ↔ part'.isUnqualified = true := by
      rw [encodeParts, List.append_assoc]
      exact part'.isScopeStart_headD hpart' _
    apply Util.Yields.bind peek_gives
    rw [if_neg hE]
    dsimp only at hprint
    split
    . next hstart =>
      rw [pushScope_of_isUnqualified (hscope.1 hstart)] at hprint
      apply Util.Yields.bind (demPushStr_gives (by decide))
      apply Util.Evaluates.bind (vecPush_evals hw (ascii "::") (ascii "::").length)
      rintro w' _ ⟨hw', rfl⟩
      exact ih (v := (v.setPage _).push (lit "::")) hw' hparts (h.mono hle') (Nat.le_of_succ_le_succ hn) hv hprint
    . next hstart =>
      rw [pushScope_of_not_isUnqualified (Bool.eq_false_iff.2 fun h => hstart (hscope.2 h))] at hprint
      exact ih (v := v.setPage _) hw hparts (h.mono hle') (Nat.le_of_succ_le_succ hn) hv hprint

theorem mem_encodeIf {c : Bool} {code : Char} {b : Byte} (h : b ∈ encodeIf c code) : b = chr code := by
  cases c with
  | false => cases h
  | true => exact List.mem_singleton.1 h

theorem contains_encodeIf (c : Bool) (code x : Char)
    : (encodeIf c code).contains (chr x) = (c && chr x == chr code) := by
  cases c <;> simp [encodeIf, beq_eq_decide]

theorem memQualifiers_encode (q : MemQualifiers)
    : (∀ b ∈ q.encode, isMemQualifier b = true)
        ∧ q = ⟨q.encode.contains (chr 'r'), q.encode.contains (chr 'V'), q.encode.contains (chr 'K'),
          q.encode.contains (chr 'R'), q.encode.contains (chr 'O')⟩ := by
  constructor
  . intro b hb
    simp only [MemQualifiers.encode, List.mem_append] at hb
    rcases hb with (((hb | hb) | hb) | hb) | hb <;> cases mem_encodeIf hb <;> rfl
  . simp only [MemQualifiers.encode, List.contains_append, contains_encodeIf]
    simp [chr]

theorem readMemQualifiers_gives (q : MemQualifiers) (hs : isMemQualifier (s.headD 0) = false)
    : Gives readMemQualifiers (v.setInput (q.encode ++ s)) () ((v.setPage (v.page.addMem q)).setInput s) := by
  obtain ⟨hmem, hq⟩ := memQualifiers_encode q
  have hstop (b : Byte) (hb : s.head? = some b) : isMemQualifier b = false := by
    rw [List.headD_eq_head?_getD, hb] at hs
    exact hs
  obtain ⟨htake, hdrop⟩ := takeWhile_append_stop hmem hstop
  have hskip := skipWhile_gives (v := v) (s := q.encode ++ s) isMemQualifier
  rw [htake, hdrop] at hskip
  apply Util.Yields.bind hskip
  apply Util.Evaluates.modify
  intro d hd
  have hmem₀ : ⟨d.memRst, d.memVat, d.memCst, d.memRef, d.memRref⟩ = v.page.mem := hd.mem
  have hmem' : (v.page.addMem q).mem
      = ⟨d.memRst || q.encode.contains (chr 'r'), d.memVat || q.encode.contains (chr 'V'),
        d.memCst || q.encode.contains (chr 'K'), d.memRef || q.encode.contains (chr 'R'),
        d.memRref || q.encode.contains (chr 'O')⟩ := by
    show (⟨v.page.mem.rst || q.rst, v.page.mem.vat || q.vat, v.page.mem.cst || q.cst, v.page.mem.ref || q.ref,
      v.page.mem.rref || q.rref⟩ : MemQualifiers) = _
    rw [← hmem₀, congrArg MemQualifiers.rst hq, congrArg MemQualifiers.vat hq, congrArg MemQualifiers.cst hq,
      congrArg MemQualifiers.ref hq, congrArg MemQualifiers.rref hq]
  exact { hd with mem := hmem'.symm }

theorem readStdName_gives {u : Unqualified} {args : List Ty} (hvalid : (Name.std u args).valid = true)
    (h : Reads p (Name.std u args).encode.length) (hv : v.refQualifier = false) (hs : s.headD 0 ≠ chr 'I')
    (hprint : (Name.std u args).print v.page = some page)
    : Gives (readSubst p) (v.setInput ((Name.std u args).encode ++ s)) () ((v.setPage page).setInput s) := by
  rw [Name.print] at hprint
  rw [Name.valid, Bool.and_eq_true, decide_eq_true_eq] at hvalid
  have hlength : (encodeArgs args).length ≤ (Name.std u args).encode.length := by
    simp only [Name.encode, List.length_cons, List.length_append]
    omega
  have hinput : (Name.std u args).encode ++ s = chr 'S' :: chr 't' :: (u.encode ++ (encodeArgs args ++ s)) := by
    simp [Name.encode]
  rw [hinput]
  exact readSubst_std hvalid.1 hvalid.2 (h.args hlength hvalid.2) hv (fun _ => hs) hprint

theorem readAbbreviation_gives {e : String × String × Option String} {he : e ∈ stdAbbreviations}
    {args : List Ty} (hvalid : (Name.abbreviation e he args).valid = true)
    (h : Reads p (Name.abbreviation e he args).encode.length) (hv : v.refQualifier = false)
    (hs : s.headD 0 ≠ chr 'I') (hprint : (Name.abbreviation e he args).print v.page = some page)
    : Gives (readSubst p) (v.setInput ((Name.abbreviation e he args).encode ++ s)) ()
        ((v.setPage page).setInput s) := by
  rw [Name.print] at hprint
  rw [Name.valid, Bool.and_eq_true, decide_eq_true_eq] at hvalid
  have hlength : (encodeArgs args).length ≤ (Name.abbreviation e he args).encode.length := by
    rw [Name.encode, List.length_append]
    exact Nat.le_add_left _ _
  rw [Name.encode, List.append_assoc]
  exact readSubst_abbreviation he hvalid.1 hvalid.2 (h.args hlength hvalid.2) hv (fun _ => hs) hprint

theorem readNestedName_gives {quals : MemQualifiers} {parts : List Part}
    (hvalid : (Name.nested quals parts).valid = true) (h : Reads p (encodeParts parts).length)
    (hv : v.refQualifier = false) (hprint : (Name.nested quals parts).print v.page = some page)
    : Gives (readNestedName p)
        (v.setInput (chr 'N' :: (quals.encode ++ (encodeParts parts ++ chr 'E' :: s)))) ()
        ((v.setPage page).setInput s) := by
  rw [Name.valid] at hvalid
  simp only [Bool.and_eq_true, Bool.not_eq_true', decide_eq_true_eq] at hvalid
  obtain ⟨⟨⟨hne, hoperator⟩, hn⟩, hparts⟩ := hvalid
  cases parts with
  | nil => cases hne
  | cons part parts =>
  obtain ⟨hpart, _, _⟩ := validParts_cons hparts
  rw [Name.print] at hprint
  have hhead : isMemQualifier ((encodeParts (part :: parts) ++ chr 'E' :: s).headD 0) = false := by
    rw [encodeParts, List.append_assoc]
    exact part.isMemQualifier_headD hpart hoperator _
  have hzero : (quals.encode ++ (encodeParts (part :: parts) ++ chr 'E' :: s)).headD 0 ≠ 0 := by
    cases hquals : quals.encode with
    | nil =>
      rw [encodeParts, List.nil_append, List.append_assoc]
      exact part.headD_ne_zero hpart _
    | cons b bs =>
      have hmem : isMemQualifier b = true := (memQualifiers_encode quals).1 b (hquals ▸ List.mem_cons_self)
      rintro rfl
      cases hmem
  apply Util.Yields.bind (expect_gives 'N' _)
  apply Util.Yields.bind (failAtEnd_gives hzero)
  apply Util.Yields.bind (readMemQualifiers_gives quals hhead)
  apply Util.Evaluates.get_bind
  intro d hd
  have houtput : d.curOutput = v.output := hd.curOutput
  rw [houtput]
  apply Util.Evaluates.bind vectorStrInit_evals
  rintro w _ ⟨hw, rfl⟩
  exact readNestedLoop_gives (v := v.setPage (v.page.addMem quals)) hw hparts h hn hv hprint

theorem ne_zero_of_isUnqualifiedStart {b : Byte} (hb : isUnqualifiedStart b = true) : b ≠ 0 := by
  rintro rfl
  cases hb

theorem readName_gives {n : Name} (hvalid : n.valid = true) (h : Reads p n.encode.length)
    (hv : v.refQualifier = false) (hs : s.headD 0 ≠ chr 'I') (hprint : n.print v.page = some page)
    : Gives (readName p) (v.setInput (n.encode ++ s)) () ((v.setPage page).setInput s) := by
  cases n with
  | source u args =>
    have htypes : validTypes args = true := by
      rw [Name.valid, Bool.and_eq_true] at hvalid
      exact hvalid.2
    have hlength : (encodeArgs args).length ≤ (Name.source u args).encode.length := by
      rw [Name.encode, List.length_append]
      exact Nat.le_add_left _ _
    have hread := readSourceName_gives hvalid (h.args hlength htypes) hv hs hprint
    have hstart := u.isUnqualifiedStart_headD (encodeArgs args ++ s)
    rw [Name.encode, List.append_assoc]
    apply Util.Yields.bind (failAtEnd_gives (ne_zero_of_isUnqualifiedStart hstart))
    apply Util.Yields.bind peek_gives
    rw [if_neg (ne_of_isUnqualifiedStart hstart rfl), if_neg (ne_of_isUnqualifiedStart hstart rfl),
      if_neg (ne_of_isUnqualifiedStart hstart rfl)]
    exact hread
  | std u args =>
    have hread := readStdName_gives hvalid h hv hs hprint
    apply Util.Yields.bind (failAtEnd_cons (by decide) _)
    apply Util.Yields.bind peek_gives
    exact hread
  | abbreviation e he args =>
    have hread := readAbbreviation_gives hvalid h hv hs hprint
    have hhead := Name.headD_abbreviation he args s
    have hzero : ((Name.abbreviation e he args).encode ++ s).headD 0 ≠ 0 := by
      rw [hhead]
      decide
    apply Util.Yields.bind (failAtEnd_gives hzero)
    apply Util.Yields.bind peek_gives
    rw [hhead]
    exact hread
  | nested quals parts =>
    have hlength : (encodeParts parts).length ≤ (Name.nested quals parts).encode.length := by
      simp only [Name.encode, List.length_cons, List.length_append]
      omega
    have hread := readNestedName_gives (s := s) hvalid (h.mono hlength) hv hprint
    have hinput : (Name.nested quals parts).encode ++ s
        = chr 'N' :: (quals.encode ++ (encodeParts parts ++ chr 'E' :: s)) := by
      simp [Name.encode]
    rw [hinput]
    apply Util.Yields.bind (failAtEnd_cons (by decide) _)
    apply Util.Yields.bind peek_gives
    exact hread

end Gnu3

end Demangle

end LibCxxRt
