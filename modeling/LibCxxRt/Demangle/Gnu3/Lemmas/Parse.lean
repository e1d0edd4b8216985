import LibCxxRt.Demangle.Gnu3.Lemmas.Extends

/-!
This module determines that the functions of the demangler that call each other keep to the discipline.
They go back to one another only behind the character that they started at.
-/

namespace LibCxxRt

namespace Demangle

namespace Gnu3

set_option synthInstance.maxSize 4000

class Parsers.Keeps (p : Parsers) (l k : Nat) : Prop where
  readTypeAgain (f : TypeFrame) : Gnu3.Keeps l k (p.readTypeAgain f)
  readEncoding : Gnu3.Keeps l k p.readEncoding
  readExpression : Gnu3.Keeps l k p.readExpression
  readName : Gnu3.Keeps l k p.readName

variable {l k : Nat} (p : Parsers)

instance [h : p.Keeps l k] (f : TypeFrame) : Keeps l k (p.readTypeAgain f) :=
  h.readTypeAgain f

instance [h : p.Keeps l k] : Keeps l k p.readEncoding :=
  h.readEncoding

instance [h : p.Keeps l k] : Keeps l k p.readExpression :=
  h.readExpression

instance [h : p.Keeps l k] : Keeps l k p.readName :=
  h.readName

instance Parsers.keeps_add [h : p.Keeps l k] (n : Nat) : p.Keeps l (k + n) where
  readTypeAgain f := (h.readTypeAgain f).from_le (Nat.le_add_right _ _)
  readEncoding := h.readEncoding.from_le (Nat.le_add_right _ _)
  readExpression := h.readExpression.from_le (Nat.le_add_right _ _)
  readName := h.readName.from_le (Nat.le_add_right _ _)

instance Parsers.keeps_succ [h : p.Keeps l (k + 1)] : p.Keeps l (k + 2) :=
  p.keeps_add 1

instance keeps_failAtEnd : Keeps l k failAtEnd := by
  unfold failAtEnd
  infer_instance

instance keeps_expect (c : Char) : Keeps l k (expect c) := by
  unfold expect
  infer_instance

instance (priority := 1500) keeps_expect_bind {α : Type} (c : Char) (f : Unit → P α)
    [Keeps l (k + 1) (f ())] : Keeps l k (expect c >>= f) := by
  unfold expect
  simp only [bind_assoc]
  infer_instance

instance keeps_peekHash : Keeps l k peekHash := by
  unfold peekHash
  infer_instance

instance keeps_delimit (td : TypeDelimit) : Keeps l k (delimit td) := by
  unfold delimit
  infer_instance

instance keeps_delimitOption (td : Option TypeDelimit) : Keeps l k (delimitOption td) := by
  cases td with
  | none =>
    rw [delimitOption]
    infer_instance
  | some td =>
    rw [delimitOption]
    infer_instance

section

variable [p.Keeps l k]

instance keeps_readType (td : Option TypeDelimit) : Keeps l k (readType p td) := by
  unfold readType
  infer_instance

instance keeps_readPlainType : Keeps l k (readPlainType p) := by
  unfold readPlainType
  infer_instance

instance keeps_readDelimitedType (td : TypeDelimit) : Keeps l k (readDelimitedType p td) := by
  unfold readDelimitedType
  infer_instance

instance keeps_readExpressionFlat : Keeps l k (readExpressionFlat p) := by
  unfold readExpressionFlat
  infer_instance

instance keeps_readArrayElement (dimension : List Byte) : Keeps l k (readArrayElement p dimension) := by
  unfold readArrayElement
  infer_instance

end

instance keeps_readArray [p.Keeps l (k + 1)] : Keeps l k (readArray p) := by
  unfold readArray
  infer_instance

instance keeps_readBool : Keeps l k readBool := by
  unfold readBool
  infer_instance

instance keeps_readIntegerLiteral : Keeps l k readIntegerLiteral := by
  unfold readIntegerLiteral
  infer_instance

instance keeps_readExprPrimary [p.Keeps l (k + 1)] : Keeps l k (readExprPrimary p) := by
  have (q : Prop) [Decidable q] {n : Nat} (s : List Byte)
      : Keeps l n ((if q then decodeFpToDouble else decodeFpToFloat80) s) := by
    split <;> infer_instance
  have (q : Prop) [Decidable q] {n : Nat} (s : List Byte)
      : Keeps l n ((if q then decodeFpToDouble else decodeFpToFloat128) s) := by
    split <;> infer_instance
  unfold readExprPrimary
  infer_instance

instance keeps_readSeqId : Keeps l k readSeqId := by
  unfold readSeqId
  infer_instance

instance keeps_readTmplParam : Keeps l k readTmplParam := by
  unfold readTmplParam
  infer_instance

instance keeps_readTmplArg [p.Keeps l k] : Keeps l k (readTmplArg p) := by
  unfold readTmplArg
  infer_instance

instance keeps_readTmplArgsLoop [p.Keeps l k] (output tries : Nat)
    : Keeps l k (readTmplArgsLoop p output tries) := by
  have := keeps_modify (l := l) (k := k + 1) (g := fun d => { d with isTmpl := true }) fun _ => rfl
  induction tries with
  | zero =>
    rw [readTmplArgsLoop]
    infer_instance
  | succ tries ih =>
    rw [readTmplArgsLoop]
    infer_instance

theorem vectorPush_eq_ok {α : Type} {v w : Util.Growable α} {a : α} {d d' : CppDemangleData}
    (h : vectorPush v a d = .ok (w, d')) : ∃ n, w.items = v.items ++ [a] ∧ Mallocs d d' n := by
  unfold vectorPush at h
  split at h
  . rcases Util.Prog.bind_eq_ok.1 h with ⟨addr, d₁, hmalloc, h⟩
    rcases Util.Prog.bind_eq_ok.1 h with ⟨u, d₂, hu, hw⟩
    obtain ⟨hresize, rfl⟩ := faultIfNone_eq_ok.1 hu
    obtain ⟨hpush, rfl⟩ := faultIfNone_eq_ok.1 hw
    refine ⟨1, ?_, (malloc_eq_ok hmalloc).2⟩
    rw [(Util.Growable.push_eq_some.1 hpush).1, (Util.Growable.resize_eq_some.1 hresize).1]
  . obtain ⟨hpush, rfl⟩ := faultIfNone_eq_ok.1 h
    exact ⟨0, (Util.Growable.push_eq_some.1 hpush).1, .refl _⟩

theorem vectorReadCmdPush_eq_ok {item : ReadCmdItem} {u : Unit} {d d' : CppDemangleData}
    (h : vectorReadCmdPush item d = .ok (u, d'))
    : ∃ n w, w.items = d.cmd.items ++ [item] ∧ d' = { d with cmd := w, mallocs := d.mallocs + n } := by
  unfold vectorReadCmdPush at h
  rcases Util.Prog.bind_eq_ok.1 h with ⟨e, d₁, hget, h⟩
  cases hget
  rcases Util.Prog.bind_eq_ok.1 h with ⟨w, d₂, hpush, hset⟩
  rcases vectorPush_eq_ok hpush with ⟨n, hw, hn⟩
  cases hset
  refine ⟨n, w, hw, ?_⟩
  rw [hn]

theorem vectorReadCmdPop_eq_ok {u : Unit} {d d' : CppDemangleData}
    (h : vectorReadCmdPop d = .ok (u, d')) : d' = { d with cmd := d.cmd.pop } := by
  unfold vectorReadCmdPop at h
  rcases Util.Prog.bind_eq_ok.1 h with ⟨e, d₁, hget, h⟩
  cases hget
  rcases Util.Prog.bind_eq_ok.1 h with ⟨v, d₂, hfail, hset⟩
  obtain ⟨_, rfl⟩ := failIf_eq_ok.1 hfail
  cases hset
  rfl

instance loose_vectorReadCmdPush (item : ReadCmdItem)
    : (discipline l).loose.Keeps k (vectorReadCmdPush item) := by
  have (w : Util.Growable ReadCmdItem) :=
    loose_modify (l := l) (k := k) (g := fun d => { d with cmd := w })
      fun _ => ⟨rfl, rfl⟩
  unfold vectorReadCmdPush
  infer_instance

instance loose_vectorReadCmdPop : (discipline l).loose.Keeps k vectorReadCmdPop := by
  have := loose_modify (l := l) (k := k) (g := fun d => { d with cmd := d.cmd.pop })
    fun _ => ⟨rfl, rfl⟩
  unfold vectorReadCmdPop
  infer_instance

instance keeps_readTmplArgList [p.Keeps l k] : Keeps l k (readTmplArgList p) := by
  unfold readTmplArgList
  infer_instance

instance keeps_readTmplArgs [p.Keeps l (k + 1)] : Keeps l k (readTmplArgs p) := by
  have : Keeps l (k + 1) (do
      vectorReadCmdPush ⟨.tmpl, none⟩
      readTmplArgList p
      vectorReadCmdPop) := by
    apply Util.Discipline.Keeps.bracket
    intro d _ d₁ _ d₂ _ d₃ _ hpush hbody hpop
    rcases vectorReadCmdPush_eq_ok hpush with ⟨n, w, hw, rfl⟩
    rw [vectorReadCmdPop_eq_ok hpop]
    have hcmd : d₂.cmd.pop.items = d.cmd.items := by
      rw [Util.Growable.items_pop, hbody.cmd]
      show w.items.dropLast = _
      rw [hw, List.dropLast_concat]
    have hmallocs : d.mallocs ≤ d₂.mallocs := Nat.le_trans (Nat.le_add_right _ _) hbody.mallocs
    exact { hbody with cmd := hcmd, mallocs := hmallocs }
  unfold readTmplArgs
  infer_instance

instance keeps_readUqname [p.Keeps l (k + 1)] : Keeps l k (readUqname p) := by
  unfold readUqname
  apply Util.Discipline.Keeps.seq keeps_failAtEnd
  intro _
  apply Util.Discipline.Keeps.seq keeps_peek
  intro c
  apply Util.Discipline.Keeps.seq keeps_peekHash
  intro hash
  split
  . infer_instance
  . cases lookupHash operatorNames hash with
    | some name => infer_instance
    | none =>
      cases lookupHash ctorDtorNames hash <;> infer_instance

instance keeps_pushSubstPart (output pIdx : Nat) (v : VectorStr) : Keeps l k (pushSubstPart output pIdx v) := by
  unfold pushSubstPart
  infer_instance

instance keeps_readNameTmplArgs [p.Keeps l (k + 1)] (output : Nat) (v : VectorStr)
    : Keeps l k (readNameTmplArgs p output v) := by
  unfold readNameTmplArgs
  infer_instance

instance keeps_readSubstStd [p.Keeps l (k + 1)] : Keeps l k (readSubstStd p) := by
  unfold readSubstStd
  infer_instance

instance keeps_readSubstStdtmpl [p.Keeps l (k + 1)] (str : List Byte)
    : Keeps l k (readSubstStdtmpl p str) := by
  unfold readSubstStdtmpl
  infer_instance

instance keeps_readSubst [p.Keeps l (k + 1)] : Keeps l k (readSubst p) := by
  unfold readSubst
  apply Util.Discipline.Keeps.seq keeps_failAtEnd
  intro _
  apply Util.Discipline.Keeps.seq keeps_peekHash
  intro hash
  cases lookupHash stdAbbreviations hash with
  | none => infer_instance
  | some e =>
    have := keeps_modify (l := l) (k := k)
      (g := fun d => { d with lastSname := (e.2.map fun s => .literal (ascii s)).or d.lastSname })
      fun _ => rfl
    infer_instance

instance keeps_readMemQualifiers : Keeps l k readMemQualifiers := by
  unfold readMemQualifiers
  apply Util.Discipline.Keeps.seq (keeps_skipWhile _)
  intro s
  apply keeps_modify
  intro d
  rfl

instance keeps_readNestedPart [p.Keeps l (k + 1)] : Keeps l k (readNestedPart p) := by
  unfold readNestedPart
  infer_instance

instance keeps_pushNestedPart (output pIdx size : Nat) (v : VectorStr)
    : Keeps l k (pushNestedPart output pIdx size v) := by
  unfold pushNestedPart
  infer_instance

instance keeps_readNestedLoop [p.Keeps l (k + 1)] (output tries : Nat) (v : VectorStr)
    : Keeps l k (readNestedLoop p output tries v) := by
  induction tries generalizing v with
  | zero =>
    rw [readNestedLoop]
    infer_instance
  | succ tries ih =>
    rw [readNestedLoop]
    infer_instance

instance keeps_readNestedName [p.Keeps l (k + 1)] : Keeps l k (readNestedName p) := by
  unfold readNestedName
  infer_instance

instance keeps_readLocalTypes [p.Keeps l k] (tries : Nat) (td : TypeDelimit) (moreType : Bool)
    : Keeps l k (readLocalTypes p tries td moreType) := by
  induction tries generalizing td moreType with
  | zero =>
    rw [readLocalTypes]
    infer_instance
  | succ tries ih =>
    rw [readLocalTypes]
    infer_instance

instance keeps_readReturnType [p.Keeps l k] : Keeps l k (readReturnType p) := by
  have := keeps_modify (l := l) (k := k) (g := fun d => { d with isTmpl := false }) fun _ => rfl
  unfold readReturnType
  infer_instance

theorem enterLocalName_eq_ok {i : Nat} {d d' : CppDemangleData} (h : enterLocalName d = .ok (i, d'))
    : ∃ n v, d' = { d with
      mallocs := d.mallocs + n, outputs := d.outputs ++ [v], curOutput := d.outputs.length } := by
  unfold enterLocalName vectorStrInit at h
  rcases Util.Prog.bind_eq_ok.1 h with ⟨v, d₁, hinit, h₁⟩
  rcases Util.Prog.bind_eq_ok.1 hinit with ⟨addr, d₂, hmalloc, hempty⟩
  cases hempty
  rcases Util.Prog.bind_eq_ok.1 h₁ with ⟨e, d₃, hget, h₂⟩
  cases hget
  cases h₂
  refine ⟨1, .empty Str VECTOR_DEF_CAPACITY, ?_⟩
  rw [(malloc_eq_ok hmalloc).2]

theorem leaveLocalName_eq_ok {i : Nat} {u : Unit} {d d' : CppDemangleData}
    (h : leaveLocalName i d = .ok (u, d'))
    : ∃ d₁ v, Extends d d₁ ∧ d' = { d₁ with outputs := d₁.outputs.dropLast.set 0 v } := by
  unfold leaveLocalName at h
  rcases Util.Prog.bind_eq_ok.1 h with ⟨dst, d₁, hdst, h₁⟩
  rcases Util.Prog.bind_eq_ok.1 h₁ with ⟨org, d₂, horg, h₂⟩
  rcases Util.Prog.bind_eq_ok.1 h₂ with ⟨v, d₃, hpush, h₃⟩
  cases h₃
  refine ⟨d₃, v, ?_, rfl⟩
  have h₀₁ := extends_of_ok (behind_self _) hdst
  have h₁₂ := extends_of_ok (behind_self _) horg
  have h₂₃ := extends_of_ok (behind_self _) hpush
  exact (h₀₁.trans h₁₂).trans h₂₃

instance loose_enterLocalName : (discipline l).loose.Keeps k enterLocalName := by
  have (v : VectorStr) (i : Nat) :=
    loose_modify (l := l) (k := k) (g := fun d => { d with outputs := d.outputs ++ [v], curOutput := i })
      fun _ => ⟨rfl, rfl⟩
  unfold enterLocalName
  infer_instance

instance loose_leaveLocalName (i : Nat) : (discipline l).loose.Keeps k (leaveLocalName i) := by
  have (v : VectorStr) :=
    loose_modify (l := l) (k := k) (g := fun d => { d with outputs := d.outputs.dropLast.set 0 v })
      fun _ => ⟨rfl, rfl⟩
  unfold leaveLocalName
  infer_instance

-- the vector for the local name is gone behind it, and the current output is the first one
instance keeps_readLocalFunction [p.Keeps l k] : Keeps l k (readLocalFunction p) := by
  have := loose_modify (l := l) (k := k) (g := fun d => { d with curOutput := 0 })
    fun _ => ⟨rfl, rfl⟩
  unfold readLocalFunction
  apply Util.Discipline.Keeps.bracket
  intro d i d₁ _ d₂ _ d₃ hk henter hbody hleave
  rcases enterLocalName_eq_ok henter with ⟨n, w, rfl⟩
  rcases Util.Prog.bind_eq_ok.1 hleave with ⟨_, d₄, hmodify, h₁⟩
  cases hmodify
  rcases Util.Prog.bind_eq_ok.1 h₁ with ⟨moreType, d₅, hret, h₂⟩
  rcases Util.Prog.bind_eq_ok.1 h₂ with ⟨_, d₆, hlast, hpure⟩
  cases hpure
  rcases leaveLocalName_eq_ok hlast with ⟨d₇, v, hd₇, rfl⟩
  have h := (extends_of_ok (d := { d₂ with curOutput := 0 }) hk hret).trans hd₇
  have hmallocs : d.mallocs ≤ d₇.mallocs := by
    apply Nat.le_trans (Nat.le_add_right d.mallocs n)
    exact Nat.le_trans hbody.mallocs h.mallocs
  have houtputs : (d₇.outputs.dropLast.set 0 v).length = d.outputs.length := by
    have hlength : d₂.outputs.length = d.outputs.length + 1 := by
      rw [hbody.outputs, List.length_append]
      rfl
    rw [List.length_set, List.length_dropLast, h.outputs, hlength]
    rfl
  have hcurOutput : d₇.curOutput = 0 := by
    rcases h.curOutput with h | h <;> exact h
  exact {
    env := h.env.trans hbody.env
    cur := Nat.le_trans hbody.cur h.cur
    mallocs := hmallocs
    subst := hbody.subst.trans h.subst
    tmpl := hbody.tmpl.trans h.tmpl
    cmd := h.cmd.trans hbody.cmd
    classType := h.classType.trans hbody.classType
    outputs := houtputs
    curOutput := .inr hcurOutput }

instance keeps_readEntity [p.Keeps l k] : Keeps l k (readEntity p) := by
  unfold readEntity
  infer_instance

instance keeps_readLocalName [p.Keeps l (k + 1)] : Keeps l k (readLocalName p) := by
  unfold readLocalName
  infer_instance

instance keeps_readSourceName [p.Keeps l (k + 1)] : Keeps l k (readSourceName p) := by
  unfold readSourceName
  infer_instance

instance keeps_readName [p.Keeps l (k + 1)] : Keeps l k (readName p) := by
  unfold readName
  infer_instance

instance keeps_setPushQualifier (q : PushQualifier) : Keeps l k (setPushQualifier q) := by
  apply keeps_modify
  intro _
  rfl

instance keeps_pushPointerToMember (nonCvQualifier : Bool) (rc : ReadCmdItem)
    : Keeps l k (pushPointerToMember nonCvQualifier rc) := by
  have := keeps_modify (l := l) (k := k) (g := fun d => { d with funcType := d.funcType + 1 }) fun _ => rfl
  unfold pushPointerToMember
  infer_instance

instance keeps_pushPointerToMemberOption (nonCvQualifier : Bool) (rc : Option ReadCmdItem)
    : Keeps l k (pushPointerToMemberOption nonCvQualifier rc) := by
  cases rc with
  | none =>
    rw [pushPointerToMemberOption]
    infer_instance
  | some rc =>
    rw [pushPointerToMemberOption]
    infer_instance

instance keeps_readFunctionArgs [p.Keeps l k] (tries : Nat) (td : TypeDelimit)
    : Keeps l k (readFunctionArgs p tries td) := by
  induction tries generalizing td with
  | zero =>
    rw [readFunctionArgs]
    infer_instance
  | succ tries ih =>
    rw [readFunctionArgs]
    infer_instance

instance keeps_pushRefQualifier : Keeps l k pushRefQualifier := by
  have := keeps_modify (l := l) (k := k) (g := fun d => { d with refQualifier := false }) fun _ => rfl
  unfold pushRefQualifier
  infer_instance

instance keeps_pushDeclarator (v : VectorTypeQualifier) : Keeps l k (pushDeclarator v) := by
  unfold pushDeclarator
  infer_instance

instance keeps_readFunctionType [p.Keeps l k] (v : VectorTypeQualifier)
    : Keeps l k (readFunctionType p v) := by
  have (b : Bool) := keeps_modify (l := l) (k := k) (g := fun d => { d with isFunctype := b }) fun _ => rfl
  unfold readFunctionType
  infer_instance

instance keeps_readFunction [p.Keeps l (k + 1)] (v : VectorTypeQualifier)
    : Keeps l k (readFunction p v) := by
  unfold readFunction
  infer_instance

instance keeps_readClassType [p.Keeps l k] : Keeps l k (readClassType p) := by
  unfold readClassType
  infer_instance

theorem pushClass_eq_ok {classType : CString} {v : VectorTypeQualifier} {u : Unit}
    {d d' : CppDemangleData} (h : pushClass classType v d = .ok (u, d'))
    : ∃ n cmd item types s, cmd.items = d.cmd.items ++ [item] ∧ types.items = d.classType.items ++ [s]
        ∧ d' = { d with cmd := cmd, classType := types, mallocs := d.mallocs + n } := by
  unfold pushClass at h
  rcases Util.Prog.bind_eq_ok.1 h with ⟨_, d₁, hcmd, h₁⟩
  rcases vectorReadCmdPush_eq_ok hcmd with ⟨m, cmd, hitems, rfl⟩
  rcases Util.Prog.bind_eq_ok.1 h₁ with ⟨_, d₂, hget, h₂⟩
  cases hget
  rcases Util.Prog.bind_eq_ok.1 h₂ with ⟨types, d₃, hpush, h₃⟩
  rcases vecPush_eq_ok hpush with ⟨n, htypes, hn⟩
  cases h₃
  refine ⟨m + (n + 1), cmd, _, types, _, hitems, htypes, ?_⟩
  rw [hn, Nat.add_assoc]

theorem popClass_eq_ok {u : Unit} {d d' : CppDemangleData} (h : popClass d = .ok (u, d'))
    : d' = { d with classType := d.classType.pop, cmd := d.cmd.pop } := by
  unfold popClass at h
  rcases Util.Prog.bind_eq_ok.1 h with ⟨_, d₁, hmodify, h₁⟩
  cases hmodify
  exact vectorReadCmdPop_eq_ok h₁

instance loose_pushClass (classType : CString) (v : VectorTypeQualifier)
    : (discipline l).loose.Keeps k (pushClass classType v) := by
  have (types : VectorStr) :=
    loose_modify (l := l) (k := k) (g := fun d => { d with classType := types })
      fun _ => ⟨rfl, rfl⟩
  unfold pushClass
  infer_instance

instance loose_popClass : (discipline l).loose.Keeps k popClass := by
  have := loose_modify (l := l) (k := k) (g := fun d => { d with classType := d.classType.pop })
    fun _ => ⟨rfl, rfl⟩
  unfold popClass
  infer_instance

instance keeps_readMemberType [p.Keeps l k] (classType : CString) : Keeps l k (readMemberType p classType) := by
  unfold readMemberType
  infer_instance

-- the stacks of the classes and of the commands are balanced
instance keeps_readMember [p.Keeps l k] (classType : CString) (v : VectorTypeQualifier)
    : Keeps l k (do
      pushClass classType v
      readMemberType p classType
      popClass) := by
  apply Util.Discipline.Keeps.bracket
  intro d _ d₁ _ d₂ _ d₃ _ hpush hbody hpop
  rcases pushClass_eq_ok hpush with ⟨n, cmd, item, types, s, hcmd, htypes, rfl⟩
  rw [popClass_eq_ok hpop]
  have hcmd' : d₂.cmd.pop.items = d.cmd.items := by
    rw [Util.Growable.items_pop, hbody.cmd]
    show cmd.items.dropLast = _
    rw [hcmd, List.dropLast_concat]
  have hclassType : d₂.classType.pop.items = d.classType.items := by
    rw [Util.Growable.items_pop, hbody.classType]
    show types.items.dropLast = _
    rw [htypes, List.dropLast_concat]
  have hmallocs : d.mallocs ≤ d₂.mallocs := Nat.le_trans (Nat.le_add_right _ _) hbody.mallocs
  exact { hbody with cmd := hcmd', classType := hclassType, mallocs := hmallocs }

instance keeps_readPointerToMember [p.Keeps l (k + 1)] (v : VectorTypeQualifier)
    : Keeps l k (readPointerToMember p v) := by
  have (classType : CString) : Keeps l (k + 1) (do
      pushClass classType v
      readMemberType p classType
      popClass
      vectorTypeQualifierInit) := by
    have h := Util.Discipline.Keeps.seq (keeps_readMember (l := l) (k := k + 1) p classType v)
      fun _ => keeps_vectorTypeQualifierInit
    simpa only [bind_assoc] using h
  unfold readPointerToMember
  infer_instance

instance keeps_pushSubstType (s : Option Flat) : Keeps l k (pushSubstType s) := by
  cases s with
  | none =>
    rw [pushSubstType]
    infer_instance
  | some s =>
    rw [pushSubstType]
    infer_instance

instance keeps_readTypeRtn (f : TypeFrame) (isBuiltin skipRefQualifier : Bool)
    : Keeps l k (readTypeRtn f isBuiltin skipRefQualifier) := by
  unfold readTypeRtn
  infer_instance

instance keeps_readBuiltin (f : TypeFrame) (name : String) : Keeps l k (readBuiltin f name) := by
  unfold readBuiltin
  infer_instance

instance keeps_readVoid (f : TypeFrame) : Keeps l k (readVoid f) := by
  unfold readVoid
  infer_instance

instance keeps_readTypeEnd (f : TypeFrame) : Keeps l k (readTypeEnd f) := by
  unfold readTypeEnd
  infer_instance

instance keeps_clearRefQualifier (c : Byte) : Keeps l k (clearRefQualifier c) := by
  have := keeps_modify (l := l) (k := k) (g := fun d => { d with refQualifier := false }) fun _ => rfl
  unfold clearRefQualifier
  infer_instance

section

variable [p.Keeps l (k + 1)]

instance keeps_readQualifier (f : TypeFrame) (t : TypeQualifier) : Keeps l k (readQualifier p f t) := by
  unfold readQualifier
  infer_instance

instance keeps_readReference (f : TypeFrame) (t : TypeQualifier) : Keeps l k (readReference p f t) := by
  have := keeps_modify (l := l) (k := k) (g := fun d => { d with refQualifier := true, refQualifierType := t })
    fun _ => rfl
  unfold readReference
  infer_instance

instance keeps_readVectorSize : Keeps l k (readVectorSize p) := by
  unfold readVectorSize
  infer_instance

instance keeps_readVectorType (f : TypeFrame) : Keeps l k (readVectorType p f) := by
  unfold readVectorType
  infer_instance

instance keeps_readTypeD (f : TypeFrame) : Keeps l k (readTypeD p f) := by
  unfold readTypeD
  apply Util.Discipline.Keeps.seq (keeps_advance _)
  intro _
  apply Util.Discipline.Keeps.seq keeps_peek
  intro c
  cases lookup builtinTypesD c <;> infer_instance

instance keeps_readVendorQualifier (f : TypeFrame) : Keeps l k (readVendorQualifier p f) := by
  unfold readVendorQualifier
  infer_instance

instance keeps_readTypeTmplArgs (f : TypeFrame) : Keeps l k (readTypeTmplArgs p f) := by
  unfold readTypeTmplArgs
  infer_instance

instance keeps_readCompound (v : VectorTypeQualifier) (c : Byte) : Keeps l k (readCompound p v c) := by
  unfold readCompound
  infer_instance

instance keeps_readCompoundType (f : TypeFrame) (c : Byte) : Keeps l k (readCompoundType p f c) := by
  unfold readCompoundType
  infer_instance

instance keeps_readTypeAgain (f : TypeFrame) : Keeps l k (readTypeAgain p f) := by
  unfold readTypeAgain
  apply Util.Discipline.Keeps.seq keeps_peek
  intro c
  apply Util.Discipline.Keeps.seq (keeps_clearRefQualifier c)
  intro _
  cases lookup builtinTypes c with
  | some name => infer_instance
  | none => cases lookup typeQualifiers c <;> infer_instance

instance keeps_readExpressionOperator (arity : Arity) (name : List Byte)
    : Keeps l (k + 1) (readExpressionOperator p arity name) := by
  unfold readExpressionOperator
  cases arity <;> infer_instance

instance keeps_readExpression : Keeps l k (readExpression p) := by
  unfold readExpression
  apply Util.Discipline.Keeps.seq keeps_failAtEnd
  intro _
  apply Util.Discipline.Keeps.seq keeps_peek
  intro c
  apply Util.Discipline.Keeps.seq keeps_peekHash
  intro hash
  cases lookupHash expressionOperators hash with
  | none => infer_instance
  | some e => infer_instance

end

instance keeps_flatten (read : P Unit) [Keeps l k read] : Keeps l k (flatten read) := by
  unfold flatten
  infer_instance

instance keeps_pushFlat (s : Flat) : Keeps l k (pushFlat s) := by
  unfold pushFlat
  infer_instance

section

variable [p.Keeps l (k + 1)]

instance keeps_readReferenceTemporary : Keeps l k (readReferenceTemporary p) := by
  unfold readReferenceTemporary
  infer_instance

instance keeps_readTransactionClone : Keeps l k (readTransactionClone p) := by
  unfold readTransactionClone
  infer_instance

instance keeps_readConstructionVtable : Keeps l k (readConstructionVtable p) := by
  unfold readConstructionVtable
  infer_instance

instance keeps_readSpecial (name : String) (read : P Unit) [Keeps l (k + 2) read]
    : Keeps l k (readSpecial name read) := by
  unfold readSpecial
  infer_instance

instance keeps_readThunk (name : String) (offset : P Unit) [Keeps l (k + 2) offset]
    : Keeps l k (readThunk p name offset) := by
  unfold readThunk
  infer_instance

instance keeps_readEncoding : Keeps l k (readEncoding p) := by
  unfold readEncoding
  apply Util.Discipline.Keeps.seq keeps_failAtEnd
  intro _
  apply Util.Discipline.Keeps.seq keeps_peekHash
  intro hash
  cases lookupHash specialTypeNames hash <;> infer_instance

end

end Gnu3

end Demangle

end LibCxxRt
