import LibCxxRt.Demangle.Gnu3.Lemmas.Parse

/-!
This module determines that the functions of the demangler keep to the discipline when they are put
together, with a bound for the depth of the recursion that the length of the mangled name gives, and what
that means for `__cxa_demangle_gnu3`.
-/

namespace LibCxxRt

namespace Demangle

namespace Gnu3

set_option synthInstance.maxSize 4000

theorem peek_of_lt {d : CppDemangleData} (h : d.env.org.strlen < d.cur)
    : peek d = .error (.stop .fault) := by
  have hread : d.env.org.read d.cur = none := by
    rw [CString.read, if_neg (Nat.ne_of_gt h), List.getElem?_eq_none (Nat.le_of_lt h)]
  show faultIfNone (d.env.org.read d.cur) d = _
  rw [hread]
  rfl

-- a function that looks at the cursor first does not get further behind the terminator
theorem keeps_of_peek {α : Type} {l k : Nat} (h : l < k) (f : Byte → P α) : Keeps l k (peek >>= f) where
  runs d hd := by
    have hlt : d.env.org.strlen < d.cur := Nat.lt_of_le_of_lt hd.1 (Nat.lt_of_lt_of_le h hd.2)
    rw [Util.Prog.bind_of_error (peek_of_lt hlt)]
    simp [discipline]

theorem keeps_of_failAtEnd {α : Type} {l k : Nat} (h : l < k) (f : Unit → P α)
    : Keeps l k (failAtEnd >>= f) := by
  unfold failAtEnd
  rw [bind_assoc]
  exact keeps_of_peek h _

theorem parsers_keeps (n : Nat) {l k : Nat} (h : l < k + n) : (parsers (n + 1)).Keeps l k := by
  induction n generalizing k with
  | zero =>
    exact {
      readTypeAgain := fun _ => keeps_of_peek h _
      readEncoding := keeps_of_failAtEnd h _
      readExpression := keeps_of_failAtEnd h _
      readName := keeps_of_failAtEnd h _ }
  | succ n ih =>
    have : (parsers (n + 1)).Keeps l (k + 1) := by
      apply ih
      omega
    exact {
      readTypeAgain := keeps_readTypeAgain _
      readEncoding := keeps_readEncoding _
      readExpression := keeps_readExpression _
      readName := keeps_readName _ }

/--
Between calls of the functions that `__cxa_demangle_gnu3` itself consists of.
-/
structure Tidy (d : CppDemangleData) : Prop where
  subst : Unprefixed (texts d.subst)
  tmpl : Unprefixed (texts d.tmpl)
  cmd : d.cmd.items = []
  classType : d.classType.items = []

theorem Tidy.of_extends {d d' : CppDemangleData} (h : Extends d d') (hd : Tidy d) : Tidy d' where
  subst := h.subst.unprefixed hd.subst
  tmpl := h.tmpl.unprefixed hd.tmpl
  cmd := h.cmd.trans hd.cmd
  classType := h.classType.trans hd.classType

theorem tidy_initial (env : Env) : Tidy (initial env) :=
  ⟨List.Pairwise.nil, List.Pairwise.nil, rfl, rfl⟩

-- the cursor is set here, so it does not count
def tidy (l : Nat) : Util.Discipline CppDemangleData Halt where
  behind _ d := d.env.org.strlen ≤ l
  rel d d' := d'.env = d.env ∧ (Tidy d → Tidy d')
  forbidden e := e = .stop .outOfFuel
  refl _ := ⟨rfl, id⟩
  trans h h' := ⟨h'.1.trans h.1, h'.2 ∘ h.2⟩
  behind_of_le _ h := h
  behind_of_rel h hd := h.1 ▸ hd

variable {l k : Nat}

instance tidy_of_keeps {α : Type} {m : P α} [h : Keeps l 0 m] : (tidy l).Keeps k m where
  runs := by
    apply Util.Discipline.Runs.intro
    . intro d a d' hd hm
      have hextends := h.runs.of_ok ⟨hd, Nat.zero_le _⟩ hm
      exact ⟨hextends.env, .of_extends hextends⟩
    . intro d e hd hm
      exact h.runs.of_error ⟨hd, Nat.zero_le _⟩ hm

theorem tidy_modify {g : CppDemangleData → CppDemangleData}
    (hg : ∀ d, (g d).env = d.env ∧ (Tidy d → Tidy (g d)))
    : (tidy l).Keeps k (modify g : P Unit) := by
  apply Util.Discipline.Keeps.modify
  exact hg

-- what is set is none of the tables and stacks
theorem tidy_modify_rest {g : CppDemangleData → CppDemangleData}
    (hg : ∀ d, ((g d).env, (g d).subst, (g d).tmpl, (g d).cmd, (g d).classType)
      = (d.env, d.subst, d.tmpl, d.cmd, d.classType))
    : (tidy l).Keeps k (modify g : P Unit) := by
  apply tidy_modify
  intro d
  have h := hg d
  simp only [Prod.mk.injEq] at h
  obtain ⟨henv, hsubst, htmpl, hcmd, hclass⟩ := h
  refine ⟨henv, ?_⟩
  intro hd
  constructor
  . rw [hsubst]
    exact hd.subst
  . rw [htmpl]
    exact hd.tmpl
  . rw [hcmd]
    exact hd.cmd
  . rw [hclass]
    exact hd.classType

instance tidy_dataInit (cur : Nat) : (tidy l).Keeps k (dataInit cur) := by
  have := tidy_modify_rest (l := l) (k := k) (g := fun d => { d with cur := cur }) fun _ => rfl
  unfold dataInit
  infer_instance

theorem Unprefixed.dropLast {strs : List CString} (h : Unprefixed strs) : Unprefixed strs.dropLast :=
  List.Pairwise.sublist (List.dropLast_sublist strs) h

instance tidy_popFunctionName : (tidy l).Keeps k popFunctionName := by
  have := tidy_modify (l := l) (k := k) (g := fun d => { d with subst := d.subst.pop }) (by
    intro d
    refine ⟨rfl, ?_⟩
    intro hd
    refine { hd with subst := ?_ }
    show Unprefixed (texts d.subst.pop)
    rw [texts, Util.Growable.items_pop, List.map_dropLast]
    exact hd.subst.dropLast)
  unfold popFunctionName doIf
  infer_instance

instance tidy_enterReturnType : (tidy l).Keeps k enterReturnType := by
  have := tidy_modify_rest (l := l) (k := k) (g := fun d => { d with isTmpl := false }) fun _ => rfl
  have (v : VectorStr) := tidy_modify_rest (l := l) (k := k)
    (g := fun d => { d with curOutput := d.outputs.length, outputs := d.outputs ++ [v] }) fun _ => rfl
  unfold enterReturnType
  infer_instance

instance tidy_pushReturnType : (tidy l).Keeps k pushReturnType := by
  have (v : VectorStr) := tidy_modify_rest (l := l) (k := k)
    (g := fun d => { d with curOutput := 0, outputs := [v] }) fun _ => rfl
  unfold pushReturnType
  infer_instance

instance keeps_pushOutputIf (c : Bool) (s : String) : Keeps l k (pushOutputIf c s) := by
  unfold pushOutputIf
  infer_instance

instance keeps_pushSuffixes (td : TypeDelimit) : Keeps l k (pushSuffixes td) := by
  unfold pushSuffixes
  infer_instance

instance tidy_demangleGlobal : (tidy l).Keeps k demangleGlobal := by
  unfold demangleGlobal
  infer_instance

section

variable (p : Parsers) [p.Keeps l 0]

instance tidy_readSignature (tries : Nat) (td : TypeDelimit) (hasRet moreType : Bool)
    : (tidy l).Keeps k (readSignature p tries td hasRet moreType) := by
  induction tries generalizing td hasRet moreType with
  | zero =>
    rw [readSignature]
    infer_instance
  | succ tries ih =>
    rw [readSignature]
    infer_instance

instance tidy_demangleType : (tidy l).Keeps k (demangleType p) := by
  unfold demangleType
  infer_instance

instance tidy_demangleEncoding : (tidy l).Keeps k (demangleEncoding p) := by
  unfold demangleEncoding
  infer_instance

end

end Gnu3

end Demangle

end LibCxxRt
