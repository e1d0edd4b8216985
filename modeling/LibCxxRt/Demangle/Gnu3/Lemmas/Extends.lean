import LibCxxRt.Demangle.Gnu3.Impl
import LibCxxRt.Demangle.Gnu3.Lemmas.Vector

/-!
This module contains what the functions of the demangler do to its state when they succeed, and that they
do not run out of fuel. Here are the functions that do not call each other.
-/

namespace LibCxxRt

namespace Demangle

namespace Gnu3

-- no string is the beginning of one before it
def Unprefixed (strs : List CString) : Prop :=
  strs.Pairwise fun s t => ¬ t.bytes <+: s.bytes

/--
Strings have been added behind the ones of `v`. Each of them is not the beginning of one that was there when it
was added.
-/
structure Table.Extends (v w : VectorStr) : Prop where
  isPrefix : v.items <+: w.items
  added : ∃ strs, texts w = texts v ++ strs ∧ Unprefixed strs
    ∧ ∀ s ∈ texts v, ∀ t ∈ strs, ¬ t.bytes <+: s.bytes

structure Extends (d d' : CppDemangleData) : Prop where
  env : d'.env = d.env
  cur : d.cur ≤ d'.cur
  mallocs : d.mallocs ≤ d'.mallocs
  subst : Table.Extends d.subst d'.subst
  tmpl : Table.Extends d.tmpl d'.tmpl
  cmd : d'.cmd.items = d.cmd.items
  classType : d'.classType.items = d.classType.items
  outputs : d'.outputs.length = d.outputs.length
  curOutput : d'.curOutput = d.curOutput ∨ d'.curOutput = 0

namespace Table.Extends

variable {u v w : VectorStr}

theorem refl (v : VectorStr) : Table.Extends v v where
  isPrefix := List.prefix_rfl
  added := ⟨[], (List.append_nil _).symm, .nil, fun _ _ _ ht => absurd ht List.not_mem_nil⟩

theorem trans (h : Table.Extends u v) (h' : Table.Extends v w) : Table.Extends u w where
  isPrefix := h.isPrefix.trans h'.isPrefix
  added := by
    rcases h.added with ⟨strs, hv, hstrs, hnew⟩
    rcases h'.added with ⟨strs', hw, hstrs', hnew'⟩
    rw [hv] at hw hnew'
    refine ⟨strs ++ strs', by rw [hw, List.append_assoc], ?_, ?_⟩
    . refine List.pairwise_append.2 ⟨hstrs, hstrs', ?_⟩
      intro s hs t ht
      exact hnew' s (List.mem_append_right _ hs) t ht
    . intro s hs t ht
      rcases List.mem_append.1 ht with ht | ht
      . exact hnew s hs t ht
      . exact hnew' s (List.mem_append_left _ hs) t ht

theorem unprefixed (h : Table.Extends v w) (hv : Unprefixed (texts v)) : Unprefixed (texts w) := by
  rcases h.added with ⟨strs, hw, hstrs, hnew⟩
  rw [hw]
  exact List.pairwise_append.2 ⟨hv, hstrs, hnew⟩

-- a string is added that is not found
theorem of_push {s : CString} {addr : Nat} (hw : w.items = v.items ++ [⟨addr, s⟩])
    (hs : vectorStrFind v s s.strlen = false) : Table.Extends v w where
  isPrefix := by
    rw [hw]
    apply List.prefix_append
  added := by
    refine ⟨[s], by simp [texts, hw], List.pairwise_singleton _ _, ?_⟩
    intro t ht u hu hprefix
    cases List.mem_singleton.1 hu
    have hfind := vectorStrFind_iff.2 ⟨t, ht, hprefix⟩
    rw [hs] at hfind
    cases hfind

end Table.Extends

namespace Extends

variable {d d' d'' : CppDemangleData}

theorem refl (d : CppDemangleData) : Extends d d :=
  ⟨rfl, Nat.le_refl _, Nat.le_refl _, .refl _, .refl _, rfl, rfl, rfl, .inl rfl⟩

theorem trans (h : Extends d d') (h' : Extends d' d'') : Extends d d'' where
  env := h'.env.trans h.env
  cur := Nat.le_trans h.cur h'.cur
  mallocs := Nat.le_trans h.mallocs h'.mallocs
  subst := h.subst.trans h'.subst
  tmpl := h.tmpl.trans h'.tmpl
  cmd := h'.cmd.trans h.cmd
  classType := h'.classType.trans h.classType
  outputs := h'.outputs.trans h.outputs
  curOutput := by
    rcases h'.curOutput with h' | h'
    . rw [h']
      exact h.curOutput
    . exact .inr h'

theorem of_mallocs {n : Nat} (h : Mallocs d d' n) : Extends d d' := by
  rw [h]
  exact { Extends.refl d with mallocs := Nat.le_add_right _ _ }

-- the fields that `Extends` is about
def tracked (d : CppDemangleData) :=
  (d.env, d.cur, d.mallocs, d.subst, d.tmpl, d.cmd, d.classType, d.outputs.length, d.curOutput)

theorem of_tracked (h : tracked d' = tracked d) : Extends d d' := by
  simp only [tracked, Prod.mk.injEq] at h
  obtain ⟨henv, hcur, hmallocs, hsubst, htmpl, hcmd, hclass, houtputs, hcurOutput⟩ := h
  refine ⟨henv, ?_, ?_, ?_, ?_, ?_, ?_, houtputs, .inl hcurOutput⟩
  . exact Nat.le_of_eq hcur.symm
  . exact Nat.le_of_eq hmallocs.symm
  . rw [hsubst]
    exact .refl _
  . rw [htmpl]
    exact .refl _
  . rw [hcmd]
  . rw [hclass]

end Extends

-- the mangled name is not longer than `l`
def discipline (l : Nat) : Util.Discipline CppDemangleData Halt where
  behind k d := d.env.org.strlen ≤ l ∧ k ≤ d.cur
  rel := Extends
  forbidden e := e = .stop .outOfFuel
  refl := Extends.refl
  trans := Extends.trans
  behind_of_le hk h := ⟨h.1, Nat.le_trans hk h.2⟩
  behind_of_rel h hk := ⟨h.env ▸ hk.1, Nat.le_trans hk.2 h.cur⟩

abbrev Keeps {α : Type} (l k : Nat) (m : P α) : Prop :=
  (discipline l).Keeps k m

variable {l k : Nat} {α : Type}

theorem behind_self (d : CppDemangleData) : (discipline d.env.org.strlen).behind d.cur d :=
  ⟨Nat.le_refl _, Nat.le_refl _⟩

theorem extends_of_ok {m : P α} [h : Keeps l k m] {d d' : CppDemangleData} {a : α}
    (hk : (discipline l).behind k d) (hm : m d = .ok (a, d')) : Extends d d' :=
  h.runs.of_ok hk hm

theorem keeps_modify {g : CppDemangleData → CppDemangleData}
    (hg : ∀ d, Extends.tracked (g d) = Extends.tracked d) : Keeps l k (modify g : P Unit) := by
  apply Util.Discipline.Keeps.modify
  intro d
  exact .of_tracked (hg d)

instance keeps_fail : Keeps l k (fail : P α) := by
  apply Util.Discipline.Keeps.throw
  simp [discipline]

theorem keeps_stop {s : Stop} (hs : s ≠ .outOfFuel) : Keeps l k (stop s : P α) := by
  apply Util.Discipline.Keeps.throw
  simp [discipline, hs]

instance keeps_failIf (c : Prop) [Decidable c] : Keeps l k (failIf c) := by
  unfold failIf
  infer_instance

theorem keeps_stopIf (c : Prop) [Decidable c] {s : Stop} (hs : s ≠ .outOfFuel)
    : Keeps l k (stopIf c s) := by
  have := keeps_stop (l := l) (k := k) (α := Unit) hs
  unfold stopIf
  infer_instance

instance keeps_stopIf_fault (c : Prop) [Decidable c] : Keeps l k (stopIf c .fault) := by
  apply keeps_stopIf
  simp

instance keeps_stopIf_assertion (c : Prop) [Decidable c] : Keeps l k (stopIf c .assertion) := by
  apply keeps_stopIf
  simp

instance keeps_doIf (c : Prop) [Decidable c] (m : P Unit) [Keeps l k m] : Keeps l k (doIf c m) := by
  unfold doIf
  infer_instance

instance keeps_failIfNone (o : Option α) : Keeps l k (failIfNone o) := by
  cases o with
  | none => exact keeps_fail
  | some a => exact Util.Discipline.Keeps.pure a

instance keeps_faultIfNone (o : Option α) : Keeps l k (faultIfNone o) := by
  cases o with
  | none =>
    apply keeps_stop
    simp
  | some a => exact Util.Discipline.Keeps.pure a

instance keeps_readAt (i : Nat) : Keeps l k (readAt i) := by
  unfold readAt
  infer_instance

instance keeps_peek : Keeps l k peek := by
  unfold peek
  infer_instance

instance keeps_peekAt (n : Nat) : Keeps l k (peekAt n) := by
  unfold peekAt
  infer_instance

theorem extends_advance (d : CppDemangleData) (n : Nat) : Extends d { d with cur := d.cur + n } :=
  { Extends.refl d with cur := Nat.le_add_right _ _ }

instance keeps_advance (n : Nat) : Keeps l k (advance n) := by
  apply Util.Discipline.Keeps.modify
  intro d
  exact extends_advance d n

instance (priority := 1500) keeps_advance_bind (n : Nat) (f : Unit → P α) [h : Keeps l (k + n) (f ())]
    : Keeps l k (advance n >>= f) := by
  apply Util.Discipline.Keeps.bind_forward (j := k + n) ?_ fun _ => h
  intro d _
  exact ⟨extends_advance d n, fun hk => ⟨hk.1, Nat.add_le_add_right hk.2 n⟩⟩

instance keeps_rest : Keeps l k rest := by
  unfold rest
  have := keeps_stop (l := l) (k := k) (α := List Byte) (s := .fault) (by simp)
  infer_instance

instance keeps_skipWhile (q : Byte → Bool) : Keeps l k (skipWhile q) := by
  unfold skipWhile
  infer_instance

instance keeps_skipTo (c : Char) : Keeps l k (skipTo c) := by
  unfold skipTo
  have := keeps_stop (l := l) (k := k) (α := List Byte) (s := .fault) (by simp)
  infer_instance

instance keeps_tryMalloc : Keeps l k tryMalloc := by
  unfold tryMalloc
  have : Keeps l k (modify fun d => { d with mallocs := d.mallocs + 1 } : P Unit) := by
    apply Util.Discipline.Keeps.modify
    intro d
    exact { Extends.refl d with mallocs := Nat.le_succ _ }
  infer_instance

instance keeps_malloc : Keeps l k malloc := by
  unfold malloc
  infer_instance

instance keeps_vectorStrInit : Keeps l k vectorStrInit := by
  unfold vectorStrInit
  infer_instance

instance keeps_vectorStrGrow (v : VectorStr) : Keeps l k (vectorStrGrow v) := by
  unfold vectorStrGrow
  dsimp only
  split
  . apply keeps_stop
    simp
  . apply Util.Discipline.Keeps.seq keeps_tryMalloc
    intro addr
    cases addr <;> infer_instance

instance keeps_ensureCapacity (v : VectorStr) : Keeps l k (ensureCapacity v) := by
  unfold ensureCapacity
  infer_instance

instance keeps_vectorStrPush (v : VectorStr) (str : List Byte) (len : Nat)
    : Keeps l k (vectorStrPush v str len) := by
  unfold vectorStrPush
  apply Util.Discipline.Keeps.seq (keeps_ensureCapacity v)
  intro w
  cases w with
  | none => infer_instance
  | some w =>
    apply Util.Discipline.Keeps.seq keeps_tryMalloc
    intro addr
    cases addr <;> infer_instance

instance keeps_vecPush (v : VectorStr) (str : List Byte) (len : Nat) : Keeps l k (vecPush v str len) := by
  unfold vecPush
  infer_instance

instance keeps_vecPushStr (v : VectorStr) (s : List Byte) : Keeps l k (vecPushStr v s) := by
  unfold vecPushStr
  infer_instance

instance keeps_vectorStrGetFlat (v : VectorStr) : Keeps l k (vectorStrGetFlat v) := by
  unfold vectorStrGetFlat
  split
  . infer_instance
  . apply Util.Discipline.Keeps.seq keeps_tryMalloc
    intro addr
    cases addr <;> infer_instance

instance keeps_strlen (s : Flat) : Keeps l k s.strlen := by
  unfold Flat.strlen
  split
  . infer_instance
  . apply keeps_stop
    simp

instance keeps_vectorStrSubstr (v : VectorStr) (begin : Nat) : Keeps l k (vectorStrSubstr v begin) := by
  unfold vectorStrSubstr
  split
  . apply Util.Discipline.Keeps.seq keeps_tryMalloc
    intro addr
    cases addr <;> infer_instance
  . split
    . infer_instance
    . apply Util.Discipline.Keeps.seq keeps_tryMalloc
      intro addr
      cases addr <;> infer_instance

instance keeps_strdupAll (strs : List Str) : Keeps l k (strdupAll strs) := by
  induction strs with
  | nil =>
    rw [strdupAll]
    infer_instance
  | cons s strs ih =>
    rw [strdupAll]
    infer_instance

instance keeps_vectorStrMerge (dst org : VectorStr) (merge : List Str → List Str → List Str)
    : Keeps l k (vectorStrMerge dst org merge) := by
  unfold vectorStrMerge
  infer_instance

instance keeps_vectorStrPushVector (dst org : VectorStr) : Keeps l k (vectorStrPushVector dst org) := by
  unfold vectorStrPushVector
  infer_instance

instance keeps_vectorStrPushVectorHead (dst org : VectorStr)
    : Keeps l k (vectorStrPushVectorHead dst org) := by
  unfold vectorStrPushVectorHead
  infer_instance

instance keeps_getOutput (i : Nat) : Keeps l k (getOutput i) := by
  unfold getOutput
  infer_instance

instance keeps_setOutput (i : Nat) (v : VectorStr) : Keeps l k (setOutput i v) := by
  unfold setOutput
  apply keeps_modify
  intro d
  simp [Extends.tracked]

instance keeps_outputSize (i : Nat) : Keeps l k (outputSize i) := by
  unfold outputSize
  infer_instance

instance keeps_outputSubstr (i begin : Nat) : Keeps l k (outputSubstr i begin) := by
  unfold outputSubstr
  infer_instance

instance keeps_outputTruncate (i begin : Nat) : Keeps l k (outputTruncate i begin) := by
  unfold outputTruncate
  infer_instance

instance keeps_tryPushStr (str : List Byte) (len : Nat) : Keeps l k (tryPushStr str len) := by
  unfold tryPushStr
  have : Keeps l k (modify fun d => { d with isTmpl := false } : P Unit) := keeps_modify fun _ => rfl
  infer_instance

instance keeps_pushStr (str : List Byte) (len : Nat) : Keeps l k (pushStr str len) := by
  unfold pushStr
  infer_instance

instance keeps_demPushStr (s : List Byte) : Keeps l k (demPushStr s) := by
  unfold demPushStr
  infer_instance

instance keeps_popStr : Keeps l k popStr := by
  unfold popStr
  infer_instance

-- what is neither the mangled name nor the cursor
theorem loose_modify {g : CppDemangleData → CppDemangleData}
    (hg : ∀ d, (g d).env = d.env ∧ (g d).cur = d.cur)
    : (discipline l).loose.Keeps k (modify g : P Unit) := by
  apply Util.Discipline.Keeps.modify
  intro d n hn
  show _ ∧ _
  rw [(hg d).1, (hg d).2]
  exact hn

theorem keeps_addUnfound {table : CppDemangleData → VectorStr}
    {update : VectorStr → CppDemangleData → CppDemangleData} (s : CString)
    (hcur : ∀ v d, (update v d).env = d.env ∧ (update v d).cur = d.cur)
    (hupdate : ∀ v d, Table.Extends (table d) v → Extends d (update v d))
    (htable : ∀ d n, table { d with mallocs := n } = table d)
    : Keeps l k (addUnfound table update s s.strlen) := by
  have (v : VectorStr) := loose_modify (l := l) (k := k) (hcur v)
  have : (discipline l).loose.Keeps k (addUnfound table update s s.strlen) := by
    unfold addUnfound
    infer_instance
  apply Util.Discipline.Keeps.of_loose
  intro d u d' _ h
  rcases addUnfound_eq_ok h with ⟨_, rfl⟩ | ⟨hs, n, w, hw, rfl⟩
  . exact .refl _
  . apply (Extends.of_mallocs (n := n + 1) rfl).trans
    apply hupdate
    rw [htable]
    exact .of_push hw hs

instance keeps_addSubst (s : CString) : Keeps l k (addSubst s s.strlen) := by
  apply keeps_addUnfound
  . intro _ _
    exact ⟨rfl, rfl⟩
  . intro v d h
    exact { Extends.refl d with subst := h }
  . intro _ _
    rfl

instance keeps_addTmpl (s : CString) : Keeps l k (addTmpl s s.strlen) := by
  apply keeps_addUnfound
  . intro _ _
    exact ⟨rfl, rfl⟩
  . intro v d h
    exact { Extends.refl d with tmpl := h }
  . intro _ _
    rfl

instance keeps_pushSubst (s : CString) : Keeps l k (pushSubst s s.strlen) := by
  unfold pushSubst
  infer_instance

instance keeps_pushSubstV (v : VectorStr) : Keeps l k (pushSubstV v) := by
  unfold pushSubstV
  infer_instance

instance keeps_getSubst (idx : Nat) : Keeps l k (getSubst idx) := by
  unfold getSubst
  infer_instance

instance keeps_getTmplParam (idx : Nat) : Keeps l k (getTmplParam idx) := by
  unfold getTmplParam
  infer_instance

instance keeps_vectorPush (v : Util.Growable α) (a : α) : Keeps l k (vectorPush v a) := by
  unfold vectorPush
  infer_instance

instance keeps_vectorTypeQualifierInit : Keeps l k vectorTypeQualifierInit := by
  unfold vectorTypeQualifierInit
  infer_instance

instance keeps_vectorTypeQualifierPush (v : VectorTypeQualifier) (t : TypeQualifier)
    : Keeps l k (vectorTypeQualifierPush v t) := by
  unfold vectorTypeQualifierPush
  infer_instance

instance keeps_lastSname : Keeps l k lastSname := by
  unfold lastSname
  infer_instance

instance keeps_skipIf (c : Char) : Keeps l k (skipIf c) := by
  unfold skipIf
  infer_instance

instance keeps_peekLong (base : Nat) : Keeps l k (peekLong base) := by
  unfold peekLong
  infer_instance

instance keeps_readNumber : Keeps l k readNumber := by
  unfold readNumber
  infer_instance

instance keeps_readNumberAsString : Keeps l k readNumberAsString := by
  unfold readNumberAsString
  infer_instance

instance keeps_isAnonymousNamespace : Keeps l k isAnonymousNamespace := by
  unfold isAnonymousNamespace
  infer_instance

instance keeps_pushSname (len : Nat) : Keeps l k (pushSname len) := by
  unfold pushSname
  infer_instance

instance keeps_updateLastSname : Keeps l k updateLastSname := by
  unfold updateLastSname
  apply Util.Discipline.Keeps.seq Util.Discipline.Keeps.get
  intro d
  apply Util.Discipline.Keeps.seq (keeps_getOutput _)
  intro v
  cases v.items.getLast? with
  | none =>
    apply keeps_stop
    simp
  | some s =>
    have : Keeps l k (modify fun d => { d with lastSname := some (.element s.addr) } : P Unit) :=
      keeps_modify fun _ => rfl
    infer_instance

instance keeps_readSname : Keeps l k readSname := by
  unfold readSname
  infer_instance

instance keeps_skipDiscriminator : Keeps l k skipDiscriminator := by
  unfold skipDiscriminator
  infer_instance

instance keeps_localSourceName : Keeps l k localSourceName := by
  unfold localSourceName
  infer_instance

instance keeps_tryPushAll (strs : List (List Byte)) : Keeps l k (tryPushAll strs) := by
  induction strs with
  | nil =>
    rw [tryPushAll]
    infer_instance
  | cons s strs ih =>
    rw [tryPushAll]
    infer_instance

instance keeps_readOffsetNumber : Keeps l k readOffsetNumber := by
  unfold readOffsetNumber
  infer_instance

instance keeps_readNvOffset : Keeps l k readNvOffset := by
  unfold readNvOffset
  infer_instance

instance keeps_readVOffset : Keeps l k readVOffset := by
  unfold readVOffset
  infer_instance

instance keeps_readOffset : Keeps l k readOffset := by
  unfold readOffset
  infer_instance

instance keeps_snprintfFp (text : CString) (tries rtnLen : Nat)
    : Keeps l k (snprintfFp text tries rtnLen) := by
  induction tries generalizing rtnLen with
  | zero =>
    rw [snprintfFp]
    infer_instance
  | succ tries ih =>
    rw [snprintfFp]
    apply Util.Discipline.Keeps.seq keeps_tryMalloc
    intro addr
    cases addr <;> infer_instance

instance keeps_decodeFp (t : FpType) (max size : Nat) (p : List Byte)
    : Keeps l k (decodeFp t max size p) := by
  unfold decodeFp
  split
  . infer_instance
  . cases hexBytes p <;> infer_instance

instance keeps_decodeFpToDouble (p : List Byte) : Keeps l k (decodeFpToDouble p) := by
  unfold decodeFpToDouble
  infer_instance

instance keeps_decodeFpToFloat (p : List Byte) : Keeps l k (decodeFpToFloat p) := by
  unfold decodeFpToFloat
  infer_instance

instance keeps_decodeFpToLongDouble (p : List Byte) : Keeps l k (decodeFpToLongDouble p) := by
  unfold decodeFpToLongDouble
  infer_instance

instance keeps_decodeFpToFloat128 (p : List Byte) : Keeps l k (decodeFpToFloat128 p) := by
  unfold decodeFpToFloat128
  infer_instance

instance keeps_decodeFpToFloat80 (p : List Byte) : Keeps l k (decodeFpToFloat80 p) := by
  unfold decodeFpToFloat80
  infer_instance

instance keeps_pushFp (decoder : List Byte → P (Option CString)) [∀ p, Keeps l k (decoder p)]
    : Keeps l k (pushFp decoder) := by
  unfold pushFp
  infer_instance

instance keeps_extensionName (extName : VectorStr) (t : TypeQualifier) (eIdx : Nat)
    : Keeps l k (extensionName extName t eIdx) := by
  unfold extensionName
  infer_instance

instance keeps_pushSubstQualifier (substV : Option VectorStr) (t : TypeQualifier)
    (next : Option TypeQualifier) (str : List Byte) : Keeps l k (pushSubstQualifier substV t next str) := by
  cases substV with
  | none =>
    rw [pushSubstQualifier]
    infer_instance
  | some v =>
    rw [pushSubstQualifier]
    infer_instance

instance keeps_pushQualifier (extName : VectorStr) (t : TypeQualifier) (next : Option TypeQualifier)
    (s : PushState) : Keeps l k (pushQualifier extName t next s) := by
  unfold pushQualifier
  infer_instance

instance keeps_pushQualifiers (extName : VectorStr) (ts : List TypeQualifier) (s : PushState)
    : Keeps l k (pushQualifiers extName ts s) := by
  induction ts generalizing s with
  | nil =>
    rw [pushQualifiers]
    infer_instance
  | cons t ts ih =>
    rw [pushQualifiers]
    infer_instance

instance keeps_pushTypeQualifier (v : VectorTypeQualifier) (typeStr : Option Flat)
    : Keeps l k (pushTypeQualifier v typeStr) := by
  unfold pushTypeQualifier
  cases typeStr <;> infer_instance

end Gnu3

end Demangle

end LibCxxRt
