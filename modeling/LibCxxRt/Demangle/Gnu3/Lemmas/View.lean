import LibCxxRt.Demangle.Gnu3.Lemmas.Printer
import LibCxxRt.Util.Evaluates
import Mathlib.Data.List.Forall2

/-!
This module contains the view of the state of the demangler that the printer has, and what the operations on
the state do to it as long as `malloc` does not fail.
-/

namespace LibCxxRt

namespace Demangle

namespace Gnu3

structure View where
  page : Page
  -- the other vectors for the output, the name of a function is in the first one
  before : List (List CString)
  length_before : ∀ strs ∈ before, 2 ≤ strs.length
  input : List Byte
  refQualifier : Bool

namespace View

def push (v : View) (s : CString) : View :=
  { v with page := v.page.push s }

def setInput (v : View) (s : List Byte) : View :=
  { v with input := s }

def setPage (v : View) (p : Page) : View :=
  { v with page := p }

def unref (v : View) : View :=
  { v with refQualifier := false }

-- the number of the current output
def output (v : View) : Nat :=
  v.before.length

def start (s : List Byte) : View where
  page := .blank
  before := []
  length_before _ h := absurd h List.not_mem_nil
  input := s
  refQualifier := false

-- there is only one output again
def leaveReturn (v : View) (strs : List CString) : View where
  page := { v.page with output := v.page.output ++ lit " " :: strs, sname := none }
  before := []
  length_before _ h := absurd h List.not_mem_nil
  input := v.input
  refQualifier := v.refQualifier

theorem unref_of_eq {v : View} (h : v.refQualifier = false) : v.unref = v := by
  rw [unref, ← h]

end View

-- a vector that can grow
def Holds (v : VectorStr) (strs : List CString) : Prop :=
  texts v = strs ∧ 0 < v.capacity

-- no address has been returned twice
structure Fresh (outputs : List VectorStr) (mallocs : Nat) : Prop where
  lt : ∀ s ∈ outputs.flatMap (·.items), s.addr < mallocs
  nodup : ((outputs.flatMap (·.items)).map Str.addr).Nodup

def ShowsOutputs (outputs : List VectorStr) (curOutput : Nat) (before : List (List CString))
    (strs : List CString) : Prop :=
  ∃ vs v, outputs = vs ++ [v] ∧ curOutput = vs.length ∧ List.Forall₂ Holds vs before ∧ Holds v strs

structure Shows (d : CppDemangleData) (v : View) : Prop where
  malloc : ∀ n, d.env.malloc n = true
  cur : d.cur ≤ d.env.org.strlen
  input : d.env.org.bytes.drop d.cur = v.input
  fresh : Fresh d.outputs d.mallocs
  outputs : ShowsOutputs d.outputs d.curOutput v.before v.page.output
  subst : Holds d.subst v.page.subst
  tmpl : Holds d.tmpl v.page.tmpl
  mode : d.pushQualifier = v.page.mode
  isTmpl : d.isTmpl = v.page.isTmpl
  sname : ∀ s, v.page.sname = some s → d.lastSname.bind (snameText d.outputs) = some s.1.bytes
  cmd : d.cmd.items.map ReadCmdItem.cmd = List.replicate v.page.depth .tmpl ∧ 0 < d.cmd.capacity
  mem : ⟨d.memRst, d.memVat, d.memCst, d.memRef, d.memRref⟩ = v.page.mem
  refQualifier : d.refQualifier = v.refQualifier

abbrev Evals {α : Type} (m : P α) (v : View) (post : α → View → Prop) : Prop :=
  Util.Evaluates Shows m v post

abbrev Gives {α : Type} (m : P α) (v : View) (a : α) (v' : View) : Prop :=
  Util.Yields Shows m v a v'

variable {α : Type} {v : View} {d : CppDemangleData} {u : VectorStr} {strs : List CString} {s : List Byte}

theorem Fresh.mono {outputs : List VectorStr} {m n : Nat} (h : Fresh outputs m) (hmn : m ≤ n)
    : Fresh outputs n :=
  ⟨fun s hs => Nat.lt_of_lt_of_le (h.lt s hs) hmn, h.nodup⟩

theorem Shows.of_mallocs {n : Nat} (h : Shows d v) (hn : d.mallocs ≤ n)
    : Shows { d with mallocs := n } v :=
  { h with fresh := h.fresh.mono hn }

section

variable {c : Prop} [Decidable c]

theorem failIf_gives (h : ¬ c) : Gives (failIf c) v () v := by
  rw [failIf, if_neg h]
  exact Util.Yields.pure _ _

theorem stopIf_gives {s : Stop} (h : ¬ c) : Gives (stopIf c s) v () v := by
  rw [stopIf, if_neg h]
  exact Util.Yields.pure _ _

theorem doIf_of_neg {m : P Unit} (h : ¬ c) : Gives (doIf c m) v () v := by
  rw [doIf, if_neg h]
  exact Util.Yields.pure _ _

end

theorem faultIfNone_gives {o : Option α} {a : α} (h : o = some a) : Gives (faultIfNone o) v a v := by
  rw [h]
  exact Util.Yields.pure _ _

theorem failIfNone_gives {o : Option α} {a : α} (h : o = some a) : Gives (failIfNone o) v a v := by
  rw [h]
  exact Util.Yields.pure _ _

theorem read_add {s : CString} {i n : Nat} (hi : i ≤ s.strlen) (hn : n ≤ (s.bytes.drop i).length)
    : s.read (i + n) = some ((s.bytes.drop i).getD n 0) := by
  have hlength : s.strlen = s.bytes.length := rfl
  rw [List.length_drop] at hn
  rw [List.getD_eq_getElem?_getD, List.getElem?_drop]
  unfold CString.read
  split
  . next h =>
    have hle : s.bytes.length ≤ i + n := by omega
    rw [List.getElem?_eq_none hle]
    rfl
  . next h =>
    have hlt : i + n < s.bytes.length := by omega
    rw [List.getElem?_eq_getElem hlt]
    rfl

theorem peekAt_gives {n : Nat} (hn : n ≤ s.length)
    : Gives (peekAt n) (v.setInput s) (s.getD n 0) (v.setInput s) := by
  intro d hd
  have hinput : d.env.org.bytes.drop d.cur = s := hd.input
  refine ⟨_, d, _, ?_, hd, rfl, rfl⟩
  rw [← hinput] at hn ⊢
  show faultIfNone (d.env.org.read (d.cur + n)) d = _
  rw [read_add hd.cur hn]
  rfl

theorem peek_gives : Gives peek (v.setInput s) (s.headD 0) (v.setInput s) := by
  rw [List.headD_eq_getD]
  exact peekAt_gives (Nat.zero_le _)

theorem advance_gives {n : Nat} (hn : n ≤ s.length)
    : Gives (advance n) (v.setInput s) () (v.setInput (s.drop n)) := by
  apply Util.Evaluates.modify
  intro d hd
  have hinput : d.env.org.bytes.drop d.cur = s := hd.input
  have hcur : d.cur + n ≤ d.env.org.strlen := by
    rw [← hinput, List.length_drop] at hn
    have hlength : d.env.org.strlen = d.env.org.bytes.length := rfl
    have hle := hd.cur
    omega
  have hdrop : d.env.org.bytes.drop (d.cur + n) = s.drop n := by
    rw [← hinput, List.drop_drop]
  exact { hd with cur := hcur, input := hdrop }

theorem advance_append (a b : List Byte)
    : Gives (advance a.length) (v.setInput (a ++ b)) () (v.setInput b) := by
  have h := advance_gives (v := v) (s := a ++ b) (n := a.length) (by simp)
  rw [List.drop_left] at h
  exact h

theorem rest_gives : Gives rest (v.setInput s) s (v.setInput s) := by
  intro d hd
  have hinput : d.env.org.bytes.drop d.cur = s := hd.input
  refine ⟨_, d, _, ?_, hd, rfl, rfl⟩
  show (if d.cur ≤ d.env.org.strlen then pure (d.env.org.bytes.drop d.cur) else stop .fault : P _) d = _
  rw [if_pos hd.cur, hinput]
  rfl

theorem skipWhile_gives (q : Byte → Bool)
    : Gives (skipWhile q) (v.setInput s) (s.takeWhile q) (v.setInput (s.dropWhile q)) := by
  apply Util.Yields.bind rest_gives
  have h := advance_append (v := v) (s.takeWhile q) (s.dropWhile q)
  rw [List.takeWhile_append_dropWhile] at h
  apply Util.Yields.bind h
  exact Util.Yields.pure _ _

theorem skipTo_gives {c : Char} {a b : List Byte} (ha : ∀ x ∈ a, x ≠ chr c)
    : Gives (skipTo c) (v.setInput (a ++ chr c :: b)) a (v.setInput (chr c :: b)) := by
  apply Util.Yields.bind rest_gives
  have htake : (a ++ chr c :: b).takeWhile (· != chr c) = a := by
    rw [List.takeWhile_append_of_pos]
    . simp
    . intro x hx
      simpa using ha x hx
  rw [htake]
  dsimp only
  rw [if_pos (by simp)]
  apply Util.Yields.bind (advance_append a _)
  exact Util.Yields.pure _ _

theorem tryMalloc_evals : Evals tryMalloc v fun o v' => o.isSome ∧ v' = v := by
  intro d hd
  refine ⟨_, _, v, tryMalloc_apply d, hd.of_mallocs (Nat.le_succ _), ?_, rfl⟩
  rw [if_pos (hd.malloc _)]
  rfl

theorem malloc_evals : Evals malloc v fun _ v' => v' = v := by
  apply Util.Evaluates.bind tryMalloc_evals
  rintro o _ ⟨ho, rfl⟩
  rcases Option.isSome_iff_exists.1 ho with ⟨a, rfl⟩
  exact Util.Evaluates.pure rfl

theorem vectorStrInit_evals : Evals vectorStrInit v fun u v' => Holds u [] ∧ v' = v := by
  apply Util.Evaluates.bind malloc_evals
  rintro a _ rfl
  exact Util.Evaluates.pure ⟨⟨rfl, by decide⟩, rfl⟩

-- a vector that is full grows first
theorem ensureCapacity_of_malloc (hd : ∀ n, d.env.malloc n = true) (hu : 0 < u.capacity)
    : ∃ w n, ensureCapacity u d = .ok (some w, { d with mallocs := d.mallocs + n })
        ∧ w.items = u.items ∧ w.size < w.capacity := by
  unfold ensureCapacity
  split
  . next hsize =>
    have hlt : u.capacity < bufferGrow u.capacity := lt_bufferGrow hu
    rcases Util.Growable.exists_resize (Nat.le_of_lt hlt) with ⟨w, hw⟩
    refine ⟨w, 1, ?_, (Util.Growable.resize_eq_some.1 hw).1, ?_⟩
    . unfold vectorStrGrow
      rw [if_neg (by omega), Util.Prog.bind_of_ok (tryMalloc_apply d), if_pos (hd _)]
      show (some <$> faultIfNone (u.resize (bufferGrow u.capacity)) : P _) _ = _
      rw [hw]
      rfl
    . rw [(Util.Growable.resize_eq_some.1 hw).2, Util.Growable.size, (Util.Growable.resize_eq_some.1 hw).1]
      show u.size < _
      rw [hsize]
      exact hlt
  . next hsize =>
    exact ⟨u, 0, rfl, rfl, Nat.lt_of_le_of_ne u.fits hsize⟩

theorem vectorStrPush_of_malloc (hd : ∀ n, d.env.malloc n = true) (hu : 0 < u.capacity) (str : List Byte)
    (len : Nat)
    : ∃ w n, vectorStrPush u str len d = .ok ((w, true), { d with mallocs := d.mallocs + (n + 1) })
        ∧ w.items = u.items ++ [⟨d.mallocs + n, copyString str len⟩] ∧ 0 < w.capacity := by
  rcases ensureCapacity_of_malloc hd hu with ⟨w, n, hgrow, hitems, hsize⟩
  rcases Util.Growable.exists_push hsize ⟨d.mallocs + n, copyString str len⟩ with ⟨w', hpush⟩
  obtain ⟨hw', hcapacity⟩ := Util.Growable.push_eq_some.1 hpush
  refine ⟨w', n, ?_, ?_, ?_⟩
  . unfold vectorStrPush
    rw [Util.Prog.bind_of_ok hgrow]
    show (tryMalloc >>= _ : P _) _ = _
    rw [Util.Prog.bind_of_ok (tryMalloc_apply _), if_pos (hd _)]
    show ((·, true) <$> faultIfNone (w.push ⟨d.mallocs + n, copyString str len⟩) : P _) _ = _
    rw [hpush]
    rfl
  . rw [hw', hitems]
  . rw [hcapacity]
    omega

theorem texts_of_items {w : VectorStr} {s : Str} (h : w.items = u.items ++ [s])
    : texts w = texts u ++ [s.text] := by
  simp [texts, h]

theorem vecPush_evals (hu : Holds u strs) (str : List Byte) (len : Nat)
    : Evals (vecPush u str len) v fun w v' => Holds w (strs ++ [copyString str len]) ∧ v' = v := by
  intro d hd
  rcases vectorStrPush_of_malloc hd.malloc hu.2 str len with ⟨w, n, hpush, hitems, hcapacity⟩
  have hw : Holds w (strs ++ [copyString str len]) := by
    rw [← hu.1]
    exact ⟨texts_of_items hitems, hcapacity⟩
  refine ⟨w, _, v, ?_, hd.of_mallocs (Nat.le_add_right _ (n + 1)), hw, rfl⟩
  unfold vecPush
  rw [Util.Prog.bind_of_ok hpush]
  rfl

theorem getElem?_outputs {outputs vs : List VectorStr} {o : VectorStr} (h : outputs = vs ++ [o])
    : outputs[vs.length]? = some o := by
  rw [h, List.getElem?_concat_length]

theorem getOutput_of_eq {i : Nat} {o : VectorStr} (h : d.outputs[i]? = some o)
    : getOutput i d = .ok (o, d) := by
  show faultIfNone d.outputs[i]? d = _
  rw [h]
  rfl

theorem set_outputs {vs : List VectorStr} {o w : VectorStr}
    : (vs ++ [o]).set vs.length w = vs ++ [w] := by
  rw [List.set_append_right _ _ (Nat.le_refl _), Nat.sub_self, List.set_cons_zero]

-- a string with a new address is behind all the others
theorem Fresh.push {vs : List VectorStr} {o w : VectorStr} {n : Nat} {s : Str}
    (h : Fresh (vs ++ [o]) n) (hw : w.items = o.items ++ [s]) (hs : n ≤ s.addr)
    : Fresh (vs ++ [w]) (s.addr + 1) := by
  have hflat : (vs ++ [w]).flatMap (·.items) = (vs ++ [o]).flatMap (·.items) ++ [s] := by
    simp [hw]
  constructor
  . rw [hflat]
    intro t ht
    rcases List.mem_append.1 ht with ht | ht
    . have hlt := h.lt t ht
      omega
    . cases List.mem_singleton.1 ht
      exact Nat.lt_succ_self _
  . rw [hflat, List.map_append, List.nodup_append]
    refine ⟨h.nodup, by simp, ?_⟩
    intro a ha b hb
    rcases List.mem_map.1 ha with ⟨t, ht, rfl⟩
    cases List.mem_singleton.1 hb
    have hlt := h.lt t ht
    omega

-- what has been found is found still
theorem snameText_push {vs : List VectorStr} {o w : VectorStr} {s : Str} {t : List Byte} {n : Sname}
    (hw : w.items = o.items ++ [s]) (h : snameText (vs ++ [o]) n = some t)
    : snameText (vs ++ [w]) n = some t := by
  have hflat : (vs ++ [w]).flatMap (·.items) = (vs ++ [o]).flatMap (·.items) ++ [s] := by
    simp [hw]
  cases n with
  | literal s => exact h
  | element addr =>
    rw [snameText] at h ⊢
    rw [hflat, List.find?_append]
    rcases Option.map_eq_some_iff.1 h with ⟨a, ha, hat⟩
    rw [ha]
    exact congrArg some hat

theorem tryPushStr_gives {str : List Byte} {len : Nat} (hlen : len ≠ 0)
    : Gives (tryPushStr str len) v true (v.push (copyString str len)) := by
  intro d hd
  rcases hd.outputs with ⟨vs, o, houtputs, hcur, hbefore, ho⟩
  have hget : d.outputs[d.curOutput]? = some o := by
    rw [hcur]
    exact getElem?_outputs houtputs
  rcases vectorStrPush_of_malloc (d := { d with isTmpl := false }) hd.malloc ho.2 str len
    with ⟨w, n, hpush, hitems, hcapacity⟩
  have hset : d.outputs.set d.curOutput w = vs ++ [w] := by
    rw [houtputs, hcur, set_outputs]
  refine ⟨true, { d with
    isTmpl := false, mallocs := d.mallocs + (n + 1), outputs := d.outputs.set d.curOutput w }, _, ?_, ?_, rfl, rfl⟩
  . unfold tryPushStr
    rw [if_neg hlen, Util.Prog.bind_of_ok (Util.Prog.modify_apply _ _), Util.Prog.bind_of_ok (Util.Prog.get_apply _),
      Util.Prog.bind_of_ok (getOutput_of_eq (d := { d with isTmpl := false }) hget),
      Util.Prog.bind_of_ok hpush]
    rfl
  . have hfresh : Fresh (vs ++ [w]) (d.mallocs + n + 1) := by
      apply Fresh.push (houtputs ▸ hd.fresh) hitems
      exact Nat.le_add_right _ _
    have houtput : ShowsOutputs (vs ++ [w]) d.curOutput v.before (v.page.output ++ [copyString str len]) := by
      refine ⟨vs, w, rfl, hcur, hbefore, ?_, hcapacity⟩
      rw [texts_of_items hitems, ho.1]
    have hsname (s : { s : CString // s.strlen ≠ 0 }) (hs : v.page.sname = some s)
        : d.lastSname.bind (snameText (vs ++ [w])) = some s.1.bytes := by
      rcases Option.bind_eq_some_iff.1 (hd.sname s hs) with ⟨name, hname, htext⟩
      rw [hname]
      rw [houtputs] at htext
      exact snameText_push hitems htext
    rw [hset]
    exact { hd with fresh := hfresh, outputs := houtput, isTmpl := rfl, sname := hsname }

theorem pushStr_gives {str : List Byte} {len : Nat} (hlen : len ≠ 0)
    : Gives (pushStr str len) v () (v.push (copyString str len)) := by
  apply Util.Yields.bind (tryPushStr_gives hlen)
  exact failIf_gives (by simp)

theorem demPushStr_gives {str : List Byte} (hstr : str ≠ [])
    : Gives (demPushStr str) v () (v.push (copyString str str.length)) := by
  apply pushStr_gives
  simpa using hstr

theorem Shows.curOutput (h : Shows d v) : d.curOutput = v.output := by
  rcases h.outputs with ⟨vs, o, _, hcur, hbefore, _⟩
  rw [hcur, View.output, hbefore.length_eq]

theorem getOutput_evals : Evals (getOutput v.output) v fun o v' => Holds o v.page.output ∧ v' = v := by
  intro d hd
  rcases hd.outputs with ⟨vs, o, houtputs, hcur, _, ho⟩
  rw [← hd.curOutput, hcur]
  exact ⟨o, d, v, getOutput_of_eq (getElem?_outputs houtputs), hd, ho, rfl⟩

theorem Holds.size (h : Holds u strs) : u.size = strs.length := by
  rw [← h.1, texts, List.length_map]
  rfl

theorem outputSize_gives : Gives (outputSize v.output) v v.page.output.length v := by
  apply Util.Evaluates.bind getOutput_evals
  rintro o _ ⟨ho, rfl⟩
  apply Util.Evaluates.pure
  exact ⟨ho.size, rfl⟩

theorem outputSize_zero_evals (h : 2 ≤ v.page.output.length)
    : Evals (outputSize 0) v fun n v' => 2 ≤ n ∧ v' = v := by
  intro d hd
  rcases hd.outputs with ⟨vs, o, houtputs, hcur, hbefore, ho⟩
  have hsize (w : VectorStr) (hw : d.outputs[0]? = some w) : outputSize 0 d = .ok (w.size, d) := by
    unfold outputSize
    rw [Util.Prog.bind_of_ok (getOutput_of_eq hw)]
    rfl
  have hlength := v.length_before
  generalize v.before = before at hbefore hlength
  cases hbefore with
  | nil =>
    refine ⟨o.size, d, v, hsize o ?_, hd, ?_, rfl⟩
    . rw [houtputs]
      rfl
    . rw [ho.size]
      exact h
  | @cons w strs vs before hw _ =>
    refine ⟨w.size, d, v, hsize w ?_, hd, ?_, rfl⟩
    . rw [houtputs]
      rfl
    . rw [hw.size]
      exact hlength strs List.mem_cons_self

-- nothing has been printed from `n` on
theorem outputSubstr_none_gives {n : Nat} (hn : n = v.page.output.length) (hpos : 0 < n)
    : Gives (outputSubstr v.output n) v none v := by
  apply Util.Evaluates.bind getOutput_evals
  rintro o v ⟨ho, rfl⟩
  have hsize := ho.size
  unfold vectorStrSubstr
  rw [if_neg (by omega), if_pos (by omega)]
  exact Util.Yields.pure _ _

theorem outputSubstr_gives {n : Nat} (hn : n < v.page.output.length)
    : Gives (outputSubstr v.output n) v (some ⟨v.page.since n, true⟩) v := by
  apply Util.Evaluates.bind getOutput_evals
  rintro o _ ⟨ho, rfl⟩
  have hsize := ho.size
  unfold vectorStrSubstr
  rw [if_neg (by omega), if_neg (by omega)]
  apply Util.Evaluates.bind tryMalloc_evals
  rintro a _ ⟨ha, rfl⟩
  rcases Option.isSome_iff_exists.1 ha with ⟨a, rfl⟩
  dsimp only
  rw [ho.1]
  exact Util.Yields.pure _ _

theorem vectorStrFind_eq (s : CString) : vectorStrFind u s s.strlen = isFound (texts u) s := by
  rw [Bool.eq_iff_iff, vectorStrFind_iff, isFound, List.any_eq_true]
  simp only [List.isPrefixOf_iff_prefix]

theorem addUnfound_evals {table : CppDemangleData → VectorStr}
    {update : VectorStr → CppDemangleData → CppDemangleData} {v' : View} {s : CString}
    (htable : ∀ d, Shows d v → Holds (table d) strs)
    (hfound : isFound strs s = true → v' = v)
    (hupdate : ∀ d w, Shows d v → isFound strs s = false → Holds w (strs ++ [s]) → Shows (update w d) v')
    : Gives (addUnfound table update s s.strlen) v () v' := by
  apply Util.Evaluates.get_bind
  intro d hd
  rw [vectorStrFind_eq, (htable d hd).1]
  split
  . next hs =>
    rw [hfound hs]
    exact Util.Yields.pure _ _
  . next hs =>
    apply Util.Evaluates.get_bind
    intro d hd
    apply Util.Evaluates.bind (vecPush_evals (htable d hd) s.bytes s.strlen)
    rintro w _ ⟨hw, rfl⟩
    rw [copyString_self] at hw
    apply Util.Evaluates.modify
    intro d hd
    exact hupdate d w hd (Bool.eq_false_iff.2 hs) hw

theorem addString_of_found {table : List CString} {s : CString} (h : isFound table s = true)
    : addString table s = table := by
  rw [addString, if_pos h]

theorem addString_of_not_found {table : List CString} {s : CString} (h : isFound table s = false)
    : addString table s = table ++ [s] := by
  rw [addString, if_neg (by simp [h])]

theorem addSubst_gives (s : CString) : Gives (addSubst s s.strlen) v () (v.setPage (v.page.addSubst s)) := by
  refine addUnfound_evals (fun d hd => hd.subst) ?_ ?_
  . intro h
    simp [View.setPage, Page.addSubst, addString_of_found h]
  . intro d w hd h hw
    rw [← addString_of_not_found h] at hw
    exact { hd with subst := hw }

theorem addTmpl_gives (s : CString) : Gives (addTmpl s s.strlen) v () (v.setPage (v.page.addTmpl s)) := by
  refine addUnfound_evals (fun d hd => hd.tmpl) ?_ ?_
  . intro h
    simp [View.setPage, Page.addTmpl, addString_of_found h]
  . intro d w hd h hw
    rw [← addString_of_not_found h] at hw
    exact { hd with tmpl := hw }

theorem pushSubstV_gives (hu : Holds u strs) (hstrs : (CString.concat strs).strlen ≠ 0)
    : Gives (pushSubstV u) v () (v.setPage (v.page.addSubst (.concat strs))) := by
  have hsum : getStrlenSum u = (CString.concat strs).strlen := by
    rw [strlen_concat, getStrlenSum, hu.1]
  have hsize : u.size ≠ 0 := by
    rw [hu.size]
    intro h
    rw [List.length_eq_zero_iff.1 h] at hstrs
    exact hstrs rfl
  have hflat : Gives (vectorStrGetFlat u) v (some (.concat strs)) v := by
    unfold vectorStrGetFlat
    rw [if_neg (by omega)]
    apply Util.Evaluates.bind tryMalloc_evals
    rintro a _ ⟨ha, rfl⟩
    rcases Option.isSome_iff_exists.1 ha with ⟨a, rfl⟩
    dsimp only
    rw [hu.1]
    exact Util.Yields.pure _ _
  apply Util.Yields.bind hflat
  apply Util.Yields.bind (failIfNone_gives rfl)
  apply Util.Yields.bind (failIf_gives hstrs)
  exact addSubst_gives _

-- the character behind the number of an entry is skipped
theorem pushEntry_gives {table : CppDemangleData → VectorStr} {i : Nat} {p : Page} {c : Byte}
    (htable : ∀ d, Shows d (v.setInput (c :: s)) → Holds (table d) strs)
    (hp : v.page.pushEntry strs[i]? = some p)
    : Gives (do
      let t ← failIfNone (table (← get)).items[i]?
      demPushStr t.text.bytes
      advance 1) (v.setInput (c :: s)) () ((v.setPage p).setInput s) := by
  rcases Option.bind_eq_some_iff.1 hp with ⟨str, hstr, hpush⟩
  split at hpush
  . cases hpush
  next hlen =>
  cases hpush
  apply Util.Evaluates.get_bind
  intro d hd
  have hitems := (htable d hd).1
  have hitem : (texts (table d))[i]? = some str := by
    rw [hitems, hstr]
  rw [texts, List.getElem?_map] at hitem
  rcases Option.map_eq_some_iff.1 hitem with ⟨t, ht, rfl⟩
  apply Util.Yields.bind (failIfNone_gives ht)
  have hne : t.text.bytes ≠ [] := fun h => hlen (List.length_eq_zero_iff.2 h)
  apply Util.Yields.bind (demPushStr_gives hne)
  rw [copyString_length_self]
  exact advance_gives (v := v.push t.text) (s := c :: s) (n := 1) (by simp)

theorem getSubst_gives {i : Nat} {p : Page} {c : Byte} (hp : v.page.pushEntry v.page.subst[i]? = some p)
    : Gives (getSubst i) (v.setInput (c :: s)) () ((v.setPage p).setInput s) :=
  pushEntry_gives (fun _ hd => hd.subst) hp

theorem getTmplParam_gives {i : Nat} {p : Page} {c : Byte}
    (hp : v.page.pushEntry v.page.tmpl[i]? = some p)
    : Gives (getTmplParam i) (v.setInput (c :: s)) () ((v.setPage p).setInput s) :=
  pushEntry_gives (fun _ hd => hd.tmpl) hp

theorem setPushQualifier_gives (q : PushQualifier)
    : Gives (setPushQualifier q) v () (v.setPage (v.page.setMode q)) := by
  apply Util.Evaluates.modify
  intro d hd
  exact { hd with mode := rfl }

theorem vectorPush_of_malloc {w : Util.Growable α} (hd : ∀ n, d.env.malloc n = true) (hw : 0 < w.capacity)
    (a : α)
    : ∃ w' n, vectorPush w a d = .ok (w', { d with mallocs := d.mallocs + n })
        ∧ w'.items = w.items ++ [a] ∧ 0 < w'.capacity := by
  unfold vectorPush
  split
  . next hsize =>
    have hlt : w.capacity < bufferGrow w.capacity := lt_bufferGrow hw
    rcases Util.Growable.exists_resize (Nat.le_of_lt hlt) with ⟨u, hu⟩
    have hroom : u.size < u.capacity := by
      rw [(Util.Growable.resize_eq_some.1 hu).2, Util.Growable.size, (Util.Growable.resize_eq_some.1 hu).1]
      exact Nat.lt_of_le_of_lt w.fits hlt
    rcases Util.Growable.exists_push hroom a with ⟨w', hw'⟩
    obtain ⟨hitems, hcapacity⟩ := Util.Growable.push_eq_some.1 hw'
    refine ⟨w', 1, ?_, ?_, ?_⟩
    . have hmalloc : malloc d = .ok (d.mallocs, { d with mallocs := d.mallocs + 1 }) := by
        unfold malloc
        rw [Util.Prog.bind_of_ok (tryMalloc_apply d), if_pos (hd _)]
        rfl
      rw [Util.Prog.bind_of_ok hmalloc, hu]
      show faultIfNone (u.push a) _ = _
      rw [hw']
      rfl
    . rw [hitems, (Util.Growable.resize_eq_some.1 hu).1]
    . rw [hcapacity]
      omega
  . next hsize =>
    rcases Util.Growable.exists_push (Nat.lt_of_le_of_ne w.fits hsize) a with ⟨w', hw'⟩
    obtain ⟨hitems, hcapacity⟩ := Util.Growable.push_eq_some.1 hw'
    refine ⟨w', 0, ?_, hitems, hcapacity ▸ hw⟩
    rw [hw']
    rfl

theorem enterArgs_gives : Gives (vectorReadCmdPush ⟨.tmpl, none⟩) v () (v.setPage v.page.enterArgs) := by
  intro d hd
  rcases vectorPush_of_malloc hd.malloc hd.cmd.2 ⟨.tmpl, none⟩ with ⟨w, n, hpush, hitems, hcapacity⟩
  refine ⟨(), { d with mallocs := d.mallocs + n, cmd := w }, _, ?_, ?_, rfl, rfl⟩
  . unfold vectorReadCmdPush
    rw [Util.Prog.bind_of_ok (Util.Prog.get_apply d), Util.Prog.bind_of_ok hpush]
    rfl
  . have hcmd : w.items.map ReadCmdItem.cmd = List.replicate (v.page.depth + 1) .tmpl := by
      rw [hitems, List.map_append, hd.cmd.1, List.replicate_succ']
      rfl
    exact { hd.of_mallocs (Nat.le_add_right _ n) with cmd := ⟨hcmd, hcapacity⟩ }

-- the last command is one for template arguments, and the flag has been set before
theorem leaveArgs_gives {p : Page} (hdepth : 0 < p.depth)
    : Gives vectorReadCmdPop (v.setPage { p with isTmpl := true }) () (v.setPage p.leaveArgs) := by
  apply Util.Evaluates.get_bind
  intro d hd
  have hsize : d.cmd.size = p.depth := by
    have h := congrArg List.length hd.cmd.1
    rw [List.length_map, List.length_replicate] at h
    exact h
  apply Util.Yields.bind (failIf_gives (by omega))
  apply Util.Evaluates.modify
  intro d hd
  have hcmd : d.cmd.pop.items.map ReadCmdItem.cmd = List.replicate (p.depth - 1) .tmpl := by
    rw [Util.Growable.items_pop, List.map_dropLast, hd.cmd.1, List.dropLast_replicate]
    rfl
  exact { hd with cmd := ⟨hcmd, hd.cmd.2⟩ }

theorem readCmdFind_eq_none {dst : ReadCmd} {cmd : Util.Growable ReadCmdItem} {n : Nat}
    (h : cmd.items.map ReadCmdItem.cmd = List.replicate n .tmpl) (hdst : n = 0 ∨ dst ≠ .tmpl)
    : readCmdFind cmd dst = none := by
  unfold readCmdFind
  rw [List.find?_eq_none]
  intro item hitem
  have hmem : item.cmd ∈ List.replicate n ReadCmd.tmpl := by
    rw [← h]
    exact List.mem_map_of_mem (List.mem_reverse.1 hitem)
  rcases List.mem_replicate.1 hmem with ⟨hn, hcmd⟩
  rcases hdst with hdst | hdst
  . exact absurd hdst hn
  . simp [hcmd, Ne.symm hdst]

theorem isSome_readCmdFind {cmd : Util.Growable ReadCmdItem} {n : Nat}
    (h : cmd.items.map ReadCmdItem.cmd = List.replicate n .tmpl) (hn : n ≠ 0)
    : (readCmdFind cmd .tmpl).isSome := by
  unfold readCmdFind
  rw [List.find?_isSome]
  have hlength : cmd.items.length = n := by
    rw [← List.length_map (f := ReadCmdItem.cmd), h, List.length_replicate]
  rcases List.exists_mem_of_length_pos (l := cmd.items) (by omega) with ⟨item, hitem⟩
  have hmem : item.cmd ∈ List.replicate n ReadCmd.tmpl := by
    rw [← h]
    exact List.mem_map_of_mem hitem
  refine ⟨item, List.mem_reverse.2 hitem, ?_⟩
  simp [(List.mem_replicate.1 hmem).2]

theorem find?_of_nodup {strs : List Str} {s : Str} (h : (strs.map Str.addr).Nodup) (hs : s ∈ strs)
    : strs.find? (fun t => t.addr = s.addr) = some s := by
  induction strs with
  | nil => cases hs
  | cons t strs ih =>
    rw [List.map_cons, List.nodup_cons] at h
    rw [List.find?_cons]
    rcases List.mem_cons.1 hs with rfl | hs
    . simp
    . have hne : t.addr ≠ s.addr := fun heq => h.1 (heq ▸ List.mem_map_of_mem hs)
      simp only [hne, decide_false]
      exact ih h.2 hs

-- the last string is the one of the identifier
theorem updateLastSname_gives {p : Page} {s : CString} (hs : s.strlen ≠ 0) (hp : p.output.getLast? = some s)
    : Gives updateLastSname (v.setPage p) ()
        (v.setPage (if p.depth = 0 then { p with sname := some ⟨s, hs⟩ } else p)) := by
  intro d hd
  rcases hd.outputs with ⟨vs, o, houtputs, hcur, _, ho⟩
  have hget : d.outputs[d.curOutput]? = some o := by
    rw [hcur]
    exact getElem?_outputs houtputs
  have hlast : o.items.getLast?.map Str.text = some s := by
    rw [← List.getLast?_map, ← hp]
    exact congrArg _ ho.1
  rcases Option.map_eq_some_iff.1 hlast with ⟨t, ht, rfl⟩
  unfold updateLastSname
  rw [Util.Prog.bind_of_ok (Util.Prog.get_apply d), Util.Prog.bind_of_ok (getOutput_of_eq hget), ht]
  dsimp only
  split
  . next hdepth =>
    rw [readCmdFind_eq_none hd.cmd.1 (.inl hdepth)]
    refine ⟨(), { d with lastSname := some (.element t.addr) }, _, rfl, ?_, rfl, rfl⟩
    have hmem : t ∈ d.outputs.flatMap (·.items) := by
      rw [houtputs]
      simp [List.mem_of_getLast? ht]
    have hsname (u : { s : CString // s.strlen ≠ 0 }) (hu : some ⟨t.text, hs⟩ = some u)
        : (some (Sname.element t.addr)).bind (snameText d.outputs) = some u.1.bytes := by
      cases hu
      show Option.map _ (List.find? _ _) = _
      rw [find?_of_nodup hd.fresh.nodup hmem]
      rfl
    exact { hd with sname := hsname }
  . next hdepth =>
    refine ⟨(), d, _, ?_, hd, rfl, rfl⟩
    have hsome := isSome_readCmdFind hd.cmd.1 hdepth
    rw [doIf, if_neg]
    . rfl
    . rw [Option.isNone_iff_eq_none]
      exact Option.isSome_iff_ne_none.1 hsome

theorem lastSname_gives {s : { s : CString // s.strlen ≠ 0 }} (h : v.page.sname = some s)
    : Gives lastSname v s.1.bytes v := by
  apply Util.Evaluates.get_bind
  intro d hd
  rcases Option.bind_eq_some_iff.1 (hd.sname s h) with ⟨name, hname, htext⟩
  rw [hname]
  apply Util.Yields.bind (failIfNone_gives rfl)
  exact faultIfNone_gives htext

end Gnu3

end Demangle

end LibCxxRt
