import LibCxxRt.Demangle.Gnu3.Lemmas.View

/-!
This module determines that the demangler pushes the qualifiers of a type as the printer does.
-/

namespace LibCxxRt

namespace Demangle

namespace Gnu3

variable {v : View} {w : VectorTypeQualifier} {qs : List TypeQualifier}

structure HoldsQualifiers (w : VectorTypeQualifier) (qs : List TypeQualifier) : Prop where
  items : w.qContainer.items = qs
  capacity : 0 < w.qContainer.capacity

theorem vectorTypeQualifierInit_evals
    : Evals vectorTypeQualifierInit v fun w v' => HoldsQualifiers w [] ∧ v' = v := by
  apply Util.Evaluates.bind malloc_evals
  rintro _ _ rfl
  apply Util.Evaluates.bind vectorStrInit_evals
  rintro extName _ ⟨_, rfl⟩
  apply Util.Evaluates.pure
  exact ⟨⟨rfl, (by decide : 0 < VECTOR_DEF_CAPACITY)⟩, rfl⟩

theorem vectorTypeQualifierPush_evals (hw : HoldsQualifiers w qs) (t : TypeQualifier)
    : Evals (vectorTypeQualifierPush w t) v fun w' v' => HoldsQualifiers w' (qs ++ [t]) ∧ v' = v := by
  intro d hd
  rcases vectorPush_of_malloc hd.malloc hw.capacity t with ⟨q, n, hpush, hitems, hcapacity⟩
  refine ⟨{ w with qContainer := q }, _, v, ?_, hd.of_mallocs (Nat.le_add_right _ n), ?_, rfl⟩
  . unfold vectorTypeQualifierPush
    rw [Util.Prog.bind_of_ok hpush]
    rfl
  . constructor
    . rw [← hw.items]
      exact hitems
    . exact hcapacity

-- `cv` holds as long as all the qualifiers before are `restrict`, `volatile` or `const`
def shownFrom (q : PushQualifier) (cv : Bool) (ts : List TypeQualifier) : List TypeQualifier :=
  if cv then
    shownQualifiers q ts
  else if q = .cvQualifier then
    []
  else
    ts

theorem shownFrom_of_skipped {q : PushQualifier} {cv : Bool} {t : TypeQualifier}
    (ts : List TypeQualifier) (h : isSkipped q cv t = true)
    : shownFrom q cv (t :: ts) = shownFrom q (cv && t.isCv) ts := by
  cases q <;> cases cv <;> cases hcv : t.isCv <;>
    simp_all [isSkipped, shownFrom, shownQualifiers]

theorem shownFrom_of_not_skipped {q : PushQualifier} {cv : Bool} {t : TypeQualifier}
    (ts : List TypeQualifier) (h : isSkipped q cv t = false)
    : shownFrom q cv (t :: ts) = t :: shownFrom q (cv && t.isCv) ts := by
  cases q <;> cases cv <;> cases hcv : t.isCv <;>
    simp_all [isSkipped, shownFrom, shownQualifiers]

-- the next qualifier that is shown is the next one
theorem head?_shownFrom {q : PushQualifier} {cv : Bool} {t : TypeQualifier} (ts : List TypeQualifier)
    (h : isSkipped q cv t = false)
    : (t.isCv && (shownFrom q (cv && t.isCv) ts).head?.any TypeQualifier.isCv)
        =
      (t.isCv && ts.head?.any TypeQualifier.isCv) := by
  cases hcv : t.isCv with
  | false => rfl
  | true =>
    cases q with
    | allQualifier => cases cv <;> rfl
    | nonCvQualifier =>
      have hfalse : cv = false := by
        simpa [isSkipped, hcv] using h
      rw [hfalse]
      rfl
    | cvQualifier =>
      have htrue : cv = true := by
        simpa [isSkipped, hcv] using h
      rw [htrue]
      cases ts with
      | nil => rfl
      | cons u ts =>
        cases hu : u.isCv <;> simp [shownFrom, shownQualifiers, hu]

theorem print_ne_nil (t : TypeQualifier) (name : List Byte) : t.print name ≠ [] := by
  cases t <;> simp [TypeQualifier.print, ascii]

theorem demPushQualifier_gives (t : TypeQualifier) : Gives (demPushStr (t.print [])) v () (v.push t.text) :=
  demPushStr_gives (print_ne_nil t [])

theorem extensionName_gives {extName : VectorStr} {t : TypeQualifier} {n : Nat} (h : t.hasName = false)
    : Gives (extensionName extName t n) v [] v := by
  unfold extensionName
  rw [if_neg (by simp [h])]
  exact Util.Yields.pure _ _

-- `substV` is there if the strings are
inductive HoldsOption : Option VectorStr → Option (List CString) → Prop where
  | none : HoldsOption none none
  | some {u : VectorStr} {strs : List CString} (h : Holds u strs) : HoldsOption (some u) (some strs)

def addQualified (p : Page) (skip : Bool) : Option (List CString) → Page
  | none => p
  | some strs => if skip then p else p.addSubst (.concat strs)

theorem pushSubstQualifier_evals {substV : Option VectorStr} {strs : Option (List CString)}
    (h : HoldsOption substV strs) (t : TypeQualifier) (next : Option TypeQualifier)
    : Evals (pushSubstQualifier substV t next (t.print [])) v fun substV' v' =>
        HoldsOption substV' (strs.map (· ++ [t.text]))
          ∧ v' = v.setPage (addQualified v.page (t.isCv && next.any TypeQualifier.isCv)
            (strs.map (· ++ [t.text]))) := by
  cases h with
  | none =>
    apply Util.Evaluates.pure
    exact ⟨.none, rfl⟩
  | @some u strs hu =>
    rw [pushSubstQualifier]
    apply Util.Evaluates.bind (vecPush_evals hu (t.print []) (t.print []).length)
    rintro w _ ⟨hw, rfl⟩
    split
    . next hskip =>
      apply Util.Evaluates.pure
      refine ⟨.some hw, ?_⟩
      rw [Option.map_some, addQualified, if_pos hskip]
      rfl
    . next hskip =>
      have hlen : (CString.concat (strs ++ [t.text])).strlen ≠ 0 := by
        rw [strlen_concat, List.map_append, List.sum_append]
        have ht := strlen_text_ne_zero t
        simp
        omega
      apply Util.Yields.bind (pushSubstV_gives hw hlen)
      apply Util.Evaluates.pure
      refine ⟨.some hw, ?_⟩
      rw [Option.map_some, addQualified, if_neg hskip]
      rfl

theorem pushQualifiers_cons (p : Page) (strs : Option (List CString)) (t : TypeQualifier)
    (ts : List TypeQualifier)
    : p.pushQualifiers strs (t :: ts)
        =
      (addQualified (p.push t.text) (t.isCv && ts.head?.any TypeQualifier.isCv)
        (strs.map (· ++ [t.text]))).pushQualifiers (strs.map (· ++ [t.text])) ts := by
  cases strs with
  | none => rfl
  | some strs =>
    rw [Page.pushQualifiers, Option.map_some, addQualified]
    split <;> rfl

@[simp]
theorem mode_addQualified (p : Page) (skip : Bool) (strs : Option (List CString))
    : (addQualified p skip strs).mode = p.mode := by
  cases strs with
  | none => rfl
  | some strs =>
    rw [addQualified]
    split <;> rfl

variable {extName : VectorStr} {t : TypeQualifier} {strs : Option (List CString)} {s : PushState}

theorem pushQualifier_of_skipped {next : Option TypeQualifier} (h : isSkipped v.page.mode s.cv t = true)
    : Gives (pushQualifier extName t next s) v { s with cv := s.cv && t.isCv } v := by
  apply Util.Evaluates.get_bind
  intro d hd
  rw [hd.mode, if_pos h]
  exact Util.Yields.pure _ _

theorem pushQualifier_of_not_skipped {next : Option TypeQualifier} (ht : t.hasName = false)
    (hs : HoldsOption s.substV strs) (h : isSkipped v.page.mode s.cv t = false)
    : Evals (pushQualifier extName t next s) v fun s' v' =>
        s'.cv = (s.cv && t.isCv) ∧ HoldsOption s'.substV (strs.map (· ++ [t.text]))
          ∧ v' = v.setPage (addQualified (v.page.push t.text) (t.isCv && next.any TypeQualifier.isCv)
            (strs.map (· ++ [t.text]))) := by
  apply Util.Evaluates.get_bind
  intro d hd
  rw [hd.mode, if_neg (by simp [h])]
  apply Util.Yields.bind (extensionName_gives ht)
  apply Util.Yields.bind (demPushQualifier_gives t)
  apply Util.Evaluates.bind (pushSubstQualifier_evals hs t next)
  rintro substV v' ⟨hsubst, rfl⟩
  apply Util.Evaluates.pure
  exact ⟨rfl, hsubst, rfl⟩

theorem pushQualifiers_gives {ts : List TypeQualifier} (hts : ∀ t ∈ ts, t.hasName = false)
    (hs : HoldsOption s.substV strs)
    : Gives (pushQualifiers extName ts s) v ()
        (v.setPage (v.page.pushQualifiers strs (shownFrom v.page.mode s.cv ts))) := by
  induction ts generalizing v strs s with
  | nil =>
    have hnil : shownFrom v.page.mode s.cv [] = [] := by
      cases s.cv <;> cases v.page.mode <;> rfl
    rw [hnil, Page.pushQualifiers]
    exact Util.Yields.pure _ _
  | cons t ts ih =>
    have ht : t.hasName = false := hts t List.mem_cons_self
    have hrest : ∀ t ∈ ts, t.hasName = false := fun u hu => hts u (List.mem_cons_of_mem _ hu)
    rw [pushQualifiers]
    cases hskip : isSkipped v.page.mode s.cv t with
    | true =>
      rw [shownFrom_of_skipped ts hskip]
      apply Util.Yields.bind (pushQualifier_of_skipped hskip)
      exact ih (s := { s with cv := s.cv && t.isCv }) hrest hs
    | false =>
      rw [shownFrom_of_not_skipped ts hskip, pushQualifiers_cons, head?_shownFrom ts hskip]
      apply Util.Evaluates.bind (pushQualifier_of_not_skipped ht hs hskip)
      rintro s' v' ⟨hcv, hs', rfl⟩
      generalize hp : addQualified (v.page.push t.text) (t.isCv && ts.head?.any TypeQualifier.isCv)
        (strs.map (· ++ [t.text])) = p at *
      have hmode : p.mode = v.page.mode := by
        rw [← hp, mode_addQualified]
        rfl
      rw [← hmode, ← hcv]
      exact ih (v := v.setPage p) hrest hs'

theorem hasName_reverse (hqs : ∀ t ∈ qs, t.hasName = false) : ∀ t ∈ qs.reverse, t.hasName = false :=
  fun t ht => hqs t (List.mem_reverse.1 ht)

theorem pushShown_nil (p : Page) (strs : Option (List CString)) : p.pushShown strs [] = p := by
  have hnil : shownQualifiers p.mode [].reverse = [] := by
    cases p.mode <;> rfl
  rw [Page.pushShown, hnil, Page.pushQualifiers]

theorem pushTypeQualifier_none (hw : HoldsQualifiers w qs) (hqs : ∀ t ∈ qs, t.hasName = false)
    : Gives (pushTypeQualifier w none) v () (v.setPage (v.page.pushShown none qs)) := by
  unfold pushTypeQualifier
  split
  . next hsize =>
    rw [Util.Growable.size, hw.items, List.length_eq_zero_iff] at hsize
    rw [hsize, pushShown_nil]
    exact Util.Yields.pure _ _
  . rw [hw.items]
    exact pushQualifiers_gives (hasName_reverse hqs) .none

theorem pushTypeQualifier_some (hw : HoldsQualifiers w qs) (hqs : ∀ t ∈ qs, t.hasName = false) (s : CString)
    : Gives (pushTypeQualifier w (some ⟨s, true⟩)) v () (v.setPage (v.page.pushShown (some [s]) qs)) := by
  unfold pushTypeQualifier
  split
  . next hsize =>
    rw [Util.Growable.size, hw.items, List.length_eq_zero_iff] at hsize
    rw [hsize, pushShown_nil]
    exact Util.Yields.pure _ _
  . apply Util.Evaluates.bind vectorStrInit_evals
    rintro u v ⟨hu, rfl⟩
    have hlen : Gives (Flat.strlen ⟨s, true⟩) v s.strlen v := by
      exact Util.Yields.pure _ _
    apply Util.Yields.bind hlen
    apply Util.Evaluates.bind (vecPush_evals hu s.bytes s.strlen)
    rintro u' _ ⟨hu', rfl⟩
    rw [copyString_self] at hu'
    rw [hw.items]
    exact pushQualifiers_gives (hasName_reverse hqs) (.some hu')

end Gnu3

end Demangle

end LibCxxRt
