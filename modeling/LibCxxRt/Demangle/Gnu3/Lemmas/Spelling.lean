import LibCxxRt.Demangle.Gnu3.Lemmas.Mangle

/-!
This module determines what each piece of the printer spells, and that the strings that it keeps for
substitution are the dictionary of the compiler.
-/

namespace LibCxxRt

namespace Demangle

namespace Gnu3

open Util

-- no component is the beginning of an earlier one
abbrev Components.Clean (d : Components) : Prop :=
  Dictionary.Clean List.isPrefixOf d

theorem isPrefixOf_self (s : List Byte) : s.isPrefixOf s = true :=
  List.isPrefixOf_iff_prefix.2 List.prefix_rfl

theorem addString_bytes {table : List CString} {s : CString}
    (h : Components.Clean (Dictionary.add (table.map CString.bytes) s.bytes))
    : (addString table s).map CString.bytes = Dictionary.add (table.map CString.bytes) s.bytes := by
  have hmap : (addString table s).map CString.bytes
      = Dictionary.addUncovered List.isPrefixOf (table.map CString.bytes) s.bytes := by
    unfold addString isFound Dictionary.addUncovered
    rw [List.any_map]
    show List.map _ (if table.any (fun t => s.bytes.isPrefixOf t.bytes) = true then _ else _)
      = if table.any (fun t => s.bytes.isPrefixOf t.bytes) = true then _ else _
    split
    . rfl
    . rw [List.map_append]
      rfl
  rw [hmap]
  exact Dictionary.addUncovered_eq isPrefixOf_self h

structure Agrees (p : Page) (d : Components) : Prop where
  subst : p.subst.map CString.bytes = d
  mode : p.mode = .allQualifier

-- what is printed is `s`, and it is not a name for a constructor if it is inside of template arguments
structure Spells (p p' : Page) (s : List Byte) : Prop where
  output : ∃ strs, p'.output = p.output ++ strs ∧ strs.flatMap CString.bytes = s
  depth : p'.depth = p.depth
  mem : p'.mem = p.mem
  sname : p.depth ≠ 0 → p'.sname = p.sname

variable {p p' p'' : Page} {s s' : List Byte} {d d' : Components}

namespace Agrees

theorem push (h : Agrees p d) (c : CString) : Agrees (p.push c) d :=
  ⟨h.subst, h.mode⟩

theorem addSubst (h : Agrees p d) {c : CString} (hclean : Components.Clean (Dictionary.add d c.bytes))
    : Agrees (p.addSubst c) (Dictionary.add d c.bytes) := by
  refine ⟨?_, h.mode⟩
  rw [← h.subst] at hclean ⊢
  exact addString_bytes hclean

theorem getElem? (h : Agrees p d) {i : Nat} (hi : d[i]? = some s) : ∃ c, p.subst[i]? = some c ∧ c.bytes = s := by
  rw [← h.subst, List.getElem?_map] at hi
  exact Option.map_eq_some_iff.1 hi

end Agrees

namespace Spells

theorem of_eq (houtput : p'.output = p.output) (hdepth : p'.depth = p.depth) (hmem : p'.mem = p.mem)
    (hsname : p'.sname = p.sname) : Spells p p' [] := by
  refine ⟨⟨[], ?_, rfl⟩, hdepth, hmem, fun _ => hsname⟩
  rw [houtput, List.append_nil]

theorem refl (p : Page) : Spells p p [] :=
  of_eq rfl rfl rfl rfl

theorem push (p : Page) (c : CString) : Spells p (p.push c) c.bytes := by
  refine ⟨⟨[c], rfl, ?_⟩, rfl, rfl, fun _ => rfl⟩
  simp

theorem addSubst (p : Page) (c : CString) : Spells p (p.addSubst c) [] :=
  of_eq rfl rfl rfl rfl

theorem addTmpl (p : Page) (c : CString) : Spells p (p.addTmpl c) [] :=
  of_eq rfl rfl rfl rfl

theorem trans (h : Spells p p' s) (h' : Spells p' p'' s') : Spells p p'' (s ++ s') := by
  rcases h.output with ⟨strs, houtput, hstrs⟩
  rcases h'.output with ⟨strs', houtput', hstrs'⟩
  refine ⟨⟨strs ++ strs', ?_, ?_⟩, h'.depth.trans h.depth, h'.mem.trans h.mem, ?_⟩
  . rw [houtput', houtput, List.append_assoc]
  . rw [List.flatMap_append, hstrs, hstrs']
  . intro hdepth
    rw [h'.sname (by rwa [h.depth]), h.sname hdepth]

theorem trans_nil (h : Spells p p' s) (h' : Spells p' p'' []) : Spells p p'' s := by
  have htrans := h.trans h'
  rwa [List.append_nil] at htrans

theorem since (h : Spells p p' s) : (p'.since p.output.length).bytes = s := by
  rcases h.output with ⟨strs, houtput, hstrs⟩
  rw [Page.since, houtput, List.drop_left, CString.bytes_concat, hstrs]

end Spells

-- the components that the qualifiers make of a type, the innermost qualifier is the first one
def addQualifiers (d : Components) (s : List Byte) : List TypeQualifier → Components
  | [] => d
  | q :: qs =>
    if q.isCv && qs.head?.any TypeQualifier.isCv then
      addQualifiers d (s ++ q.spelling) qs
    else
      addQualifiers (Dictionary.add d (s ++ q.spelling)) (s ++ q.spelling) qs

theorem prefix_addQualifiers (qs : List TypeQualifier) (d : Components) (s : List Byte)
    : d <+: addQualifiers d s qs := by
  induction qs generalizing d s with
  | nil =>
    rw [addQualifiers]
  | cons q qs ih =>
    rw [addQualifiers]
    split
    . exact ih _ _
    . exact (Dictionary.prefix_add _ _).trans (ih _ _)

theorem spells_pushQualifiers {qs : List TypeQualifier} {strs : List CString}
    (hstrs : strs.flatMap CString.bytes = s) (hp : Agrees p d)
    (hclean : Components.Clean (addQualifiers d s qs))
    : Spells p (p.pushQualifiers (some strs) qs) (qs.flatMap TypeQualifier.spelling)
        ∧ Agrees (p.pushQualifiers (some strs) qs) (addQualifiers d s qs) := by
  induction qs generalizing p strs d s with
  | nil =>
    rw [Page.pushQualifiers, addQualifiers]
    exact ⟨.refl p, hp⟩
  | cons q qs ih =>
    have hstrs' : (strs ++ [q.text]).flatMap CString.bytes = s ++ q.spelling := by
      rw [List.flatMap_append, hstrs]
      simp [TypeQualifier.spelling]
    have hpush := Spells.push p q.text
    rw [addQualifiers] at hclean ⊢
    rw [Page.pushQualifiers, List.flatMap_cons]
    split at hclean
    . next hcv =>
      rw [if_pos hcv, if_pos hcv]
      have h := ih hstrs' (hp.push q.text) hclean
      exact ⟨hpush.trans h.1, h.2⟩
    . next hcv =>
      rw [if_neg hcv, if_neg hcv]
      have hbytes : (CString.concat (strs ++ [q.text])).bytes = s ++ q.spelling := by
        rw [CString.bytes_concat, hstrs']
      have hadd : Agrees ((p.push q.text).addSubst (.concat (strs ++ [q.text])))
          (Dictionary.add d (s ++ q.spelling)) := by
        rw [← hbytes]
        apply (hp.push q.text).addSubst
        rw [hbytes]
        exact hclean.mono (prefix_addQualifiers _ _ _)
      have h := ih hstrs' hadd hclean
      exact ⟨(hpush.trans_nil (.addSubst _ _)).trans h.1, h.2⟩

-- the type is added as a whole if it is not built in
def addType (d : Components) (s : List Byte) (isBuiltin : Bool) : Components :=
  if isBuiltin then d else Dictionary.add d s

theorem spells_finish {n : Nat} {isBuiltin : Bool} {qs : List TypeQualifier} (hs : (p.since n).bytes = s)
    (hp : Agrees p d) (hclean : Components.Clean (addQualifiers (addType d s isBuiltin) s qs.reverse))
    : Spells p (p.finish n isBuiltin qs) (qs.reverse.flatMap TypeQualifier.spelling)
        ∧ Agrees (p.finish n isBuiltin qs) (addQualifiers (addType d s isBuiltin) s qs.reverse) := by
  have hstrs : [p.since n].flatMap CString.bytes = s := by
    simpa using hs
  unfold Page.finish
  dsimp only
  cases isBuiltin with
  | true =>
    rw [if_pos rfl, Page.pushShown, hp.mode]
    exact spells_pushQualifiers hstrs hp hclean
  | false =>
    have hadd : Agrees (p.addSubst (p.since n)) (Dictionary.add d s) := by
      rw [← hs]
      apply hp.addSubst
      rw [hs]
      exact hclean.mono (prefix_addQualifiers _ _ _)
    rw [if_neg Bool.false_ne_true, Page.pushShown, hadd.mode]
    have h := spells_pushQualifiers hstrs hadd hclean
    exact ⟨(Spells.addSubst p _).trans h.1, h.2⟩

-- what is printed is `s`, and the strings for substitution are the components up to here
structure Spelled (p p' : Page) (s : List Byte) (d : Components) : Prop extends Spells p p' s, Agrees p' d

theorem Spelled.of_spells (h : Spells p p' s) (h' : Agrees p' d) : Spelled p p' s d :=
  { h, h' with }

theorem Spelled.trans (h : Spelled p p' s d) (h' : Spelled p' p'' s' d') : Spelled p p'' (s ++ s') d' :=
  .of_spells (h.toSpells.trans h'.toSpells) h'.toAgrees

theorem Spelled.addSubst {c : CString} (h : Spells p p' s) (hp : Agrees p' d)
    (hclean : Components.Clean (Dictionary.add d c.bytes))
    : Spelled p (p'.addSubst c) s (Dictionary.add d c.bytes) :=
  .of_spells (h.trans_nil (.addSubst _ _)) (hp.addSubst hclean)

-- the name of the class around
def Page.className (p : Page) : Option (List Byte) :=
  p.sname.map fun s => s.1.bytes

theorem className_congr (h : p'.sname = p.sname) : p'.className = p.className := by
  rw [Page.className, h, Page.className]

theorem Unqualified.spelled_print (u : Unqualified) (hp : Agrees p d) : Spelled p (u.print p) u.spelling d := by
  cases u with
  | identifier id =>
    show Spelled p (p.pushIdentifier id) id.shown.bytes d
    unfold Page.pushIdentifier
    dsimp only
    split
    . next hdepth =>
      have hpush := Spells.push p id.shown
      exact ⟨⟨hpush.output, rfl, rfl, fun h => absurd hdepth h⟩, ⟨hp.subst, hp.mode⟩⟩
    . exact .of_spells (.push p _) (hp.push _)
  | operator e he => exact .of_spells (.push p _) (hp.push _)

theorem Unqualified.className_print (u : Unqualified) (hdepth : p.depth = 0)
    : (u.print p).className = u.className p.className := by
  cases u with
  | identifier id =>
    show (p.pushIdentifier id).className = some id.shown.bytes
    unfold Page.pushIdentifier
    dsimp only
    have hpush : (p.push id.shown).depth = 0 := hdepth
    rw [if_pos hpush]
    rfl
  | operator e he => rfl

theorem number_eq_some {i : Nat} (h : number d s = some i) : s ≠ [] ∧ d[i]? = some s := by
  unfold number at h
  split at h
  . cases h
  . next hs =>
    refine ⟨?_, Dictionary.getElem?_of_idxOf? h⟩
    rintro rfl
    exact hs rfl

theorem pushEntry_spelled {i : Nat} (hp : Agrees p d) (hi : number d s = some i)
    : ∃ p', p.pushEntry p.subst[i]? = some p' ∧ Spelled p p' s d ∧ p'.sname = p.sname := by
  rcases number_eq_some hi with ⟨hs, hi⟩
  rcases hp.getElem? hi with ⟨c, hc, rfl⟩
  refine ⟨p.push c, ?_, .of_spells (.push p c) (hp.push c), rfl⟩
  have hlen : c.strlen ≠ 0 := by
    intro h
    exact hs (List.length_eq_zero_iff.1 h)
  rw [hc, Page.pushEntry, Option.bind_some, if_neg hlen]

theorem builtin_spelled (c : CString) {qs : List TypeQualifier} (hp : Agrees p d)
    (hclean : Components.Clean (addQualifiers d c.bytes qs.reverse))
    : Spelled p ((p.push c).finish p.output.length true qs) (c.bytes ++ qs.reverse.flatMap TypeQualifier.spelling)
        (addQualifiers d c.bytes qs.reverse) := by
  have hpush := Spells.push p c
  have hbuiltin : addType d c.bytes true = d := rfl
  have hfinish := spells_finish hpush.since (hp.push c) (by rw [hbuiltin]; exact hclean)
  exact .of_spells (hpush.trans hfinish.1) hfinish.2

theorem finish_spelled {qs : List TypeQualifier} (h : Spells p p' s) (hp : Agrees p' d')
    (hd : Dictionary.add d' s = d) (hclean : Components.Clean (addQualifiers d s qs.reverse))
    : Spelled p (p'.finish p.output.length false qs) (s ++ qs.reverse.flatMap TypeQualifier.spelling)
        (addQualifiers d s qs.reverse) := by
  have hadd : addType d' s false = d := hd
  have hfinish := spells_finish h.since hp (by rw [hadd]; exact hclean)
  rw [hadd] at hfinish
  exact .of_spells (h.trans hfinish.1) hfinish.2

theorem component_spelled {qs : List TypeQualifier} {o : Option (Ty × Components)} {r : Ty × Components}
    (h : component s d o = some r) (hp : Agrees p d) (hclean : Components.Clean (addQualifiers r.2 s qs.reverse))
    (ho : ∀ r' : Ty × Components, o = some r'
      → Components.Clean (addQualifiers (Dictionary.add r'.2 s) s qs.reverse)
      → ∃ p', r'.1.print qs p = some p' ∧ Spelled p p' (s ++ qs.reverse.flatMap TypeQualifier.spelling)
          (addQualifiers (Dictionary.add r'.2 s) s qs.reverse))
    : ∃ p', r.1.print qs p = some p' ∧ Spelled p p' (s ++ qs.reverse.flatMap TypeQualifier.spelling)
        (addQualifiers r.2 s qs.reverse) := by
  unfold component at h
  split at h
  . next i hi =>
    cases h
    rcases pushEntry_spelled hp hi with ⟨p₁, hentry, h₁, _⟩
    have hadd : Dictionary.add d s = d := Dictionary.add_of_mem (List.mem_of_getElem? (number_eq_some hi).2)
    refine ⟨p₁.finish p.output.length false qs, ?_, finish_spelled h₁.toSpells h₁.toAgrees hadd hclean⟩
    rw [Ty.print, hentry, Option.map_some]
  . rcases Option.map_eq_some_iff.1 h with ⟨r', hr', rfl⟩
    exact ho r' hr' hclean

theorem spelled_printStd (u : Unqualified) (hp : Agrees p d)
    (hclean : Components.Clean (Dictionary.add d (spell "std::" ++ u.spelling)))
    : (printStd u p).1.flatMap CString.bytes = spell "std::" ++ u.spelling
        ∧ Spelled p (printStd u p).2 (spell "std::" ++ u.spelling) (Dictionary.add d (spell "std::" ++ u.spelling))
        ∧ (p.depth = 0 → (printStd u p).2.className = u.className p.className) := by
  have hu := u.spelled_print (hp.push (lit "std::"))
  have hstrs : (printStd u p).1.flatMap CString.bytes = spell "std::" ++ u.spelling := by
    unfold printStd
    dsimp only
    rw [List.flatMap_cons, List.flatMap_cons, hu.since]
    simp [spell]
  have hbytes : (CString.concat (printStd u p).1).bytes = spell "std::" ++ u.spelling := by
    rw [CString.bytes_concat, hstrs]
  refine ⟨hstrs, ?_, ?_⟩
  . have hprint := (Spells.push p (lit "std::")).trans hu.toSpells
    have hadd := hprint.trans_nil (.addSubst _ (.concat (printStd u p).1))
    have hagrees := hu.toAgrees.addSubst (c := .concat (printStd u p).1) (by rw [hbytes]; exact hclean)
    rw [hbytes] at hagrees
    exact .of_spells hadd hagrees
  . intro hdepth
    exact u.className_print (p := p.push (lit "std::")) hdepth

-- with its arguments, the template is added once more
theorem printArgsOption_spelled {args : List Ty} {strs : List CString} (hargs : args ≠ [])
    (hprint : printArgs args p = some p') (hp : Spelled p p' s' d) (hstrs : strs.flatMap CString.bytes = s)
    (hclean : Components.Clean (Dictionary.add d (s ++ s')))
    : ∃ p'', printArgsOption strs args p = some p'' ∧ Spelled p p'' s' (Dictionary.add d (s ++ s'))
        ∧ p''.sname = p'.sname := by
  have hbytes : (CString.concat (strs ++ [p'.since p.output.length])).bytes = s ++ s' := by
    rw [CString.bytes_concat, List.flatMap_append, hstrs, List.flatMap_singleton, hp.since]
  cases args with
  | nil => exact absurd rfl hargs
  | cons t ts =>
    refine ⟨p'.addSubst (.concat (strs ++ [p'.since p.output.length])), ?_, ?_, rfl⟩
    . rw [printArgsOption_cons, hprint, Option.map_some]
    . rw [← hbytes] at hclean ⊢
      exact .addSubst hp.toSpells hp.toAgrees hclean

-- between the brackets the depth is not zero
theorem spelled_brackets {p₁ : Page} (h : Spelled (p.enterArgs.push (lit "<")) p₁ s d)
    : Spelled p (p₁.push (lit ">")).leaveArgs (spell "<" ++ s ++ spell ">") d
        ∧ (p₁.push (lit ">")).leaveArgs.sname = p.sname := by
  have hsname : p₁.sname = p.sname := h.sname (Nat.succ_ne_zero _)
  have hdepth : p₁.depth - 1 = p.depth := by
    rw [h.depth]
    exact Nat.add_sub_cancel _ _
  have hprint := ((Spells.push p.enterArgs (lit "<")).trans h.toSpells).trans (.push _ (lit ">"))
  exact ⟨⟨⟨hprint.output, hdepth, hprint.mem, fun _ => hsname⟩, ⟨h.subst, h.mode⟩⟩, hsname⟩

theorem spells_pushDimension (dimension : Option Nat) (p : Page)
    : Spells p (pushDimension dimension p) (spellDimension dimension) := by
  cases dimension with
  | none => exact .push p (lit " []")
  | some n =>
    have hnumeral : (copyString (numeral 10 n) (numeral 10 n).length).bytes = numeral 10 n :=
      bytes_copyString_of_nonzero (numeral_nonzero n)
    have hpush := Spells.push (p.push (lit " [")) (copyString (numeral 10 n) (numeral 10 n).length)
    rw [hnumeral] at hpush
    have h := (Spells.push p (lit " [")).trans (hpush.trans (.push _ (lit "]")))
    exact h

theorem Agrees.pushDimension (h : Agrees p d) (dimension : Option Nat) : Agrees (pushDimension dimension p) d := by
  cases dimension with
  | none => exact h.push _
  | some n => exact ((h.push _).push _).push _

theorem addMem_none (p : Page) : p.addMem .none = p := by
  simp [Page.addMem, MemQualifiers.none]

theorem Agrees.addMem (h : Agrees p d) (q : MemQualifiers) : Agrees (p.addMem q) d :=
  ⟨h.subst, h.mode⟩

theorem pushAbbreviation_spelled {e : String × String × Option String} (he : e.2.2.isSome = false) (hp : Agrees p d)
    : Spelled p (p.pushAbbreviation e) (spell e.2.1) d ∧ (p.pushAbbreviation e).sname = p.sname := by
  have hnone : e.2.2 = none := by simpa using he
  have hsname : (p.pushAbbreviation e).sname = p.sname := by
    show (e.2.2.bind Page.ofLiteral).or p.sname = p.sname
    rw [hnone, Option.bind_none, Option.none_or]
  have hpush := Spells.push p (lit e.2.1)
  exact ⟨⟨⟨hpush.output, rfl, rfl, fun _ => hsname⟩, ⟨hp.subst, hp.mode⟩⟩, hsname⟩

theorem ctorDtor_spelled {name : Option (List Byte)} {e : String × String} (he : e ∈ ctorDtorNames)
    (hp : Agrees p d) (hname : p.className = name) (hsome : name.isNone = false)
    : ∃ p', (Part.ctorDtor e he).print p = some p' ∧ Spelled p p' (spell e.2 ++ name.getD []) d
        ∧ p'.sname = p.sname := by
  subst hname
  unfold Page.className at hsome ⊢
  cases hsname : p.sname with
  | none =>
    rw [hsname] at hsome
    cases hsome
  | some c =>
    refine ⟨(p.push (lit e.2)).push c.1, ?_, ?_, hsname⟩
    . rw [Part.print, hsname, Option.map_some]
    . exact .of_spells ((Spells.push p (lit e.2)).trans (.push _ c.1)) ((hp.push _).push _)

end Gnu3

end Demangle

end LibCxxRt
