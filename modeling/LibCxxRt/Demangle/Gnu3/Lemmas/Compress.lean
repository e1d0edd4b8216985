import LibCxxRt.Demangle.Gnu3.Lemmas.Spelling

/-!
This module determines that the printer spells the types and names that a compiler has mangled.
-/

namespace LibCxxRt

namespace Demangle

namespace Gnu3

open Util

variable {p p' p'' : Page} {s s' : List Byte} {d d' : Components}

def nextScope (scope : List Byte) : List Part → List Byte
  | [] => scope
  | part :: _ => spellScope scope part

theorem compressParts_zero (scope : List Byte) (name : Option (List Byte)) (part : Part) (parts : List Part)
    (d : Components)
    : compressParts 0 scope name (part :: parts) d
        =
      (part.compress scope name (addScope d scope)).bind fun r =>
        (compressParts 0 (spellScope scope part ++ part.spelling name) (part.className name) parts r.2).map
          fun r' => (r.1 ++ r'.1, r'.2) := by
  rw [compressParts]

theorem addScope_of_ne_nil {scope : List Byte} (h : scope ≠ []) (d : Components)
    : addScope d scope = Dictionary.add d scope := by
  rw [addScope, if_neg (by simpa using h)]

theorem prefix_compressParts {parts : List Part} {scope : List Byte} {name : Option (List Byte)}
    {r : List Part × Components} (hscope : scope ≠ []) (h : compressParts 0 scope name parts d = some r)
    : Dictionary.add d scope <+: Dictionary.add r.2 (spellParts scope name parts) := by
  cases parts with
  | nil =>
    rw [compressParts] at h
    cases h
    rw [spellParts]
  | cons part parts =>
    rw [compressParts_zero, addScope_of_ne_nil hscope] at h
    rcases Option.bind_eq_some_iff.1 h with ⟨r₁, hr₁, h⟩
    rcases Option.map_eq_some_iff.1 h with ⟨r₂, hr₂, rfl⟩
    apply (part.adds_compress hr₁).isPrefix.trans
    apply (adds_compressParts parts hr₂).isPrefix.trans
    exact Dictionary.prefix_add _ _

-- the parts behind a scope stay what they are
theorem isUnqualified_compress {part : Part} {scope : List Byte} {name : Option (List Byte)}
    {r : List Part × Components} (hscope : scope.isEmpty = false) (h : part.compress scope name d = some r)
    : ∃ part', r.1 = [part'] ∧ part'.isUnqualified = part.isUnqualified := by
  cases part with
  | unqualified u =>
    rw [Part.compress] at h
    cases h
    exact ⟨_, rfl, rfl⟩
  | std u args =>
    rw [Part.compress, hscope] at h
    cases h
  | abbreviation e he args =>
    rw [Part.compress, hscope] at h
    cases h
  | args ts =>
    rw [Part.compress] at h
    split at h
    . cases h
    . rcases Option.map_eq_some_iff.1 h with ⟨r', _, rfl⟩
      exact ⟨_, rfl, rfl⟩
  | subst i =>
    rw [Part.compress] at h
    cases h
  | param i =>
    rw [Part.compress] at h
    cases h
  | ctorDtor e he =>
    rw [Part.compress] at h
    split at h
    . cases h
    . cases h
      exact ⟨_, rfl, rfl⟩

theorem isUnqualified_compressParts {parts : List Part} {scope : List Byte} {name : Option (List Byte)}
    {r : List Part × Components} (hscope : scope.isEmpty = false) (h : compressParts 0 scope name parts d = some r)
    : r.1.head?.any Part.isUnqualified = parts.head?.any Part.isUnqualified := by
  cases parts with
  | nil =>
    rw [compressParts] at h
    cases h
    rfl
  | cons part parts =>
    rw [compressParts_zero] at h
    rcases Option.bind_eq_some_iff.1 h with ⟨r₁, hr₁, h⟩
    rcases Option.map_eq_some_iff.1 h with ⟨r₂, hr₂, rfl⟩
    rcases isUnqualified_compress hscope hr₁ with ⟨part', hpart, hkind⟩
    rw [hpart]
    exact hkind

theorem pushScope_spelled {parts parts' : List Part} {strs : List CString} (hs : s.isEmpty = false)
    (hkind : parts'.head?.any Part.isUnqualified = parts.head?.any Part.isUnqualified)
    (hstrs : strs.flatMap CString.bytes = s) (hp : Agrees p d)
    : ∃ sep, nextScope s parts = s ++ sep
        ∧ (pushScope parts' strs p).1.flatMap CString.bytes = nextScope s parts
        ∧ Spelled p (pushScope parts' strs p).2 sep d
        ∧ (pushScope parts' strs p).2.sname = p.sname := by
  have hnext : nextScope s parts = if parts.head?.any Part.isUnqualified then s ++ spell "::" else s := by
    cases parts with
    | nil => rfl
    | cons part parts =>
      rw [nextScope, spellScope, hs, List.head?_cons, Option.any_some]
      cases part.isUnqualified <;> rfl
  rw [hnext]
  unfold pushScope
  rw [hkind]
  split
  . refine ⟨spell "::", rfl, ?_, .of_spells (.push p _) (hp.push _), rfl⟩
    rw [List.flatMap_append, hstrs, List.flatMap_singleton]
    rfl
  . refine ⟨[], (List.append_nil s).symm, hstrs, .of_spells (.refl p) hp, rfl⟩

-- the printer goes on with a page on which the parts so far are printed and added
def Printed (strs : List CString) (parts : List Part) (p : Page) (strs' : List CString) (p' : Page) : Prop :=
  ∀ rest, printParts strs (parts ++ rest) p = printParts (pushScope rest strs' p').1 rest (pushScope rest strs' p').2

theorem printed_singleton {part : Part} {strs : List CString} {p₁ : Page} {s₀ : List Byte}
    (hpart : part.print p = some p₁) (hprint : Spelled p p₁ s d) (hstrs : strs.flatMap CString.bytes = s₀)
    (hclean : Components.Clean (Dictionary.add d (s₀ ++ s)))
    : ∃ strs' p', Printed strs [part] p strs' p' ∧ strs'.flatMap CString.bytes = s₀ ++ s
        ∧ Spelled p p' s (Dictionary.add d (s₀ ++ s)) ∧ p'.sname = p₁.sname := by
  have hbytes : (strs ++ [p₁.since p.output.length]).flatMap CString.bytes = s₀ ++ s := by
    rw [List.flatMap_append, hstrs, List.flatMap_singleton, hprint.since]
  rw [← hbytes, ← CString.bytes_concat] at hclean
  refine ⟨strs ++ [p₁.since p.output.length], p₁.addSubst (.concat (strs ++ [p₁.since p.output.length])),
    ?_, hbytes, ?_, rfl⟩
  . intro rest
    rw [List.singleton_append, printParts, hpart, Option.bind_some]
  . have hadd := Spelled.addSubst hprint.toSpells hprint.toAgrees hclean
    rw [CString.bytes_concat, hbytes] at hadd
    exact hadd

-- a part that is a component itself is added again
theorem printed_component {part : Part} {strs : List CString} {p₁ : Page} (hpart : part.print p = some p₁)
    (hprint : Spelled p p₁ s (Dictionary.add d s)) (hstrs : strs.flatMap CString.bytes = [])
    (hclean : Components.Clean (Dictionary.add d s))
    : ∃ strs' p', Printed strs [part] p strs' p' ∧ strs'.flatMap CString.bytes = s
        ∧ Spelled p p' s (Dictionary.add d s) ∧ p'.sname = p₁.sname := by
  have hadd : Dictionary.add (Dictionary.add d s) ([] ++ s) = Dictionary.add d s := by
    rw [List.nil_append, Dictionary.add_add_self]
  have hprinted := printed_singleton hpart hprint hstrs (by rw [hadd]; exact hclean)
  rw [hadd, List.nil_append] at hprinted
  exact hprinted

theorem printed_subst {i : Nat} {strs : List CString} (hp : Agrees p d) (hi : number d s = some i)
    (hstrs : strs.flatMap CString.bytes = []) (hclean : Components.Clean d)
    : ∃ strs' p', Printed strs [.subst i] p strs' p' ∧ strs'.flatMap CString.bytes = s ∧ Spelled p p' s d := by
  have hadd : Dictionary.add d s = d := Dictionary.add_of_mem (List.mem_of_getElem? (number_eq_some hi).2)
  rcases pushEntry_spelled hp hi with ⟨p₁, hentry, h₁, _⟩
  have hprint : (Part.subst i).print p = some p₁ := by rw [Part.print, hentry]
  rw [← hadd] at h₁ hclean
  rcases printed_component hprint h₁ hstrs hclean with ⟨strs', p', hprinted, hbytes, hspelled, _⟩
  rw [hadd] at hspelled
  exact ⟨strs', p', hprinted, hbytes, hspelled⟩

theorem Printed.args {part : Part} {ts : List Ty} {strs strs' strs'' : List CString}
    (h : Printed strs [part] p strs' p') (h' : Printed strs' [.args ts] p' strs'' p'')
    : Printed strs [part, .args ts] p strs'' p'' := by
  intro rest
  have hargs := h (.args ts :: rest)
  rw [pushScope_of_not_isUnqualified rfl] at hargs
  exact hargs.trans (h' rest)

theorem compressTypes_ne_nil {ts : List Ty} {r : List Ty × Components} (hts : ts ≠ [])
    (h : compressTypes ts d = some r) : r.1 ≠ [] := by
  cases ts with
  | nil => exact absurd rfl hts
  | cons t ts =>
    rw [compressTypes] at h
    rcases Option.bind_eq_some_iff.1 h with ⟨r₁, _, h⟩
    rcases Option.map_eq_some_iff.1 h with ⟨r₂, _, rfl⟩
    exact List.cons_ne_nil _ _

-- the name of a function that is an operator is not a component
def Name.isComponent : Name → Bool
  | .source u _ => !isOperatorName u.text
  | _ => true

def addName (d : Components) (n : Name) : Components :=
  if n.isComponent then Dictionary.add d n.spelling else d

theorem add_addName (d : Components) (n : Name)
    : Dictionary.add (addName d n) n.spelling = Dictionary.add d n.spelling := by
  unfold addName
  split
  . exact Dictionary.add_add_self _ _
  . rfl

theorem addName_of_isComponent {n : Name} (h : n.isComponent = true) (d : Components)
    : addName d n = Dictionary.add d n.spelling := by
  rw [addName, if_pos h]

theorem prefix_addName (d : Components) (n : Name) : addName d n <+: Dictionary.add d n.spelling := by
  unfold addName
  split
  . exact List.prefix_rfl
  . exact Dictionary.prefix_add _ _

theorem quals_of_isClass {n : Name} (h : n.isClass = true) : n.quals = .none := by
  cases n with
  | nested quals parts =>
    rw [Name.isClass, Bool.and_eq_true, beq_iff_eq] at h
    exact h.1
  | source u args => rfl
  | std u args => rfl
  | abbreviation e he args => rfl

theorem knownScope_nil (parts : List Part) (scope : List Byte) (name : Option (List Byte))
    : knownScope [] scope name parts = none := by
  induction parts generalizing scope name with
  | nil =>
    rw [knownScope]
  | cons part parts ih =>
    rw [knownScope, ih]
    simp [number]

-- the name for constructors is the one of the class, which is in the first part only if that is not a number
structure Named (p : Page) (name : Option (List Byte)) (scope : List Byte) (d : Components) : Prop where
  depth : p.depth = 0
  className : p.className = name
  start : scope = [] → d = []

theorem Named.next {part : Part} {name : Option (List Byte)} {scope scope' : List Byte} (h : Named p name scope d)
    (hp : Spells p p' s) (hname : p'.className = part.className name) (hsname : p''.sname = p'.sname)
    (hdepth : p''.depth = p'.depth) (hscope : scope' ≠ [])
    : Named p'' (part.className name) scope' d' where
  depth := by rw [hdepth, hp.depth, h.depth]
  className := by rw [Page.className, hsname, ← hname, Page.className]
  start hnil := absurd hnil hscope

theorem spellScope_nil (part : Part) : spellScope [] part = [] := by
  rfl

-- the pages on which a list of template arguments is spelled
def SpellsArgs (ts args : List Ty) (d d' : Components) : Prop :=
  ∀ p, Agrees p d → ∃ p', printArgs ts p = some p' ∧ Spelled p p' (spellArgs args) d' ∧ p'.sname = p.sname

theorem template_spelled {args : List Ty} {r : List Ty × Components} {strs : List CString} (hargs : args ≠ [])
    (hr : compressTypes args d = some r) (hspells : SpellsArgs r.1 args d r.2) (hp : Spelled p p' s d)
    (hstrs : strs.flatMap CString.bytes = s) (hclean : Components.Clean (Dictionary.add r.2 (s ++ spellArgs args)))
    : ∃ p'', printArgsOption strs r.1 p' = some p''
        ∧ Spelled p p'' (s ++ spellArgs args) (Dictionary.add r.2 (s ++ spellArgs args)) ∧ p''.sname = p'.sname := by
  rcases hspells p' hp.toAgrees with ⟨p₁, hprint, hspelled, hsname⟩
  rcases printArgsOption_spelled (compressTypes_ne_nil hargs hr) hprint hspelled hstrs hclean with
    ⟨p₂, hoption, hspelled', hsname'⟩
  exact ⟨p₂, hoption, hp.trans hspelled', hsname'.trans hsname⟩

theorem stdTemplate_spelled (u : Unqualified) {args : List Ty} {r : List Ty × Components} (hargs : args ≠ [])
    (hr : compressTypes args (Dictionary.add d (spell "std::" ++ u.spelling)) = some r)
    (hspells : SpellsArgs r.1 args (Dictionary.add d (spell "std::" ++ u.spelling)) r.2) (hp : Agrees p d)
    (hclean : Components.Clean (Dictionary.add r.2 (spell "std::" ++ u.spelling ++ spellArgs args)))
    : ∃ p', printArgsOption (printStd u p).1 r.1 (printStd u p).2 = some p'
        ∧ Spelled p p' (spell "std::" ++ u.spelling ++ spellArgs args)
            (Dictionary.add r.2 (spell "std::" ++ u.spelling ++ spellArgs args))
        ∧ (p.depth = 0 → p'.className = u.className p.className) := by
  have hclean' := (hclean.mono (Dictionary.prefix_add _ _)).mono (adds_compressTypes args hr).isPrefix
  rcases spelled_printStd u hp hclean' with ⟨hstrs, hstd, hclassName⟩
  rcases template_spelled hargs hr hspells hstd hstrs hclean with ⟨p', hprint, hspelled, hsname⟩
  refine ⟨p', hprint, hspelled, ?_⟩
  intro hdepth
  rw [className_congr hsname, hclassName hdepth]

theorem abbreviation_spelled {e : String × String × Option String} (he : e.2.2.isSome = false) {args : List Ty}
    {r : List Ty × Components} (hargs : args ≠ []) (hr : compressTypes args d = some r)
    (hspells : SpellsArgs r.1 args d r.2) (hp : Agrees p d)
    (hclean : Components.Clean (Dictionary.add r.2 (spell e.2.1 ++ spellArgs args)))
    : ∃ p', printArgsOption [lit e.2.1] r.1 (p.pushAbbreviation e) = some p'
        ∧ Spelled p p' (spell e.2.1 ++ spellArgs args) (Dictionary.add r.2 (spell e.2.1 ++ spellArgs args))
        ∧ p'.sname = p.sname := by
  have hstrs : [lit e.2.1].flatMap CString.bytes = spell e.2.1 := List.flatMap_singleton _ _
  have habbreviation := pushAbbreviation_spelled he hp
  rcases template_spelled hargs hr hspells habbreviation.1 hstrs hclean with ⟨p', hprint, hspelled, hsname⟩
  exact ⟨p', hprint, hspelled, hsname.trans habbreviation.2⟩

mutual

-- the page agrees with the dictionary before and after, and `qs` are the qualifiers around the type
theorem Ty.spelled_compress (t : Ty) (qs : List TypeQualifier) {p : Page} {d : Components} {r : Ty × Components}
    (h : t.compress (qs.getLast?.any TypeQualifier.isCv) d = some r) (hp : Agrees p d)
    (hclean : Components.Clean (addQualifiers r.2 t.spelling qs.reverse))
    : ∃ p', r.1.print qs p = some p' ∧ Spelled p p' (t.spelling ++ qs.reverse.flatMap TypeQualifier.spelling)
        (addQualifiers r.2 t.spelling qs.reverse) := by
  cases t with
  | builtin e he =>
    rw [Ty.compress] at h
    cases h
    exact ⟨_, by rw [Ty.print], builtin_spelled (lit e.2) hp hclean⟩
  | builtinD e he =>
    rw [Ty.compress] at h
    cases h
    exact ⟨_, by rw [Ty.print], builtin_spelled (lit e.2) hp hclean⟩
  | void =>
    rw [Ty.compress] at h
    cases h
    exact ⟨_, by rw [Ty.print], builtin_spelled (lit "void") hp hclean⟩
  | qualified q t =>
    have hreverse : (qs ++ [q]).reverse = q :: qs.reverse := List.reverse_concat
    have hhead : qs.reverse.head?.any TypeQualifier.isCv = qs.getLast?.any TypeQualifier.isCv := by
      rw [List.head?_reverse]
    have hlast : (qs ++ [q]).getLast?.any TypeQualifier.isCv = q.isCv := by
      rw [List.getLast?_concat, Option.any_some]
    have hstep (r' : Ty × Components) (hr' : t.compress q.isCv d = some r') (d' : Components)
        (hd : addQualifiers r'.2 t.spelling (q :: qs.reverse) = d') (hclean : Components.Clean d')
        : ∃ p', (Ty.qualified q r'.1).print qs p = some p'
            ∧ Spelled p p' (t.spelling ++ q.spelling ++ qs.reverse.flatMap TypeQualifier.spelling) d' := by
      subst hd
      have hih := t.spelled_compress (qs ++ [q]) (by rw [hlast]; exact hr') hp (by rw [hreverse]; exact hclean)
      rw [hreverse, List.flatMap_cons, ← List.append_assoc] at hih
      rw [Ty.print]
      exact hih
    rw [Ty.spelling] at hclean ⊢
    rw [Ty.compress] at h
    -- the qualifier belongs to those around it, or the type is a component with it
    split at h
    . next hcv =>
      rcases Option.map_eq_some_iff.1 h with ⟨r', hr', rfl⟩
      apply hstep r' hr' _ _ hclean
      rw [addQualifiers, if_pos]
      rw [hhead, Bool.and_comm]
      exact hcv
    . next hcv =>
      apply component_spelled h hp hclean
      intro r'' hr'' hclean'
      rcases Option.map_eq_some_iff.1 hr'' with ⟨r', hr', rfl⟩
      apply hstep r' hr' _ _ hclean'
      rw [addQualifiers, if_neg]
      rw [hhead, Bool.and_comm]
      exact hcv
  | named n =>
    rw [Ty.compress] at h
    rw [Ty.spelling] at hclean ⊢
    split at h
    . next hclass =>
      apply component_spelled h hp hclean
      intro r'' hr'' hclean'
      rcases Option.map_eq_some_iff.1 hr'' with ⟨r', hr', rfl⟩
      have hclean'' : Components.Clean (addName r'.2 n) :=
        hclean'.mono ((prefix_addName _ _).trans (prefix_addQualifiers _ _ _))
      rcases n.spelled_compress hr' hp hclean'' (.inl hclass) with ⟨p₁, hprint, hspells, hagrees⟩
      have hmem : p.addMem n.quals = p := by
        rw [quals_of_isClass hclass, addMem_none]
      rw [hmem] at hspells
      refine ⟨p₁.finish p.output.length false qs, ?_, finish_spelled hspells hagrees (add_addName r'.2 n) hclean'⟩
      rw [Ty.print, hprint, Option.map_some]
    . cases h
  | array dimension t =>
    rw [Ty.compress] at h
    rw [Ty.spelling] at hclean ⊢
    apply component_spelled h hp hclean
    intro r'' hr'' hclean'
    rcases Option.map_eq_some_iff.1 hr'' with ⟨r', hr', rfl⟩
    have hclean'' : Components.Clean r'.2 :=
      hclean'.mono ((Dictionary.prefix_add _ _).trans (prefix_addQualifiers _ _ _))
    rcases t.spelled_compress [] hr' hp hclean'' with ⟨p₁, hprint, hspelled⟩
    rw [List.reverse_nil, List.flatMap_nil, List.append_nil, addQualifiers] at hspelled
    have hdimension := hspelled.toSpells.trans (spells_pushDimension dimension p₁)
    refine ⟨(pushDimension dimension p₁).finish p.output.length false qs, ?_,
      finish_spelled hdimension (hspelled.toAgrees.pushDimension dimension) rfl hclean'⟩
    rw [Ty.print, hprint, Option.map_some]
  | subst i =>
    rw [Ty.compress] at h
    cases h
  | param i =>
    rw [Ty.compress] at h
    cases h
  | function ret params =>
    rw [Ty.compress] at h
    cases h

theorem Name.spelled_compress (n : Name) {p : Page} {d : Components} {r : Name × Components}
    (h : n.compress d = some r) (hp : Agrees p d) (hclean : Components.Clean (addName r.2 n))
    (hname : n.isClass = true ∨ Named p none [] d)
    : ∃ p', r.1.print p = some p' ∧ Spells (p.addMem n.quals) p' n.spelling ∧ Agrees p' (addName r.2 n) := by
  cases n with
  | source u args =>
    have hu := u.spelled_print hp
    have hsince := u.since_print p
    have hmem : p.addMem (Name.source u args).quals = p := addMem_none p
    rw [hmem, Name.spelling]
    rw [Name.compress] at h
    split at h
    . next hargs =>
      cases h
      rw [List.isEmpty_iff] at hargs
      subst hargs
      by_cases hoperator : isOperatorName u.text = true
      . have hnone : addName d (.source u []) = d := by
          rw [addName, if_neg]
          simpa [Name.isComponent] using hoperator
        rw [spellArgs, List.append_nil, hnone]
        refine ⟨u.print p, ?_, hu.toSpells, hu.toAgrees⟩
        rw [Name.print, hsince, if_pos hoperator]
      . have hcomponent : (Name.source u []).isComponent = true := by simpa [Name.isComponent] using hoperator
        rw [addName_of_isComponent hcomponent, Name.spelling, spellArgs, List.append_nil] at hclean ⊢
        have hadd := Spelled.addSubst (c := u.text) hu.toSpells hu.toAgrees hclean
        refine ⟨(u.print p).addSubst u.text, ?_, hadd.toSpells, hadd.toAgrees⟩
        rw [Name.print, hsince, if_neg hoperator, printArgsOption]
    . next hargs =>
      split at h
      . cases h
      . next hnew =>
        rcases Option.map_eq_some_iff.1 h with ⟨r', hr', rfl⟩
        have hne : args ≠ [] := by simpa using hargs
        have hoperator : ¬ isOperatorName u.text = true := fun hu => hnew (.inl hu)
        have hcomponent : (Name.source u args).isComponent = true := by simpa [Name.isComponent] using hoperator
        rw [addName_of_isComponent hcomponent, Name.spelling] at hclean ⊢
        have hclean' := hclean.mono (Dictionary.prefix_add _ _)
        have hprefix := (adds_compressTypes args hr').isPrefix
        have hadd := Spelled.addSubst (c := u.text) hu.toSpells hu.toAgrees (hclean'.mono hprefix)
        have hspells := spellsArgs_compress args hne hr' hclean'
        have hstrs : [u.text].flatMap CString.bytes = u.spelling := List.flatMap_singleton _ _
        rcases template_spelled hne hr' hspells hadd hstrs hclean with ⟨p', hprint, hspelled, _⟩
        refine ⟨p', ?_, hspelled.toSpells, hspelled.toAgrees⟩
        rw [Name.print, hsince, if_neg hoperator]
        exact hprint
  | std u args =>
    rw [addName_of_isComponent rfl, Name.spelling] at hclean ⊢
    have hmem : p.addMem (Name.std u args).quals = p := addMem_none p
    rw [hmem]
    rw [Name.compress] at h
    split at h
    . next hargs =>
      cases h
      rw [List.isEmpty_iff] at hargs
      subst hargs
      rw [spellArgs, List.append_nil] at hclean ⊢
      have hstd := (spelled_printStd u hp hclean).2.1
      exact ⟨_, by rw [Name.print, printArgsOption], hstd.toSpells, hstd.toAgrees⟩
    . next hargs =>
      split at h
      . cases h
      . rcases Option.map_eq_some_iff.1 h with ⟨r', hr', rfl⟩
        have hne : args ≠ [] := by simpa using hargs
        have hspells := spellsArgs_compress args hne hr' (hclean.mono (Dictionary.prefix_add _ _))
        rcases stdTemplate_spelled u hne hr' hspells hp hclean with ⟨p', hprint, hspelled, _⟩
        exact ⟨p', by rw [Name.print, hprint], hspelled.toSpells, hspelled.toAgrees⟩
  | abbreviation e he args =>
    rw [addName_of_isComponent rfl, Name.spelling] at hclean ⊢
    have hmem : p.addMem (Name.abbreviation e he args).quals = p := addMem_none p
    rw [hmem]
    rw [Name.compress] at h
    split at h
    . cases h
    . next hargs =>
      rcases Option.map_eq_some_iff.1 h with ⟨r', hr', rfl⟩
      simp only [Bool.or_eq_true, not_or, Bool.not_eq_true] at hargs
      have hne : args ≠ [] := by simpa using hargs.1
      have hspells := spellsArgs_compress args hne hr' (hclean.mono (Dictionary.prefix_add _ _))
      rcases abbreviation_spelled hargs.2 hne hr' hspells hp hclean with ⟨p', hprint, hspelled, _⟩
      exact ⟨p', by rw [Name.print, hprint], hspelled.toSpells, hspelled.toAgrees⟩
  | nested quals parts =>
    have hparts : parts ≠ [] := by
      rintro rfl
      rw [Name.compress] at h
      cases h
    rw [addName_of_isComponent rfl, Name.spelling] at hclean ⊢
    rw [Name.compress, if_neg (by simpa using hparts)] at h
    split at h
    . next hknown =>
      rcases Option.map_eq_some_iff.1 h with ⟨r', hr', rfl⟩
      have hctor : parts.any Part.isCtorDtor = false := by
        rcases hname with hclass | hnamed
        . rw [Name.isClass, Bool.and_eq_true] at hclass
          simpa using hclass.2
        . rw [hnamed.start rfl, knownScope_nil] at hknown
          cases hknown
      rcases printKnown_spelled parts hknown hr' (hp.addMem quals) hclean hctor with ⟨p', hprint, hspelled⟩
      exact ⟨p', by rw [Name.print]; exact hprint, hspelled.toSpells, hspelled.toAgrees⟩
    . rcases Option.map_eq_some_iff.1 h with ⟨r', hr', rfl⟩
      have hname' : parts.any Part.isCtorDtor = false ∨ Named (p.addMem quals) none [] d := by
        rcases hname with hclass | hnamed
        . left
          rw [Name.isClass, Bool.and_eq_true] at hclass
          simpa using hclass.2
        . exact .inr ⟨hnamed.depth, hnamed.className, hnamed.start⟩
      have hscope : ([] : List CString).flatMap CString.bytes = nextScope [] parts := by
        cases parts <;> rfl
      rcases printParts_spelled parts hr' (hp.addMem quals) hscope (.inr hparts) hclean hname' with
        ⟨p', s, hprint, hspelled, hs⟩
      have hnext : spellParts [] none parts = s := by
        rw [hs, ← hscope]
        rfl
      rw [hnext] at hspelled ⊢
      exact ⟨p', by rw [Name.print]; exact hprint, hspelled.toSpells, hspelled.toAgrees⟩

theorem Part.spelled_compress (part : Part) {scope : List Byte} {name : Option (List Byte)} {p : Page}
    {d : Components} {r : List Part × Components} {strs : List CString} (h : part.compress scope name d = some r)
    (hp : Agrees p d) (hstrs : strs.flatMap CString.bytes = spellScope scope part)
    (hclean : Components.Clean (Dictionary.add r.2 (spellScope scope part ++ part.spelling name)))
    (hname : part.isCtorDtor = false ∨ Named p name scope d)
    : ∃ strs' p', Printed strs r.1 p strs' p'
        ∧ strs'.flatMap CString.bytes = spellScope scope part ++ part.spelling name
        ∧ Spelled p p' (part.spelling name) (Dictionary.add r.2 (spellScope scope part ++ part.spelling name))
        ∧ (Named p name scope d → p'.className = part.className name) := by
  cases part with
  | unqualified u =>
    rw [Part.compress] at h
    cases h
    rw [Part.spelling] at hclean ⊢
    have hprint : (Part.unqualified u).print p = some (u.print p) := by rw [Part.print]
    rcases printed_singleton hprint (u.spelled_print hp) hstrs hclean with
      ⟨strs', p', hprinted, hbytes, hspelled, hsname⟩
    refine ⟨strs', p', hprinted, hbytes, hspelled, ?_⟩
    intro hnamed
    rw [className_congr hsname, u.className_print hnamed.depth, hnamed.className]
    rfl
  | std u args =>
    rw [Part.compress] at h
    split at h
    . cases h
    next hscope =>
    have hnil : scope = [] := by simpa using hscope
    subst hnil
    rw [spellScope_nil] at hstrs
    rw [spellScope_nil, List.nil_append, Part.spelling] at hclean ⊢
    split at h
    . next hargs =>
      cases h
      rw [List.isEmpty_iff] at hargs
      subst hargs
      rw [spellArgs, List.append_nil] at hclean ⊢
      have hstd := spelled_printStd u hp hclean
      have hprint : (Part.std u []).print p = some (printStd u p).2 := by rw [Part.print, printArgsOption]
      rcases printed_component hprint hstd.2.1 hstrs hclean with ⟨strs', p', hprinted, hbytes, hspelled, hsname⟩
      refine ⟨strs', p', hprinted, hbytes, hspelled, ?_⟩
      intro hnamed
      rw [className_congr hsname, hstd.2.2 hnamed.depth, hnamed.className]
      rfl
    . next hargs =>
      have hne : args ≠ [] := by simpa using hargs
      split at h
      . next i hi =>
        rcases Option.map_eq_some_iff.1 h with ⟨r', hr', rfl⟩
        have hprefix := (adds_compressTypes args hr').isPrefix
        have hclean' := hclean.mono (Dictionary.prefix_add _ _)
        rcases printed_subst hp hi hstrs (hclean'.mono hprefix) with ⟨strs₁, p₁, hprinted₁, hbytes₁, h₁⟩
        rcases spellsArgs_compress args hne hr' hclean' p₁ h₁.toAgrees with ⟨p₂, hargs', h₂, _⟩
        have hprint : (Part.args r'.1).print p₁ = some p₂ := by rw [Part.print, hargs']
        rcases printed_singleton hprint h₂ hbytes₁ hclean with ⟨strs₂, p₃, hprinted₂, hbytes₂, h₃, _⟩
        refine ⟨strs₂, p₃, hprinted₁.args hprinted₂, hbytes₂, h₁.trans h₃, ?_⟩
        intro hnamed
        rw [hnamed.start rfl] at hi
        simp [number] at hi
      . rcases Option.map_eq_some_iff.1 h with ⟨r', hr', rfl⟩
        have hspells := spellsArgs_compress args hne hr' (hclean.mono (Dictionary.prefix_add _ _))
        rcases stdTemplate_spelled u hne hr' hspells hp hclean with ⟨p₁, hprint, h₁, hclassName⟩
        have hprint' : (Part.std u r'.1).print p = some p₁ := by rw [Part.print, hprint]
        rcases printed_component hprint' h₁ hstrs hclean with ⟨strs', p', hprinted, hbytes, hspelled, hsname⟩
        refine ⟨strs', p', hprinted, hbytes, hspelled, ?_⟩
        intro hnamed
        rw [className_congr hsname, hclassName hnamed.depth, hnamed.className]
        rfl
  | abbreviation e he args =>
    rw [Part.compress] at h
    split at h
    . cases h
    next hcond =>
    simp only [Bool.or_eq_true, not_or, Bool.not_eq_true, Bool.not_eq_false'] at hcond
    have hnil : scope = [] := by simpa using hcond.1.1
    subst hnil
    rw [spellScope_nil] at hstrs
    rw [spellScope_nil, List.nil_append, Part.spelling] at hclean ⊢
    rcases Option.map_eq_some_iff.1 h with ⟨r', hr', rfl⟩
    have hne : args ≠ [] := by simpa using hcond.1.2
    have hspells := spellsArgs_compress args hne hr' (hclean.mono (Dictionary.prefix_add _ _))
    rcases abbreviation_spelled hcond.2 hne hr' hspells hp hclean with ⟨p₁, hprint, h₁, hsname₁⟩
    have hprint' : (Part.abbreviation e he r'.1).print p = some p₁ := by rw [Part.print, hprint]
    rcases printed_component hprint' h₁ hstrs hclean with ⟨strs', p', hprinted, hbytes, hspelled, hsname⟩
    refine ⟨strs', p', hprinted, hbytes, hspelled, ?_⟩
    intro hnamed
    rw [className_congr (hsname.trans hsname₁), hnamed.className]
    rfl
  | args ts =>
    rw [Part.compress] at h
    split at h
    . cases h
    next hcond =>
    simp only [Bool.or_eq_true, not_or, Bool.not_eq_true] at hcond
    have hne : ts ≠ [] := by simpa using hcond.2
    rcases Option.map_eq_some_iff.1 h with ⟨r', hr', rfl⟩
    rw [Part.spelling] at hclean ⊢
    rcases spellsArgs_compress ts hne hr' (hclean.mono (Dictionary.prefix_add _ _)) p hp with
      ⟨p₁, hargs, h₁, hsname₁⟩
    have hprint : (Part.args r'.1).print p = some p₁ := by rw [Part.print, hargs]
    rcases printed_singleton hprint h₁ hstrs hclean with ⟨strs', p', hprinted, hbytes, hspelled, hsname⟩
    refine ⟨strs', p', hprinted, hbytes, hspelled, ?_⟩
    intro hnamed
    rw [className_congr (hsname.trans hsname₁), hnamed.className]
    rfl
  | subst i =>
    rw [Part.compress] at h
    cases h
  | param i =>
    rw [Part.compress] at h
    cases h
  | ctorDtor e he =>
    rw [Part.compress] at h
    split at h
    . cases h
    next hcond =>
    simp only [Bool.or_eq_true, not_or, Bool.not_eq_true] at hcond
    cases h
    rw [Part.spelling] at hclean ⊢
    have hnamed : Named p name scope d := by
      rcases hname with hname | hname
      . cases hname
      . exact hname
    rcases ctorDtor_spelled he hp hnamed.className hcond.2 with ⟨p₁, hprint, h₁, hsname₁⟩
    rcases printed_singleton hprint h₁ hstrs hclean with ⟨strs', p', hprinted, hbytes, hspelled, hsname⟩
    refine ⟨strs', p', hprinted, hbytes, hspelled, ?_⟩
    intro _
    rw [className_congr (hsname.trans hsname₁), hnamed.className]
    rfl

theorem printParts_spelled (parts : List Part) {scope : List Byte} {name : Option (List Byte)} {p : Page}
    {d : Components} {r : List Part × Components} {strs : List CString}
    (h : compressParts 0 scope name parts d = some r) (hp : Agrees p (addScope d scope))
    (hstrs : strs.flatMap CString.bytes = nextScope scope parts) (hne : scope ≠ [] ∨ parts ≠ [])
    (hclean : Components.Clean (Dictionary.add r.2 (spellParts scope name parts)))
    (hname : parts.any Part.isCtorDtor = false ∨ Named p name scope (addScope d scope))
    : ∃ p' s, printParts strs r.1 p = some p'
        ∧ Spelled p p' s (Dictionary.add r.2 (spellParts scope name parts))
        ∧ spellParts scope name parts = nextScope scope parts ++ s := by
  cases parts with
  | nil =>
    have hscope : scope ≠ [] := by simpa using hne
    rw [compressParts] at h
    cases h
    rw [addScope_of_ne_nil hscope] at hp
    rw [spellParts, nextScope]
    refine ⟨p, [], ?_, .of_spells (.refl p) hp, (List.append_nil scope).symm⟩
    rw [printParts, if_neg]
    intro hnil
    rw [List.isEmpty_iff] at hnil
    rw [hnil] at hstrs
    exact hscope hstrs.symm
  | cons part parts =>
    rw [compressParts_zero] at h
    rcases Option.bind_eq_some_iff.1 h with ⟨r₁, hr₁, h⟩
    rcases Option.map_eq_some_iff.1 h with ⟨r₂, hr₂, rfl⟩
    have hscope : spellScope scope part ++ part.spelling name ≠ [] := by
      intro hnil
      exact part.spelling_ne_nil hr₁ (List.append_eq_nil_iff.1 hnil).2
    have hempty : (spellScope scope part ++ part.spelling name).isEmpty = false := by simpa using hscope
    rw [spellParts] at hclean ⊢
    have hname₁ : part.isCtorDtor = false ∨ Named p name scope (addScope d scope) := by
      rcases hname with hctor | hnamed
      . rw [List.any_cons, Bool.or_eq_false_iff] at hctor
        exact .inl hctor.1
      . exact .inr hnamed
    have hprefix := prefix_compressParts hscope hr₂
    rcases part.spelled_compress hr₁ hp hstrs (hclean.mono hprefix) hname₁ with
      ⟨strs₁, p₁, hprinted, hbytes, h₁, hclassName⟩
    rcases pushScope_spelled hempty (isUnqualified_compressParts hempty hr₂) hbytes h₁.toAgrees with
      ⟨sep, hsep, hnext, h₂, hsname⟩
    rw [← addScope_of_ne_nil hscope] at h₂
    have hname₂ : parts.any Part.isCtorDtor = false
        ∨ Named (pushScope r₂.1 strs₁ p₁).2 (part.className name) (spellScope scope part ++ part.spelling name)
            (addScope r₁.2 (spellScope scope part ++ part.spelling name)) := by
      rcases hname with hctor | hnamed
      . rw [List.any_cons, Bool.or_eq_false_iff] at hctor
        exact .inl hctor.2
      . exact .inr (hnamed.next h₁.toSpells (hclassName hnamed) hsname h₂.depth hscope)
    rcases printParts_spelled parts hr₂ h₂.toAgrees hnext (.inl hscope) hclean hname₂ with
      ⟨p', s, hprint, h₃, hs⟩
    refine ⟨p', part.spelling name ++ (sep ++ s), (hprinted r₂.1).trans hprint,
      h₁.trans (h₂.trans h₃), ?_⟩
    rw [hs, hsep, nextScope, List.append_assoc, List.append_assoc]

theorem printKnown_spelled (parts : List Part) {k i : Nat} {scope : List Byte} {name : Option (List Byte)} {p : Page}
    {d : Components} {r : List Part × Components} (hknown : knownScope d scope name parts = some (k, i))
    (h : compressParts k scope name parts d = some r) (hp : Agrees p d)
    (hclean : Components.Clean (Dictionary.add r.2 (spellParts scope name parts)))
    (hctor : parts.any Part.isCtorDtor = false)
    : ∃ p', printParts [] (.subst i :: r.1) p = some p'
        ∧ Spelled p p' (spellParts scope name parts) (Dictionary.add r.2 (spellParts scope name parts)) := by
  cases parts with
  | nil =>
    rw [knownScope] at hknown
    cases hknown
  | cons part parts =>
    rw [List.any_cons, Bool.or_eq_false_iff] at hctor
    rw [spellParts] at hclean ⊢
    rw [knownScope] at hknown
    split at hknown
    . next hknown' =>
      cases hknown
      rw [compressParts] at h
      exact printKnown_spelled parts hknown' h hp hclean hctor.2
    . rcases Option.map_eq_some_iff.1 hknown with ⟨i, hi, heq⟩
      cases heq
      rw [compressParts] at h
      have hscope := (number_eq_some hi).1
      have hempty : (spellScope scope part ++ part.spelling name).isEmpty = false := by simpa using hscope
      have hadd : addScope d (spellScope scope part ++ part.spelling name) = d := by
        rw [addScope_of_ne_nil hscope]
        exact Dictionary.add_of_mem (List.mem_of_getElem? (number_eq_some hi).2)
      have hprefix := (Dictionary.prefix_add d _).trans (prefix_compressParts hscope h)
      have hnil : ([] : List CString).flatMap CString.bytes = [] := rfl
      rcases printed_subst hp hi hnil (hclean.mono hprefix) with ⟨strs₁, p₁, hprinted, hbytes, h₁⟩
      rcases pushScope_spelled hempty (isUnqualified_compressParts hempty h) hbytes h₁.toAgrees with
        ⟨sep, hsep, hnext, h₂, _⟩
      have hp₂ : Agrees (pushScope r.1 strs₁ p₁).2 (addScope d (spellScope scope part ++ part.spelling name)) := by
        rw [hadd]
        exact h₂.toAgrees
      rcases printParts_spelled parts h hp₂ hnext (.inl hscope) hclean (.inl hctor.2) with
        ⟨p', s, hprint, h₃, hs⟩
      refine ⟨p', (hprinted r.1).trans hprint, ?_⟩
      rw [hs, hsep, List.append_assoc] at h₃ ⊢
      exact h₁.trans (h₂.trans h₃)

theorem spellsArgs_compress (args : List Ty) {d : Components} {r : List Ty × Components} (hargs : args ≠ [])
    (h : compressTypes args d = some r) (hclean : Components.Clean r.2) : SpellsArgs r.1 args d r.2 := by
  intro p hp
  cases args with
  | nil => exact absurd rfl hargs
  | cons t ts =>
    rw [compressTypes] at h
    rcases Option.bind_eq_some_iff.1 h with ⟨r₁, hr₁, h⟩
    rcases Option.map_eq_some_iff.1 h with ⟨r₂, hr₂, rfl⟩
    have hopen : Agrees (p.enterArgs.push (lit "<")) d := ⟨hp.subst, hp.mode⟩
    have hprefix := (adds_compressTypes ts hr₂).isPrefix
    rcases t.spelled_compress [] hr₁ hopen (hclean.mono hprefix) with ⟨p₁, hprint₁, h₁⟩
    rw [List.reverse_nil, List.flatMap_nil, List.append_nil, addQualifiers] at h₁
    have htmpl : Agrees (p₁.addTmpl (p₁.since (p.output.length + 1))) r₁.2 := ⟨h₁.subst, h₁.mode⟩
    rcases printArgList_spelled ts hr₂ htmpl hclean with ⟨p₂, hprint₂, h₂⟩
    have hinside : Spelled (p.enterArgs.push (lit "<")) p₂ (t.spelling ++ spellTypes ts) r₂.2 :=
      .of_spells ((h₁.toSpells.trans_nil (.addTmpl _ _)).trans h₂.toSpells) h₂.toAgrees
    have hbrackets := spelled_brackets hinside
    rw [← List.append_assoc] at hbrackets
    refine ⟨(p₂.push (lit ">")).leaveArgs, ?_, hbrackets.1, hbrackets.2⟩
    rw [printArgs, hprint₁, Option.bind_some, hprint₂, Option.map_some]

theorem printArgList_spelled (ts : List Ty) {p : Page} {d : Components} {r : List Ty × Components}
    (h : compressTypes ts d = some r) (hp : Agrees p d) (hclean : Components.Clean r.2)
    : ∃ p', printArgList r.1 p = some p' ∧ Spelled p p' (spellTypes ts) r.2 := by
  cases ts with
  | nil =>
    rw [compressTypes] at h
    cases h
    exact ⟨p, by rw [printArgList], .of_spells (.refl p) hp⟩
  | cons t ts =>
    rw [compressTypes] at h
    rcases Option.bind_eq_some_iff.1 h with ⟨r₁, hr₁, h⟩
    rcases Option.map_eq_some_iff.1 h with ⟨r₂, hr₂, rfl⟩
    have hprefix := (adds_compressTypes ts hr₂).isPrefix
    rcases t.spelled_compress [] hr₁ (hp.push (lit ", ")) (hclean.mono hprefix) with ⟨p₁, hprint₁, h₁⟩
    rw [List.reverse_nil, List.flatMap_nil, List.append_nil, addQualifiers] at h₁
    have htmpl : Agrees (p₁.addTmpl (p₁.since (p.output.length + 1))) r₁.2 := ⟨h₁.subst, h₁.mode⟩
    rcases printArgList_spelled ts hr₂ htmpl hclean with ⟨p₂, hprint₂, h₂⟩
    have hfirst := h₁.toSpells.trans_nil (.addTmpl p₁ (p₁.since (p.output.length + 1)))
    have hlist := (Spells.push p (lit ", ")).trans (hfirst.trans h₂.toSpells)
    rw [← List.append_assoc] at hlist
    refine ⟨p₂, ?_, .of_spells hlist h₂.toAgrees⟩
    rw [printArgList, hprint₁, Option.bind_some, hprint₂]

end

end Gnu3

end Demangle

end LibCxxRt
