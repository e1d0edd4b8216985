import LibCxxRt.Demangle.Gnu3.Lemmas.Printer
import LibCxxRt.Demangle.Gnu3.Mangle

/-!
This module determines what a compiler adds to its dictionary of components: they are behind the old ones, and
they are parts of what it mangles.
-/

namespace LibCxxRt

namespace Demangle

namespace Gnu3

open Util

-- the new components are shorter than `n`
structure Adds (d d' : Components) (n : Nat) : Prop where
  isPrefix : d <+: d'
  length_lt : ∀ s ∈ d', s ∈ d ∨ s.length < n

namespace Adds

variable {d d' d'' : Components} {m n : Nat}

theorem refl (d : Components) (n : Nat) : Adds d d n :=
  ⟨List.prefix_rfl, fun _ hs => .inl hs⟩

theorem trans (h : Adds d d' n) (h' : Adds d' d'' n) : Adds d d'' n := by
  refine ⟨h.isPrefix.trans h'.isPrefix, ?_⟩
  intro s hs
  rcases h'.length_lt s hs with hs | hs
  . exact h.length_lt s hs
  . exact .inr hs

theorem mono (h : Adds d d' m) (hn : m ≤ n) : Adds d d' n := by
  refine ⟨h.isPrefix, ?_⟩
  intro s hs
  rcases h.length_lt s hs with hs | hs
  . exact .inl hs
  . exact .inr (Nat.lt_of_lt_of_le hs hn)

theorem add (d : Components) {s : List Byte} (hs : s.length < n) : Adds d (Dictionary.add d s) n := by
  refine ⟨Dictionary.prefix_add d s, ?_⟩
  intro s' hs'
  rcases Dictionary.mem_of_mem_add hs' with hs' | rfl
  . exact .inl hs'
  . exact .inr hs

theorem addScope (d : Components) {scope : List Byte} (hscope : scope.length < n)
    : Adds d (addScope d scope) n := by
  unfold Gnu3.addScope
  split
  . exact refl d n
  . exact add d hscope

theorem component {s : List Byte} {o : Option (Ty × Components)} {r : Ty × Components}
    (h : component s d o = some r) (ho : ∀ r, o = some r → Adds d r.2 n) (hs : s.length < n)
    : Adds d r.2 n := by
  unfold Gnu3.component at h
  split at h
  . cases h
    exact refl d n
  . rcases Option.map_eq_some_iff.1 h with ⟨r, hr, rfl⟩
    exact (ho r hr).trans (add r.2 hs)

end Adds

@[simp]
theorem length_spell_open : (spell "<").length = 1 := by
  decide

@[simp]
theorem length_spell_close : (spell ">").length = 1 := by
  decide

@[simp]
theorem length_spell_comma : (spell ", ").length = 2 := by
  decide

theorem Unqualified.spelling_ne_nil (u : Unqualified) : u.spelling ≠ [] := by
  intro h
  apply u.strlen_text
  rw [CString.strlen, ← spelling, h]
  rfl

theorem spell_ne_nil {s : String} (h : (lit s).strlen ≠ 0) : spell s ≠ [] :=
  List.ne_nil_of_length_pos (Nat.pos_of_ne_zero h)

theorem length_spellTypes_cons (t : Ty) (ts : List Ty)
    : (spellTypes (t :: ts)).length = t.spelling.length + (spellTypes ts).length + 2 := by
  rw [spellTypes, List.length_append, List.length_append, length_spell_comma]
  omega

theorem length_spellArgs {args : List Ty} (hargs : args ≠ [])
    : (spellArgs args).length = (spellTypes args).length := by
  cases args with
  | nil => exact absurd rfl hargs
  | cons t ts =>
    simp only [spellArgs, List.length_append, length_spell_open, length_spell_close, length_spellTypes_cons]
    omega

theorem length_spellArgs_pos {args : List Ty} (hargs : args ≠ []) : 2 ≤ (spellArgs args).length := by
  cases args with
  | nil => exact absurd rfl hargs
  | cons t ts =>
    rw [length_spellArgs hargs, length_spellTypes_cons]
    omega

theorem Adds.args {args : List Ty} {d d' : Components} (h : Adds d d' (spellTypes args).length) (s : List Byte)
    (hargs : args ≠ []) : Adds d d' (s ++ spellArgs args).length := by
  apply h.mono
  rw [List.length_append, length_spellArgs hargs]
  exact Nat.le_add_left _ _

theorem Adds.template {args : List Ty} {d d' : Components} {s : List Byte}
    (h : Adds (Dictionary.add d s) d' (spellTypes args).length) (hargs : args ≠ [])
    : Adds d d' (s ++ spellArgs args).length := by
  have hpos := length_spellArgs_pos hargs
  apply (Adds.add d _).trans (h.args s hargs)
  rw [List.length_append]
  omega

theorem length_le_spellScope (scope : List Byte) (part : Part) : scope.length ≤ (spellScope scope part).length := by
  unfold spellScope
  split
  . exact Nat.le_refl _
  . rw [List.length_append]
    exact Nat.le_add_right _ _

theorem length_le_spellParts (parts : List Part) (scope : List Byte) (name : Option (List Byte))
    : scope.length ≤ (spellParts scope name parts).length := by
  induction parts generalizing scope name with
  | nil =>
    rw [spellParts]
  | cons part parts ih =>
    rw [spellParts]
    apply Nat.le_trans (length_le_spellScope scope part)
    apply Nat.le_trans _ (ih _ _)
    rw [List.length_append]
    exact Nat.le_add_right _ _

theorem Part.spelling_ne_nil {part : Part} {scope : List Byte} {name : Option (List Byte)} {d : Components}
    {r : List Part × Components} (h : part.compress scope name d = some r) : part.spelling name ≠ [] := by
  cases part with
  | unqualified u =>
    rw [spelling]
    exact u.spelling_ne_nil
  | std u args =>
    rw [spelling]
    intro hnil
    exact u.spelling_ne_nil (List.append_eq_nil_iff.1 (List.append_eq_nil_iff.1 hnil).1).2
  | abbreviation e he args =>
    rw [spelling]
    intro hnil
    exact spell_ne_nil (strlen_abbreviation he) (List.append_eq_nil_iff.1 hnil).1
  | args ts =>
    rw [compress] at h
    split at h
    . cases h
    . next hts =>
      rw [spelling]
      apply List.ne_nil_of_length_pos
      have hne : ts ≠ [] := by
        rintro rfl
        simp at hts
      exact Nat.lt_of_lt_of_le (by decide) (length_spellArgs_pos hne)
  | subst i =>
    rw [compress] at h
    cases h
  | param i =>
    rw [compress] at h
    cases h
  | ctorDtor e he =>
    rw [spelling]
    intro hnil
    exact spell_ne_nil (strlen_ctorDtor he) (List.append_eq_nil_iff.1 hnil).1

mutual

theorem Ty.adds_compress (t : Ty) {isCv : Bool} {d : Components} {r : Ty × Components}
    (h : t.compress isCv d = some r) : Adds d r.2 (t.spelling.length + 1) := by
  cases t with
  | builtin e he =>
    rw [Ty.compress] at h
    cases h
    exact .refl d _
  | builtinD e he =>
    rw [Ty.compress] at h
    cases h
    exact .refl d _
  | void =>
    rw [Ty.compress] at h
    cases h
    exact .refl d _
  | qualified q t =>
    have hlength : t.spelling.length + 1 ≤ (t.spelling ++ q.spelling).length + 1 := by
      rw [List.length_append]
      omega
    have hm (r : Ty × Components) (hr : ((t.compress q.isCv d).map fun r => (.qualified q r.1, r.2)) = some r)
        : Adds d r.2 ((t.spelling ++ q.spelling).length + 1) := by
      rcases Option.map_eq_some_iff.1 hr with ⟨r', hr', rfl⟩
      exact (t.adds_compress hr').mono hlength
    rw [Ty.compress] at h
    rw [Ty.spelling]
    split at h
    . exact hm r h
    . exact .component h hm (Nat.lt_succ_self _)
  | named n =>
    rw [Ty.compress] at h
    rw [Ty.spelling]
    split at h
    . apply Adds.component h _ (Nat.lt_succ_self _)
      intro r hr
      rcases Option.map_eq_some_iff.1 hr with ⟨r', hr', rfl⟩
      exact (n.adds_compress hr').mono (Nat.le_succ _)
    . cases h
  | array dimension t =>
    rw [Ty.compress] at h
    rw [Ty.spelling]
    apply Adds.component h _ (Nat.lt_succ_self _)
    intro r hr
    rcases Option.map_eq_some_iff.1 hr with ⟨r', hr', rfl⟩
    apply (t.adds_compress hr').mono
    rw [List.length_append]
    omega
  | subst i =>
    rw [Ty.compress] at h
    cases h
  | param i =>
    rw [Ty.compress] at h
    cases h
  | function ret params =>
    rw [Ty.compress] at h
    cases h

theorem Name.adds_compress (n : Name) {d : Components} {r : Name × Components}
    (h : n.compress d = some r) : Adds d r.2 n.spelling.length := by
  cases n with
  | source u args =>
    rw [Name.compress] at h
    split at h
    . cases h
      exact .refl d _
    . next hargs =>
      split at h
      . cases h
      . rcases Option.map_eq_some_iff.1 h with ⟨r, hr, rfl⟩
        rw [Name.spelling]
        exact (adds_compressTypes args hr).template (by simpa using hargs)
  | std u args =>
    rw [Name.compress] at h
    split at h
    . cases h
      exact .refl d _
    . next hargs =>
      split at h
      . cases h
      . rcases Option.map_eq_some_iff.1 h with ⟨r, hr, rfl⟩
        rw [Name.spelling]
        exact (adds_compressTypes args hr).template (by simpa using hargs)
  | abbreviation e he args =>
    rw [Name.compress] at h
    split at h
    . cases h
    . next hargs =>
      rcases Option.map_eq_some_iff.1 h with ⟨r, hr, rfl⟩
      have hne : args ≠ [] := by
        rintro rfl
        simp at hargs
      rw [Name.spelling]
      exact (adds_compressTypes args hr).args _ hne
  | nested quals parts =>
    rw [Name.compress] at h
    rw [Name.spelling]
    split at h
    . cases h
    . split at h
      . rcases Option.map_eq_some_iff.1 h with ⟨r, hr, rfl⟩
        exact adds_compressParts parts hr
      . rcases Option.map_eq_some_iff.1 h with ⟨r, hr, rfl⟩
        exact adds_compressParts parts hr

theorem Part.adds_compress (part : Part) {scope : List Byte} {name : Option (List Byte)} {d : Components}
    {r : List Part × Components} (h : part.compress scope name d = some r)
    : Adds d r.2 (part.spelling name).length := by
  cases part with
  | unqualified u =>
    rw [Part.compress] at h
    cases h
    exact .refl d _
  | std u args =>
    rw [Part.compress] at h
    split at h
    . cases h
    split at h
    . cases h
      exact .refl d _
    . next hargs =>
      have hne : args ≠ [] := by simpa using hargs
      rw [Part.spelling]
      split at h
      . rcases Option.map_eq_some_iff.1 h with ⟨r, hr, rfl⟩
        exact (adds_compressTypes args hr).args _ hne
      . rcases Option.map_eq_some_iff.1 h with ⟨r, hr, rfl⟩
        exact (adds_compressTypes args hr).template hne
  | abbreviation e he args =>
    rw [Part.compress] at h
    split at h
    . cases h
    . next hargs =>
      rcases Option.map_eq_some_iff.1 h with ⟨r, hr, rfl⟩
      have hne : args ≠ [] := by
        rintro rfl
        simp at hargs
      rw [Part.spelling]
      exact (adds_compressTypes args hr).args _ hne
  | args ts =>
    rw [Part.compress] at h
    split at h
    . cases h
    . next hts =>
      rcases Option.map_eq_some_iff.1 h with ⟨r, hr, rfl⟩
      have hne : ts ≠ [] := by
        rintro rfl
        simp at hts
      apply (adds_compressTypes ts hr).mono
      rw [Part.spelling, length_spellArgs hne]
  | subst i =>
    rw [Part.compress] at h
    cases h
  | param i =>
    rw [Part.compress] at h
    cases h
  | ctorDtor e he =>
    rw [Part.compress] at h
    split at h
    . cases h
    . cases h
      exact .refl d _

theorem adds_compressParts (parts : List Part) {k : Nat} {scope : List Byte} {name : Option (List Byte)}
    {d : Components} {r : List Part × Components} (h : compressParts k scope name parts d = some r)
    : Adds d r.2 (spellParts scope name parts).length := by
  cases parts with
  | nil =>
    rw [compressParts] at h
    cases h
    exact .refl d _
  | cons part parts =>
    rw [spellParts]
    cases k with
    | succ k =>
      rw [compressParts] at h
      exact adds_compressParts parts h
    | zero =>
      rw [compressParts] at h
      rcases Option.bind_eq_some_iff.1 h with ⟨r, hr, h⟩
      rcases Option.map_eq_some_iff.1 h with ⟨r', hr', rfl⟩
      have hle := length_le_spellParts parts (spellScope scope part ++ part.spelling name) (part.className name)
      have hscope := length_le_spellScope scope part
      have hpart : 0 < (part.spelling name).length := List.length_pos_of_ne_nil (part.spelling_ne_nil hr)
      rw [List.length_append] at hle
      apply (Adds.addScope d (_ : scope.length < _)).trans
      . apply ((part.adds_compress hr).mono _).trans (adds_compressParts parts hr')
        omega
      . omega

theorem adds_compressTypes (ts : List Ty) {d : Components} {r : List Ty × Components}
    (h : compressTypes ts d = some r) : Adds d r.2 (spellTypes ts).length := by
  cases ts with
  | nil =>
    rw [compressTypes] at h
    cases h
    exact .refl d _
  | cons t ts =>
    rw [compressTypes] at h
    rcases Option.bind_eq_some_iff.1 h with ⟨r, hr, h⟩
    rcases Option.map_eq_some_iff.1 h with ⟨r', hr', rfl⟩
    have hlength := length_spellTypes_cons t ts
    apply ((t.adds_compress hr).mono _).trans ((adds_compressTypes ts hr').mono _) <;> omega

end

theorem prefix_compressReturn {ret : Option Ty} {d : Components} {r : Option Ty × Components}
    (h : compressReturn ret d = some r) : d <+: r.2 := by
  cases ret with
  | none =>
    cases h
    exact List.prefix_rfl
  | some t =>
    rcases Option.map_eq_some_iff.1 h with ⟨r, hr, rfl⟩
    exact (t.adds_compress hr).isPrefix

end Gnu3

end Demangle

end LibCxxRt
