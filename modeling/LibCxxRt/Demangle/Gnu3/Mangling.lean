import LibCxxRt.Demangle.Gnu3.Lemmas.Compress
import LibCxxRt.Demangle.Gnu3.RoundTrip

/-!
This module determines that the demangler turns what a compiler has mangled into its spelling.
-/

namespace LibCxxRt

namespace Demangle

namespace Gnu3

open Util

variable {p p' : Page} {s : List Byte} {d : Components}

theorem spelled_param {t : Ty} {r : Ty × Components} (h : t.compress false d = some r) (hp : Agrees p d)
    (hclean : Components.Clean r.2) : ∃ p', r.1.print [] p = some p' ∧ Spelled p p' t.spelling r.2 := by
  rcases t.spelled_compress [] h hp hclean with ⟨p', hprint, hspelled⟩
  rw [List.reverse_nil, List.flatMap_nil, List.append_nil, addQualifiers] at hspelled
  exact ⟨p', hprint, hspelled⟩

theorem printTypes_spelled {ts : List Ty} {r : List Ty × Components} (h : compressTypes ts d = some r)
    (hp : Agrees p d) (hclean : Components.Clean r.2)
    : ∃ p', printTypes r.1 p = some p' ∧ Spelled p p' (spellTypes ts) r.2 := by
  induction ts generalizing p d r with
  | nil =>
    rw [compressTypes] at h
    cases h
    exact ⟨p, by rw [printTypes], .of_spells (.refl p) hp⟩
  | cons t ts ih =>
    rw [compressTypes] at h
    rcases Option.bind_eq_some_iff.1 h with ⟨r₁, hr₁, h⟩
    rcases Option.map_eq_some_iff.1 h with ⟨r₂, hr₂, rfl⟩
    have hprefix := (adds_compressTypes ts hr₂).isPrefix
    rcases spelled_param hr₁ (hp.push (lit ", ")) (hclean.mono hprefix) with ⟨p₁, hprint₁, h₁⟩
    rcases ih hr₂ h₁.toAgrees hclean with ⟨p₂, hprint₂, h₂⟩
    have hcomma := (Spells.push p (lit ", ")).trans h₁.toSpells
    refine ⟨p₂, ?_, .of_spells (hcomma.trans h₂.toSpells) h₂.toAgrees⟩
    rw [printTypes, hprint₁, Option.bind_some, hprint₂]

theorem printParams_spelled {ts : List Ty} {r : List Ty × Components} (h : compressTypes ts d = some r)
    (hp : Agrees p d) (hclean : Components.Clean r.2)
    : ∃ p', printParams r.1 p = some p' ∧ Spelled p p' (spellParams ts) r.2 := by
  cases ts with
  | nil =>
    rw [compressTypes] at h
    cases h
    exact ⟨p.push (lit "("), by rw [printParams], .of_spells (.push p _) (hp.push _)⟩
  | cons t ts =>
    rw [compressTypes] at h
    rcases Option.bind_eq_some_iff.1 h with ⟨r₁, hr₁, h⟩
    rcases Option.map_eq_some_iff.1 h with ⟨r₂, hr₂, rfl⟩
    have hprefix := (adds_compressTypes ts hr₂).isPrefix
    rcases spelled_param hr₁ (hp.push (lit "(")) (hclean.mono hprefix) with ⟨p₁, hprint₁, h₁⟩
    rcases printTypes_spelled hr₂ h₁.toAgrees hclean with ⟨p₂, hprint₂, h₂⟩
    have hopen := (Spells.push p (lit "(")).trans h₁.toSpells
    refine ⟨p₂, ?_, .of_spells (hopen.trans h₂.toSpells) h₂.toAgrees⟩
    rw [printParams, hprint₁, Option.bind_some, hprint₂]

theorem output_of_spells (h : Spells p p' s)
    : (CString.concat p'.output).bytes = (CString.concat p.output).bytes ++ s := by
  rcases h.output with ⟨strs, houtput, hstrs⟩
  rw [CString.bytes_concat, CString.bytes_concat, houtput, List.flatMap_append, hstrs]

variable {n : Name} {r : Name × Components}

-- the components of a name are shorter than the name
theorem length_lt_of_mem (h : n.compress [] = some r) (hs : s ∈ r.2) : s.length < n.spelling.length := by
  rcases (n.adds_compress h).length_lt s hs with hnil | hlt
  . cases hnil
  . exact hlt

theorem clean_addName (h : n.compress [] = some r) (hclean : Components.Clean r.2)
    : Components.Clean (addName r.2 n) := by
  unfold addName
  split
  . apply hclean.add
    intro s hs
    rw [← Bool.not_eq_true, List.isPrefixOf_iff_prefix]
    intro hprefix
    exact Nat.not_lt_of_le hprefix.length_le (length_lt_of_mem h hs)
  . exact hclean

-- the name of the function is the last candidate, or it is an operator and there are none
theorem dropLast_addName (h : n.compress [] = some r) : (addName r.2 n).dropLast = r.2 := by
  cases hcomponent : n.isComponent with
  | true =>
    rw [addName_of_isComponent hcomponent]
    apply Dictionary.dropLast_add
    intro hmem
    exact Nat.lt_irrefl _ (length_lt_of_mem h hmem)
  | false =>
    rw [addName, if_neg (by simp [hcomponent])]
    cases n with
    | source u args =>
      have hoperator : isOperatorName u.text = true := by simpa [Name.isComponent] using hcomponent
      rw [Name.compress] at h
      split at h
      . cases h
        rfl
      . rw [if_pos (.inl hoperator)] at h
        cases h
    | std u args => cases hcomponent
    | abbreviation e he args => cases hcomponent
    | nested quals parts => cases hcomponent

theorem printName_spelled (h : n.compress [] = some r) (hclean : Components.Clean r.2)
    : ∃ p', r.1.print .blank = some p' ∧ (CString.concat p'.output).bytes = n.spelling ∧ p'.mem = n.quals
        ∧ Agrees p'.dropCandidate r.2 := by
  have hblank : Agrees .blank [] := ⟨rfl, rfl⟩
  have hname : Named .blank none [] [] := ⟨rfl, rfl, fun _ => rfl⟩
  rcases n.spelled_compress h hblank (clean_addName h hclean) (.inr hname) with ⟨p', hprint, hspells, hagrees⟩
  refine ⟨p', hprint, output_of_spells hspells, hspells.mem, ?_, hagrees.mode⟩
  show p'.subst.dropLast.map CString.bytes = r.2
  rw [List.map_dropLast, hagrees.subst, dropLast_addName h]

theorem printReturn_spelled {ret : Option Ty} {r : Option Ty × Components} (h : compressReturn ret d = some r)
    (hp : Agrees p d) (hclean : Components.Clean r.2)
    : ∃ p', printReturn r.1 p = some p' ∧ Agrees p' r.2 ∧ p'.mem = p.mem
        ∧ (CString.concat p'.output).bytes = spellReturn ret ++ (CString.concat p.output).bytes := by
  cases ret with
  | none =>
    cases h
    exact ⟨p, rfl, hp, rfl, rfl⟩
  | some t =>
    rcases Option.map_eq_some_iff.1 h with ⟨r, hr, rfl⟩
    have hp' : Agrees { p with output := [], isTmpl := false } d := ⟨hp.subst, hp.mode⟩
    rcases spelled_param hr hp' hclean with ⟨p₁, hprint, h₁⟩
    refine ⟨{ p₁ with output := p₁.output ++ lit " " :: p.output, sname := none }, ?_, ⟨h₁.subst, h₁.mode⟩,
      h₁.mem, ?_⟩
    . rw [printReturn, hprint, Option.map_some]
    . have houtput : p₁.output.flatMap CString.bytes = t.spelling := by
        rw [← CString.bytes_concat]
        exact output_of_spells h₁.toSpells
      show (CString.concat (p₁.output ++ lit " " :: p.output)).bytes = _
      rw [CString.bytes_concat, List.flatMap_append, List.flatMap_cons, houtput, CString.bytes_concat, spellReturn,
        List.append_assoc]
      rfl

theorem Encoding.demangled_compress {e : Encoding} {r : Encoding × Components} (h : e.compress = some r)
    (hclean : Components.Clean r.2) : ∃ o, r.1.demangled = some o ∧ o.bytes = e.spelling := by
  cases e with
  | data n =>
    rcases Option.map_eq_some_iff.1 h with ⟨r, hr, rfl⟩
    rcases printName_spelled hr hclean with ⟨p, hprint, houtput, hmem, _⟩
    refine ⟨.concat (p.output ++ p.mem.texts), ?_, ?_⟩
    . rw [demangled, hprint, Option.map_some]
    . rw [CString.bytes_concat, List.flatMap_append, ← CString.bytes_concat, houtput, hmem]
      rfl
  | function n ret params =>
    rcases Option.bind_eq_some_iff.1 h with ⟨r₁, hr₁, h⟩
    rcases Option.bind_eq_some_iff.1 h with ⟨r₂, hr₂, h⟩
    rcases Option.map_eq_some_iff.1 h with ⟨r₃, hr₃, rfl⟩
    have hclean₂ : Components.Clean r₂.2 := hclean.mono (adds_compressTypes params hr₃).isPrefix
    have hclean₁ : Components.Clean r₁.2 := hclean₂.mono (prefix_compressReturn hr₂)
    rcases printName_spelled hr₁ hclean₁ with ⟨p₁, hprint₁, houtput₁, hmem₁, hp₁⟩
    rcases printReturn_spelled hr₂ hp₁ hclean₂ with ⟨p₂, hprint₂, hp₂, hmem₂, houtput₂⟩
    rcases printParams_spelled hr₃ hp₂ hclean with ⟨p₃, hprint₃, h₃⟩
    refine ⟨.concat (p₃.output ++ lit ")" :: p₃.mem.texts), ?_, ?_⟩
    . rw [demangled, hprint₁, Option.bind_some, hprint₂, Option.bind_some, hprint₃, Option.map_some]
    . have hmem : p₃.mem = n.quals := (h₃.mem.trans hmem₂).trans hmem₁
      have hname : (CString.concat p₁.dropCandidate.output).bytes = n.spelling := houtput₁
      rw [CString.bytes_concat, List.flatMap_append, List.flatMap_cons, ← CString.bytes_concat,
        output_of_spells h₃.toSpells, houtput₂, hname, hmem, spelling]
      simp only [List.append_assoc]
      rfl

/--
The demangler spells the variable or the function that a compiler has mangled, if no component of the name is
the beginning of an earlier one.
-/
theorem cxaDemangleGnu3_compress {env : Env} (hmalloc : ∀ n, env.malloc n = true) {e : Encoding}
    {r : Encoding × Components} (h : e.compress = some r) (hvalid : r.1.valid = true)
    (hclean : Components.Clean r.2) (horg : env.org.bytes = r.1.encode)
    : ∃ o, cxaDemangleGnu3 env = .ok (some o) ∧ o.bytes = e.spelling := by
  rcases e.demangled_compress h hclean with ⟨o, hprint, hbytes⟩
  rcases demangle_encode hmalloc hvalid horg hprint with ⟨d, hok⟩
  exact ⟨o, cxaDemangleGnu3_of_ok hok, hbytes⟩

def fooConstPtr : Ty :=
  .qualified .ptr (.qualified .cst (.named (.source fooName [])))

theorem cxaDemangleGnu3_compress_foo
    : ∃ o, cxaDemangleGnu3 (.plain (lit "_ZN3foo3fooEPKS_S1_")) = .ok (some o)
        ∧ o.bytes = (lit "foo::foo(foo const*, foo const*)").bytes :=
  cxaDemangleGnu3_compress (fun _ => rfl)
    (e := .function (.nested .none [.unqualified fooName, .unqualified fooName]) none [fooConstPtr, fooConstPtr])
    (r := (.function (.nested .none [.unqualified fooName, .unqualified fooName]) none
      [.qualified .ptr (.qualified .cst (.subst 0)), .subst 2],
      [spell "foo", spell "foo const", spell "foo const*"])) rfl rfl (by decide) rfl

end Gnu3

end Demangle

end LibCxxRt
