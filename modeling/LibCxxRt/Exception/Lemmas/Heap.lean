import LibCxxRt.Exception.Frame

/-!
This module contains the lemmas about writes to the header of an exception that is being raised.
-/

namespace LibCxxRt

namespace Heap

theorem tail_of_cxx {h : Heap} {b : Nat} {e : CxaException} (hb : h b = some (.cxx e))
    : h.tail ⟨b, 0⟩ = .ok e.toCxaTail := by
  simp [tail, hb]

theorem cxa_of_cxx {h : Heap} {b : Nat} {e : CxaException} (hb : h b = some (.cxx e))
    : h.cxa ⟨b, 0⟩ = .ok e := by
  simp [cxa, hb]

theorem setTail_of_cxx {h : Heap} {b : Nat} {e : CxaException} (hb : h b = some (.cxx e))
    (t : CxaTail)
    : h.setTail ⟨b, 0⟩ t = h.set b (.cxx { e with toCxaTail := t }) := by
  simp [setTail, hb]

@[simp]
theorem set_set (h : Heap) (b : Nat) (o o' : Obj) : (h.set b o).set b o' = h.set b o' := by
  funext b'
  unfold set
  split <;> rfl

theorem set_eq_self {h : Heap} {b : Nat} {o : Obj} (hb : h b = some o) : h.set b o = h := by
  funext b'
  unfold set
  split
  . next heq => rw [heq, hb]
  . rfl

theorem typeOf_setTail (h : Heap) (ex : Option Ptr) (q : Ptr) (t : CxaTail)
    : (h.setTail q t).typeOf ex = h.typeOf ex := by
  cases ex with
  | none => rfl
  | some p =>
    simp only [typeOf, Option.map_some, Option.some.injEq]
    by_cases hq : q.off = 0
    . by_cases heq : p.block = q.block
      . unfold cxa setTail
        rw [heq]
        cases hb : h q.block with
        | none => simp [hq, hb]
        | some o =>
          cases o with
          | cxx e =>
            simp only [hq, ↓reduceIte, set_self]
            split
            . rfl
            . rfl
          | foreign header beyond => simp only [hq, ↓reduceIte, set_self]
      . unfold cxa setTail
        cases hb : h q.block with
        | none => simp [hq]
        | some o => cases o <;> simp [hq, set_of_ne _ _ heq]
    . simp [setTail, hq]

theorem typeOf_withTail (h : Heap) (real ex : Option Ptr) (t : CxaTail)
    : (h.withTail ex t).typeOf real = h.typeOf real := by
  cases ex with
  | none => rfl
  | some ex => exact h.typeOf_setTail real ex t

end Heap

section

variable {img : Image} {h h' : Heap} {ex : Option Ptr}

theorem checkTypeSignature_congr (htype : h.typeOf ex = h'.typeOf ex) (type : Addr)
    (adjustedPtr : Addr)
    : checkTypeSignature img h ex type adjustedPtr
        =
      checkTypeSignature img h' ex type adjustedPtr := by
  unfold checkTypeSignature
  cases ex with
  | none => rfl
  | some ex =>
    simp only [Heap.typeOf, Option.map_some, Option.some.injEq] at htype
    dsimp only
    generalize h.cxa ex = cxa at htype ⊢
    generalize h'.cxa ex = cxa' at htype ⊢
    cases cxa with
    | error e =>
      cases cxa' with
      | error e' =>
        simp only [Except.map, Except.error.injEq] at htype
        rw [htype]
      | ok cxa' => simp [Except.map] at htype
    | ok cxa =>
      cases cxa' with
      | error e' => simp [Except.map] at htype
      | ok cxa' =>
        simp only [Except.map, Except.ok.injEq] at htype
        simp only [Res.ok_bind, htype]

theorem matchType_congr {ex : Ptr} (htype : h.typeOf (some ex) = h'.typeOf (some ex)) (type : Addr)
    : matchType img h ex type = matchType img h' ex type := by
  simp only [matchType, checkTypeSignature_congr htype]

theorem matchSpec_congr {ex : Ptr} (htype : h.typeOf (some ex) = h'.typeOf (some ex))
    (types : List Addr)
    : matchSpec img h ex types = matchSpec img h' ex types := by
  induction types with
  | nil => rfl
  | cons type types ih => simp only [matchSpec, matchType_congr htype, ih]

theorem Clause.verdict_congr (htype : h.typeOf ex = h'.typeOf ex) (c : Clause)
    : c.verdict img h ex = c.verdict img h' ex := by
  cases ex with
  | none => cases c <;> rfl
  | some ex =>
    cases c with
    | cleanup => rfl
    | handler filter type => simp only [verdict, matchType_congr htype]
    | spec filter types => simp only [verdict, matchSpec_congr htype]

theorem JudgesFrame.congr (htype : h.typeOf ex = h'.typeOf ex) {v : FrameView Clause}
    {j : FrameView Judged} (hj : JudgesFrame img h ex v j)
    : JudgesFrame img h' ex v j := by
  cases hj with
  | noLsda => exact .noLsda
  | noCallsite => exact .noCallsite
  | site hchain =>
    apply JudgesFrame.site
    cases hchain with
    | none => exact .none
    | some hjudges =>
      apply Option.Rel.some
      apply hjudges.imp
      intro c j hj
      simpa only [Judges, Clause.verdict_congr htype] using hj

theorem Known.congr (htype : h.typeOf ex = h'.typeOf ex) {fuel : Nat} {context : UnwindContext}
    {j : FrameView Judged} (hknown : Known img h ex fuel context j)
    : Known img h' ex fuel context j := by
  rcases hknown with ⟨v, hreads, hjudges, hfuel⟩
  exact ⟨v, hreads, hjudges.congr htype, hfuel⟩

end

namespace Raised

variable {h : Heap} {obj : Ptr} {cls : BitVec 64} {ex real : Option Ptr} {t : CxaTail}

theorem exceptionFromPointer_eq (hoff : obj.off = 96)
    : exceptionFromPointer obj = ⟨obj.block, 0⟩ := by
  simp [exceptionFromPointer, Ptr.add, hoff]

theorem withTail_self (hr : Raised h obj cls ex real t) : h.withTail ex t = h := by
  cases hr with
  | cxx hoff hheader =>
    rw [exceptionFromPointer_eq hoff]
    simp only [Heap.withTail, Heap.setTail_of_cxx hheader]
    exact Heap.set_eq_self hheader
  | foreign => rfl

theorem withTail_withTail (hr : Raised h obj cls ex real t) (t₁ t₂ : CxaTail)
    : (h.withTail ex t₁).withTail ex t₂ = h.withTail ex t₂ := by
  cases hr with
  | cxx hoff hheader =>
    rw [exceptionFromPointer_eq hoff]
    simp [Heap.withTail, Heap.setTail, hheader]
  | foreign => rfl

theorem withTail (hr : Raised h obj cls ex real t) (t' : CxaTail)
    (ht : t'.unwindHeader = t.unwindHeader) : Raised (h.withTail ex t') obj cls ex real t' := by
  cases hr with
  | @cxx e real hoff hheader hcls hcxx hreal =>
    rw [exceptionFromPointer_eq hoff] at *
    rw [Heap.withTail, Heap.setTail_of_cxx hheader, ← exceptionFromPointer_eq hoff]
    have hheader' : (h.set obj.block (.cxx { e with toCxaTail := t' })) obj.block
        = some (.cxx { e with toCxaTail := t' }) := Heap.set_self ..
    refine .cxx hoff hheader' ?_ hcxx ?_
    . rw [hcls, ht]
    . rw [exceptionFromPointer_eq hoff]
      unfold realExceptionFromException at *
      rw [Heap.tail_of_cxx hheader, Heap.cxa_of_cxx hheader] at hreal
      rw [Heap.tail_of_cxx hheader', Heap.cxa_of_cxx hheader']
      simpa [ht] using hreal
  | foreign hoff hheader hcls hforeign => exact .foreign hoff hheader hcls hforeign

theorem tail {p : Ptr} (hr : Raised h obj cls (some p) real t) : h.tail p = .ok t := by
  cases hr with
  | cxx hoff hheader =>
    rw [exceptionFromPointer_eq hoff]
    exact Heap.tail_of_cxx hheader

end Raised

end LibCxxRt
