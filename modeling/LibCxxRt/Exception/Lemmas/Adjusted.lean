import LibCxxRt.Exception.Lemmas.ActionRecord
import LibCxxRt.Exception.Lemmas.Heap

/-!
This module shows that the adjusted pointer that is handed to `check_action_record` does not decide what
the function finds, and that of the heap it only looks at the type of the exception.
-/

namespace LibCxxRt

variable {h h' : Heap} {ex : Option Ptr}

-- the two computations differ at most in the adjusted pointer
def SameAnswer {α : Type} (x y : Res (α × Addr)) : Prop :=
  x.map Prod.fst = y.map Prod.fst

theorem SameAnswer.cases {α : Type} {x y : Res (α × Addr)} (hxy : SameAnswer x y)
    : (∃ e, x = .error e ∧ y = .error e) ∨ ∃ r a b, x = .ok (r, a) ∧ y = .ok (r, b) := by
  cases x with
  | error e =>
    cases y with
    | error e' =>
      cases hxy
      exact .inl ⟨e, rfl, rfl⟩
    | ok y => cases hxy
  | ok x =>
    cases y with
    | error e => cases hxy
    | ok y =>
      rcases x with ⟨r, a⟩
      rcases y with ⟨r', b⟩
      cases hxy
      exact .inr ⟨r, a, b, rfl, rfl⟩

theorem checkTypeSignature_sameAnswer (img : Image) (htype : h.typeOf ex = h'.typeOf ex)
    (type a b : Addr)
    : SameAnswer (checkTypeSignature img h ex type a) (checkTypeSignature img h' ex type b) := by
  rw [checkTypeSignature_congr htype]
  cases ex with
  | none => rfl
  | some ex =>
    rw [checkTypeSignature_some, checkTypeSignature_some]
    unfold SameAnswer
    cases matchType img h' ex type <;> rfl

theorem checkExceptionSpec_sameAnswer (img : Image) (htype : h.typeOf ex = h'.typeOf ex)
    (context : UnwindContext) (lsda : DwarfEhLsda) (fuel : Nat) (typeIndex a b : Addr)
    : SameAnswer (checkExceptionSpec img h context lsda ex fuel typeIndex a)
        (checkExceptionSpec img h' context lsda ex fuel typeIndex b) := by
  induction fuel generalizing typeIndex a b with
  | zero => rfl
  | succ fuel ih =>
    unfold checkExceptionSpec
    cases img.mem.byte typeIndex with
    | error e => rfl
    | ok index =>
      simp only [Res.ok_bind]
      split
      . rfl
      . cases getTypeInfoEntry img.mem context lsda (index.setWidth 32) with
        | error e => rfl
        | ok type =>
          simp only [Res.ok_bind]
          rcases (checkTypeSignature_sameAnswer img htype type a b).cases with
            ⟨e, ha, hb⟩ | ⟨matched, a', b', ha, hb⟩
          . rw [ha, hb]
            rfl
          . simp only [ha, hb, Res.ok_bind]
            split
            . rfl
            . exact ih ..

theorem checkActionRecord.go_sameAnswer (img : Image) (htype : h.typeOf ex = h'.typeOf ex)
    (context : UnwindContext) (lsda : DwarfEhLsda) (fuel steps : Nat) (p : Addr)
    (found : HandlerType) (selector : BitVec 64) (a b : Addr)
    : ((go img h fuel context lsda ex steps p found selector a).map fun r => (r.1, r.2.1))
        =
      (go img h' fuel context lsda ex steps p found selector b).map fun r => (r.1, r.2.1) := by
  induction steps generalizing p found selector a b with
  | zero =>
    unfold go
    split <;> rfl
  | succ steps ih =>
    unfold go
    split
    . rfl
    . cases readSleb128 img.mem p with
      | error e => simp only [Res.error_bind]
      | ok filter =>
        simp only [Res.ok_bind]
        cases readSleb128 img.mem filter.2 with
        | error e => simp only [Res.error_bind]
        | ok displacement =>
          simp only [Res.ok_bind]
          split
          . cases getTypeInfoEntry img.mem context lsda (filter.1.setWidth 32) with
            | error e => simp only [Res.error_bind]
            | ok type =>
              simp only [Res.ok_bind]
              rcases (checkTypeSignature_sameAnswer img htype type a b).cases with
                ⟨e, ha, hb⟩ | ⟨matched, a', b', ha, hb⟩
              . simp only [ha, hb, Res.error_bind]
              . simp only [ha, hb, Res.ok_bind]
                split
                . rfl
                . exact ih ..
          . split
            . rcases (checkExceptionSpec_sameAnswer img htype context lsda fuel
                (lsda.typeTable - (filter.1.setWidth 32).signExtend 64 - 1) a b).cases with
                ⟨e, ha, hb⟩ | ⟨matched, a', b', ha, hb⟩
              . simp only [ha, hb, Res.error_bind]
              . simp only [ha, hb, Res.ok_bind]
                split
                . exact ih ..
                . rfl
            . split
              . exact ih ..
              . exact ih ..

theorem checkActionRecord_congr {img : Image} (htype : h.typeOf ex = h'.typeOf ex) {fuel : Nat}
    {context : UnwindContext} {lsda : DwarfEhLsda} {p : Addr} {selector selector' : BitVec 64}
    {found : HandlerType} {a a' : Addr}
    (hcheck : checkActionRecord img h fuel context lsda p ex selector a
      = .ok (found, selector', a')) (b : Addr)
    : ∃ b', checkActionRecord img h' fuel context lsda p ex selector b
        = .ok (found, selector', b') := by
  unfold checkActionRecord at hcheck ⊢
  split at hcheck
  . next hp =>
    cases hcheck
    exact ⟨b, if_pos hp⟩
  . next hp =>
    rw [if_neg hp]
    have hsame := checkActionRecord.go_sameAnswer img htype context lsda fuel fuel p
      .handlerNone selector a b
    rw [hcheck] at hsame
    cases hcheck' : checkActionRecord.go img h' fuel context lsda ex fuel p .handlerNone selector b with
    | error e =>
      rw [hcheck'] at hsame
      cases hsame
    | ok r =>
      rcases r with ⟨found', selector'', b'⟩
      rw [hcheck'] at hsame
      cases hsame
      exact ⟨b', rfl⟩

end LibCxxRt
