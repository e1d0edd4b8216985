import LibCxxRt.Exception.ActionTable

/-!
This module contains the proof that `checkActionRecord` computes what the decoded chain means for
the exception.
-/

namespace LibCxxRt

theorem checkTypeSignature_some (img : Image) (h : Heap) (ex : Ptr) (type : Addr)
    (adjustedPtr : Addr)
    : checkTypeSignature img h (some ex) type adjustedPtr
        =
      (matchType img h ex type).map fun o => (o.isSome, o.getD adjustedPtr) := by
  unfold matchType checkTypeSignature
  dsimp
  cases h.cxa ex with
  | error e => rfl
  | ok cxa =>
    simp only [Res.ok_bind]
    cases img.typeInfo cxa.exceptionType with
    | error e => rfl
    | ok exType =>
      simp only [Res.ok_bind]
      cases exceptionPtr img exType ex with
      | error e => rfl
      | ok exceptionPtr =>
        simp only [Res.ok_bind]
        split
        . rfl
        . cases img.typeInfo type with
          | error e => rfl
          | ok type =>
            simp only [Res.ok_bind]
            split
            . rfl
            . cases type.doCatch img.mem img.voidName exType exceptionPtr 1 with
              | error e => rfl
              | ok res => cases res with | mk caught _ => cases caught <;> rfl

theorem checkExceptionSpec_eq {img : Image} {context : UnwindContext} {lsda : DwarfEhLsda}
    {p : Addr} {types : List Addr} (h : Heap) (ex : Ptr) (fuel : Nat) (adjustedPtr : Addr)
    (hreads : ReadsSpec img.mem context lsda p types) (hfuel : types.length < fuel)
    : checkExceptionSpec img h context lsda (some ex) fuel p adjustedPtr
        =
      (matchSpec img h ex types).map fun o => (o.isSome, o.getD adjustedPtr) := by
  induction hreads generalizing fuel with
  | nil hbyte =>
    cases fuel with
    | zero => simp at hfuel
    | succ fuel => simp [checkExceptionSpec, matchSpec, hbyte, Except.map]
  | cons hbyte hindex htype _ ih =>
    cases fuel with
    | zero => simp at hfuel
    | succ fuel =>
      simp only [checkExceptionSpec, matchSpec, hbyte, htype, hindex, checkTypeSignature_some,
        Res.ok_bind, ↓reduceIte]
      cases matchType img h ex _ with
      | error e => rfl
      | ok o =>
        cases o with
        | some adjustedPtr' => rfl
        | none => exact ih fuel (by simpa using hfuel)

theorem Clause.size_le_chainSize {c : Clause} {cs : List Clause} (hc : c ∈ cs)
    : c.size ≤ chainSize cs := by
  induction cs with
  | nil => simp at hc
  | cons c' cs ih =>
    unfold chainSize
    cases List.mem_cons.mp hc with
    | inl heq => subst heq; omega
    | inr hmem => specialize ih hmem; omega

theorem length_le_chainSize (cs : List Clause) : cs.length ≤ chainSize cs := by
  induction cs with
  | nil => simp
  | cons c cs ih =>
    simp only [chainSize, List.length_cons]
    omega

theorem not_zero_slt_of_slt_zero {filter : BitVec 32} (hneg : filter.slt 0)
    : ¬ (0 : BitVec 32).slt filter := by
  simp only [BitVec.slt_iff_toInt_lt] at *
  omega

theorem ne_zero_of_slt_zero {filter : BitVec 32} (hneg : filter.slt 0) : filter ≠ 0 := by
  intro heq
  subst heq
  simp at hneg

namespace checkActionRecord

-- the rest of the search after a record whose clause has the verdict `v`
def afterRecord (img : Image) (h : Heap) (fuel : Nat) (context : UnwindContext)
    (lsda : DwarfEhLsda) (ex : Option Ptr) (steps : Nat) (next : Addr) (found : HandlerType)
    (selector : BitVec 64) (adjustedPtr : Addr) (filter : BitVec 32) (v : Verdict) :
    Res (HandlerType × BitVec 64 × Addr) :=
  match v with
  | .pass => go img h fuel context lsda ex steps next found selector adjustedPtr
  | .cleanup => go img h fuel context lsda ex steps next .handlerCleanup 0 adjustedPtr
  | .permit adjustedPtr =>
    go img h fuel context lsda ex steps next found (filter.signExtend 64) adjustedPtr
  | .handle adjustedPtr' =>
    .ok (.handlerCatch, filter.signExtend 64, adjustedPtr'.getD adjustedPtr)
  | .violate => .ok (.handlerCatch, filter.signExtend 64, adjustedPtr)

-- what one record does, its numbers are read as `filter` and `displacement`
theorem go_cons {img : Image} {h : Heap} {ex : Option Ptr} {context : UnwindContext}
    {lsda : DwarfEhLsda} {p q r : Addr} {filter displacement : BitVec 64} {c : Clause} {v : Verdict}
    {fuel : Nat} (steps : Nat) (found : HandlerType) (selector : BitVec 64) (adjustedPtr : Addr)
    (hp : p ≠ 0) (hfilter : readSleb128 img.mem p = .ok (filter, q))
    (hdisplacement : readSleb128 img.mem q = .ok (displacement, r))
    (hclause : ReadsClause img.mem context lsda (filter.setWidth 32) c)
    (hv : c.verdict img h ex = .ok v) (hsize : c.size ≤ fuel)
    : go img h fuel context lsda ex (steps + 1) p found selector adjustedPtr
        =
      afterRecord img h fuel context lsda ex steps
        (if displacement.setWidth 32 ≠ (0 : BitVec 32) then
          q + (displacement.setWidth 32).signExtend 64
        else
          0) found selector adjustedPtr c.filter v := by
  rw [go]
  simp only [hp, hfilter, hdisplacement, ↓reduceIte, Res.ok_bind]
  generalize filter.setWidth 32 = filter at hclause ⊢
  cases hclause with
  | cleanup =>
    simp only [Clause.verdict, Except.ok.injEq] at hv
    subst hv
    simp [afterRecord]
  | @handler filter type hpos htype =>
    simp only [hpos, htype, ↓reduceIte, Res.ok_bind]
    cases ex with
    | none =>
      simp only [Clause.verdict, Except.ok.injEq] at hv
      subst hv
      simp only [checkTypeSignature, Res.ok_bind, beq_iff_eq]
      split
      . rfl
      . rfl
    | some ex =>
      simp only [Clause.verdict, Res.bind_eq_ok] at hv
      rcases hv with ⟨o, ho, hv⟩
      rw [checkTypeSignature_some, ho]
      cases o with
      | none =>
        simp only [Res.pure_eq_ok, Except.ok.injEq] at hv
        subst hv
        rfl
      | some adjustedPtr' =>
        simp only [Res.pure_eq_ok, Except.ok.injEq] at hv
        subst hv
        rfl
  | @spec filter types hneg htypes =>
    have hnonpos := not_zero_slt_of_slt_zero hneg
    have hne := ne_zero_of_slt_zero hneg
    simp only [hnonpos, hneg, hne, ↓reduceIte]
    cases ex with
    | none =>
      simp only [Clause.verdict, Except.ok.injEq] at hv
      subst hv
      rfl
    | some ex =>
      simp only [Clause.verdict, Res.bind_eq_ok] at hv
      rcases hv with ⟨o, ho, hv⟩
      rw [checkExceptionSpec_eq h ex fuel adjustedPtr htypes hsize, ho]
      cases o with
      | none =>
        simp only [Res.pure_eq_ok, Except.ok.injEq] at hv
        subst hv
        rfl
      | some adjustedPtr' =>
        simp only [Res.pure_eq_ok, Except.ok.injEq] at hv
        subst hv
        rfl

theorem go_eq_resolve {img : Image} {context : UnwindContext} {lsda : DwarfEhLsda} {p : Addr}
    {cs : List Clause} {js : List Judged} (h : Heap) (ex : Option Ptr) (fuel steps : Nat)
    (found : HandlerType) (selector : BitVec 64) (adjustedPtr : Addr)
    (hreads : ReadsChain img.mem context lsda p cs)
    (hjudges : List.Forall₂ (Judges img h ex) cs js)
    (hfuel : ∀ c ∈ cs, c.size ≤ fuel) (hsteps : cs.length ≤ steps)
    : go img h fuel context lsda ex steps p found selector adjustedPtr
        =
      .ok (resolve js found selector adjustedPtr) := by
  induction hreads generalizing js steps found selector adjustedPtr with
  | nil =>
    cases hjudges
    unfold go resolve
    simp
  | @cons p q filter displacement r c cs hp hfilter hdisplacement hclause hrest ih =>
    cases hjudges with
    | @cons _ j _ js hj hjs =>
      cases steps with
      | zero => simp at hsteps
      | succ steps =>
        rcases j with ⟨f, v⟩
        rcases hj with ⟨rfl, hv⟩
        have ih := fun found selector adjustedPtr =>
          ih steps found selector adjustedPtr hjs (fun c hc => hfuel c (List.mem_cons_of_mem _ hc))
            (by simpa using hsteps)
        rw [go_cons steps found selector adjustedPtr hp hfilter hdisplacement hclause hv
          (hfuel c List.mem_cons_self)]
        cases v with
        | pass => exact ih ..
        | cleanup => exact ih ..
        | permit adjustedPtr' => exact ih ..
        | handle adjustedPtr' => rfl
        | violate => rfl

end checkActionRecord

theorem checkActionRecord_eq_resolve {img : Image} {context : UnwindContext} {lsda : DwarfEhLsda}
    {p : Addr} {cs : List Clause} {js : List Judged} (h : Heap) (ex : Option Ptr) (fuel : Nat)
    (selector : BitVec 64) (adjustedPtr : Addr) (hp : p ≠ 0)
    (hreads : ReadsChain img.mem context lsda p cs)
    (hjudges : List.Forall₂ (Judges img h ex) cs js) (hfuel : chainSize cs ≤ fuel)
    : checkActionRecord img h fuel context lsda p ex selector adjustedPtr
        =
      .ok (resolve js .handlerNone selector adjustedPtr) := by
  unfold checkActionRecord
  simp only [hp, ↓reduceIte]
  apply checkActionRecord.go_eq_resolve
  . assumption
  . assumption
  . intro c hc
    have := Clause.size_le_chainSize hc
    omega
  . have := length_le_chainSize cs
    omega

@[simp]
theorem checkActionRecord_zero (img : Image) (h : Heap) (fuel : Nat) (context : UnwindContext)
    (lsda : DwarfEhLsda) (ex : Option Ptr) (selector : BitVec 64) (adjustedPtr : Addr)
    : checkActionRecord img h fuel context lsda 0 ex selector adjustedPtr
        =
      .ok (.handlerCleanup, selector, adjustedPtr) := by
  simp [checkActionRecord]

end LibCxxRt
