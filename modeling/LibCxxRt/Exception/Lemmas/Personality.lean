import LibCxxRt.Exception.Lemmas.ActionRecord
import LibCxxRt.Exception.Lemmas.Heap

/-!
This module contains the proof that the personality routine does what the decoded frame says, one
theorem for each way in which the unwinder calls it.
-/

namespace LibCxxRt

theorem resolve_adjustedPtr_irrel (js : List Judged) (found : HandlerType) (selector : BitVec 64)
    (a b : Addr)
    : (resolve js found selector a).1 = (resolve js found selector b).1
        ∧
      (resolve js found selector a).2.1 = (resolve js found selector b).2.1 := by
  induction js generalizing found selector a b with
  | nil => simp [resolve]
  | cons j js ih =>
    rcases j with ⟨filter, v⟩
    cases v with
    | pass => exact ih ..
    | cleanup => exact ih ..
    | permit adjustedPtr => exact ih ..
    | handle adjustedPtr => simp [resolve]
    | violate => simp [resolve]

theorem dwarfEhFindCallsite.go_eq_zero {m : Mem} {context : UnwindContext} {lsda : DwarfEhLsda}
    {fuel : Nat} {p : Addr} {action : DwarfEhAction}
    (hfind : go m context lsda fuel p = .ok (false, action)) : action = ⟨0, 0⟩ := by
  induction fuel generalizing p with
  | zero => simp [go] at hfind
  | succ fuel ih =>
    unfold go at hfind
    dsimp only at hfind
    split at hfind
    . simp only [Res.bind_eq_ok] at hfind
      rcases hfind with ⟨start, _, size, _, hfind⟩
      split at hfind
      . simpa [eq_comm] using hfind
      . simp only [Res.bind_eq_ok] at hfind
        rcases hfind with ⟨landingPad, _, action, _, hfind⟩
        split at hfind
        . simp at hfind
        . exact ih hfind
    . simpa [eq_comm] using hfind

theorem dwarfEhFindCallsite_eq_zero {m : Mem} {context : UnwindContext} {lsda : DwarfEhLsda}
    {action : DwarfEhAction} (hfind : dwarfEhFindCallsite m context lsda = .ok (false, action))
    : action = ⟨0, 0⟩ := by
  exact dwarfEhFindCallsite.go_eq_zero hfind

section

variable {img : Image} {h : Heap} {obj : Ptr} {cls : BitVec 64} {ex real : Option Ptr} {t : CxaTail}
variable {context : UnwindContext} {lsda : DwarfEhLsda} {action : DwarfEhAction}

theorem checkActionRecord_site {chain : Option (List Clause)} {jchain : Option (List Judged)}
    {fuel : Nat} (hsite : ReadsSite img.mem context lsda action chain)
    (hchain : Option.Rel (List.Forall₂ (Judges img h real)) chain jchain)
    (hfuel : (FrameView.site action chain).size ≤ fuel) (adjustedPtr : Addr)
    : checkActionRecord img h fuel context lsda action.actionRecord real 0 adjustedPtr
        =
      .ok (
        (resolveSite jchain 0).1,
        (resolveSite jchain 0).2.1,
        (resolveSite jchain adjustedPtr).2.2
      ) := by
  cases hsite with
  | none haction =>
    cases hchain
    rw [haction, checkActionRecord_zero]
    rfl
  | some haction hreads =>
    cases hchain with
    | @some _ js hjudges =>
      have hirrel := resolve_adjustedPtr_irrel js .handlerNone 0 0 adjustedPtr
      rw [checkActionRecord_eq_resolve h real fuel 0 _ haction hreads hjudges hfuel]
      simp only [resolveSite, hirrel]

theorem checkActionRecordOf_zero (hr : Raised h obj cls ex real t) (fuel : Nat)
    : checkActionRecordOf img fuel context lsda 0 ex real 0 h
        =
      .ok (.handlerCleanup, 0, h.withTail ex t) := by
  unfold checkActionRecordOf
  cases ex with
  | none => simp only [checkActionRecord_zero, Res.ok_bind, Res.pure_eq_ok, Heap.withTail]
  | some ex =>
    simp only [hr.tail, checkActionRecord_zero, Res.ok_bind, Res.pure_eq_ok, Heap.withTail]

theorem checkActionRecordOf_site (hr : Raised h obj cls ex real t) {chain : Option (List Clause)}
    {jchain : Option (List Judged)} {fuel : Nat}
    (hsite : ReadsSite img.mem context lsda action chain)
    (hchain : Option.Rel (List.Forall₂ (Judges img h real)) chain jchain)
    (hfuel : (FrameView.site action chain).size ≤ fuel)
    : checkActionRecordOf img fuel context lsda action.actionRecord ex real 0 h
        =
      .ok (
        (resolveSite jchain 0).1,
        (resolveSite jchain 0).2.1,
        h.withTail ex { t with adjustedPtr := (resolveSite jchain t.adjustedPtr).2.2 }
      ) := by
  unfold checkActionRecordOf
  cases ex with
  | none =>
    dsimp only
    rw [checkActionRecord_site hsite hchain hfuel]
    simp only [Res.ok_bind, Res.pure_eq_ok, Heap.withTail]
  | some ex =>
    simp only [hr.tail, Res.ok_bind]
    rw [checkActionRecord_site hsite hchain hfuel]
    simp only [Res.ok_bind, Res.pure_eq_ok, Heap.withTail]

theorem checkActionRecordOf_some {p : Ptr} (hr : Raised h obj cls (some p) real t) {fuel : Nat}
    {actionRecord selector adjustedPtr : BitVec 64} {found : HandlerType}
    (hcheck : checkActionRecord img h fuel context lsda actionRecord real 0 t.adjustedPtr
      = .ok (found, selector, adjustedPtr))
    : checkActionRecordOf img fuel context lsda actionRecord (some p) real 0 h
        =
      .ok (found, selector, h.withTail (some p) { t with adjustedPtr }) := by
  unfold checkActionRecordOf
  simp only [hr.tail, Res.ok_bind, hcheck, Res.pure_eq_ok, Heap.withTail]

theorem Raised.exceptionFromPointer_of_cxx (hr : Raised h obj cls ex real t)
    : (if isCxxException cls then some (exceptionFromPointer obj) else none) = ex := by
  cases hr with
  | cxx _ _ _ hcxx => simp [hcxx]
  | foreign _ _ _ hforeign => simp [hforeign]

theorem Raised.realExceptionOf_eq (hr : Raised h obj cls ex real t)
    : realExceptionOf h ex = .ok real := by
  cases hr with
  | cxx _ _ _ _ hreal => simp [realExceptionOf, hreal]
  | foreign => rfl

theorem saveLandingPad_eq {p : Ptr} (hr : Raised h obj cls (some p) real t) (selector : BitVec 32)
    (landingPad : Addr)
    : saveLandingPad h (some p) selector landingPad
        =
      .ok (h.withTail (some p)
        { t with handlerSwitchValue := selector, catchTemp := landingPad }) := by
  simp only [saveLandingPad, hr.tail, Res.ok_bind, Res.pure_eq_ok, Heap.withTail]

-- the search phase of a C++ exception where the lookup finds a record
theorem gxxPersonalityV0_search_found {p : Ptr} (hr : Raised h obj cls (some p) real t)
    {fuel : Nat} (actions : UnwindAction) (hactions : actions.has .searchPhase)
    (hlsda : context.languageSpecificData ≠ 0)
    (hparse : parseLsda img.mem context context.languageSpecificData = .ok lsda)
    (hfind : dwarfEhFindCallsite img.mem context lsda = .ok (true, action)) {found : HandlerType}
    {selector adjustedPtr : BitVec 64}
    (hcheck : checkActionRecord img h fuel context lsda action.actionRecord real 0 t.adjustedPtr
      = .ok (found, selector, adjustedPtr))
    : gxxPersonalityV0 img fuel 1 actions cls obj context h
        =
      .ok (
        if found = .handlerCatch then .handlerFound else .continueUnwind,
        context,
        h.withTail (some p) (if found = .handlerCatch then
          {
            t with
            handlerSwitchValue := selector.setWidth 32
            actionRecord := action.actionRecord
            languageSpecificData := context.languageSpecificData
            catchTemp := action.landingPad
            adjustedPtr
          }
        else
          { t with adjustedPtr })
      ) := by
  unfold gxxPersonalityV0
  simp only [ne_eq, not_true_eq_false, ↓reduceIte, hr.exceptionFromPointer_of_cxx,
    hr.realExceptionOf_eq, Res.ok_bind, hactions, hlsda, hparse, hfind, Bool.not_true,
    Bool.false_eq_true, checkActionRecordOf_some hr hcheck]
  by_cases hfound : found = .handlerCatch
  . have hr₁ := hr.withTail { t with adjustedPtr } rfl
    have hr₂ := hr₁.withTail {
      t with
      adjustedPtr
      handlerSwitchValue := selector.setWidth 32
      catchTemp := action.landingPad
    } rfl
    simp only [hfound, ↓reduceIte, saveLandingPad_eq hr₁, Res.ok_bind]
    rw [hr₂.tail]
    simp only [Res.ok_bind, Res.pure_eq_ok]
    rw [← Heap.withTail, hr₁.withTail_withTail, hr.withTail_withTail]
  . simp only [hfound, ↓reduceIte, Res.pure_eq_ok]

-- the search phase only returns where the lookup does, and the walk of the chain that it finds
theorem exists_find_of_search {p : Ptr} (hr : Raised h obj cls (some p) real t) {fuel : Nat}
    {actions : UnwindAction} (hactions : actions.has .searchPhase)
    (hlsda : context.languageSpecificData ≠ 0)
    (hparse : parseLsda img.mem context context.languageSpecificData = .ok lsda)
    {res : UnwindReasonCode × UnwindContext × Heap}
    (hsearch : gxxPersonalityV0 img fuel 1 actions cls obj context h = .ok res)
    : ∃ found action, dwarfEhFindCallsite img.mem context lsda = .ok (found, action)
        ∧ (found → ∃ handler selector adjustedPtr,
            checkActionRecord img h fuel context lsda action.actionRecord real 0 t.adjustedPtr
              = .ok (handler, selector, adjustedPtr)) := by
  unfold gxxPersonalityV0 at hsearch
  simp only [ne_eq, not_true_eq_false, ↓reduceIte, hr.exceptionFromPointer_of_cxx,
    hr.realExceptionOf_eq, Res.ok_bind, hactions, hlsda, hparse] at hsearch
  rw [Res.bind_eq_ok] at hsearch
  rcases hsearch with ⟨⟨found, action⟩, hfind, hsearch⟩
  refine ⟨found, action, hfind, ?_⟩
  intro hfound
  simp only [hfound, Bool.not_true, Bool.false_eq_true, ↓reduceIte] at hsearch
  rw [Res.bind_eq_ok] at hsearch
  rcases hsearch with ⟨_, hcheck, _⟩
  unfold checkActionRecordOf at hcheck
  simp only [hr.tail, Res.ok_bind] at hcheck
  rw [Res.bind_eq_ok] at hcheck
  rcases hcheck with ⟨⟨handler, selector, adjustedPtr⟩, hcheck, _⟩
  exact ⟨handler, selector, adjustedPtr, hcheck⟩

theorem gxxPersonalityV0_search (hr : Raised h obj cls ex real t) {j : FrameView Judged}
    {fuel : Nat} (actions : UnwindAction) (hactions : actions.has .searchPhase)
    (hknown : Known img h real fuel context j)
    : gxxPersonalityV0 img fuel 1 actions cls obj context h
        =
      .ok (
        if j.stops then .handlerFound else .continueUnwind,
        context,
        h.withTail ex (j.searchTail context t)
      ) := by
  rcases hknown with ⟨v, hreads, hjudges, hfuel⟩
  cases hreads with
  | noLsda hlsda =>
    cases hjudges
    unfold gxxPersonalityV0
    simp only [ne_eq, not_true_eq_false, ↓reduceIte, hr.realExceptionOf_eq,
      hr.exceptionFromPointer_of_cxx, Res.ok_bind, hlsda, Res.pure_eq_ok, FrameView.searchTail,
      FrameView.stops, Bool.false_eq_true, hr.withTail_self]
  | noCallsite hlsda hparse hfind =>
    cases hjudges
    unfold gxxPersonalityV0
    simp only [ne_eq, not_true_eq_false, ↓reduceIte, hr.realExceptionOf_eq,
      hr.exceptionFromPointer_of_cxx, Res.ok_bind, hactions, hlsda, hparse, hfind, Res.pure_eq_ok,
      Bool.not_false, FrameView.searchTail, FrameView.stops, hr.withTail_self]
  | @site _ action _ hlsda hparse hfind hsite =>
    cases hjudges with
    | @site _ _ jchain hchain =>
      unfold FrameView.searchTail FrameView.stops
      dsimp only
      cases ex with
      | none =>
        unfold gxxPersonalityV0
        simp only [ne_eq, not_true_eq_false, ↓reduceIte, hr.realExceptionOf_eq,
          hr.exceptionFromPointer_of_cxx, Res.ok_bind, hactions, hlsda, hparse, hfind,
          Bool.not_true, Bool.false_eq_true, checkActionRecordOf_site hr hsite hchain hfuel]
        by_cases hfound : (resolveSite jchain 0).1 = .handlerCatch
        . simp only [hfound, ↓reduceIte, Res.pure_eq_ok, Heap.withTail, BEq.rfl]
        . simp only [hfound, ↓reduceIte, Res.pure_eq_ok, Heap.withTail, beq_iff_eq]
      | some p =>
        rw [gxxPersonalityV0_search_found hr actions hactions hlsda hparse hfind
          (checkActionRecord_site hsite hchain hfuel t.adjustedPtr)]
        simp only [beq_iff_eq]

theorem gxxPersonalityV0_cleanup (hr : Raised h obj cls ex real t) {j : FrameView Judged}
    {fuel : Nat} (actions : UnwindAction) (hsearch : actions.has .searchPhase = false)
    (hhandler : actions.has .handlerFrame = false) (hknown : Known img h real fuel context j)
    : gxxPersonalityV0 img fuel 1 actions cls obj context h
        =
      .ok (
        (j.cleanupAnswer obj context).1,
        (j.cleanupAnswer obj context).2,
        h.withTail ex { t with adjustedPtr := j.cleanupAdjusted t.adjustedPtr }
      ) := by
  rcases hknown with ⟨v, hreads, hjudges, hfuel⟩
  unfold gxxPersonalityV0
  simp only [ne_eq, not_true_eq_false, ↓reduceIte, hr.exceptionFromPointer_of_cxx,
    hr.realExceptionOf_eq, Res.ok_bind, hsearch, hhandler, Bool.not_false, Bool.false_eq_true]
  cases hreads with
  | noLsda hlsda =>
    cases hjudges
    simp only [hlsda, ↓reduceIte, Res.pure_eq_ok, FrameView.cleanupAnswer,
      FrameView.cleanupAdjusted, hr.withTail_self]
  | noCallsite hlsda hparse hfind =>
    cases hjudges
    simp only [hlsda, hparse, hfind, ↓reduceIte, Res.ok_bind, Res.pure_eq_ok,
      dwarfEhFindCallsite_eq_zero hfind, FrameView.cleanupAnswer, FrameView.cleanupAdjusted,
      hr.withTail_self]
  | @site _ action _ hlsda hparse hfind hsite =>
    cases hjudges with
    | @site _ _ jchain hchain =>
      simp only [hlsda, hparse, hfind, ↓reduceIte, Res.ok_bind,
        checkActionRecordOf_site hr hsite hchain hfuel]
      unfold FrameView.cleanupAnswer FrameView.cleanupAdjusted
      dsimp only
      by_cases hpad : action.landingPad = 0
      . simp only [hpad, ↓reduceIte, Res.pure_eq_ok, hr.withTail_self, ne_eq, not_true_eq_false,
          false_and]
      . simp only [hpad, ↓reduceIte, ne_eq, not_false_eq_true, true_and]
        by_cases hfound : (resolveSite jchain 0).1 = .handlerCleanup
        . simp only [hfound, not_true_eq_false, ↓reduceIte, Res.pure_eq_ok]
        . simp only [hfound, not_false_eq_true, ↓reduceIte, Res.pure_eq_ok]

-- the frame that reported the handler, for a C++ exception
theorem gxxPersonalityV0_handler {p : Ptr} (hr : Raised h obj cls (some p) real t) (img : Image)
    (fuel : Nat) (actions : UnwindAction) (hsearch : actions.has .searchPhase = false)
    (hhandler : actions.has .handlerFrame) (hlsda : context.languageSpecificData ≠ 0)
    : gxxPersonalityV0 img fuel 1 actions cls obj context h
        =
      if t.catchTemp = 0 then
        .error .terminate
      else
        .ok (
          .installContext,
          installContext context obj (t.handlerSwitchValue.signExtend 64) t.catchTemp,
          h.withTail (some p) { t with catchTemp := 0, handlerSwitchValue := 0 }
        ) := by
  unfold gxxPersonalityV0
  simp only [ne_eq, not_true_eq_false, ↓reduceIte, hr.exceptionFromPointer_of_cxx,
    hr.realExceptionOf_eq, Res.ok_bind, hsearch, hhandler, Bool.not_true, Bool.false_eq_true, hlsda,
    hr.tail, loadLandingPad, Res.pure_eq_ok, Heap.withTail]

-- the frame that reported the handler, for a foreign exception
theorem gxxPersonalityV0_handler_foreign (hr : Raised h obj cls none real t)
    {j : FrameView Judged} {fuel : Nat} (actions : UnwindAction)
    (hsearch : actions.has .searchPhase = false) (hhandler : actions.has .handlerFrame)
    (hlsda : context.languageSpecificData ≠ 0) (hknown : Known img h real fuel context j)
    : gxxPersonalityV0 img fuel 1 actions cls obj context h
        =
      .ok (.installContext, j.handlerContext obj context, h) := by
  rcases hknown with ⟨v, hreads, hjudges, hfuel⟩
  unfold gxxPersonalityV0
  simp only [ne_eq, not_true_eq_false, ↓reduceIte, hr.exceptionFromPointer_of_cxx,
    hr.realExceptionOf_eq, Res.ok_bind, hsearch, hhandler, Bool.not_true, Bool.false_eq_true, hlsda]
  cases hr with
  | foreign hoff hheader hcls hforeign =>
    have hr : Raised h obj cls none none t := .foreign hoff hheader hcls hforeign
    cases hreads with
    | noLsda hlsda' => exact absurd hlsda' hlsda
    | noCallsite _ hparse hfind =>
      cases hjudges
      simp only [hparse, hfind, Res.ok_bind, dwarfEhFindCallsite_eq_zero hfind,
        checkActionRecordOf_zero hr, Res.pure_eq_ok, Heap.withTail, FrameView.handlerContext]
    | site _ hparse hfind hsite =>
      cases hjudges with
      | site hchain =>
        simp only [hparse, hfind, Res.ok_bind, checkActionRecordOf_site hr hsite hchain hfuel,
          Res.pure_eq_ok, Heap.withTail, FrameView.handlerContext]

end

end LibCxxRt
