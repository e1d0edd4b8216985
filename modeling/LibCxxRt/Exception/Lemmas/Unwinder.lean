import LibCxxRt.Exception.Lemmas.Personality

/-!
This module contains the proofs about whole walks over the stack: what the search phase finds, what
a pass over frames that the exception propagates through answers and leaves in the header, and what
the frame with the handler is entered with.

The verdicts on the frames are those for a heap `h₀` in which the exception has the same type.
-/

namespace LibCxxRt

namespace FrameView

theorem searchTail_of_not_stops {j : FrameView Judged} (hj : j.stops = false)
    (context : UnwindContext) (t : CxaTail)
    : j.searchTail context t = { t with adjustedPtr := j.searchAdjusted t.adjustedPtr } := by
  unfold searchTail searchAdjusted
  cases j with
  | noLsda => rfl
  | noCallsite => rfl
  | site action chain =>
    simp only [stops, beq_eq_false_iff_ne, ne_eq] at hj
    simp only [hj, ↓reduceIte]

theorem unwindHeader_searchTail (j : FrameView Judged) (context : UnwindContext) (t : CxaTail)
    : (j.searchTail context t).unwindHeader = t.unwindHeader := by
  unfold searchTail
  cases j with
  | noLsda => rfl
  | noCallsite => rfl
  | site action chain =>
    dsimp only
    split <;> rfl

end FrameView

namespace SearchResult

@[simp]
theorem foldr_push_endOfStack (fs : List UnwindContext)
    : fs.foldr push .endOfStack = .endOfStack := by
  induction fs with
  | nil => rfl
  | cons f fs ih => rw [List.foldr_cons, ih]; rfl

@[simp]
theorem foldr_push_fatalPhase1Error (fs : List UnwindContext)
    : fs.foldr push .fatalPhase1Error = .fatalPhase1Error := by
  induction fs with
  | nil => rfl
  | cons f fs ih => rw [List.foldr_cons, ih]; rfl

@[simp]
theorem foldr_push_handlerFound (fs passed : List UnwindContext) (handler : UnwindContext)
    : fs.foldr push (.handlerFound passed handler) = .handlerFound (fs ++ passed) handler := by
  induction fs with
  | nil => rfl
  | cons f fs ih => rw [List.foldr_cons, ih]; rfl

end SearchResult

section

variable {img : Image} {fuel : Nat} {code : LandingPadCode} {cls : BitVec 64} {obj : Ptr}
variable {h h₀ : Heap} {ex real : Option Ptr} {t : CxaTail}
variable {fs : List UnwindContext} {js : List (FrameView Judged)}

theorem LandingPadCode.spares_id : LandingPadCode.Spares (fun _ h => h) obj cls ex real := by
  intro context h t hr
  exact ⟨t, hr, rfl, rfl⟩

-- the search phase only changes `adjustedPtr` while it passes over frames
theorem searchPhase_append (hr : Raised h obj cls ex real t)
    (htype : h₀.typeOf real = h.typeOf real)
    (hknown : List.Forall₂ (Known img h₀ real fuel) fs js) (hnone : ∀ j ∈ js, j.stops = false)
    : ∃ adjustedPtr, ∀ rest, searchPhase img fuel cls obj (fs ++ rest) h
        =
      (searchPhase img fuel cls obj rest (h.withTail ex { t with adjustedPtr })).map
        fun res => (fs.foldr SearchResult.push res.1, res.2) := by
  induction hknown generalizing h t with
  | nil =>
    refine ⟨t.adjustedPtr, ?_⟩
    intro rest
    rw [hr.withTail_self, List.nil_append]
    cases searchPhase img fuel cls obj rest h <;> rfl
  | @cons f j fs js hf hfs ih =>
    rw [List.forall_mem_cons] at hnone
    have hsearch := gxxPersonalityV0_search hr .searchPhase (by decide) (hf.congr htype)
    rw [FrameView.searchTail_of_not_stops hnone.1] at hsearch
    have hr' := hr.withTail { t with adjustedPtr := j.searchAdjusted t.adjustedPtr } rfl
    rcases ih hr' (by rw [Heap.typeOf_withTail, htype]) hnone.2 with ⟨adjustedPtr, ih⟩
    refine ⟨adjustedPtr, ?_⟩
    intro rest
    rw [List.cons_append, searchPhase, hsearch]
    simp only [hnone.1, Bool.false_eq_true, ↓reduceIte, Res.ok_bind]
    rw [ih rest, hr.withTail_withTail]
    cases searchPhase img fuel cls obj rest (h.withTail ex { t with adjustedPtr }) <;> rfl

theorem searchPhase_of_not_stops (hr : Raised h obj cls ex real t)
    (htype : h₀.typeOf real = h.typeOf real)
    (hknown : List.Forall₂ (Known img h₀ real fuel) fs js) (hnone : ∀ j ∈ js, j.stops = false)
    : ∃ adjustedPtr, searchPhase img fuel cls obj fs h
        = .ok (.endOfStack, h.withTail ex { t with adjustedPtr }) := by
  rcases searchPhase_append hr htype hknown hnone with ⟨adjustedPtr, happend⟩
  refine ⟨adjustedPtr, ?_⟩
  specialize happend []
  rw [List.append_nil] at happend
  rw [happend]
  simp only [searchPhase, Except.map, SearchResult.foldr_push_endOfStack]

theorem searchPhase_of_stops (hr : Raised h obj cls ex real t)
    (htype : h₀.typeOf real = h.typeOf real)
    (hknown : List.Forall₂ (Known img h₀ real fuel) fs js) (hnone : ∀ j ∈ js, j.stops = false)
    {f : UnwindContext} {j : FrameView Judged} (hf : Known img h₀ real fuel f j) (hj : j.stops)
    (rest : List UnwindContext)
    : ∃ adjustedPtr, searchPhase img fuel cls obj (fs ++ f :: rest) h
        = .ok (.handlerFound fs f,
            h.withTail ex (j.searchTail f { t with adjustedPtr })) := by
  rcases searchPhase_append hr htype hknown hnone with ⟨adjustedPtr, happend⟩
  refine ⟨adjustedPtr, ?_⟩
  have hr₁ := hr.withTail { t with adjustedPtr } rfl
  have htype₁ : h₀.typeOf real = (h.withTail ex { t with adjustedPtr }).typeOf real := by
    rw [Heap.typeOf_withTail, htype]
  have hsearch := gxxPersonalityV0_search hr₁ .searchPhase (by decide) (hf.congr htype₁)
  rw [happend, searchPhase, hsearch]
  simp only [hj, ↓reduceIte, Res.ok_bind, Res.pure_eq_ok, Except.map,
    SearchResult.foldr_push_handlerFound, List.append_nil, hr.withTail_withTail]

theorem FrameView.exists_first_stop (js : List (FrameView Judged))
    : (∀ j ∈ js, j.stops = false)
        ∨
      ∃ jpassed j jrest, js = jpassed ++ j :: jrest ∧ (∀ j ∈ jpassed, j.stops = false)
        ∧ j.stops := by
  induction js with
  | nil => simp
  | cons j js ih =>
    cases hj : j.stops with
    | true => exact .inr ⟨[], j, js, rfl, by simp, hj⟩
    | false =>
      cases ih with
      | inl hnone =>
        left
        rw [List.forall_mem_cons]
        exact ⟨hj, hnone⟩
      | inr hsome =>
        rcases hsome with ⟨jpassed, k, jrest, hjs, hnone, hk⟩
        right
        refine ⟨j :: jpassed, k, jrest, by rw [hjs, List.cons_append], ?_, hk⟩
        rw [List.forall_mem_cons]
        exact ⟨hj, hnone⟩

theorem exists_forall₂_of_forall {α β : Type} {R : α → β → Prop} {P : β → Prop} {as : List α}
    (h : ∀ a ∈ as, ∃ b, R a b ∧ P b) : ∃ bs, List.Forall₂ R as bs ∧ ∀ b ∈ bs, P b := by
  induction as with
  | nil => exact ⟨[], .nil, by simp⟩
  | cons a as ih =>
    rw [List.forall_mem_cons] at h
    rcases h with ⟨⟨b, hab, hb⟩, h⟩
    rcases ih h with ⟨bs, habs, hbs⟩
    refine ⟨b :: bs, .cons hab habs, ?_⟩
    rw [List.forall_mem_cons]
    exact ⟨hb, hbs⟩

theorem exists_split_of_forall₂ {α β : Type} {R : α → β → Prop} {as : List α} {bs bs' : List β}
    {b : β} (h : List.Forall₂ R as (bs ++ b :: bs'))
    : ∃ before a after, as = before ++ a :: after ∧ List.Forall₂ R before bs ∧ R a b := by
  have hbefore := List.forall₂_take_append as bs (b :: bs') h
  have hdrop := List.forall₂_drop_append as bs (b :: bs') h
  rcases List.forall₂_cons_right_iff.mp hdrop with ⟨a, after, ha, _, hafter⟩
  refine ⟨as.take bs.length, a, after, ?_, hbefore, ha⟩
  rw [← hafter, List.take_append_drop]

/--
The search phase stops at the first frame at which the decoded tables say so, or there is none. Up
to there it only changes `adjustedPtr`.
-/
theorem searchPhase_cases (hr : Raised h obj cls ex real t) (htype : h₀.typeOf real = h.typeOf real)
    (hknown : List.Forall₂ (Known img h₀ real fuel) fs js)
    : (∃ adjustedPtr, (∀ j ∈ js, j.stops = false)
        ∧ searchPhase img fuel cls obj fs h
            = .ok (.endOfStack, h.withTail ex { t with adjustedPtr }))
        ∨
      (∃ passed f rest jpassed j jrest adjustedPtr, fs = passed ++ f :: rest
        ∧ js = jpassed ++ j :: jrest ∧ List.Forall₂ (Known img h₀ real fuel) passed jpassed
        ∧ Known img h₀ real fuel f j ∧ (∀ j ∈ jpassed, j.stops = false) ∧ j.stops
        ∧ searchPhase img fuel cls obj fs h
            = .ok (.handlerFound passed f,
                h.withTail ex (j.searchTail f { t with adjustedPtr }))) := by
  cases FrameView.exists_first_stop js with
  | inl hnone =>
    rcases searchPhase_of_not_stops hr htype hknown hnone with ⟨adjustedPtr, hphase⟩
    exact .inl ⟨adjustedPtr, hnone, hphase⟩
  | inr hsome =>
    rcases hsome with ⟨jpassed, j, jrest, hjs, hnone, hj⟩
    subst hjs
    rcases exists_split_of_forall₂ hknown with ⟨passed, f, rest, hfs, hpassed, hf⟩
    rcases searchPhase_of_stops hr htype hpassed hnone hf hj rest with ⟨adjustedPtr, hphase⟩
    rw [← hfs] at hphase
    exact .inr ⟨_, f, rest, jpassed, j, jrest, adjustedPtr, hfs, rfl, hpassed, hf, hnone, hj,
      hphase⟩

-- what is left of an exception after the landing pad of a cleanup has run, if there is one
theorem LandingPadCode.Spares.afterAnswer (hcode : code.Spares obj cls ex real)
    (hr : Raised h obj cls ex real t) (answer : Answer)
    : ∃ t', Raised (if answer.1 = .installContext then code answer.2 h else h) obj cls ex real t'
        ∧ t'.cache = t.cache
        ∧ (if answer.1 = .installContext then code answer.2 h else h).typeOf real
            = h.typeOf real := by
  split
  . exact hcode answer.2 h t hr
  . exact ⟨t, hr, rfl, rfl⟩

/--
A pass over frames answers for each of them what the decoded tables say. It changes `adjustedPtr`
and nothing else of what is cached in the header.
-/
theorem cleanupPass_eq (hcode : code.Spares obj cls ex real) (hr : Raised h obj cls ex real t)
    (htype : h₀.typeOf real = h.typeOf real) (actions : UnwindAction)
    (hsearch : actions.has .searchPhase = false) (hhandler : actions.has .handlerFrame = false)
    (hknown : List.Forall₂ (Known img h₀ real fuel) fs js)
    : ∃ h' t', cleanupPass img fuel code cls obj actions fs h
          = .ok (List.zipWith (fun f j => j.cleanupAnswer obj f) fs js, h')
        ∧ Raised h' obj cls ex real t' ∧ h₀.typeOf real = h'.typeOf real
        ∧ t'.cache = (t.handlerSwitchValue, t.catchTemp,
            js.foldl (fun adjustedPtr j => j.cleanupAdjusted adjustedPtr) t.adjustedPtr) := by
  induction hknown generalizing h t with
  | nil => exact ⟨h, t, rfl, hr, htype, rfl⟩
  | @cons f j fs js hf hfs ih =>
    have hanswer := gxxPersonalityV0_cleanup hr actions hsearch hhandler (hf.congr htype)
    have hr₁ := hr.withTail { t with adjustedPtr := j.cleanupAdjusted t.adjustedPtr } rfl
    rcases hcode.afterAnswer hr₁ (j.cleanupAnswer obj f) with ⟨t₂, hr₂, hcache, htype₂⟩
    rw [Heap.typeOf_withTail, ← htype] at htype₂
    rcases ih hr₂ htype₂.symm with ⟨h', t', hpass, hr', htype', hcache'⟩
    refine ⟨h', t', ?_, hr', htype', ?_⟩
    . unfold cleanupPass
      simp only [hanswer, Res.ok_bind, hpass, Res.pure_eq_ok, List.zipWith_cons_cons]
    . simp only [CxaTail.cache, Prod.mk.injEq] at hcache
      rcases hcache with ⟨hswitch, htemp, hadjusted⟩
      rw [hcache', hswitch, htemp, hadjusted]
      rfl

section

variable {p : Ptr} {passed : List UnwindContext} {f : UnwindContext}
variable {jpassed : List (FrameView Judged)}

theorem deliver_eq_terminate (hcode : code.Spares obj cls (some p) real)
    (hr : Raised h obj cls (some p) real t) (htype : h₀.typeOf real = h.typeOf real)
    (hknown : List.Forall₂ (Known img h₀ real fuel) passed jpassed)
    (hlsda : f.languageSpecificData ≠ 0) (htemp : t.catchTemp = 0)
    : deliver img fuel code cls obj passed f h = .error .terminate := by
  rcases cleanupPass_eq hcode hr htype .cleanupPhase (by decide) (by decide) hknown
    with ⟨h', t', hpass, hr', htype', hcache⟩
  simp only [CxaTail.cache, Prod.mk.injEq] at hcache
  have hhandler := gxxPersonalityV0_handler hr' img fuel
    (.cleanupPhase ||| .handlerFrame) (by decide) (by decide) hlsda
  unfold deliver
  simp only [hpass, Res.ok_bind, hhandler, hcache, htemp, ↓reduceIte, Res.error_bind]

theorem deliver_eq_ok (hcode : code.Spares obj cls (some p) real)
    (hr : Raised h obj cls (some p) real t) (htype : h₀.typeOf real = h.typeOf real)
    (hknown : List.Forall₂ (Known img h₀ real fuel) passed jpassed)
    (hlsda : f.languageSpecificData ≠ 0) (htemp : t.catchTemp ≠ 0)
    : ∃ h' t', deliver img fuel code cls obj passed f h
          = .ok {
              passed := List.zipWith (fun f j => j.cleanupAnswer obj f) passed jpassed
              handler := (.installContext,
                installContext f obj (t.handlerSwitchValue.signExtend 64) t.catchTemp)
              heap := h'
            }
        ∧ Raised h' obj cls (some p) real t' ∧ h₀.typeOf real = h'.typeOf real
        ∧ t'.cache = (0, 0,
            jpassed.foldl (fun adjustedPtr j => j.cleanupAdjusted adjustedPtr) t.adjustedPtr) := by
  rcases cleanupPass_eq hcode hr htype .cleanupPhase (by decide) (by decide) hknown
    with ⟨h', t', hpass, hr', htype', hcache⟩
  simp only [CxaTail.cache, Prod.mk.injEq] at hcache
  rcases hcache with ⟨hswitch', htemp', hadjusted'⟩
  have hhandler := gxxPersonalityV0_handler hr' img fuel
    (.cleanupPhase ||| .handlerFrame) (by decide) (by decide) hlsda
  rw [hswitch', htemp'] at hhandler
  refine ⟨h'.withTail (some p) { t' with catchTemp := 0, handlerSwitchValue := 0 },
    { t' with catchTemp := 0, handlerSwitchValue := 0 }, ?_, hr'.withTail _ rfl, ?_, ?_⟩
  . unfold deliver
    simp only [hpass, Res.ok_bind, hhandler, htemp, ↓reduceIte, Res.pure_eq_ok]
  . rw [Heap.typeOf_withTail, htype']
  . simp only [CxaTail.cache, hadjusted']

theorem deliver_foreign_eq (hcode : code.Spares obj cls none real)
    (hr : Raised h obj cls none real t) (htype : h₀.typeOf real = h.typeOf real)
    (hknown : List.Forall₂ (Known img h₀ real fuel) passed jpassed) {j : FrameView Judged}
    (hf : Known img h₀ real fuel f j) (hlsda : f.languageSpecificData ≠ 0)
    : ∃ h' t', deliver img fuel code cls obj passed f h
          = .ok {
              passed := List.zipWith (fun f j => j.cleanupAnswer obj f) passed jpassed
              handler := (.installContext, j.handlerContext obj f)
              heap := h'
            }
        ∧ Raised h' obj cls none real t' ∧ h₀.typeOf real = h'.typeOf real := by
  rcases cleanupPass_eq hcode hr htype .cleanupPhase (by decide) (by decide) hknown
    with ⟨h', t', hpass, hr', htype', _⟩
  have hhandler := gxxPersonalityV0_handler_foreign hr'
    (.cleanupPhase ||| .handlerFrame) (by decide) (by decide) hlsda (hf.congr htype')
  refine ⟨h', t', ?_, hr', htype'⟩
  unfold deliver
  simp only [hpass, Res.ok_bind, hhandler, Res.pure_eq_ok]

end

end

end LibCxxRt
