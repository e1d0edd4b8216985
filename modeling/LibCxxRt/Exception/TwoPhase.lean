import LibCxxRt.Exception.Cleanup

/-!
This module contains the results about the second phase after a search: it enters the frame at which
the search phase stopped with what the search phase found there, and it does not enter a frame at the
address 0.
-/

namespace LibCxxRt

-- the lookup does not find a call-site record for the instruction pointer of a frame
def LacksCallsite (m : Mem) (context : UnwindContext) : Prop :=
  context.languageSpecificData ≠ 0 ∧ ∃ lsda action,
    parseLsda m context context.languageSpecificData = .ok lsda
      ∧ dwarfEhFindCallsite m context lsda = .ok (false, action)

section

variable {img : Image} {fuel : Nat} {code : LandingPadCode} {cls : BitVec 64} {obj : Ptr}
variable {h h₀ : Heap} {ex real : Option Ptr} {t : CxaTail} {context : UnwindContext}

theorem Known.lacksCallsite_iff {j : FrameView Judged} (hknown : Known img h real fuel context j)
    : LacksCallsite img.mem context ↔ j = .noCallsite := by
  rcases hknown with ⟨v, hreads, hjudges, _⟩
  unfold LacksCallsite
  cases hreads with
  | noLsda hlsda =>
    cases hjudges
    simp [hlsda]
  | noCallsite hlsda hparse hfind =>
    cases hjudges
    simp only [iff_true]
    exact ⟨hlsda, _, _, hparse, hfind⟩
  | site hlsda hparse hfind =>
    cases hjudges
    simp [hparse, hfind]

theorem setWidth_signExtend (filter : BitVec 32) : (filter.signExtend 64).setWidth 32 = filter := by
  ext i hi
  have hi' : i < 64 := by omega
  simp [BitVec.getElem_signExtend, hi, hi']

-- the selector survives the conversions to `int` and back to `unsigned long`
theorem signExtend_setWidth_resolveSite {chain : Option (List Judged)}
    (hcatch : (resolveSite chain 0).1 = .handlerCatch)
    : ((resolveSite chain 0).2.1.setWidth 32).signExtend 64 = (resolveSite chain 0).2.1 := by
  cases chain with
  | none => simp [resolveSite] at hcatch
  | some js =>
    have hdecides := (resolve_eq_handlerCatch_iff js 0 0).mp hcatch
    rcases resolve_of_decides hdecides .handlerNone 0 0 with ⟨j, _, _, _, hselector⟩
    unfold resolveSite
    rw [hselector]
    rw [setWidth_signExtend]

section

variable {p : Ptr} {passed : List UnwindContext} {jpassed : List (FrameView Judged)}
variable {f : UnwindContext}

-- the second phase of a C++ exception after the search phase has stopped without a call site
theorem deliver_noCallsite (hcode : code.Spares obj cls (some p) real)
    (hr : Raised h obj cls (some p) real t) (htemp : t.catchTemp = 0)
    (htype : h₀.typeOf real = h.typeOf real)
    (hpassed : List.Forall₂ (Known img h₀ real fuel) passed jpassed)
    (hf : Known img h₀ real fuel f .noCallsite) (adjustedPtr : Addr)
    : deliver img fuel code cls obj passed f
          (h.withTail (some p) (FrameView.noCallsite.searchTail f { t with adjustedPtr }))
        =
      .error .terminate := by
  have hr₁ := hr.withTail { t with adjustedPtr } rfl
  have htype₁ : h₀.typeOf real = (h.withTail (some p) { t with adjustedPtr }).typeOf real := by
    rw [Heap.typeOf_withTail, htype]
  apply deliver_eq_terminate hcode hr₁ htype₁ hpassed
  . exact hf.languageSpecificData_ne_zero rfl
  . exact htemp

-- the second phase of a C++ exception after the search phase has stopped at a handler
theorem deliver_site (hcode : code.Spares obj cls (some p) real)
    (hr : Raised h obj cls (some p) real t) (htype : h₀.typeOf real = h.typeOf real)
    (hpassed : List.Forall₂ (Known img h₀ real fuel) passed jpassed) {action : DwarfEhAction}
    {chain : Option (List Judged)} (hf : Known img h₀ real fuel f (.site action chain))
    (hpads : (FrameView.site action chain).HasLandingPads)
    (hcatch : (resolveSite chain 0).1 = .handlerCatch) (adjustedPtr : Addr)
    : ∃ h₂ t₂, deliver img fuel code cls obj passed f
          (h.withTail (some p) ((FrameView.site action chain).searchTail f { t with adjustedPtr }))
          = .ok {
              passed := List.zipWith (fun f j => j.cleanupAnswer obj f) passed jpassed
              handler := (.installContext, (FrameView.site action chain).handlerContext obj f)
              heap := h₂
            }
        ∧ Raised h₂ obj cls (some p) real t₂ ∧ h₀.typeOf real = h₂.typeOf real
        ∧ t₂.cache = (0, 0, jpassed.foldl (fun adjustedPtr j => j.cleanupAdjusted adjustedPtr)
            (resolveSite chain adjustedPtr).2.2) := by
  have hr₁ := hr.withTail _
    (FrameView.unwindHeader_searchTail (.site action chain) f { t with adjustedPtr })
  have htemp : ((FrameView.site action chain).searchTail f { t with adjustedPtr }).catchTemp
      = action.landingPad := by
    simp only [FrameView.searchTail, hcatch, ↓reduceIte]
  have hpad := hf.landingPad_ne_zero hpads hcatch
  have hstops : (FrameView.site action chain).stops := by
    simp only [FrameView.stops, hcatch, BEq.rfl]
  rcases deliver_eq_ok hcode hr₁ (by rw [Heap.typeOf_withTail, htype]) hpassed
    (hf.languageSpecificData_ne_zero hstops) (by rw [htemp]; exact hpad)
    with ⟨h₂, t₂, hdeliver, hr₂, htype₂, hcache⟩
  refine ⟨h₂, t₂, ?_, hr₂, htype₂, ?_⟩
  . rw [hdeliver]
    simp only [FrameView.searchTail, hcatch, ↓reduceIte, signExtend_setWidth_resolveSite hcatch,
      FrameView.handlerContext]
  . rw [hcache]
    simp only [FrameView.searchTail, hcatch, ↓reduceIte]

end

-- an exception that is not in flight
def AtRest (h₀ h : Heap) (obj : Ptr) (cls : BitVec 64) (ex real : Option Ptr) : Prop :=
  ∃ t, Raised h obj cls ex real t ∧ t.catchTemp = 0 ∧ h₀.typeOf real = h.typeOf real

theorem AtRest.spares (hcode : code.Spares obj cls ex real) (hrest : AtRest h₀ h obj cls ex real)
    (context : UnwindContext) : AtRest h₀ (code context h) obj cls ex real := by
  rcases hrest with ⟨t, hr, htemp, htype⟩
  rcases hcode context h t hr with ⟨t', hr', hcache, htype'⟩
  simp only [CxaTail.cache, Prod.mk.injEq] at hcache
  refine ⟨t', hr', ?_, ?_⟩
  . rw [hcache.2.1, htemp]
  . rw [htype', htype]

theorem runEpisode_atRest (hcode : code.Spares obj cls ex real)
    (hrest : AtRest h₀ h obj cls ex real) {e : Episode}
    (hfs : ∀ f ∈ e.frames, WellFormed img h₀ real fuel f) {h' : Heap}
    (hrun : runEpisode img fuel code cls obj e h = .ok h') : AtRest h₀ h' obj cls ex real := by
  rcases hrest with ⟨t, hr, htemp, htype⟩
  rcases exists_forall₂_of_forall hfs with ⟨js, hknown, hpads⟩
  cases e with
  | forced frames =>
    rcases cleanupPass_eq hcode hr htype (.cleanupPhase ||| .forceUnwind) (by decide) (by decide)
      hknown with ⟨h₁, t₁, hpass, hr₁, htype₁, hcache⟩
    simp only [CxaTail.cache, Prod.mk.injEq] at hcache
    simp only [runEpisode, forcedUnwind, Episode.frames] at hrun hpass
    simp only [hpass, Res.ok_bind, Res.pure_eq_ok, Except.ok.injEq] at hrun
    subst hrun
    refine ⟨t₁, hr₁, ?_, htype₁⟩
    rw [hcache.2.1, htemp]
  | raise frames =>
    simp only [runEpisode] at hrun
    cases searchPhase_cases hr htype hknown with
    | inl hnone =>
      rcases hnone with ⟨adjustedPtr, _, hphase⟩
      simp only [Episode.frames] at hphase
      simp only [hphase, Res.ok_bind, Res.pure_eq_ok, Except.ok.injEq] at hrun
      subst hrun
      refine ⟨_, hr.withTail _ rfl, htemp, ?_⟩
      rw [Heap.typeOf_withTail, htype]
    | inr hsome =>
      rcases hsome with ⟨passed, f, rest, jpassed, j, jrest, adjustedPtr, _, hjs, hpassed, hf, _,
        hj, hphase⟩
      simp only [Episode.frames] at hphase
      simp only [hphase, Res.ok_bind] at hrun
      cases ex with
      | none =>
        rcases deliver_foreign_eq hcode hr htype hpassed hf (hf.languageSpecificData_ne_zero hj)
          with ⟨h₂, t₂, hdeliver, hr₂, htype₂⟩
        simp only [Heap.withTail, hdeliver, Res.ok_bind, Res.pure_eq_ok, Except.ok.injEq] at hrun
        subst hrun
        apply AtRest.spares hcode
        exact ⟨{ t₂ with catchTemp := 0 }, hr₂.withTail { t₂ with catchTemp := 0 } rfl, rfl, htype₂⟩
      | some p =>
        cases j with
        | noLsda => simp [FrameView.stops] at hj
        | noCallsite =>
          rw [deliver_noCallsite hcode hr htemp htype hpassed hf] at hrun
          simp at hrun
        | site action chain =>
          have hcatch : (resolveSite chain 0).1 = .handlerCatch := by
            simpa only [FrameView.stops, beq_iff_eq] using hj
          rcases deliver_site hcode hr htype hpassed hf (hpads _ (by simp [hjs])) hcatch adjustedPtr
            with ⟨h₂, t₂, hdeliver, hr₂, htype₂, hcache⟩
          simp only [hdeliver, Res.ok_bind, Res.pure_eq_ok, Except.ok.injEq] at hrun
          subst hrun
          simp only [CxaTail.cache, Prod.mk.injEq] at hcache
          apply AtRest.spares hcode
          exact ⟨t₂, hr₂, hcache.2.1, htype₂⟩

theorem runEpisodes_atRest (hcode : code.Spares obj cls ex real)
    (hrest : AtRest h₀ h obj cls ex real) {es : List Episode}
    (hes : ∀ e ∈ es, ∀ f ∈ e.frames, WellFormed img h₀ real fuel f) {h' : Heap}
    (hrun : runEpisodes img fuel code cls obj es h = .ok h') : AtRest h₀ h' obj cls ex real := by
  induction es generalizing h with
  | nil =>
    simp only [runEpisodes, Except.ok.injEq] at hrun
    rw [← hrun]
    exact hrest
  | cons e es ih =>
    rw [List.forall_mem_cons] at hes
    simp only [runEpisodes] at hrun
    rw [Res.bind_eq_ok] at hrun
    rcases hrun with ⟨h₁, hfirst, hrun⟩
    exact ih (runEpisode_atRest hcode hrest hes.1 hfirst) hes.2 hrun

def AvoidsNull (answers : List Answer) : Prop :=
  ∀ a ∈ answers, a.1 = .installContext → a.2.ip ≠ 0

namespace Episode

/--
Control is not transferred to the address 0, and an exception that is not caught where it must not
propagate ends the program.
-/
def AvoidsNull (e : Episode) (img : Image) (fuel : Nat) (code : LandingPadCode) (cls : BitVec 64)
    (obj : Ptr) (h : Heap) : Prop :=
  match e with
  | .forced frames =>
    ∀ answers h', forcedUnwind img fuel code cls obj frames h = .ok (answers, h')
      → LibCxxRt.AvoidsNull answers
  | .raise frames =>
    ∀ passed f h₁, searchPhase img fuel cls obj frames h = .ok (.handlerFound passed f, h₁)
      → (∀ answers h₂, cleanupPass img fuel code cls obj .cleanupPhase passed h₁
            = .ok (answers, h₂) → LibCxxRt.AvoidsNull answers)
        ∧ (∀ d, deliver img fuel code cls obj passed f h₁ = .ok d
            → LibCxxRt.AvoidsNull [d.handler])
        ∧ (LacksCallsite img.mem f
            → deliver img fuel code cls obj passed f h₁ = .error .terminate)

-- a foreign exception does not end its search where there is no call site
def FindsCallsite (e : Episode) (cls : BitVec 64) (js : List (FrameView Judged)) : Prop :=
  match e with
  | .forced _ => True
  | .raise _ => isCxxException cls ∨ js.find? (·.stops) ≠ some .noCallsite

end Episode

theorem FrameView.ip_cleanupAnswer_ne_zero {j : FrameView Judged}
    (henter : (j.cleanupAnswer obj context).1 = .installContext)
    : (j.cleanupAnswer obj context).2.ip ≠ 0 := by
  cases j with
  | noLsda => simp [cleanupAnswer] at henter
  | noCallsite => simp [cleanupAnswer] at henter
  | site action chain =>
    unfold cleanupAnswer at henter ⊢
    dsimp only at henter ⊢
    split
    . next hpad => exact hpad.1
    . next hpad =>
      rw [if_neg hpad] at henter
      simp at henter

theorem avoidsNull_cleanupAnswer (fs : List UnwindContext) (js : List (FrameView Judged))
    : AvoidsNull (List.zipWith (fun f j => j.cleanupAnswer obj f) fs js) := by
  induction fs generalizing js with
  | nil => simp [AvoidsNull]
  | cons f fs ih =>
    cases js with
    | nil => simp [AvoidsNull]
    | cons j js =>
      unfold AvoidsNull
      rw [List.zipWith_cons_cons, List.forall_mem_cons]
      constructor
      . exact FrameView.ip_cleanupAnswer_ne_zero
      . exact ih js

theorem find?_stops_of_split {jpassed : List (FrameView Judged)} {j : FrameView Judged}
    (hnone : ∀ j ∈ jpassed, j.stops = false) (hj : j.stops) (jrest : List (FrameView Judged))
    : (jpassed ++ j :: jrest).find? (·.stops) = some j := by
  rw [List.find?_append]
  rw [List.find?_eq_none.mpr (by simpa using hnone)]
  simp [hj]

theorem deliver_avoidsNull_iff (hcode : code.Spares obj cls ex real)
    (hr : Raised h obj cls ex real t) (htemp : t.catchTemp = 0)
    (htype : h₀.typeOf real = h.typeOf real) {passed : List UnwindContext}
    {jpassed : List (FrameView Judged)}
    (hpassed : List.Forall₂ (Known img h₀ real fuel) passed jpassed) {f : UnwindContext}
    {j : FrameView Judged} (hf : Known img h₀ real fuel f j) (hpads : j.HasLandingPads)
    (hj : j.stops) (adjustedPtr : Addr)
    : ((∀ d, deliver img fuel code cls obj passed f
              (h.withTail ex (j.searchTail f { t with adjustedPtr })) = .ok d
            → AvoidsNull [d.handler])
          ∧ (LacksCallsite img.mem f → deliver img fuel code cls obj passed f
              (h.withTail ex (j.searchTail f { t with adjustedPtr })) = .error .terminate))
        ↔
      (isCxxException cls ∨ j ≠ .noCallsite) := by
  rw [hf.lacksCallsite_iff]
  cases j with
  | noLsda => simp [FrameView.stops] at hj
  | noCallsite =>
    cases ex with
    | none =>
      have hcxx : isCxxException cls = false := by
        cases hr
        simpa using ‹¬ isCxxException cls›
      rcases deliver_foreign_eq hcode hr htype hpassed hf (hf.languageSpecificData_ne_zero hj)
        with ⟨h₂, t₂, hdeliver, _⟩
      simp [Heap.withTail, hdeliver, hcxx]
    | some p =>
      have hcxx : isCxxException cls := by
        cases hr
        assumption
      simp [deliver_noCallsite hcode hr htemp htype hpassed hf adjustedPtr, hcxx]
  | site action chain =>
    have hcatch : (resolveSite chain 0).1 = .handlerCatch := by
      simpa only [FrameView.stops, beq_iff_eq] using hj
    have hpad := hf.landingPad_ne_zero hpads hcatch
    have hdeliver : ∃ d, deliver img fuel code cls obj passed f
          (h.withTail ex ((FrameView.site action chain).searchTail f { t with adjustedPtr }))
            = .ok d
        ∧ d.handler = (.installContext, (FrameView.site action chain).handlerContext obj f) := by
      cases ex with
      | none =>
        rcases deliver_foreign_eq hcode hr htype hpassed hf (hf.languageSpecificData_ne_zero hj)
          with ⟨h₂, t₂, hdeliver, _⟩
        exact ⟨_, hdeliver, rfl⟩
      | some p =>
        rcases deliver_site hcode hr htype hpassed hf hpads hcatch adjustedPtr
          with ⟨h₂, t₂, hdeliver, _⟩
        exact ⟨_, hdeliver, rfl⟩
    rcases hdeliver with ⟨d, hdeliver, hhandler⟩
    rw [hdeliver]
    simp [AvoidsNull, hhandler, FrameView.handlerContext, installContext]
    simpa using hpad

/--
After any episodes of an exception, the next one avoids the address 0 exactly if it is not the search
for a handler of a foreign exception that ends without a call site.
-/
theorem runEpisodes_avoidsNull_iff (hcode : code.Spares obj cls ex real)
    (hrest : AtRest h₀ h₀ obj cls ex real) {es : List Episode}
    (hes : ∀ e ∈ es, ∀ f ∈ e.frames, WellFormed img h₀ real fuel f)
    (hrun : runEpisodes img fuel code cls obj es h₀ = .ok h) {e : Episode}
    {js : List (FrameView Judged)} (hknown : List.Forall₂ (Known img h₀ real fuel) e.frames js)
    (hpads : ∀ j ∈ js, j.HasLandingPads)
    : e.AvoidsNull img fuel code cls obj h ↔ e.FindsCallsite cls js := by
  rcases runEpisodes_atRest hcode hrest hes hrun with ⟨t, hr, htemp, htype⟩
  cases e with
  | forced frames =>
    rcases cleanupPass_eq hcode hr htype (.cleanupPhase ||| .forceUnwind) (by decide) (by decide)
      hknown with ⟨h₁, t₁, hpass, _⟩
    simp only [Episode.AvoidsNull, forcedUnwind, Episode.FindsCallsite, iff_true]
    intro answers h' heq
    simp only [Episode.frames] at hpass
    rw [hpass] at heq
    simp only [Except.ok.injEq, Prod.mk.injEq] at heq
    rw [← heq.1]
    exact avoidsNull_cleanupAnswer frames js
  | raise frames =>
    simp only [Episode.AvoidsNull, Episode.FindsCallsite]
    cases searchPhase_cases hr htype hknown with
    | inl hnone =>
      rcases hnone with ⟨adjustedPtr, hnone, hphase⟩
      simp only [Episode.frames] at hphase
      have hfind : js.find? (·.stops) = none := by
        rw [List.find?_eq_none]
        simpa using hnone
      simp [hphase, hfind]
    | inr hsome =>
      rcases hsome with ⟨passed, f, rest, jpassed, j, jrest, adjustedPtr, _, hjs, hpassed, hf,
        hnone, hj, hphase⟩
      simp only [Episode.frames] at hphase
      have hfind := find?_stops_of_split hnone hj jrest
      rw [← hjs] at hfind
      have hiff := deliver_avoidsNull_iff hcode hr htemp htype hpassed hf (hpads j (by simp [hjs]))
        hj adjustedPtr
      rw [hphase, hfind]
      simp only [ne_eq, Option.some.injEq]
      constructor
      . intro hall
        exact hiff.mp (hall passed f _ rfl).2
      . intro hcond passed' f' h₁ heq
        simp only [Except.ok.injEq, Prod.mk.injEq, SearchResult.handlerFound.injEq] at heq
        rcases heq with ⟨⟨hpassed', hf'⟩, hheap⟩
        subst hpassed' hf' hheap
        refine ⟨?_, hiff.mpr hcond⟩
        have hr₁ := hr.withTail _ (j.unwindHeader_searchTail f { t with adjustedPtr })
        rcases cleanupPass_eq hcode hr₁ (by rw [Heap.typeOf_withTail, htype]) .cleanupPhase
          (by decide) (by decide) hpassed with ⟨h₂, t₂, hpass, _⟩
        intro answers h₂' heq
        rw [hpass] at heq
        simp only [Except.ok.injEq, Prod.mk.injEq] at heq
        rw [← heq.1]
        exact avoidsNull_cleanupAnswer passed jpassed

theorem runEpisodes_avoidsNull_iff_noCallsite
    : (Episode.raise [Sample.context 0x35]).AvoidsNull Sample.img 4 (fun _ h => h) exceptionClass
          ⟨0, 96⟩ Sample.heap
        ↔
      (Episode.raise [Sample.context 0x35]).FindsCallsite exceptionClass [.noCallsite] := by
  have hrun : runEpisodes Sample.img 4 (fun _ h => h) exceptionClass ⟨0, 96⟩
      [.forced [Sample.context 0x35]] Sample.heap = .ok Sample.heap := rfl
  have hknown : List.Forall₂ (Known Sample.img Sample.heap (some ⟨0, 0⟩) 4)
      (Episode.raise [Sample.context 0x35]).frames [.noCallsite] :=
    .cons Sample.known_noCallsite .nil
  apply runEpisodes_avoidsNull_iff LandingPadCode.spares_id ⟨_, Sample.raised, rfl, rfl⟩ _ hrun
    hknown
  . simp [FrameView.HasLandingPads]
  . simp only [List.forall_mem_cons, List.not_mem_nil, false_implies, implies_true, and_true,
      Episode.frames]
    exact ⟨_, Sample.known_noCallsite, by simp [FrameView.HasLandingPads]⟩

-- an exception of another runtime, thrown where there is no call site
theorem foreign_entersNull
    : ∃ h₁ d, searchPhase Sample.img 4 0 ⟨0, 0⟩ [Sample.context 0x35] Sample.foreignHeap
          = .ok (.handlerFound [] (Sample.context 0x35), h₁)
        ∧ deliver Sample.img 4 (fun _ h => h) 0 ⟨0, 0⟩ [] (Sample.context 0x35) h₁ = .ok d
        ∧ d.handler.1 = .installContext ∧ d.handler.2.ip = 0 := by
  exact ⟨_, _, rfl, rfl, rfl, rfl⟩

end

end LibCxxRt
