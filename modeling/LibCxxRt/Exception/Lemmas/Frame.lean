import LibCxxRt.Exception.Lemmas.Resolve

/-!
This module contains the lemmas about decoded frames: what the tables guarantee for the verdicts, and
what a frame resolves to.
-/

namespace LibCxxRt

section

variable {m : Mem} {img : Image} {h : Heap} {ex : Option Ptr} {context : UnwindContext}
variable {lsda : DwarfEhLsda} {cs : List Clause} {js : List Judged}

theorem Clause.isPermit_of_verdict {c : Clause} {v : Verdict} (hv : c.verdict img h ex = .ok v)
    (hpermit : v.isPermit) : ∃ filter types, c = .spec filter types := by
  cases c with
  | spec filter types => exact ⟨filter, types, rfl⟩
  | cleanup =>
    simp only [verdict, Except.ok.injEq] at hv
    subst hv
    simp [Verdict.isPermit, Verdict.permitted] at hpermit
  | handler filter type =>
    cases ex with
    | none =>
      simp only [verdict, Except.ok.injEq] at hv
      subst hv
      split at hpermit <;> simp [Verdict.isPermit, Verdict.permitted] at hpermit
    | some ex =>
      simp only [verdict] at hv
      rw [Res.bind_eq_ok] at hv
      rcases hv with ⟨o, _, hv⟩
      cases o with
      | none =>
        simp only [Res.pure_eq_ok, Except.ok.injEq] at hv
        subst hv
        simp [Verdict.isPermit, Verdict.permitted] at hpermit
      | some adjustedPtr =>
        simp only [Res.pure_eq_ok, Except.ok.injEq] at hv
        subst hv
        simp [Verdict.isPermit, Verdict.permitted] at hpermit

theorem ReadsClause.slt_of_spec {f filter : BitVec 32} {types : List Addr}
    (hclause : ReadsClause m context lsda f (.spec filter types)) : filter.slt 0 := by
  cases hclause
  assumption

theorem ReadsChain.permitsHaveFilters {p : Addr} (hreads : ReadsChain m context lsda p cs)
    (hjudges : List.Forall₂ (Judges img h ex) cs js) : PermitsHaveFilters js := by
  induction hreads generalizing js with
  | nil =>
    cases hjudges
    simp [PermitsHaveFilters]
  | cons _ _ _ hclause _ ih =>
    cases hjudges with
    | @cons c j cs js hj hjs =>
      intro k hk hpermit
      cases List.mem_cons.mp hk with
      | inr hmem => exact ih hjs k hmem hpermit
      | inl heq =>
        subst heq
        rcases hj with ⟨hfilter, hverdict⟩
        rcases Clause.isPermit_of_verdict hverdict hpermit with ⟨filter, types, hc⟩
        subst hc
        rw [hfilter]
        exact hclause.slt_of_spec

theorem Known.permitsHaveFilters {fuel : Nat} {action : DwarfEhAction}
    (hknown : Known img h ex fuel context (.site action (some js))) : PermitsHaveFilters js := by
  rcases hknown with ⟨v, hreads, hjudges, _⟩
  cases hjudges with
  | site hchain =>
    cases hchain with
    | some hjudges =>
      cases hreads with
      | site _ _ _ hsite =>
        cases hsite with
        | some _ hchain => exact hchain.permitsHaveFilters hjudges

theorem Known.actionRecord_ne_zero {fuel : Nat} {action : DwarfEhAction}
    (hknown : Known img h ex fuel context (.site action (some js))) : action.actionRecord ≠ 0 := by
  rcases hknown with ⟨v, hreads, hjudges, _⟩
  cases hjudges with
  | site hchain =>
    cases hchain
    cases hreads with
    | site _ _ _ hsite =>
      cases hsite
      assumption

theorem Known.landingPad_ne_zero {fuel : Nat} {action : DwarfEhAction}
    {chain : Option (List Judged)} (hknown : Known img h ex fuel context (.site action chain))
    (hpads : (FrameView.site action chain).HasLandingPads)
    (hcatch : (resolveSite chain 0).1 = .handlerCatch) : action.landingPad ≠ 0 := by
  cases chain with
  | none => simp [resolveSite] at hcatch
  | some js => exact hpads hknown.actionRecord_ne_zero

theorem Known.languageSpecificData_ne_zero {fuel : Nat} {j : FrameView Judged}
    (hknown : Known img h ex fuel context j) (hj : j.stops)
    : context.languageSpecificData ≠ 0 := by
  rcases hknown with ⟨v, hreads, hjudges, _⟩
  cases hreads with
  | noLsda hlsda =>
    cases hjudges
    simp [FrameView.stops] at hj
  | noCallsite hlsda => exact hlsda
  | site hlsda => exact hlsda

end

namespace FrameView

theorem stops_iff (j : FrameView Judged)
    : j.stops ↔ j = .noCallsite ∨ ∃ c ∈ j.clauses, c.2.decides := by
  cases j with
  | noLsda => simp [stops, clauses]
  | noCallsite => simp [stops]
  | site action chain =>
    cases chain with
    | none => simp [stops, resolveSite, clauses]
    | some js =>
      simp only [stops, resolveSite, beq_iff_eq, clauses, reduceCtorEq, false_or]
      exact resolve_eq_handlerCatch_iff js 0 0

theorem letsThrough_of_not_stops {j : FrameView Judged} (hj : j.stops = false) : j.LetsThrough := by
  intro c hc
  by_contra hdecides
  have hstops := (stops_iff j).mpr (.inr ⟨c, hc, by simpa using hdecides⟩)
  rw [hj] at hstops
  contradiction

-- a frame with a cleanup is entered unless a clause decides, then it is passed over
theorem cleanupAnswer_eq_of_hasCleanup {j : FrameView Judged} (hj : j.HasCleanup) (obj : Ptr)
    (context : UnwindContext)
    : (j.cleanupAnswer obj context).1 = .installContext ↔ j.LetsThrough := by
  cases j with
  | noLsda => simp [HasCleanup] at hj
  | noCallsite => simp [HasCleanup] at hj
  | site action chain =>
    cases chain with
    | none =>
      have hpad : action.landingPad ≠ 0 := hj
      unfold cleanupAnswer LetsThrough clauses resolveSite
      simp only [ne_eq, hpad, not_false_eq_true, and_self, ↓reduceIte, List.not_mem_nil,
        false_implies, implies_true]
    | some js =>
      rcases hj with ⟨hpad, hcleanup⟩
      have hres := resolve_eq_handlerCleanup_iff js 0 0
      unfold cleanupAnswer LetsThrough clauses resolveSite
      simp only [ne_eq, hpad, not_false_eq_true, true_and, hres, hcleanup, and_true]
      split
      . next hnone => simpa using hnone
      . next hnone => simpa using hnone

theorem forall₂_cleanupAnswer_iff {fs : List UnwindContext} {js : List (FrameView Judged)}
    (hlength : fs.length = js.length) (obj : Ptr)
    : List.Forall₂ (fun j (a : Answer) => j.HasCleanup → a.1 = .installContext) js
          (List.zipWith (fun f j => j.cleanupAnswer obj f) fs js)
        ↔
      ∀ j ∈ js, j.HasCleanup → j.LetsThrough := by
  induction js generalizing fs with
  | nil => simp
  | cons j js ih =>
    cases fs with
    | nil => simp at hlength
    | cons f fs =>
      rw [List.zipWith_cons_cons, List.forall₂_cons, List.forall_mem_cons]
      rw [ih (by simpa using hlength)]
      apply and_congr_left'
      apply forall_congr'
      intro hcleanup
      exact cleanupAnswer_eq_of_hasCleanup hcleanup obj f

-- a frame is entered with the selector that its chain leaves behind
theorem cleanupAnswer_gr1_eq_zero_iff {j : FrameView Judged}
    (hfilters : ∀ action js, j = .site action (some js) → PermitsHaveFilters js) (obj : Ptr)
    (context : UnwindContext)
    : ((j.cleanupAnswer obj context).1 = .installContext
          → (j.cleanupAnswer obj context).2.gr1 = 0)
        ↔
      ¬ j.ClobbersSelector := by
  cases j with
  | noLsda => simp [cleanupAnswer, ClobbersSelector]
  | noCallsite => simp [cleanupAnswer, ClobbersSelector]
  | site action chain =>
    cases chain with
    | none =>
      unfold cleanupAnswer ClobbersSelector resolveSite
      dsimp only
      split
      . simp [installContext]
      . simp
    | some js =>
      have hres := resolve_eq_handlerCleanup_iff js 0 0
      unfold cleanupAnswer ClobbersSelector resolveSite
      dsimp only
      split
      . next henter =>
        rw [hres] at henter
        rcases henter with ⟨hpad, hnone, hcleanup⟩
        have hselector := resolve_selector_eq_zero_iff hnone (hfilters action js rfl) .handlerNone
          0 0
        rw [if_pos hcleanup] at hselector
        simp only [installContext, true_implies, hselector, hpad, ne_eq, not_false_eq_true,
          true_and, not_and]
        constructor
        . intro hnot _
          exact hnot
        . intro hnot
          exact hnot hnone
      . next henter =>
        rw [hres] at henter
        simp only [reduceCtorEq, false_implies, true_iff]
        rintro ⟨hpad, hnone, hpermit⟩
        apply henter
        refine ⟨hpad, hnone, ?_⟩
        rcases hpermit with ⟨pre, j, post, heq, ⟨c, hc, hcleanup⟩, _⟩
        refine ⟨c, ?_, hcleanup⟩
        rw [heq]
        simp [hc]

end FrameView

end LibCxxRt
