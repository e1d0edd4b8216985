import LibCxxRt.Exception.Lemmas.Heap

/-!
This module contains the characterisations of `resolve`: when a chain makes a handler, when it makes
a cleanup, which selector it leaves behind and which adjusted pointer it computes.
-/

namespace LibCxxRt

theorem resolve_of_decides {js : List Judged} (hjs : ∃ j ∈ js, j.2.decides) (found : HandlerType)
    (selector : BitVec 64) (adjustedPtr : Addr)
    : ∃ j ∈ js, j.2.decides
        ∧ (resolve js found selector adjustedPtr).1 = .handlerCatch
        ∧ (resolve js found selector adjustedPtr).2.1 = j.1.signExtend 64 := by
  induction js generalizing found selector adjustedPtr with
  | nil => simp at hjs
  | cons j js ih =>
    rcases j with ⟨filter, v⟩
    have hrest (hv : v.decides = false) : ∃ j ∈ js, j.2.decides := by
      simpa [hv] using hjs
    cases v with
    | pass =>
      rcases ih (hrest rfl) found selector adjustedPtr with ⟨j, hj, hres⟩
      exact ⟨j, List.mem_cons_of_mem _ hj, hres⟩
    | cleanup =>
      rcases ih (hrest rfl) .handlerCleanup 0 adjustedPtr with ⟨j, hj, hres⟩
      exact ⟨j, List.mem_cons_of_mem _ hj, hres⟩
    | permit adjustedPtr' =>
      rcases ih (hrest rfl) found (filter.signExtend 64) adjustedPtr' with ⟨j, hj, hres⟩
      exact ⟨j, List.mem_cons_of_mem _ hj, hres⟩
    | handle adjustedPtr' => exact ⟨_, List.mem_cons_self .., rfl, rfl, rfl⟩
    | violate => exact ⟨_, List.mem_cons_self .., rfl, rfl, rfl⟩

theorem resolve_of_not_decides {js : List Judged} (hjs : ∀ j ∈ js, j.2.decides = false)
    (found : HandlerType) (selector : BitVec 64) (adjustedPtr : Addr)
    : (resolve js found selector adjustedPtr).1
        =
      if ∃ j ∈ js, j.2 = .cleanup then .handlerCleanup else found := by
  induction js generalizing found selector adjustedPtr with
  | nil => simp [resolve]
  | cons j js ih =>
    rcases j with ⟨filter, v⟩
    specialize ih fun j hj => hjs j (List.mem_cons_of_mem _ hj)
    cases v with
    | pass => simp [resolve, ih]
    | cleanup => simp [resolve, ih]
    | permit adjustedPtr' => simp [resolve, ih]
    | handle adjustedPtr' => simp [Verdict.decides] at hjs
    | violate => simp [Verdict.decides] at hjs

theorem resolve_eq_handlerCatch_iff (js : List Judged) (selector : BitVec 64) (adjustedPtr : Addr)
    : (resolve js .handlerNone selector adjustedPtr).1 = .handlerCatch
        ↔
      ∃ j ∈ js, j.2.decides := by
  constructor
  . intro hres
    by_contra hjs
    rw [resolve_of_not_decides (by simpa using hjs)] at hres
    split at hres <;> simp at hres
  . intro hjs
    rcases resolve_of_decides hjs .handlerNone selector adjustedPtr with ⟨_, _, _, hres, _⟩
    exact hres

theorem resolve_eq_handlerCleanup_iff (js : List Judged) (selector : BitVec 64) (adjustedPtr : Addr)
    : (resolve js .handlerNone selector adjustedPtr).1 = .handlerCleanup
        ↔
      (∀ j ∈ js, j.2.decides = false) ∧ ∃ j ∈ js, j.2 = .cleanup := by
  by_cases hjs : ∃ j ∈ js, j.2.decides
  . have hcatch := (resolve_eq_handlerCatch_iff js selector adjustedPtr).mpr hjs
    rw [hcatch]
    simp only [reduceCtorEq, false_iff, not_and]
    intro hnone
    rcases hjs with ⟨j, hj, hdecides⟩
    simp [hnone j hj] at hdecides
  . have hnone : ∀ j ∈ js, j.2.decides = false := by simpa using hjs
    rw [resolve_of_not_decides hnone]
    constructor
    . intro hres
      refine ⟨hnone, ?_⟩
      by_contra hcleanup
      simp [hcleanup] at hres
    . intro hres
      simp [hres.2]

theorem signExtend_ne_zero_of_slt_zero {filter : BitVec 32} (hneg : filter.slt 0)
    : filter.signExtend 64 ≠ 0 := by
  intro heq
  have hint : (filter.signExtend 64).toInt = filter.toInt :=
    BitVec.toInt_signExtend_of_le (by decide)
  rw [heq] at hint
  rw [BitVec.slt_iff_toInt_lt, ← hint] at hneg
  simp at hneg

namespace PermitAfterCleanup

theorem cons_iff {j : Judged} {js : List Judged} (hj : j.2 ≠ .cleanup)
    : PermitAfterCleanup (j :: js) ↔ PermitAfterCleanup js := by
  constructor
  . rintro ⟨pre, k, post, heq, ⟨c, hc, hcleanup⟩, hpermit, hpost⟩
    cases pre with
    | nil => simp at hc
    | cons j' pre =>
      simp only [List.cons_append, List.cons.injEq] at heq
      rw [← heq.1] at hc
      cases List.mem_cons.mp hc with
      | inl hcj => rw [hcj] at hcleanup; exact absurd hcleanup hj
      | inr hmem => exact ⟨pre, k, post, heq.2, ⟨c, hmem, hcleanup⟩, hpermit, hpost⟩
  . rintro ⟨pre, k, post, heq, ⟨c, hc, hcleanup⟩, hpermit, hpost⟩
    refine ⟨j :: pre, k, post, by simp [heq], ⟨c, ?_, hcleanup⟩, hpermit, hpost⟩
    exact List.mem_cons_of_mem _ hc

theorem cleanup_cons_iff {filter : BitVec 32} {js : List Judged} (hjs : ∃ j ∈ js, j.2 = .cleanup)
    : PermitAfterCleanup ((filter, .cleanup) :: js) ↔ PermitAfterCleanup js := by
  constructor
  . rintro ⟨pre, k, post, heq, _, hpermit, hpost⟩
    cases pre with
    | nil =>
      simp only [List.nil_append, List.cons.injEq] at heq
      rw [← heq.1] at hpermit
      simp [Verdict.isPermit, Verdict.permitted] at hpermit
    | cons j' pre =>
      simp only [List.cons_append, List.cons.injEq] at heq
      refine ⟨pre, k, post, heq.2, ?_, hpermit, hpost⟩
      rcases hjs with ⟨c, hc, hcleanup⟩
      rw [heq.2] at hc
      simp only [List.mem_append, List.mem_cons] at hc
      rcases hc with hpre | heq | hmem
      . exact ⟨c, hpre, hcleanup⟩
      . rw [← heq, hcleanup] at hpermit
        simp [Verdict.isPermit, Verdict.permitted] at hpermit
      . exact absurd hcleanup (hpost c hmem)
  . rintro ⟨pre, k, post, heq, ⟨c, hc, hcleanup⟩, hpermit, hpost⟩
    refine ⟨(filter, .cleanup) :: pre, k, post, by simp [heq], ⟨c, ?_, hcleanup⟩, hpermit, hpost⟩
    exact List.mem_cons_of_mem _ hc

theorem cleanup_cons_of_no_cleanup_iff {filter : BitVec 32} {js : List Judged}
    (hjs : ¬ ∃ j ∈ js, j.2 = .cleanup)
    : PermitAfterCleanup ((filter, .cleanup) :: js) ↔ ∃ j ∈ js, j.2.isPermit := by
  constructor
  . rintro ⟨pre, k, post, heq, _, hpermit, hpost⟩
    cases pre with
    | nil =>
      simp only [List.nil_append, List.cons.injEq] at heq
      rw [← heq.1] at hpermit
      simp [Verdict.isPermit, Verdict.permitted] at hpermit
    | cons j' pre =>
      simp only [List.cons_append, List.cons.injEq] at heq
      refine ⟨k, ?_, hpermit⟩
      rw [heq.2]
      simp
  . rintro ⟨k, hk, hpermit⟩
    rcases List.append_of_mem hk with ⟨pre, post, heq⟩
    refine ⟨(filter, .cleanup) :: pre, k, post, by simp [heq], ⟨_, List.mem_cons_self .., rfl⟩,
      hpermit, ?_⟩
    intro j hj hcleanup
    apply hjs
    refine ⟨j, ?_, hcleanup⟩
    rw [heq]
    simp [hj]

end PermitAfterCleanup

theorem PermitsHaveFilters.tail {j : Judged} {js : List Judged}
    (hfilters : PermitsHaveFilters (j :: js)) : PermitsHaveFilters js := by
  intro k hk hpermit
  exact hfilters k (List.mem_cons_of_mem _ hk) hpermit

-- the clause that sets the selector last is a cleanup or a satisfied exception specification
theorem resolve_selector_eq_zero_iff {js : List Judged} (hjs : ∀ j ∈ js, j.2.decides = false)
    (hfilters : PermitsHaveFilters js) (found : HandlerType) (selector : BitVec 64)
    (adjustedPtr : Addr)
    : (resolve js found selector adjustedPtr).2.1 = 0
        ↔
      if ∃ j ∈ js, j.2 = .cleanup then
        ¬ PermitAfterCleanup js
      else
        selector = 0 ∧ ¬ ∃ j ∈ js, j.2.isPermit := by
  induction js generalizing found selector adjustedPtr with
  | nil => simp [resolve]
  | cons j js ih =>
    rcases j with ⟨filter, v⟩
    specialize ih (fun j hj => hjs j (List.mem_cons_of_mem _ hj)) hfilters.tail
    cases v with
    | pass =>
      rw [resolve, ih]
      rw [PermitAfterCleanup.cons_iff (by simp)]
      simp [Verdict.isPermit, Verdict.permitted]
    | cleanup =>
      rw [resolve, ih]
      by_cases hcleanup : ∃ j ∈ js, j.2 = .cleanup
      . rw [PermitAfterCleanup.cleanup_cons_iff hcleanup]
        simp [hcleanup]
      . rw [PermitAfterCleanup.cleanup_cons_of_no_cleanup_iff hcleanup]
        simp [hcleanup]
    | permit adjustedPtr' =>
      rw [resolve, ih]
      rw [PermitAfterCleanup.cons_iff (by simp)]
      have hne : filter.signExtend 64 ≠ 0 := by
        apply signExtend_ne_zero_of_slt_zero
        exact hfilters (filter, .permit adjustedPtr') (List.mem_cons_self ..) rfl
      simp only [hne, false_and]
      simp [Verdict.isPermit, Verdict.permitted]
    | handle adjustedPtr' => simp [Verdict.decides] at hjs
    | violate => simp [Verdict.decides] at hjs

theorem resolve_adjustedPtr_of_not_decides {js : List Judged}
    (hjs : ∀ j ∈ js, j.2.decides = false) (found : HandlerType) (selector : BitVec 64)
    (adjustedPtr : Addr)
    : (resolve js found selector adjustedPtr).2.2
        =
      (permitted js).getLast?.getD adjustedPtr := by
  induction js generalizing found selector adjustedPtr with
  | nil => rfl
  | cons j js ih =>
    rcases j with ⟨filter, v⟩
    specialize ih fun j hj => hjs j (List.mem_cons_of_mem _ hj)
    cases v with
    | pass => rw [resolve, ih]; rfl
    | cleanup => rw [resolve, ih]; rfl
    | permit adjustedPtr' =>
      rw [resolve, ih]
      simp [permitted, Verdict.permitted, List.getLast?_cons]
    | handle adjustedPtr' => simp [Verdict.decides] at hjs
    | violate => simp [Verdict.decides] at hjs

theorem resolve_of_handle {pre post : List Judged} (hpre : ∀ j ∈ pre, j.2.decides = false)
    (filter : BitVec 32) (adjustedPtr' : Addr) (found : HandlerType) (selector : BitVec 64)
    (adjustedPtr : Addr)
    : resolve (pre ++ (filter, .handle (some adjustedPtr')) :: post) found selector adjustedPtr
        =
      (.handlerCatch, filter.signExtend 64, adjustedPtr') := by
  induction pre generalizing found selector adjustedPtr with
  | nil => rfl
  | cons j pre ih =>
    rcases j with ⟨f, v⟩
    specialize ih fun j hj => hpre j (List.mem_cons_of_mem _ hj)
    rw [List.cons_append]
    cases v with
    | pass => rw [resolve, ih]
    | cleanup => rw [resolve, ih]
    | permit adjustedPtr'' => rw [resolve, ih]
    | handle adjustedPtr'' => simp [Verdict.decides] at hpre
    | violate => simp [Verdict.decides] at hpre

end LibCxxRt
