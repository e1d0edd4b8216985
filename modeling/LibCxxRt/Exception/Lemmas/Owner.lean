import LibCxxRt.Exception.Invariant

/-!
This module contains the proofs that each of the ways in which the ownership of an exception changes
keeps the half of the invariant that is about reference counts, on the level of kinds.

A release happens in two steps: the ownership turns into a reference (`disown`, `free_dependent`),
then the reference is dropped (`dropReference`).
-/

namespace LibCxxRt

-- the kinds after one reference to the primary exception `p` has been given up
def dropKind (kind : Nat → Option Kind) (p n : Nat) : Nat → Option Kind :=
  Function.update kind p (if n = 1 then none else some (.primary (n - 1)))

section

variable {kind : Nat → Option Kind} {b p : Nat} {o : Option Kind}

theorem dependents_update (hold : kind b ≠ some (.dependent p)) (hnew : o ≠ some (.dependent p))
    : dependents (Function.update kind b o) p = dependents kind p := by
  ext d
  unfold dependents
  by_cases hd : d = b
  . subst hd
    simp [hold, hnew]
  . simp [Function.update_of_ne hd]

theorem dependents_update_insert (kind : Nat → Option Kind) (b p : Nat)
    : dependents (Function.update kind b (some (.dependent p))) p
        =
      insert b (dependents kind p) := by
  ext d
  unfold dependents
  by_cases hd : d = b
  . subst hd
    simp
  . simp [hd]

theorem dependents_update_remove (hnew : o ≠ some (.dependent p))
    : dependents (Function.update kind b o) p = dependents kind p \ {b} := by
  ext d
  unfold dependents
  by_cases hd : d = b
  . subst hd
    simp [hnew]
  . simp [hd]

theorem owners_congr {kind' : Nat → Option Kind} {owned owned' : Set Nat}
    {references references' : Nat → Nat} (howned : b ∈ owned' ↔ b ∈ owned)
    (hreferences : references' b = references b) (hdependents : dependents kind' b = dependents kind b)
    : owners kind' owned' references' b = owners kind owned references b := by
  unfold owners
  rw [hreferences, hdependents]
  by_cases hb : b ∈ owned
  . rw [if_pos hb, if_pos (howned.mpr hb)]
  . rw [if_neg hb, if_neg (mt howned.mp hb)]

end

namespace OwnerInv

variable {kind : Nat → Option Kind} {owned owned' : Set Nat} {references : Nat → Nat}
variable {thrown : Nat → Bool} {b p d n : Nat}

theorem finite_dependents (hinv : OwnerInv kind owned references thrown) (p : Nat)
    : (dependents kind p).Finite := by
  apply hinv.finite.subset
  intro d hd
  unfold dependents at hd
  simp only [Set.mem_ofPred_eq] at hd ⊢
  rw [hd]
  simp

theorem finite_update (hinv : OwnerInv kind owned references thrown) (b : Nat) (o : Option Kind)
    : { b' | Function.update kind b o b' ≠ none }.Finite := by
  apply (hinv.finite.insert b).subset
  intro b' hb'
  simp only [Set.mem_insert_iff, Set.mem_ofPred_eq] at hb' ⊢
  by_cases heq : b' = b
  . exact .inl heq
  . rw [Function.update_of_ne heq] at hb'
    exact .inr hb'

theorem congr_owned (hinv : OwnerInv kind owned references thrown)
    (howned : ∀ b n, kind b = some (.primary n) → (b ∈ owned' ↔ b ∈ owned))
    : OwnerInv kind owned' references thrown := by
  constructor
  . exact hinv.finite
  . exact hinv.ready
  . exact hinv.dependent
  . intro b n hb
    rw [hinv.count b n hb]
    exact (owners_congr (howned b n hb) rfl rfl).symm
  . exact hinv.referenced
  . intro b n hb hkind
    exact hinv.thrown_eq b n ((howned b n hkind).mp hb) hkind

-- nothing refers to a block that does not contain an exception
theorem references_eq_zero (hinv : OwnerInv kind owned references thrown)
    (hb : ∀ n, kind b ≠ some (.primary n)) : references b = 0 := by
  by_contra hne
  rcases hinv.referenced b hne with ⟨n, hn⟩
  exact hb n hn

theorem dependents_eq_empty (hinv : OwnerInv kind owned references thrown)
    (hb : ∀ n, kind b ≠ some (.primary n)) : dependents kind b = ∅ := by
  rw [Set.eq_empty_iff_forall_notMem]
  intro d hd
  rcases hinv.dependent d b hd with ⟨n, hn⟩
  exact hb n hn

-- one block changes, the rest is about the counts
theorem update (hinv : OwnerInv kind owned references thrown) {o : Option Kind}
    {references' : Nat → Nat} {thrown' : Nat → Bool} (hready : o ≠ some .other)
    (hdependent : ∀ p, o = some (.dependent p) → p ≠ b ∧ ∃ n, kind p = some (.primary n))
    (hprimary : (∀ n, o ≠ some (.primary n)) → dependents kind b = ∅)
    (hcount : ∀ b' n, Function.update kind b o b' = some (.primary n)
      → n = owners (Function.update kind b o) owned' references' b')
    (hreferenced : ∀ b', references' b' ≠ 0
      → ∃ n, Function.update kind b o b' = some (.primary n))
    (hthrown : ∀ b' n, b' ∈ owned' → Function.update kind b o b' = some (.primary n)
      → thrown' b' = true)
    : OwnerInv (Function.update kind b o) owned' references' thrown' := by
  constructor
  . exact hinv.finite_update b o
  . intro b'
    by_cases heq : b' = b
    . rw [heq, Function.update_self]
      exact hready
    . rw [Function.update_of_ne heq]
      exact hinv.ready b'
  . intro d p hd
    by_cases heq : d = b
    . rw [heq, Function.update_self] at hd
      rcases hdependent p hd with ⟨hne, n, hn⟩
      rw [Function.update_of_ne hne]
      exact ⟨n, hn⟩
    . rw [Function.update_of_ne heq] at hd
      by_cases hp : p = b
      . subst hp
        rw [Function.update_self]
        by_contra hnot
        have hempty := hprimary fun n hn => hnot ⟨n, hn⟩
        have hmem : d ∈ dependents kind p := hd
        rw [hempty] at hmem
        exact hmem
      . rw [Function.update_of_ne hp]
        exact hinv.dependent d p hd
  . exact hcount
  . exact hreferenced
  . exact hthrown

theorem alloc_foreign (hinv : OwnerInv kind owned references thrown) (hb : kind b = none)
    (howned : ∀ b', b' ≠ b → (b' ∈ owned' ↔ b' ∈ owned))
    : OwnerInv (Function.update kind b (some .foreign)) owned' references thrown := by
  apply hinv.update
  . simp
  . simp
  . intro _
    apply hinv.dependents_eq_empty
    simp [hb]
  . intro b' n hb'
    by_cases heq : b' = b
    . simp [heq] at hb'
    . rw [Function.update_of_ne heq] at hb'
      rw [hinv.count b' n hb']
      exact (owners_congr (howned b' heq) rfl (dependents_update (by simp [hb]) (by simp))).symm
  . intro b' hb'
    rcases hinv.referenced b' hb' with ⟨n, hn⟩
    refine ⟨n, ?_⟩
    rw [Function.update_of_ne (by rintro rfl; simp [hb] at hn)]
    exact hn
  . intro b' n hb' hkind
    by_cases heq : b' = b
    . simp [heq] at hkind
    . rw [Function.update_of_ne heq] at hkind
      exact hinv.thrown_eq b' n ((howned b' heq).mp hb') hkind

theorem free_foreign (hinv : OwnerInv kind owned references thrown) (hb : kind b = some .foreign)
    (howned : ∀ b', b' ≠ b → (b' ∈ owned' ↔ b' ∈ owned))
    : OwnerInv (Function.update kind b none) owned' references thrown := by
  apply hinv.update
  . simp
  . simp
  . intro _
    apply hinv.dependents_eq_empty
    simp [hb]
  . intro b' n hb'
    by_cases heq : b' = b
    . simp [heq] at hb'
    . rw [Function.update_of_ne heq] at hb'
      rw [hinv.count b' n hb']
      exact (owners_congr (howned b' heq) rfl (dependents_update (by simp [hb]) (by simp))).symm
  . intro b' hb'
    rcases hinv.referenced b' hb' with ⟨n, hn⟩
    refine ⟨n, ?_⟩
    rw [Function.update_of_ne (by rintro rfl; simp [hb] at hn)]
    exact hn
  . intro b' n hb' hkind
    by_cases heq : b' = b
    . simp [heq] at hkind
    . rw [Function.update_of_ne heq] at hkind
      exact hinv.thrown_eq b' n ((howned b' heq).mp hb') hkind

theorem alloc_primary (hinv : OwnerInv kind owned references thrown) (hb : kind b = none)
    (howned : ∀ b', b' ≠ b → (b' ∈ owned' ↔ b' ∈ owned)) {t : Bool}
    (hn : n = 1 ∧ b ∈ owned' ∧ t = true ∨ n = 0 ∧ b ∉ owned')
    : OwnerInv (Function.update kind b (some (.primary n))) owned' references
        (Function.update thrown b t) := by
  apply hinv.update
  . simp
  . simp
  . simp
  . intro b' n' hb'
    by_cases heq : b' = b
    . subst heq
      have hreferences := hinv.references_eq_zero (b := b') (by simp [hb])
      have hdependents := hinv.dependents_eq_empty (b := b') (by simp [hb])
      unfold owners
      rw [dependents_update (by simp [hb]) (by simp), hreferences, hdependents, Set.ncard_empty]
      rw [Function.update_self, Option.some.injEq, Kind.primary.injEq] at hb'
      rcases hn with ⟨hn, hmem, _⟩ | ⟨hn, hmem⟩
      . rw [if_pos hmem]
        omega
      . rw [if_neg hmem]
        omega
    . rw [Function.update_of_ne heq] at hb'
      rw [hinv.count b' n' hb']
      exact (owners_congr (howned b' heq) rfl (dependents_update (by simp [hb]) (by simp))).symm
  . intro b' hb'
    rcases hinv.referenced b' hb' with ⟨n', hn'⟩
    refine ⟨n', ?_⟩
    rw [Function.update_of_ne (by rintro rfl; simp [hb] at hn')]
    exact hn'
  . intro b' n' hb' hkind
    by_cases heq : b' = b
    . subst heq
      rw [Function.update_self]
      rcases hn with ⟨_, _, ht⟩ | ⟨_, hmem⟩
      . exact ht
      . exact absurd hb' hmem
    . rw [Function.update_of_ne heq] at hkind ⊢
      exact hinv.thrown_eq b' n' ((howned b' heq).mp hb') hkind

theorem alloc_dependent (hinv : OwnerInv kind owned references thrown) (hd : kind d = none)
    (hp : kind p = some (.primary n)) (hreference : references p ≠ 0)
    (howned : ∀ b', b' ≠ d → (b' ∈ owned' ↔ b' ∈ owned))
    : OwnerInv (Function.update kind d (some (.dependent p))) owned'
        (Function.update references p (references p - 1)) thrown := by
  have hne : p ≠ d := by
    rintro rfl
    simp [hd] at hp
  apply hinv.update
  . simp
  . intro p' hp'
    simp only [Option.some.injEq, Kind.dependent.injEq] at hp'
    subst hp'
    exact ⟨hne, n, hp⟩
  . intro _
    apply hinv.dependents_eq_empty
    simp [hd]
  . intro b' n' hb'
    by_cases hbd : b' = d
    . simp [hbd] at hb'
    . rw [Function.update_of_ne hbd] at hb'
      rw [hinv.count b' n' hb']
      by_cases hbp : b' = p
      . subst hbp
        unfold owners
        have hmem : d ∉ dependents kind b' := by
          unfold dependents
          simp [hd]
        rw [dependents_update_insert, Set.ncard_insert_of_notMem hmem (hinv.finite_dependents b'),
          Function.update_self]
        have howned := howned b' hbd
        by_cases hb : b' ∈ owned
        . rw [if_pos hb, if_pos (howned.mpr hb)]
          omega
        . rw [if_neg hb, if_neg (mt howned.mp hb)]
          omega
      . symm
        apply owners_congr (howned b' hbd)
        . rw [Function.update_of_ne hbp]
        . apply dependents_update
          . simp [hd]
          . simpa using Ne.symm hbp
  . intro b' hb'
    have hb' : references b' ≠ 0 := by
      by_cases hbp : b' = p
      . rw [hbp]
        exact hreference
      . rwa [Function.update_of_ne hbp] at hb'
    rcases hinv.referenced b' hb' with ⟨n', hn'⟩
    refine ⟨n', ?_⟩
    rw [Function.update_of_ne (by rintro rfl; simp [hd] at hn')]
    exact hn'
  . intro b' n' hb' hkind
    by_cases heq : b' = d
    . simp [heq] at hkind
    . rw [Function.update_of_ne heq] at hkind
      exact hinv.thrown_eq b' n' ((howned b' heq).mp hb') hkind

theorem addReference (hinv : OwnerInv kind owned references thrown)
    (hp : kind p = some (.primary n))
    : OwnerInv (Function.update kind p (some (.primary (n + 1)))) owned
        (Function.update references p (references p + 1)) thrown := by
  apply hinv.update
  . simp
  . simp
  . simp
  . intro b' n' hb'
    by_cases heq : b' = p
    . subst heq
      have hcount := hinv.count b' n hp
      rw [Function.update_self, Option.some.injEq, Kind.primary.injEq] at hb'
      unfold owners at hcount ⊢
      rw [dependents_update (by simp [hp]) (by simp), Function.update_self]
      omega
    . rw [Function.update_of_ne heq] at hb'
      rw [hinv.count b' n' hb']
      symm
      apply owners_congr Iff.rfl
      . rw [Function.update_of_ne heq]
      . exact dependents_update (by simp [hp]) (by simp)
  . intro b' hb'
    by_cases heq : b' = p
    . rw [heq, Function.update_self]
      exact ⟨n + 1, rfl⟩
    . rw [Function.update_of_ne heq] at hb' ⊢
      exact hinv.referenced b' hb'
  . intro b' n' hb' hkind
    by_cases heq : b' = p
    . rw [heq] at hb' ⊢
      exact hinv.thrown_eq p n hb' hp
    . rw [Function.update_of_ne heq] at hkind
      exact hinv.thrown_eq b' n' hb' hkind

-- there is no other owner if the last reference is dropped
theorem lastReference (hinv : OwnerInv kind owned references thrown)
    (hp : kind p = some (.primary 1)) (hreference : references p ≠ 0)
    : p ∉ owned ∧ references p = 1 ∧ dependents kind p = ∅ := by
  have hcount := hinv.count p 1 hp
  unfold owners at hcount
  by_cases hmem : p ∈ owned
  . rw [if_pos hmem] at hcount
    omega
  . rw [if_neg hmem] at hcount
    refine ⟨hmem, by omega, ?_⟩
    rw [← Set.ncard_eq_zero (hinv.finite_dependents p)]
    omega

theorem dropReference (hinv : OwnerInv kind owned references thrown)
    (hp : kind p = some (.primary n)) (hreference : references p ≠ 0)
    : OwnerInv (dropKind kind p n) owned (Function.update references p (references p - 1))
        thrown := by
  have hcount := hinv.count p n hp
  unfold dropKind
  have hnew {q : Nat}
      : (if n = 1 then none else some (Kind.primary (n - 1))) ≠ some (.dependent q) := by
    split <;> simp
  apply hinv.update
  . split <;> simp
  . intro q hq
    exact absurd hq hnew
  . intro hnot
    by_cases hn : n = 1
    . subst hn
      exact (hinv.lastReference hp hreference).2.2
    . exact absurd (if_neg hn) (hnot (n - 1))
  . intro b' n' hb'
    by_cases heq : b' = p
    . subst heq
      rw [Function.update_self] at hb'
      split at hb'
      . contradiction
      . unfold owners at hcount ⊢
        rw [dependents_update (by simp [hp]) hnew, Function.update_self]
        simp only [Option.some.injEq, Kind.primary.injEq] at hb'
        omega
    . rw [Function.update_of_ne heq] at hb'
      rw [hinv.count b' n' hb']
      symm
      apply owners_congr Iff.rfl
      . rw [Function.update_of_ne heq]
      . exact dependents_update (by simp [hp]) hnew
  . intro b' hb'
    by_cases heq : b' = p
    . subst heq
      rw [Function.update_self] at hb' ⊢
      have hn : n ≠ 1 := by
        rintro rfl
        have hlast := hinv.lastReference hp hreference
        omega
      rw [if_neg hn]
      exact ⟨n - 1, rfl⟩
    . rw [Function.update_of_ne heq] at hb' ⊢
      exact hinv.referenced b' hb'
  . intro b' n' hb' hkind
    by_cases heq : b' = p
    . rw [heq] at hb' ⊢
      exact hinv.thrown_eq p n hb' hp
    . rw [Function.update_of_ne heq] at hkind
      exact hinv.thrown_eq b' n' hb' hkind

theorem disown (hinv : OwnerInv kind owned references thrown) (hp : kind p = some (.primary n))
    (hmem : p ∈ owned) (howned : ∀ b', b' ∈ owned' ↔ b' ∈ owned ∧ b' ≠ p)
    : OwnerInv kind owned' (Function.update references p (references p + 1)) thrown := by
  constructor
  . exact hinv.finite
  . exact hinv.ready
  . exact hinv.dependent
  . intro b' n' hb'
    rw [hinv.count b' n' hb']
    by_cases heq : b' = p
    . subst heq
      unfold owners
      rw [if_pos hmem, if_neg (by simp [howned]), Function.update_self]
      omega
    . symm
      apply owners_congr
      . simp [howned, heq]
      . rw [Function.update_of_ne heq]
      . rfl
  . intro b' hb'
    by_cases heq : b' = p
    . rw [heq]
      exact ⟨n, hp⟩
    . rw [Function.update_of_ne heq] at hb'
      exact hinv.referenced b' hb'
  . intro b' n' hb' hkind
    exact hinv.thrown_eq b' n' ((howned b').mp hb').1 hkind

theorem free_dependent (hinv : OwnerInv kind owned references thrown)
    (hd : kind d = some (.dependent p)) (howned : ∀ b', b' ≠ d → (b' ∈ owned' ↔ b' ∈ owned))
    : OwnerInv (Function.update kind d none) owned'
        (Function.update references p (references p + 1)) thrown := by
  rcases hinv.dependent d p hd with ⟨n, hp⟩
  have hne : p ≠ d := by
    rintro rfl
    simp [hd] at hp
  apply hinv.update
  . simp
  . simp
  . intro _
    apply hinv.dependents_eq_empty
    simp [hd]
  . intro b' n' hb'
    by_cases hbd : b' = d
    . simp [hbd] at hb'
    . rw [Function.update_of_ne hbd] at hb'
      rw [hinv.count b' n' hb']
      by_cases hbp : b' = p
      . subst hbp
        unfold owners
        have hmem : d ∈ dependents kind b' := hd
        have hpos : 0 < (dependents kind b').ncard :=
          (Set.ncard_pos (hinv.finite_dependents b')).mpr ⟨d, hmem⟩
        rw [dependents_update_remove (by simp), Set.ncard_sdiff_singleton_of_mem hmem,
          Function.update_self]
        have howned := howned b' hbd
        by_cases hb : b' ∈ owned
        . rw [if_pos hb, if_pos (howned.mpr hb)]
          omega
        . rw [if_neg hb, if_neg (mt howned.mp hb)]
          omega
      . symm
        apply owners_congr (howned b' hbd)
        . rw [Function.update_of_ne hbp]
        . apply dependents_update
          . simpa [hd] using Ne.symm hbp
          . simp
  . intro b' hb'
    by_cases heq : b' = p
    . rw [heq, Function.update_of_ne hne]
      exact ⟨n, hp⟩
    . rw [Function.update_of_ne heq] at hb'
      rcases hinv.referenced b' hb' with ⟨n', hn'⟩
      refine ⟨n', ?_⟩
      rw [Function.update_of_ne (by rintro rfl; simp [hd] at hn')]
      exact hn'
  . intro b' n' hb' hkind
    by_cases heq : b' = d
    . simp [heq] at hkind
    . rw [Function.update_of_ne heq] at hkind
      exact hinv.thrown_eq b' n' ((howned b' heq).mp hb') hkind

theorem count_ne_zero_of_mem (hinv : OwnerInv kind owned references thrown)
    (hp : kind p = some (.primary n)) (hmem : p ∈ owned) : n ≠ 0 := by
  have hcount := hinv.count p n hp
  unfold owners at hcount
  rw [if_pos hmem] at hcount
  omega

theorem count_ne_zero_of_reference (hinv : OwnerInv kind owned references thrown)
    (hp : kind p = some (.primary n)) (hreference : references p ≠ 0) : n ≠ 0 := by
  have hcount := hinv.count p n hp
  unfold owners at hcount
  omega

theorem count_ne_zero_of_dependent (hinv : OwnerInv kind owned references thrown)
    (hd : kind d = some (.dependent p)) (hp : kind p = some (.primary n)) : n ≠ 0 := by
  have hcount := hinv.count p n hp
  have hpos : 0 < (dependents kind p).ncard :=
    (Set.ncard_pos (hinv.finite_dependents p)).mpr ⟨d, hd⟩
  unfold owners at hcount
  omega

theorem release_primary (hinv : OwnerInv kind owned references thrown)
    (hp : kind p = some (.primary n)) (hmem : p ∈ owned)
    (howned : ∀ b', b' ∈ owned' ↔ b' ∈ owned ∧ b' ≠ p)
    : OwnerInv (dropKind kind p n) owned' references thrown := by
  have hdisown := hinv.disown hp hmem howned
  have hdrop := hdisown.dropReference hp (by simp)
  simpa using hdrop

theorem release_dependent (hinv : OwnerInv kind owned references thrown)
    (hd : kind d = some (.dependent p)) (hp : kind p = some (.primary n))
    (howned : ∀ b', b' ∈ owned' ↔ b' ∈ owned ∧ b' ≠ d)
    : OwnerInv (Function.update (dropKind kind p n) d none) owned' references thrown := by
  have hne : d ≠ p := by
    rintro rfl
    simp [hd] at hp
  have hfree : OwnerInv (Function.update kind d none) owned'
      (Function.update references p (references p + 1)) thrown :=
    hinv.free_dependent hd (by simp +contextual [howned])
  have hp' : Function.update kind d none p = some (.primary n) := by
    rw [Function.update_of_ne hne.symm]
    exact hp
  have hdrop := hfree.dropReference hp' (by simp)
  unfold dropKind at hdrop ⊢
  rw [Function.update_comm hne.symm]
  simpa using hdrop

-- a primary exception that goes away with a dependent one has no other owner
theorem not_mem_of_release_dependent (hinv : OwnerInv kind owned references thrown)
    (hd : kind d = some (.dependent p)) (hp : kind p = some (.primary 1)) : p ∉ owned := by
  intro hmem
  have hcount := hinv.count p 1 hp
  have hpos : 0 < (dependents kind p).ncard :=
    (Set.ncard_pos (hinv.finite_dependents p)).mpr ⟨d, hd⟩
  unfold owners at hcount
  rw [if_pos hmem] at hcount
  omega

end OwnerInv

end LibCxxRt
