import LibCxxRt.Guard.Lemmas.DoubleWord

/-!
This module contains the result about the assertion at the end of `DoubleWordGuard::unlock`. It is
checked after the lock has been given up, so another thread can initialise the variable between an
abort and its assertion.
-/

namespace LibCxxRt

open Util

namespace DoubleWordGuard

-- no thread is about to check an assertion that fails
def AssertionHolds (layout : GuardLayout 32) (s : GuardProcess DoubleWordGuard) : Prop :=
  ∀ t isInitialised, s.pcs t = .asserting isInitialised
    → (layout.byte s.guard.initWord != 0) = isInitialised

/--
A release stores that the variable is initialised, while the thread of an earlier abort has not
checked its assertion yet.
-/
def Overtakes (s : GuardProcess DoubleWordGuard) (l : Nat × GuardAction) : Prop :=
  (∃ spurious, l.2 = .run spurious) ∧ s.pcs l.1 = .unlocking true ∧ ∃ u, s.pcs u = .asserting false

variable {layout : GuardLayout 32} {s s' : GuardProcess DoubleWordGuard} {t : Nat}
variable {l : Nat × GuardAction}

-- only the first store of `unlock` writes the init word, only after the second one is the assertion
theorem run_cases {spurious : Bool} (hrun : run layout s t spurious = some s')
    : ∃ pc, s'.pcs = Function.update s.pcs t pc
      ∧ ((∃ isInitialised, s.pcs t = .unlocking isInitialised
            ∧ pc = .unlockingSecond isInitialised
            ∧ s'.guard.initWord = if isInitialised then layout.initialised else 0)
        ∨ s'.guard.initWord = s.guard.initWord
            ∧ ∀ isInitialised, pc = .asserting isInitialised
              → s.pcs t = .unlockingSecond isInitialised) := by
  unfold run at hrun
  dsimp only at hrun
  split at hrun
  . split at hrun
    all_goals
      cases hrun
      exact ⟨_, rfl, .inr ⟨rfl, by simp⟩⟩
  . unfold compareExchange at hrun
    split at hrun
    all_goals
      split at hrun
      all_goals
        cases hrun
        exact ⟨_, rfl, .inr ⟨rfl, by simp⟩⟩
  . split at hrun
    all_goals
      cases hrun
      exact ⟨_, rfl, .inr ⟨rfl, by simp⟩⟩
  . cases hrun
    exact ⟨_, rfl, .inr ⟨rfl, by simp⟩⟩
  . next isInitialised hpc =>
    cases hrun
    exact ⟨_, rfl, .inl ⟨isInitialised, hpc, rfl, rfl⟩⟩
  . next isInitialised hpc =>
    cases hrun
    refine ⟨_, rfl, .inr ⟨rfl, ?_⟩⟩
    intro b heq
    cases heq
    exact hpc
  . split at hrun
    . cases hrun
      exact ⟨_, rfl, .inr ⟨rfl, by simp⟩⟩
    . contradiction
  . contradiction

theorem step_cases (hstep : step layout s l = some s')
    : ∃ pc, s'.pcs = Function.update s.pcs l.1 pc
      ∧ (((∃ spurious, l.2 = .run spurious) ∧ ∃ isInitialised,
            s.pcs l.1 = .unlocking isInitialised ∧ pc = .unlockingSecond isInitialised
              ∧ s'.guard.initWord = if isInitialised then layout.initialised else 0)
        ∨ s'.guard.initWord = s.guard.initWord
            ∧ ∀ isInitialised, pc = .asserting isInitialised
              → s.pcs l.1 = .unlockingSecond isInitialised) := by
  rcases l with ⟨t, action⟩
  rcases guardStep_cases hstep with ⟨_, rfl⟩ | ⟨_, _, rfl⟩ | ⟨_, rfl⟩ | ⟨spurious, rfl, hrun⟩
  . exact ⟨_, rfl, .inr ⟨rfl, by simp⟩⟩
  . exact ⟨_, rfl, .inr ⟨rfl, by simp⟩⟩
  . exact ⟨_, rfl, .inr ⟨rfl, by simp⟩⟩
  . rcases run_cases hrun with ⟨pc, hpcs, hcases⟩
    exact ⟨pc, hpcs, hcases.imp_left fun h => ⟨⟨spurious, rfl⟩, h⟩⟩

-- the threads whose assertions are about an abort
def AbortsUnset (s : GuardProcess DoubleWordGuard) : Prop :=
  ∀ t, s.pcs t = .asserting false → s.guard.initWord = 0

theorem AbortsUnset.step {p : OncePhase Nat} (hs : AbortsUnset s) (hrefines : Refines layout p s)
    (hl : ¬ Overtakes s l) (hstep : DoubleWordGuard.step layout s l = some s')
    : AbortsUnset s' := by
  rcases step_cases hstep with ⟨pc, hpcs, hcases⟩
  intro u hu
  rw [hpcs] at hu
  rcases hcases with ⟨hrun, isInitialised, hpc, rfl, hword⟩ | ⟨hword, hasserting⟩
  . cases isInitialised with
    | false => exact hword
    | true =>
      have hne : u ≠ l.1 := by
        rintro rfl
        simp at hu
      rw [Function.update_of_ne hne] at hu
      exact absurd ⟨hrun, hpc, u, hu⟩ hl
  . rw [hword]
    by_cases heq : u = l.1
    . -- the thread has just given up the lock, nobody else has written the init word
      rw [heq, Function.update_self] at hu
      have hphase := hrefines.owner.phase_of_unlockingSecond (hasserting false hu)
      rw [hrefines.initWord, hphase]
      rfl
    . rw [Function.update_of_ne heq] at hu
      exact hs u hu

theorem AbortsUnset.assertionHolds {p : OncePhase Nat} (hs : AbortsUnset s)
    (hrefines : Refines layout p s) : AssertionHolds layout s := by
  intro t isInitialised hpc
  cases isInitialised with
  | false =>
    rw [hs t hpc]
    simp
  | true =>
    rw [hrefines.initWord, hrefines.stored t (.inr hpc)]
    simp

theorem not_assertionHolds_of_overtakes (hl : Overtakes s l)
    (hstep : step layout s l = some s') : ¬ AssertionHolds layout s' := by
  rcases l with ⟨t, action⟩
  rcases hl with ⟨⟨spurious, rfl⟩, hpc, u, hu⟩
  have hs' : (((s.setGuard { s.guard with initWord := layout.initialised }).goto t
      (.unlockingSecond true)).record [.stored t]) = s' := by
    simpa [step, guardStep, run, hpc] using hstep
  subst hs'
  have hne : u ≠ t := by
    rintro rfl
    rw [hpc] at hu
    contradiction
  intro hholds
  have hfalse := hholds u false (by simp [Function.update_of_ne hne, hu])
  simp at hfalse

/--
The assertion holds whenever it is checked, as long as no release overtakes the end of an abort. The
release that does makes the assertion of the abort fail.
-/
theorem assertionHolds_of_not_overtakes
    (hs : Reach init (step layout) (fun s l => ¬ Overtakes s l) s)
    : AssertionHolds layout s
      ∧ ∀ l s', step layout s l = some s' → Overtakes s l → ¬ AssertionHolds layout s' := by
  have hinv : (∃ p, OnceHistory s.log p ∧ Refines layout p s) ∧ AbortsUnset s := by
    apply hs.invariant
    . exact ⟨⟨.free, .nil, init_refines⟩, fun _ _ => rfl⟩
    . rintro s l s' ⟨⟨p, hlog, hrefines⟩, haborts⟩ hl hstep
      exact ⟨(hrefines.step hlog hstep).2, haborts.step hrefines hl hstep⟩
  rcases hinv with ⟨⟨p, _, hrefines⟩, haborts⟩
  refine ⟨haborts.assertionHolds hrefines, ?_⟩
  intro l s' hstep hl
  exact not_assertionHolds_of_overtakes hl hstep

def aborted : List (Nat × GuardAction) :=
  [(0, .acquire), (0, .run false), (0, .run false), (0, .run false), (0, .abort), (0, .run false),
    (0, .run false)]

def released : List (Nat × GuardAction) :=
  [(1, .acquire), (1, .run false), (1, .run false), (1, .run false), (1, .release), (1, .run false)]

-- an abort up to its assertion
theorem assertionHolds_of_not_overtakes_abort
    : ∃ s, s.pcs 0 = .asserting false ∧ AssertionHolds .ilp32LittleEndian s
      ∧ ∀ l s', step .ilp32LittleEndian s l = some s' → Overtakes s l
        → ¬ AssertionHolds .ilp32LittleEndian s' := by
  have hnext {s s' : GuardProcess DoubleWordGuard} {a : GuardAction}
      (hs : Reach init (step .ilp32LittleEndian) (fun s l => ¬ Overtakes s l) s)
      (hpc : s.pcs 0 ≠ .unlocking true) (hstep : step .ilp32LittleEndian s (0, a) = some s')
      : Reach init (step .ilp32LittleEndian) (fun s l => ¬ Overtakes s l) s' :=
    .step hs (fun hl => hpc hl.2.1) hstep
  have h₁ := hnext (a := .acquire) .init nofun rfl
  have h₂ := hnext (a := .run false) h₁ nofun rfl
  have h₃ := hnext (a := .run false) h₂ nofun rfl
  have h₄ := hnext (a := .run false) h₃ nofun rfl
  have h₅ := hnext (a := .abort) h₄ nofun rfl
  have h₆ := hnext (a := .run false) h₅ nofun rfl
  have h₇ := hnext (a := .run false) h₆ nofun rfl
  exact ⟨_, rfl, assertionHolds_of_not_overtakes h₇⟩

-- the thread 1 initialises the variable before the thread 0 checks that it is not initialised
theorem reach_assertion_fails
    : ∃ s, Reach init (step .ilp32LittleEndian) (fun _ _ => True) s ∧ s.pcs 0 = .asserting false
      ∧ GuardLayout.ilp32LittleEndian.byte s.guard.initWord = 1
      ∧ step .ilp32LittleEndian s (0, .run false) = none := by
  have hrun : Util.run (step .ilp32LittleEndian) init (aborted ++ released) = some _ := rfl
  exact ⟨_, Reach.of_run .init (fun _ _ _ => trivial) hrun, rfl, by decide, rfl⟩

end DoubleWordGuard

end LibCxxRt
