import LibCxxRt.Guard.Lemmas.Basic

/-!
This module contains what a guard is for: the variable is initialised by one thread at a time and
only once, and other threads wait until it is. It follows for every guard that refines the automaton
of `OnceHistory`.
-/

namespace LibCxxRt

open Util

variable {γ : Type}

structure InitialisesOnce (init : GuardProcess γ)
    (step : GuardProcess γ → Nat × GuardAction → Option (GuardProcess γ)) : Prop where
  exclusive : ∀ s, Reach init step (fun _ _ => True) s → ∀ t u, (s.pcs t).mustInit
    → (s.pcs u).mustInit → t = u
  acquired_zero : ∀ s, Reach init step (fun _ _ => True) s → ∀ h h' t,
    s.log = h ++ .acquired t false :: h' → ∃ u, .releasing u ∈ h
  acquired_one : ∀ s, Reach init step (fun _ _ => True) s → ∀ h h' t,
    s.log = h ++ .stored t :: h' → ∀ u, .acquired u true ∉ h'
  -- the call of any thread `u` can return 1 if the others abort
  aborted : ∀ s, Reach init step (fun _ _ => True) s → ∀ h h' t, s.log = h ++ .aborting t :: h'
    → (∀ u, .releasing u ∉ h') → ∀ u, ∃ s' h'', Reach s step (fun _ l => l.2 ≠ .release) s'
      ∧ s'.log = s.log ++ h'' ++ [.acquired u true]

structure GuardRefinement (init : GuardProcess γ)
    (step : GuardProcess γ → Nat × GuardAction → Option (GuardProcess γ))
    (Refines : OncePhase Nat → GuardProcess γ → Prop) : Prop where
  start : Refines .free init ∧ init.log = []
  next : ∀ p s l s', Refines p s → OnceHistory s.log p → step s l = some s'
    → s.log <+: s'.log ∧ ∃ q, OnceHistory s'.log q ∧ Refines q s'
  owner : ∀ p s, Refines p s → GuardOwner p s.pcs
  -- the owner gives up, then the thread `u` becomes the owner
  abort : ∀ p s, Refines p s → OnceHistory s.log p → p.isReleased = false
    → ∃ s', Reach s step (fun _ l => l.2 ≠ .release) s' ∧ Refines .free s'
      ∧ OnceHistory s'.log .free ∧ ∀ u, ∃ s'', Reach s' step (fun _ l => l.2 ≠ .release) s''
        ∧ ∃ h, s''.log = s'.log ++ h ++ [.acquired u true]

namespace GuardRefinement

variable {init s s' : GuardProcess γ}
variable {step : GuardProcess γ → Nat × GuardAction → Option (GuardProcess γ)}
variable {Refines : OncePhase Nat → GuardProcess γ → Prop}
variable {allowed : GuardProcess γ → Nat × GuardAction → Prop}

theorem refines_of_reach (href : GuardRefinement init step Refines)
    (hs : Reach init step allowed s) : ∃ p, OnceHistory s.log p ∧ Refines p s := by
  apply hs.invariant
  . refine ⟨.free, ?_, href.start.1⟩
    rw [href.start.2]
    exact .nil
  . rintro s l s' ⟨p, hlog, hrefines⟩ _ hstep
    exact (href.next p s l s' hrefines hlog hstep).2

theorem log_of_reach (href : GuardRefinement init step Refines) {p : OncePhase Nat}
    (hrefines : Refines p s) (hlog : OnceHistory s.log p) (hs : Reach s step allowed s')
    : s.log <+: s'.log := by
  have hinv : s.log <+: s'.log ∧ ∃ q, OnceHistory s'.log q ∧ Refines q s' := by
    apply hs.invariant
    . exact ⟨List.prefix_refl _, p, hlog, hrefines⟩
    . rintro s₁ l s₂ ⟨hextend, q, hlog, hrefines⟩ _ hstep
      rcases href.next q s₁ l s₂ hrefines hlog hstep with ⟨hextend', hrefines'⟩
      exact ⟨hextend.trans hextend', hrefines'⟩
  exact hinv.1

theorem initialisesOnce (href : GuardRefinement init step Refines) : InitialisesOnce init step := by
  constructor
  . intro s hs t u ht hu
    rcases href.refines_of_reach hs with ⟨p, _, hrefines⟩
    have howner := href.owner p s hrefines
    have heq := howner.owner_eq ht
    rw [howner.owner_eq hu, Option.some.injEq] at heq
    exact heq.symm
  . intro s hs h h' t heq
    rcases href.refines_of_reach hs with ⟨p, hlog, _⟩
    rw [heq] at hlog
    exact hlog.releasing_of_acquired_false
  . intro s hs h h' t heq u
    rcases href.refines_of_reach hs with ⟨p, hlog, _⟩
    rw [heq] at hlog
    exact hlog.not_acquired_true_of_stored
  . intro s hs h h' t heq hnot u
    rcases href.refines_of_reach hs with ⟨p, hlog, hrefines⟩
    have hphase : p.isReleased = false := by
      rw [Bool.eq_false_iff, ne_eq, ← hlog.exists_releasing_iff, heq]
      rintro ⟨v, hv⟩
      rw [heq] at hlog
      rcases List.mem_append.mp hv with hv | hv
      . exact hlog.not_releasing_of_aborting hv
      . exact hnot v (by simpa using hv)
    rcases href.abort p s hrefines hlog hphase with ⟨s', hs', _, _, hacquire⟩
    rcases hacquire u with ⟨s'', hs'', h₁, hlog''⟩
    rcases href.log_of_reach hrefines hlog hs' with ⟨h₂, hlog'⟩
    refine ⟨s'', h₂ ++ h₁, hs'.trans hs'', ?_⟩
    rw [hlog'', ← hlog', List.append_assoc s.log]

end GuardRefinement

end LibCxxRt
