import LibCxxRt.Guard.Refinement

/-!
This module contains the proof that `SingleWordGuard` refines the automaton: the word tells the phase,
and the store of `unlock` ends the ownership and publishes the initialisation in one step.
-/

namespace LibCxxRt

open Util

namespace SingleWordGuard

variable {w : Nat} {layout : GuardLayout w}

def word (layout : GuardLayout w) : OncePhase Nat → BitVec w
  | .free => 0
  | .owned _ | .releasing _ | .aborting _ => layout.locked
  | .stored _ | .done => layout.initialised

structure Refines (layout : GuardLayout w) (p : OncePhase Nat) (s : GuardProcess (BitVec w)) :
    Prop where
  guard : s.guard = word layout p
  owner : GuardOwner p s.pcs
  reachable : ∀ t, s.pcs t ∈ [.idle, .checking, .locking, .initialising, .unlocking true,
    .unlocking false]

variable {p q : OncePhase Nat} {s s' : GuardProcess (BitVec w)} {t : Nat} {spurious : Bool}

theorem tryLock_cases (spurious : Bool) (hword : ∃ p, s.guard = word layout p)
    : tryLock layout s.guard spurious = (.initLockSucceeded, layout.locked) ∧ s.guard = 0
      ∨ tryLock layout s.guard spurious = (.initDone, s.guard) ∧ s.guard = layout.initialised
      ∨ tryLock layout s.guard spurious = (.initLockFailed, s.guard) := by
  rcases hword with ⟨p, hp⟩
  unfold tryLock compareExchange
  by_cases hswap : s.guard = 0 ∧ ¬ spurious
  . rw [if_pos hswap]
    exact .inl ⟨rfl, hswap.1⟩
  . rw [if_neg hswap]
    by_cases hinit : s.guard = layout.initialised
    . right; left
      simp [hinit]
    . right; right
      simp [hinit]

namespace Refines

theorem not_stored (hs : Refines layout p s) (t : Nat) : p ≠ .stored t := by
  rintro rfl
  have howner := hs.owner.owner t rfl
  have hreachable := hs.reachable t
  simp only [GuardPc.OwnerIn] at howner
  simp [howner] at hreachable

-- the new place of the thread that goes on
theorem reachable_update (hs : Refines layout p s) {pc : GuardPc}
    (hpc : pc ∈ [.idle, .checking, .locking, .initialising, .unlocking true, .unlocking false])
    (u : Nat)
    : Function.update s.pcs t pc u ∈ [GuardPc.idle, .checking, .locking, .initialising,
        .unlocking true, .unlocking false] := by
  by_cases heq : u = t
  . rw [heq, Function.update_self]
    exact hpc
  . rw [Function.update_of_ne heq]
    exact hs.reachable u

theorem keep (hs : Refines layout p s) {pc : GuardPc} (hold : (s.pcs t).mustInit = false)
    (hnew : pc.mustInit = false) (hpc : pc ∈ [.idle, .checking, .locking])
    : Refines layout p (s.goto t pc) := by
  refine ⟨hs.guard, hs.owner.keep hold hnew, ?_⟩
  apply hs.reachable_update
  simp only [List.mem_cons, List.not_mem_nil, or_false] at hpc ⊢
  rcases hpc with hpc | hpc | hpc <;> simp [hpc]

end Refines

theorem init_refines : Refines layout .free init := by
  refine ⟨rfl, ?_, ?_⟩
  . constructor
    . simp [OncePhase.owner]
    . intro t _
      rfl
  . intro t
    exact List.mem_cons_self

theorem phase_of_zero (hword : word layout p = 0) : p = .free := by
  cases p <;> simp_all [word]

theorem phase_of_isInitialised (hword : layout.isInitialised (word layout p)) : p.isStored := by
  cases p <;> simp_all [word, OncePhase.isStored]

namespace Refines

theorem done_of_isInitialised (hs : Refines layout p s) (hinit : layout.isInitialised s.guard)
    : p = .done := by
  rw [hs.guard] at hinit
  have hstored := phase_of_isInitialised hinit
  cases p with
  | stored t => exact absurd rfl (hs.not_stored t)
  | done => rfl
  | free => contradiction
  | owned t => contradiction
  | releasing t => contradiction
  | aborting t => contradiction

-- the variable is initialised already
theorem acquired_zero (hs : Refines layout p s) (hlog : OnceHistory s.log p)
    (hinit : layout.isInitialised s.guard) (hpc : (s.pcs t).mustInit = false)
    : ∃ q, OnceHistory (guardAcquired s t .initDone).log q
      ∧ Refines layout q (guardAcquired s t .initDone) := by
  have hdone := hs.done_of_isInitialised hinit
  subst hdone
  refine ⟨.done, hlog.snoc (.skipDone t), ?_⟩
  have hkeep : Refines layout .done (s.goto t .idle) := hs.keep hpc rfl (by simp)
  exact ⟨hkeep.guard, hkeep.owner, hkeep.reachable⟩

theorem acquired_one (hs : Refines layout p s) (hlog : OnceHistory s.log p) (hzero : s.guard = 0)
    : OnceHistory (guardAcquired (s.setGuard layout.locked) t .initLockSucceeded).log (.owned t)
      ∧ Refines layout (.owned t) (guardAcquired (s.setGuard layout.locked) t .initLockSucceeded) := by
  have hfree : p = .free := by
    have hword := hs.guard
    rw [hzero] at hword
    exact phase_of_zero hword.symm
  subst hfree
  refine ⟨hlog.snoc (.acquire t), rfl, ?_, ?_⟩
  . exact hs.owner.change (.inl rfl) (.inl ⟨rfl, rfl⟩)
  . apply hs.reachable_update
    simp

theorem unlocked (hs : Refines layout p s) (hlog : OnceHistory s.log p) {isInitialised : Bool}
    (hpc : s.pcs t = .unlocking isInitialised)
    : ∃ q, OnceHistory (s.log ++ ((if isInitialised then [.stored t] else []) ++ [.left t])) q
      ∧ Refines layout q ((((s.setGuard (if isInitialised then layout.initialised else 0)).goto t
        .idle).record ((if isInitialised then [.stored t] else []) ++ [.left t]))) := by
  have hphase := hs.owner.phase_of_unlocking hpc
  have howner (q : OncePhase Nat) (hold : p.owner = some t) (hq : q.owner = none)
      : GuardOwner q (Function.update s.pcs t .idle) :=
    hs.owner.change (.inr hold) (.inr ⟨hq, rfl⟩)
  cases isInitialised with
  | true =>
    subst hphase
    refine ⟨.done, ?_, rfl, howner .done rfl rfl, ?_⟩
    . have hstored := (hlog.snoc (.store t)).snoc (.leaveDone t)
      simpa using hstored
    . apply hs.reachable_update
      simp
  | false =>
    subst hphase
    refine ⟨.free, hlog.snoc (.leaveFree t), rfl, howner .free rfl rfl, ?_⟩
    apply hs.reachable_update
    simp

theorem run (hs : Refines layout p s) (hlog : OnceHistory s.log p)
    (hrun : run layout s t spurious = some s')
    : s.log <+: s'.log ∧ ∃ q, OnceHistory s'.log q ∧ Refines layout q s' := by
  unfold SingleWordGuard.run at hrun
  split at hrun
  . next hpc =>
    have hout : (s.pcs t).mustInit = false := by
      rw [hpc]
      rfl
    split at hrun
    . next hinit =>
      cases hrun
      exact ⟨List.prefix_append .., hs.acquired_zero hlog hinit hout⟩
    . cases hrun
      exact ⟨List.prefix_refl _, p, hlog, hs.keep hout rfl (by simp)⟩
  . next hpc =>
    have hout : (s.pcs t).mustInit = false := by
      rw [hpc]
      rfl
    rcases tryLock_cases spurious ⟨p, hs.guard⟩ with ⟨htry, hzero⟩ | ⟨htry, hinit⟩ | htry
    . rw [htry] at hrun
      cases hrun
      exact ⟨List.prefix_append .., .owned t, hs.acquired_one hlog hzero⟩
    . rw [htry] at hrun
      cases hrun
      refine ⟨List.prefix_append .., ?_⟩
      exact hs.acquired_zero hlog (by simp [hinit]) hout
    . rw [htry] at hrun
      cases hrun
      exact ⟨List.prefix_refl _, p, hlog, hs.keep hout rfl (by simp)⟩
  . next isInitialised hpc =>
    dsimp only at hrun
    rw [if_pos (by simp)] at hrun
    cases hrun
    exact ⟨List.prefix_append .., hs.unlocked hlog hpc⟩
  . contradiction

theorem step (hs : Refines layout p s) (hlog : OnceHistory s.log p) {l : Nat × GuardAction}
    (hstep : step layout s l = some s')
    : s.log <+: s'.log ∧ ∃ q, OnceHistory s'.log q ∧ Refines layout q s' := by
  rcases l with ⟨t, action⟩
  rcases guardStep_cases hstep with
    ⟨hpc, rfl⟩ | ⟨hpc, _, rfl⟩ | ⟨hpc, rfl⟩ | ⟨spurious, _, hrun⟩
  . refine ⟨List.prefix_refl _, p, hlog, hs.keep ?_ rfl (by simp)⟩
    rw [hpc]
    rfl
  . have hphase := hs.owner.phase_of_initialising hpc
    subst hphase
    refine ⟨List.prefix_append .., .releasing t, hlog.snoc (.release t), hs.guard, ?_, ?_⟩
    . exact hs.owner.change (.inr rfl) (.inl ⟨rfl, rfl⟩)
    . apply hs.reachable_update
      simp
  . have hphase := hs.owner.phase_of_initialising hpc
    subst hphase
    refine ⟨List.prefix_append .., .aborting t, hlog.snoc (.abort t), hs.guard, ?_, ?_⟩
    . exact hs.owner.change (.inr rfl) (.inl ⟨rfl, .inl rfl⟩)
    . apply hs.reachable_update
      simp
  . exact hs.run hlog hrun

-- the owner gives the guard up without a release
theorem abort (hs : Refines layout p s) (hlog : OnceHistory s.log p) (hp : p.isReleased = false)
    : ∃ s', Reach s (SingleWordGuard.step layout) (fun _ l => l.2 ≠ .release) s'
      ∧ Refines layout .free s' ∧ OnceHistory s'.log .free := by
  have haborting {s : GuardProcess (BitVec w)} {t : Nat} (hs : Refines layout (.aborting t) s)
      (hlog : OnceHistory s.log (.aborting t))
      : ∃ s', Reach s (SingleWordGuard.step layout) (fun _ l => l.2 ≠ .release) s'
        ∧ Refines layout .free s' ∧ OnceHistory s'.log .free := by
    have hpc : s.pcs t = .unlocking false := by
      have howner := hs.owner.owner t rfl
      have hreachable := hs.reachable t
      rcases howner with hpc | hpc
      . exact hpc
      . simp [hpc] at hreachable
    have hstep : SingleWordGuard.step layout s (t, .run false)
        = some (((s.setGuard 0).goto t .idle).record [.left t]) := by
      simp [SingleWordGuard.step, guardStep, SingleWordGuard.run, hpc]
    have hlog' := hlog.snoc (.leaveFree t)
    rcases (hs.step hlog hstep).2 with ⟨q, hq, hrefines⟩
    refine ⟨_, .step .init (by simp) hstep, ?_, hlog'⟩
    rwa [hq.unique hlog'] at hrefines
  cases p with
  | free => exact ⟨s, .init, hs, hlog⟩
  | owned t =>
    have hstep : SingleWordGuard.step layout s (t, .abort) = some _ :=
      guardStep_abort (hs.owner.owner t rfl)
    have hlog' := hlog.snoc (.abort t)
    rcases (hs.step hlog hstep).2 with ⟨q, hq, hrefines⟩
    rw [hq.unique hlog'] at hrefines
    rcases haborting hrefines hlog' with ⟨s', hs', hfree⟩
    exact ⟨s', Reach.trans (.step .init (by simp) hstep) hs', hfree⟩
  | aborting t => exact haborting hs hlog
  | releasing t => contradiction
  | stored t => contradiction
  | done => contradiction


-- any thread can become the owner of a guard that is free
theorem acquire (hs : Refines layout .free s) (u : Nat)
    : ∃ s', Reach s (SingleWordGuard.step layout) (fun _ l => l.2 ≠ .release) s'
      ∧ s'.log = s.log ++ [.acquired u true] := by
  have hlocking {s : GuardProcess (BitVec w)} (hs : Refines layout .free s)
      (hpc : s.pcs u = .locking)
      : ∃ s', Reach s (SingleWordGuard.step layout) (fun _ l => l.2 ≠ .release) s'
        ∧ s'.log = s.log ++ [.acquired u true] := by
    have hguard : s.guard = 0 := hs.guard
    refine ⟨guardAcquired (s.setGuard layout.locked) u .initLockSucceeded,
      .step (l := (u, .run false)) .init (by simp) ?_, rfl⟩
    simp [SingleWordGuard.step, guardStep, SingleWordGuard.run, hpc, tryLock, compareExchange, hguard]
  have hchecking {s : GuardProcess (BitVec w)} (hs : Refines layout .free s)
      (hpc : s.pcs u = .checking)
      : ∃ s', Reach s (SingleWordGuard.step layout) (fun _ l => l.2 ≠ .release) s'
        ∧ s'.log = s.log ++ [.acquired u true] := by
    have hguard : s.guard = 0 := hs.guard
    have hstep : SingleWordGuard.step layout s (u, .run false) = some (s.goto u .locking) := by
      simp [SingleWordGuard.step, guardStep, SingleWordGuard.run, hpc, hguard]
    have hkeep : Refines layout .free (s.goto u .locking) :=
      hs.keep (by simp [hpc, GuardPc.mustInit]) rfl (by simp)
    rcases hlocking hkeep (Function.update_self ..) with ⟨s', hs', hlog'⟩
    exact ⟨s', Reach.trans (.step .init (by simp) hstep) hs', hlog'⟩
  have hout : (s.pcs u).mustInit = false := hs.owner.others u (by simp [OncePhase.owner])
  have hreachable := hs.reachable u
  cases hpc : s.pcs u with
  | idle =>
    have hstep : SingleWordGuard.step layout s (u, .acquire) = some (s.goto u .checking) :=
      guardStep_acquire hpc
    have hkeep : Refines layout .free (s.goto u .checking) := hs.keep hout rfl (by simp)
    rcases hchecking hkeep (Function.update_self ..) with ⟨s', hs', hlog'⟩
    exact ⟨s', Reach.trans (.step .init (by simp) hstep) hs', hlog'⟩
  | checking => exact hchecking hs hpc
  | locking => exact hlocking hs hpc
  | initialising => simp [hpc, GuardPc.mustInit] at hout
  | unlocking isInitialised => simp [hpc, GuardPc.mustInit] at hout
  | unlockingSecond isInitialised => simp [hpc] at hreachable
  | rechecking => simp [hpc] at hreachable
  | yielding => simp [hpc] at hreachable
  | asserting isInitialised => simp [hpc] at hreachable

end Refines

theorem refinement (layout : GuardLayout w)
    : GuardRefinement init (step layout) (Refines layout) := by
  constructor
  . exact ⟨init_refines, rfl⟩
  . intro p s l s' hs hlog hstep
    exact hs.step hlog hstep
  . intro p s hs
    exact hs.owner
  . intro p s hs hlog hp
    rcases hs.abort hlog hp with ⟨s', hs', hrefines, hlog'⟩
    refine ⟨s', hs', hrefines, hlog', ?_⟩
    intro u
    rcases hrefines.acquire u with ⟨s'', hs'', hlog''⟩
    exact ⟨s'', hs'', [], by simpa using hlog''⟩

end SingleWordGuard

end LibCxxRt
