import LibCxxRt.AtExit.Lemmas

/-!
This module determines when `__cxa_finalize` does what it is for without reading a node that it has
freed, for handlers that do not register others. The handlers are always the right ones and in the right
order.
-/

namespace LibCxxRt

namespace AtExit

-- the handlers neither register nor finalize
def plain : Body :=
  fun _ _ => []

-- the states after a sequence of successful registrations, the newest registration comes first
inductive Registered : List Handler → State → Prop where
  | init : Registered [] State.init
  | step {handlers : List Handler} {s s' : State} {h : Nat} (handler : Handler)
    (hs : Registered handlers s) (hmalloc : s.live h = false)
    (hstep : cxaAtexit s handler (some h) = .ok (0, s')) : Registered (handler :: handlers) s'

/--
The handlers that match are called in the reverse order of their registration, the others are left in
the list, and doing it again calls nothing.
-/
structure Finalized (d : Addr) (handlers : List Handler) (s s₁ s₂ : State) : Prop where
  called : s₁.called = s.called ++ handlers.filter (Handler.Matches d)
  lists : s₁.Lists (handlers.filter fun h => ¬ h.Matches d)
  again : s₂.called = s₁.called

def RunsInOrder (d : Addr) (handlers : List Handler) (s : State) : Prop :=
  ∃ n, ∀ fuel, n ≤ fuel → ∃ s₁ s₂, cxaFinalize plain s d fuel = .ok s₁
    ∧ cxaFinalize plain s₁ d fuel = .ok s₂ ∧ Finalized d handlers s s₁ s₂

-- in addition no node is read after it has been freed
def RunsFromLive (d : Addr) (handlers : List Handler) (s : State) : Prop :=
  ∃ n, ∀ fuel, n ≤ fuel → ∃ s₁ s₂, cxaFinalize plain s d fuel = .ok s₁
    ∧ cxaFinalize plain s₁ d fuel = .ok s₂ ∧ Finalized d handlers s s₁ s₂ ∧ s₂.staleReads = []

theorem quiet_plain (called handlers : List Handler) : Quiet plain called handlers := by
  induction handlers generalizing called with
  | nil => trivial
  | cons h handlers ih => exact ⟨rfl, ih _⟩

variable {d : Addr} {handlers : List Handler} {s s' : State}

namespace Registered

theorem lists (h : Registered handlers s) : s.Lists handlers := by
  induction h with
  | init => exact ⟨rfl, [], .nil, List.nodup_nil, rfl⟩
  | step handler _ hmalloc hstep ih =>
    rw [cxaAtexit_of_unlocked ih.1] at hstep
    cases hstep
    exact ih.push hmalloc handler

theorem staleReads (h : Registered handlers s) : s.staleReads = [] := by
  induction h with
  | init => rfl
  | step handler hs _ hstep ih =>
    rw [cxaAtexit_of_unlocked hs.lists.1] at hstep
    cases hstep
    exact ih

end Registered

theorem filter_matches_filter (d : Addr) (handlers : List Handler)
    : (handlers.filter fun h => ¬ h.Matches d).filter (Handler.Matches d) = [] := by
  rw [List.filter_eq_nil_iff]
  intro h hh
  rw [List.mem_filter] at hh
  simpa using hh.2

theorem finalized_of_lists (hlists : s.Lists handlers) {fuel : Nat}
    (hfuel : handlers.length < fuel)
    : ∃ s₁ s₂, cxaFinalize plain s d fuel = .ok s₁ ∧ cxaFinalize plain s₁ d fuel = .ok s₂
        ∧ Finalized d handlers s s₁ s₂
        ∧ s₂.staleReads.length
            =
          s.staleReads.length + (handlers.filter (Handler.Matches d)).length := by
  rcases cxaFinalize_eq hlists (quiet_plain _ _) hfuel with ⟨s₁, hfirst, hlists₁, hcalled, _, hstale⟩
  have hfuel₁ : (handlers.filter fun h => ¬ h.Matches d).length < fuel :=
    Nat.lt_of_le_of_lt (List.length_filter_le _ _) hfuel
  rcases cxaFinalize_eq (d := d) hlists₁ (quiet_plain _ _) hfuel₁ with
    ⟨s₂, hsecond, _, hcalled₂, _, hstale₂⟩
  rw [filter_matches_filter] at hcalled₂ hstale₂
  rw [List.append_nil] at hcalled₂
  exact ⟨s₁, s₂, hfirst, hsecond, ⟨hcalled, hlists₁, hcalled₂⟩, hstale₂.trans hstale⟩

theorem runsInOrder (h : Registered handlers s) (d : Addr) : RunsInOrder d handlers s := by
  refine ⟨handlers.length + 1, ?_⟩
  intro fuel hfuel
  rcases finalized_of_lists (d := d) h.lists hfuel with ⟨s₁, s₂, hfirst, hsecond, hfinalized, _⟩
  exact ⟨s₁, s₂, hfirst, hsecond, hfinalized⟩

-- each handler that is called leads to one read of a node that has been freed
theorem runsFromLive_iff_length (h : Registered handlers s)
    : RunsFromLive d handlers s ↔ (handlers.filter (Handler.Matches d)).length = 0 := by
  constructor
  . rintro ⟨n, hruns⟩
    rcases hruns (max n (handlers.length + 1)) (Nat.le_max_left _ _) with
      ⟨s₁, s₂, hfirst, hsecond, _, hnone⟩
    rcases finalized_of_lists (d := d) h.lists (Nat.le_max_right n (handlers.length + 1)) with
      ⟨s₁', s₂', hfirst', hsecond', _, hstale⟩
    rw [hfirst] at hfirst'
    cases hfirst'
    rw [hsecond] at hsecond'
    cases hsecond'
    rw [hnone, h.staleReads, List.length_nil, Nat.zero_add] at hstale
    exact hstale.symm
  . intro hnone
    refine ⟨handlers.length + 1, ?_⟩
    intro fuel hfuel
    rcases finalized_of_lists (d := d) h.lists hfuel with
      ⟨s₁, s₂, hfirst, hsecond, hfinalized, hstale⟩
    rw [h.staleReads, hnone] at hstale
    exact ⟨s₁, s₂, hfirst, hsecond, hfinalized, List.length_eq_zero_iff.1 hstale⟩

theorem runsFromLive_iff (h : Registered handlers s) (d : Addr)
    : RunsFromLive d handlers s ↔ ∀ x ∈ handlers, ¬ x.Matches d := by
  rw [runsFromLive_iff_length h, List.length_eq_zero_iff, List.filter_eq_nil_iff]
  simp only [decide_eq_true_eq]

namespace Sample

def handler : Handler := ⟨0x1000, 0x2000, 0x3000⟩

def one : State :=
  State.init.push 0 handler

theorem registered_one : Registered [handler] one := by
  exact .step handler .init rfl rfl

-- the handler of another shared object
def other : Handler := ⟨0x1100, 0x2000, 0x3100⟩

def three : State :=
  (one.push 1 other).push 2 handler

theorem registered_three : Registered [handler, other, handler] three := by
  have htwo : Registered [other, handler] (one.push 1 other) := .step other registered_one rfl rfl
  exact .step handler htwo rfl rfl

end Sample

open AtExit.Sample

-- the library that is unloaded has registered none of the three handlers
theorem runsFromLive_iff_three
    : RunsFromLive 0x4000 [handler, other, handler] three := by
  refine (runsFromLive_iff registered_three 0x4000).2 ?_
  decide

-- the only node is read for its link after it has been freed
theorem not_runsFromLive
    : Registered [handler] one ∧ (cxaFinalize plain one 0x3000 2).map State.staleReads = .ok [0]
        ∧ ¬ RunsFromLive 0x3000 [handler] one := by
  refine ⟨registered_one, rfl, ?_⟩
  rw [runsFromLive_iff_length registered_one]
  decide

end AtExit

end LibCxxRt
