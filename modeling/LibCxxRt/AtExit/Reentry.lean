import LibCxxRt.AtExit.Lemmas

/-!
This module determines which handlers `__cxa_finalize` can call: those that do not register another one,
since the mutex is held while they run.
-/

namespace LibCxxRt

namespace AtExit

/--
The traversal ends without waiting for the thread it runs in, the registrations that are made meanwhile
stay in the list, and each handler that had been registered before and matches has been called once.
-/
def AllowsRegistration (body : Body) (d : Addr) (handlers : List Handler) (s : State) : Prop :=
  ∃ n, ∀ fuel, n ≤ fuel → ∃ s' added ran listed, cxaFinalize body s d fuel = .ok s'
    ∧ s'.registered = added ++ s.registered
    ∧ s'.Lists listed ∧ added.Sublist listed
    ∧ s'.called = s.called ++ ran ∧ ran.Perm (handlers.filter (Handler.Matches d))

theorem not_allowsRegistration {body : Body} {d : Addr} {handlers : List Handler} {s : State}
    (hlists : s.Lists handlers)
    (hquiet : ¬ Quiet body s.called (handlers.filter (Handler.Matches d)))
    : ¬ AllowsRegistration body d handlers s := by
  rintro ⟨n, hruns⟩
  rcases hruns (max n (handlers.length + 1)) (Nat.le_max_left _ _) with ⟨s', _, _, _, hfinalize, _⟩
  rw [cxaFinalize_eq_deadlock hlists hquiet (Nat.le_max_right n (handlers.length + 1))] at hfinalize
  contradiction

theorem allowsRegistration_iff {handlers : List Handler} {s : State} (hlists : s.Lists handlers)
    (body : Body) (d : Addr)
    : AllowsRegistration body d handlers s
        ↔
      Quiet body s.called (handlers.filter (Handler.Matches d)) := by
  refine ⟨fun hallows => by_contra fun hquiet => not_allowsRegistration hlists hquiet hallows, ?_⟩
  intro hquiet
  refine ⟨handlers.length + 1, ?_⟩
  intro fuel hfuel
  rcases cxaFinalize_eq hlists hquiet hfuel with
    ⟨s', hfinalize, hlists', hcalled, hregistered, _⟩
  exact ⟨s', [], _, _, hfinalize, hregistered, hlists', List.nil_sublist _, hcalled, .refl _⟩

namespace Sample

def constructed : Handler := ⟨0x1100, 0x2100, 0x3100⟩

def destructor : Handler := ⟨0x1200, 0x2200, 0x3200⟩

def two : State :=
  (State.init.push 0 constructed).push 1 destructor

-- the handler `destructor` initialises an object with static storage duration
def initialising : Body :=
  fun _ handler => if handler = destructor then [(⟨0x1300, 0x2300, 0x3200⟩, some 2)] else []

theorem two_lists : two.Lists [destructor, constructed] := by
  have hinit : State.init.Lists [] := ⟨rfl, [], .nil, List.nodup_nil, rfl⟩
  exact (hinit.push rfl constructed).push rfl destructor

end Sample

open AtExit.Sample

theorem allowsRegistration_iff_two
    : AllowsRegistration initialising 0x3100 [destructor, constructed] two := by
  refine (allowsRegistration_iff two_lists initialising 0x3100).2 ?_
  exact ⟨rfl, trivial⟩

theorem not_allowsRegistration_two
    : cxaFinalize initialising two 0x3200 3 = .error .deadlock
        ∧ ¬ AllowsRegistration initialising 0x3200 [destructor, constructed] two := by
  refine ⟨rfl, not_allowsRegistration two_lists ?_⟩
  rintro ⟨hbody, _⟩
  contradiction

end AtExit

end LibCxxRt
