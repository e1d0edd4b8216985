import LibCxxRt.AtExit.Impl
import LibCxxRt.Util.Chain

/-!
This module contains what one iteration of `__cxa_finalize` does to the list of nodes, and from that what
the whole traversal does. In each iteration the list consists of the nodes that are kept, the last of
which has the link that `last` points to, and of those that are still to come.
-/

namespace LibCxxRt

open Util

namespace AtExit

-- `__cxa_finalize(d)` calls the handler
def Handler.Matches (d : Addr) (h : Handler) : Prop :=
  h.d = d ∨ d = 0

instance (d : Addr) (h : Handler) : Decidable (h.Matches d) :=
  inferInstanceAs (Decidable (_ ∨ _))

-- none of the handlers registers another one when they are called in this order
def Quiet (body : Body) (called : List Handler) : List Handler → Prop
  | [] => True
  | h :: handlers => body called h = [] ∧ Quiet body (called ++ [h]) handlers

namespace State

def next (s : State) (h : Nat) : Option (Option Nat) :=
  if s.live h then some (s.node h).next else none

def handler (s : State) (h : Nat) : Handler :=
  (s.node h).toHandler

-- the registrations that are in the list, the newest one first
def Lists (s : State) (handlers : List Handler) : Prop :=
  s.locked = false
    ∧ ∃ nodes : List Nat, Chain s.next s.head nodes ∧ nodes.Nodup ∧ nodes.map s.handler = handlers

-- what is left of a node that has been called
def drop (s : State) (last : Option Nat) (h : Nat) : State :=
  let s' := s.setLast last (s.node h).next
  { s' with
    called := s.called ++ [s.handler h]
    live := Function.update s.live h false
    staleReads := s.staleReads ++ [h]
  }

end State

variable {body : Body} {d : Addr} {s s' : State} {h : Nat} {last p : Option Nat}
  {kept rest nodes : List Nat} {fuel : Nat}

theorem live_of_next {q : Option Nat} (hnext : s.next h = some q)
    : s.live h = true ∧ (s.node h).next = q := by
  unfold State.next at hnext
  rw [Option.ite_none_right_eq_some] at hnext
  exact ⟨hnext.1, Option.some.inj hnext.2⟩

theorem read_of_live (hlive : s.live h = true) : s.read h = (s.node h, s) := by
  simp [State.read, hlive]

@[simp]
theorem setLast_handler (s : State) (last p : Option Nat)
    : (s.setLast last p).handler = s.handler := by
  funext x
  cases last with
  | none => rfl
  | some b =>
    unfold State.setLast State.handler
    by_cases hx : x = b
    . rw [hx]
      simp
    . simp [hx]

@[simp]
theorem setLast_called (s : State) (last p : Option Nat) : (s.setLast last p).called = s.called := by
  cases last <;> rfl

@[simp]
theorem setLast_live (s : State) (last p : Option Nat) : (s.setLast last p).live = s.live := by
  cases last <;> rfl

@[simp]
theorem setLast_locked (s : State) (last p : Option Nat) : (s.setLast last p).locked = s.locked := by
  cases last <;> rfl

@[simp]
theorem drop_handler (s : State) (last : Option Nat) (h : Nat)
    : (s.drop last h).handler = s.handler := by
  exact setLast_handler s last _

@[simp]
theorem drop_called (s : State) (last : Option Nat) (h : Nat)
    : (s.drop last h).called = s.called ++ [s.handler h] := by
  rfl

@[simp]
theorem drop_staleReads (s : State) (last : Option Nat) (h : Nat)
    : (s.drop last h).staleReads = s.staleReads ++ [h] := by
  rfl

@[simp]
theorem drop_locked (s : State) (last : Option Nat) (h : Nat)
    : (s.drop last h).locked = s.locked := by
  cases last <;> rfl

@[simp]
theorem drop_registered (s : State) (last : Option Nat) (h : Nat)
    : (s.drop last h).registered = s.registered := by
  cases last <;> rfl

theorem registerAll_of_locked (hlocked : s.locked = true) {requests : List (Handler × Option Nat)}
    (hrequests : requests ≠ []) : registerAll s requests = .error .deadlock := by
  cases requests with
  | nil => contradiction
  | cons request requests =>
    unfold registerAll cxaAtexit
    rw [if_pos hlocked]
    rfl

theorem invoke_of_quiet {handler : Handler} (hquiet : body s.called handler = [])
    : invoke body s handler = .ok { s with called := s.called ++ [handler] } := by
  rw [invoke, hquiet]
  rfl

-- a handler that registers another one waits for the thread that it runs in
theorem invoke_of_not_quiet {handler : Handler} (hlocked : s.locked = true)
    (hquiet : body s.called handler ≠ []) : invoke body s handler = .error .deadlock := by
  unfold invoke
  apply registerAll_of_locked
  . exact hlocked
  . exact hquiet

theorem go_of_not_matches (hlive : s.live h = true) (hmatch : ¬ (s.handler h).Matches d)
    : cxaFinalize.go body d (fuel + 1) last (some h) s
        =
      cxaFinalize.go body d fuel (some h) (s.node h).next s := by
  have hcond : ¬ ((s.node h).d = d ∨ d = 0) := hmatch
  rw [cxaFinalize.go, read_of_live hlive]
  dsimp only
  rw [if_neg hcond, read_of_live hlive]

theorem go_of_matches (hlive : s.live h = true) (hmatch : (s.handler h).Matches d)
    (hlast : last ≠ some h) (hquiet : body s.called (s.handler h) = [])
    : cxaFinalize.go body d (fuel + 1) last (some h) s
        =
      cxaFinalize.go body d fuel last (s.node h).next (s.drop last h) := by
  have hcond : (s.node h).d = d ∨ d = 0 := hmatch
  have hinvoke : invoke body (s.setLast last (s.node h).next) (s.node h).toHandler
        =
      .ok { s.setLast last (s.node h).next with called := s.called ++ [s.handler h] } := by
    have hquiet' : body (s.setLast last (s.node h).next).called (s.node h).toHandler = [] := by
      rwa [setLast_called]
    rw [invoke_of_quiet hquiet', setLast_called]
    rfl
  have hnext : ((s.setLast last (s.node h).next).node h).next = (s.node h).next := by
    cases last with
    | none => rfl
    | some b =>
      have hne : h ≠ b := fun heq => hlast (congrArg some heq.symm)
      simp [State.setLast, Function.update_of_ne hne]
  rw [cxaFinalize.go, read_of_live hlive]
  dsimp only
  rw [if_pos hcond, hinvoke]
  simp only [bind, Except.bind, State.free, State.read, Function.update_self, Bool.false_eq_true,
    if_false]
  rw [hnext]
  cases last <;> rfl

theorem go_of_not_quiet (hlive : s.live h = true) (hmatch : (s.handler h).Matches d)
    (hlocked : s.locked = true) (hquiet : body s.called (s.handler h) ≠ [])
    : cxaFinalize.go body d (fuel + 1) last (some h) s = .error .deadlock := by
  have hcond : (s.node h).d = d ∨ d = 0 := hmatch
  have hinvoke : invoke body (s.setLast last (s.node h).next) (s.node h).toHandler
        =
      .error .deadlock := by
    apply invoke_of_not_quiet
    . rwa [setLast_locked]
    . rwa [setLast_called]
  rw [cxaFinalize.go, read_of_live hlive]
  dsimp only
  rw [if_pos hcond, hinvoke]
  rfl

theorem nodup_drop (hnodup : (kept ++ h :: rest).Nodup) : (kept ++ rest).Nodup := by
  exact (List.nodup_cons.1 (List.perm_middle.nodup_iff.1 hnodup)).2

theorem ne_of_nodup (hnodup : (kept ++ h :: rest).Nodup) {x : Nat} (hx : x ∈ kept ++ rest)
    : x ≠ h := by
  rintro rfl
  exact (List.nodup_cons.1 (List.perm_middle.nodup_iff.1 hnodup)).1 hx

theorem getLast?_ne (hnodup : (kept ++ h :: rest).Nodup) : kept.getLast? ≠ some h := by
  intro hlast
  have hkept : h ∈ kept ++ rest := List.mem_append_left rest (List.mem_of_getLast? hlast)
  exact ne_of_nodup hnodup hkept rfl

-- the list after an iteration that has called a handler
theorem chain_drop (hchain : Chain s.next s.head (kept ++ h :: rest))
    (hnodup : (kept ++ h :: rest).Nodup)
    : Chain (s.drop kept.getLast? h).next (s.drop kept.getLast? h).head (kept ++ rest) := by
  rcases hchain.exists_next (a := h) (by simp) with ⟨q, hnext⟩
  rcases live_of_next hnext with ⟨hlive, rfl⟩
  have hne : ∀ x ∈ kept ++ rest, x ≠ h := fun x hx => ne_of_nodup hnodup hx
  rcases List.eq_nil_or_concat kept with rfl | ⟨kept', b, rfl⟩
  . refine (hchain.tail hnext).congr ?_
    intro x hx
    simp [State.next, State.drop, State.setLast, Function.update_of_ne (hne x hx)]
  . rw [List.concat_eq_append, List.append_assoc, List.singleton_append] at hchain hnodup hne ⊢
    rw [List.getLast?_concat]
    rcases hchain.exists_next (a := b) (by simp) with ⟨p, hb⟩
    have hlive := (live_of_next hb).1
    refine (hchain.unlink hnodup hnext).congr ?_
    intro x hx
    by_cases hxb : x = b
    . subst hxb
      simp [State.next, State.drop, State.setLast, Function.update_of_ne (hne x hx), hlive]
    . simp [State.next, State.drop, State.setLast, Function.update_of_ne (hne x hx), hxb]

-- the whole traversal
theorem go_eq (kept : List Nat) (hchain : Chain s.next s.head (kept ++ rest))
    (hnodup : (kept ++ rest).Nodup)
    (hquiet : Quiet body s.called ((rest.map s.handler).filter (Handler.Matches d)))
    (hfuel : rest.length < fuel)
    : ∃ s', cxaFinalize.go body d fuel kept.getLast? rest.head? s = .ok s'
        ∧ Chain s'.next s'.head
            (kept ++ rest.filter fun h => ¬ (s.handler h).Matches d)
        ∧ s'.handler = s.handler
        ∧ s'.called = s.called ++ (rest.map s.handler).filter (Handler.Matches d)
        ∧ s'.registered = s.registered
        ∧ s'.staleReads = s.staleReads ++ rest.filter fun h => (s.handler h).Matches d := by
  induction rest generalizing kept s fuel with
  | nil =>
    cases fuel with
    | zero => contradiction
    | succ fuel => exact ⟨s, rfl, by simpa using hchain, rfl, by simp, rfl, by simp⟩
  | cons h rest ih =>
    cases fuel with
    | zero => contradiction
    | succ fuel =>
      rw [List.length_cons, Nat.add_lt_add_iff_right] at hfuel
      rw [List.map_cons, List.filter_cons] at hquiet
      rcases live_of_next hchain.next_eq with ⟨hlive, hnext⟩
      by_cases hmatch : (s.handler h).Matches d
      . rw [if_pos (decide_eq_true hmatch)] at hquiet
        have hquiet' : Quiet body (s.drop kept.getLast? h).called
            ((rest.map (s.drop kept.getLast? h).handler).filter (Handler.Matches d)) := by
          rw [drop_called, drop_handler]
          exact hquiet.2
        rcases ih kept (chain_drop hchain hnodup) (nodup_drop hnodup) hquiet' hfuel with
          ⟨s', hgo, hchain', hhandler, hcalled, hregistered, hstale⟩
        refine ⟨s', ?_, ?_, ?_, ?_, ?_, ?_⟩
        . rw [List.head?_cons, go_of_matches hlive hmatch (getLast?_ne hnodup) hquiet.1, hnext]
          exact hgo
        . simpa [hmatch] using hchain'
        . simpa using hhandler
        . simpa [hmatch] using hcalled
        . simpa using hregistered
        . simpa [hmatch] using hstale
      . rw [if_neg (by simpa using hmatch)] at hquiet
        rw [← List.singleton_append, ← List.append_assoc] at hchain hnodup
        rcases ih (kept ++ [h]) hchain hnodup hquiet hfuel with
          ⟨s', hgo, hchain', hhandler, hcalled, hregistered, hstale⟩
        refine ⟨s', ?_, ?_, ?_, ?_, ?_, ?_⟩
        . rw [List.head?_cons, go_of_not_matches hlive hmatch, hnext]
          rwa [List.getLast?_concat] at hgo
        . simpa [hmatch] using hchain'
        . exact hhandler
        . simpa [hmatch] using hcalled
        . exact hregistered
        . simpa [hmatch] using hstale

theorem go_eq_deadlock (kept : List Nat) (hchain : Chain s.next s.head (kept ++ rest))
    (hnodup : (kept ++ rest).Nodup) (hlocked : s.locked = true)
    (hquiet : ¬ Quiet body s.called ((rest.map s.handler).filter (Handler.Matches d)))
    (hfuel : rest.length < fuel)
    : cxaFinalize.go body d fuel kept.getLast? rest.head? s = .error .deadlock := by
  induction rest generalizing kept s fuel with
  | nil => exact absurd trivial hquiet
  | cons h rest ih =>
    cases fuel with
    | zero => contradiction
    | succ fuel =>
      rw [List.length_cons, Nat.add_lt_add_iff_right] at hfuel
      rw [List.map_cons, List.filter_cons] at hquiet
      rw [List.head?_cons]
      rcases live_of_next hchain.next_eq with ⟨hlive, hnext⟩
      by_cases hmatch : (s.handler h).Matches d
      . rw [if_pos (decide_eq_true hmatch)] at hquiet
        by_cases hbody : body s.called (s.handler h) = []
        . have hquiet' : ¬ Quiet body (s.drop kept.getLast? h).called
              ((rest.map (s.drop kept.getLast? h).handler).filter (Handler.Matches d)) := by
            rw [drop_called, drop_handler]
            exact fun hrest => hquiet ⟨hbody, hrest⟩
          rw [go_of_matches hlive hmatch (getLast?_ne hnodup) hbody, hnext]
          exact ih kept (chain_drop hchain hnodup) (nodup_drop hnodup) (by simpa using hlocked)
            hquiet' hfuel
        . exact go_of_not_quiet hlive hmatch hlocked hbody
      . rw [if_neg (by simpa using hmatch)] at hquiet
        rw [← List.singleton_append, ← List.append_assoc] at hchain hnodup
        have hgo := ih (kept ++ [h]) hchain hnodup hlocked hquiet hfuel
        rw [go_of_not_matches hlive hmatch, hnext]
        rwa [List.getLast?_concat] at hgo

variable {handlers : List Handler}

theorem cxaFinalize_of_go {result : Except Stop State} (hlocked : s.locked = false)
    (hgo : cxaFinalize.go body d fuel none s.head { s with locked := true } = result)
    : cxaFinalize body s d fuel = result >>= fun s' => .ok { s' with locked := false } := by
  unfold cxaFinalize
  rw [if_neg (by simp [hlocked]), hgo]
  rfl

theorem cxaFinalize_eq (hlists : s.Lists handlers)
    (hquiet : Quiet body s.called (handlers.filter (Handler.Matches d)))
    (hfuel : handlers.length < fuel)
    : ∃ s', cxaFinalize body s d fuel = .ok s'
        ∧ s'.Lists (handlers.filter fun h => ¬ h.Matches d)
        ∧ s'.called = s.called ++ handlers.filter (Handler.Matches d)
        ∧ s'.registered = s.registered
        ∧ s'.staleReads.length
            =
          s.staleReads.length + (handlers.filter (Handler.Matches d)).length := by
  rcases hlists with ⟨hlocked, nodes, hchain, hnodup, rfl⟩
  rw [List.length_map] at hfuel
  rcases go_eq [] (s := { s with locked := true }) hchain hnodup hquiet hfuel with
    ⟨s', hgo, hchain', hhandler, hcalled, hregistered, hstale⟩
  refine ⟨{ s' with locked := false }, ?_, ⟨rfl, _, hchain', ?_, ?_⟩, hcalled, hregistered, ?_⟩
  . rw [← hchain.head_eq] at hgo
    exact cxaFinalize_of_go hlocked hgo
  . rw [List.nil_append]
    exact hnodup.filter _
  . have hsame : State.handler { s' with locked := false } = s.handler := hhandler
    rw [hsame, List.nil_append, List.filter_map]
    rfl
  . rw [hstale, List.length_append, List.filter_map, List.length_map]
    rfl

theorem cxaFinalize_eq_deadlock (hlists : s.Lists handlers)
    (hquiet : ¬ Quiet body s.called (handlers.filter (Handler.Matches d)))
    (hfuel : handlers.length < fuel)
    : cxaFinalize body s d fuel = .error .deadlock := by
  rcases hlists with ⟨hlocked, nodes, hchain, hnodup, rfl⟩
  rw [List.length_map] at hfuel
  have hgo := go_eq_deadlock [] (s := { s with locked := true }) hchain hnodup rfl hquiet
    hfuel
  rw [← hchain.head_eq] at hgo
  exact cxaFinalize_of_go hlocked hgo

theorem cxaAtexit_of_unlocked (hlocked : s.locked = false) (handler : Handler) (h : Nat)
    : cxaAtexit s handler (some h) = .ok (0, s.push h handler) := by
  exact if_neg (by simp [hlocked])

theorem State.Lists.push (hlists : s.Lists handlers) (hmalloc : s.live h = false)
    (handler : Handler) : (s.push h handler).Lists (handler :: handlers) := by
  rcases hlists with ⟨hlocked, nodes, hchain, hnodup, rfl⟩
  have hne : ∀ x ∈ nodes, x ≠ h := by
    rintro x hx rfl
    rcases hchain.exists_next hx with ⟨q, hq⟩
    rw [(live_of_next hq).1] at hmalloc
    contradiction
  refine ⟨hlocked, h :: nodes, .cons (p := s.head) ?_ (hchain.congr ?_), ?_, ?_⟩
  . simp [State.next, State.push]
  . intro x hx
    simp [State.next, State.push, hne x hx]
  . exact List.nodup_cons.2 ⟨fun hh => hne h hh rfl, hnodup⟩
  . rw [List.map_cons]
    congr 1
    . simp [State.handler, State.push]
    . apply List.map_congr_left
      intro x hx
      simp [State.handler, State.push, hne x hx]

end AtExit

end LibCxxRt
