import LibCxxRt.Exception.CxxOnly
import LibCxxRt.Exception.Layout
import LibCxxRt.Exception.Lemmas.Access
import LibCxxRt.Exception.Lemmas.History

/-!
This module contains the type of the exception that a handler handles. A dependent exception gets the
type that `__cxa_rethrow_primary_exception` reads, which takes the pointer to the thrown object for a
pointer to the `unwindHeader` field.
-/

namespace LibCxxRt

open Util

/--
A program with a record of the exception that each exception comes from, and of the type that this
one has been created with.
-/
structure Tracked where
  state : State
  origin : Nat → Nat × Addr

namespace Tracked

def init : Tracked where
  state := .init
  origin := fun _ => (0, 0)

def track (origin : Nat → Nat × Addr) : Action → Nat → Nat × Addr
  | .throw b tinfo _ | .initPrimary b tinfo _ => Function.update origin b (b, tinfo)
  | .rethrowPrimary b d => Function.update origin d (origin b)
  | _ => origin

def step (img : Image) (s : Tracked) (l : Nat × Action) : Option Tracked :=
  (LibCxxRt.step img s.state l).map fun s' => ⟨s', track s.origin l.2⟩

/--
The word that `__cxa_rethrow_primary_exception` takes for the type of the exception is not the type of
the exception.
-/
def Misreads (img : Image) (s : Tracked) (l : Nat × Action) : Prop :=
  match l.2 with
  | .rethrowPrimary b _ =>
    s.state.process.heap.word img ((exceptionFromPointer ⟨b, 128⟩).add Access.exceptionType)
      ≠ s.state.process.heap.word img (Ptr.add ⟨b, 0⟩ Access.exceptionType)
  | _ => False

def Allowed (img : Image) (s : Tracked) (l : Nat × Action) : Prop :=
  s.state.CxxOnly l ∧ ¬ s.Misreads img l

-- the header of `b` agrees with the record
def Agrees (h : Heap) (origin : Nat → Nat × Addr) (b : Nat) : Prop :=
  ∀ e, h b = some (.cxx e) → (origin b).2 = e.exceptionType
    ∧ (∀ n, e.kind = .primary n → (origin b).1 = b)
    ∧ ∀ p, e.kind = .dependent p → origin p = origin b ∧ (origin b).1 = p

section

variable {h h' : Heap} {origin origin' : Nat → Nat × Addr} {b : Nat} {tinfo : Addr}

theorem Agrees.of_stays (hagrees : Agrees h origin b)
    (hkeeps : ∀ e', h' b = some (.cxx e') → ∃ e, h b = some (.cxx e) ∧ e.SameOrigin e')
    (hstays : ∀ k k', h.kind b = some k → h'.kind b = some k' → k.Stays k')
    (hself : origin' b = origin b)
    (hprimary : ∀ p, h.kind b = some (.dependent p) → origin' p = origin p) : Agrees h' origin' b := by
  intro e' he'
  rcases hkeeps e' he' with ⟨e, he, htype, _⟩
  rcases hagrees e he with ⟨horigin, hpri, hdep⟩
  have hkind := hstays _ _ (Heap.kind_of_cxx he) (Heap.kind_of_cxx he')
  rw [hself]
  refine ⟨horigin.trans htype.symm, ?_, ?_⟩
  . intro n' hn'
    rw [hn'] at hkind
    rcases hkind with hsame | ⟨n, _, hn, _⟩
    . exact hpri n' hsame.symm
    . exact hpri n hn
  . intro p hp
    rw [hp] at hkind
    rcases hkind with hsame | ⟨_, _, _, hn⟩
    . rw [hprimary p (by rw [Heap.kind_of_cxx he, hsame])]
      exact hdep p hsame.symm
    . contradiction

theorem Agrees.of_primary {dest : Addr} (hcreates : Heap.Creates b tinfo dest h h')
    (hkind : ∃ n, h'.kind b = some (.primary n)) : Agrees h' (Function.update origin b (b, tinfo)) b := by
  intro e he
  rcases hkind with ⟨n, hn⟩
  rw [Heap.kind_of_cxx he, Option.some.injEq] at hn
  rw [Function.update_self]
  refine ⟨(hcreates.created e he).1.symm, fun _ _ => rfl, ?_⟩
  intro p hp
  rw [hn] at hp
  contradiction

theorem Agrees.of_dependent {d n : Nat} {e : CxaException} (hcreates : Heap.Creates d tinfo 0 h h')
    (hkind : h'.kind d = some (.dependent b)) (hne : b ≠ d) (hb : h b = some (.cxx e))
    (hprimary : e.kind = .primary n) (htype : tinfo = e.exceptionType) (hagrees : Agrees h origin b)
    : Agrees h' (Function.update origin d (origin b)) d := by
  intro e' he'
  rcases hagrees e hb with ⟨horigin, hpri, _⟩
  rw [Heap.kind_of_cxx he', Option.some.injEq] at hkind
  rw [Function.update_self, (hcreates.created e' he').1, htype, hkind]
  refine ⟨horigin, nofun, ?_⟩
  rintro p hp
  cases hp
  exact ⟨Function.update_of_ne hne .., hpri n hprimary⟩

end

variable {img : Image} {s s' : Tracked} {l : Nat × Action}

theorem misreads_iff {i b d : Nat} {e : CxaException} (hb : s.state.process.heap b = some (.cxx e))
    : s.Misreads img (i, .rethrowPrimary b d)
        ↔ (e.nextException.map img.addr).getD 0 ≠ e.exceptionType := by
  unfold Misreads
  dsimp only
  have hread : (exceptionFromPointer ⟨b, 128⟩).add Access.exceptionType = ⟨b, 48⟩ := rfl
  rw [hread, Ptr.add_mk, Heap.word_of_cxx img hb, Heap.word_of_cxx img hb]
  simp [CxaException.word, Access.exceptionType]

theorem agrees_of_step (hinv : s.state.Inv) (hagrees : ∀ b, Agrees s.state.process.heap s.origin b)
    (hl : ¬ s.Misreads img l) (houtcome : Outcome s.state l s'.state)
    (hstep : s.step img l = some s') (b : Nat) : Agrees s'.state.process.heap s'.origin b := by
  rcases l with ⟨i, action⟩
  unfold step at hstep
  rcases Option.map_eq_some_iff.mp hstep with ⟨s₁, hstep₁, rfl⟩
  have horigin := State.origin_of_step hinv hstep₁
  have hstays (k k' : Kind) (hk : s.state.process.heap.kind b = some k)
      (hk' : s₁.process.heap.kind b = some k') : k.Stays k' := houtcome.recounts.stays hk hk'
  have hkeeps (h : s.state.process.heap.Keeps s₁.process.heap)
      : Agrees s₁.process.heap s.origin b := by
    exact (hagrees b).of_stays (h b).cxx hstays rfl fun _ _ => rfl
  -- the exceptions that `d` is not
  have hother {d : Nat} {o : Nat × Addr} (hd : s.state.process.heap d = none) (hbd : b ≠ d)
      (h : Heap.KeepsBut d s.state.process.heap s₁.process.heap)
      : Agrees s₁.process.heap (Function.update s.origin d o) b := by
    refine (hagrees b).of_stays ((h b hbd).cxx) hstays (Function.update_of_ne hbd ..) ?_
    intro p hp
    rw [Function.update_of_ne]
    rintro rfl
    rcases hinv.owners.dependent b p hp with ⟨n, hn⟩
    rw [Heap.kind_eq_none_iff.mpr hd] at hn
    contradiction
  cases action with
  | throw d tinfo dest | initPrimary d tinfo dest =>
    rcases horigin with ⟨hd, hkind, hcreates⟩
    by_cases hbd : b = d
    . subst hbd
      exact .of_primary hcreates ⟨_, hkind⟩
    . exact hother hd hbd hcreates.others
  | rethrowPrimary p d =>
    rcases horigin with ⟨hd, hkind, e, n, he, hprimary, hcreates⟩
    by_cases hbd : b = d
    . subst hbd
      have hne : p ≠ b := by
        rintro rfl
        rw [hd] at he
        contradiction
      have htype : (e.nextException.map img.addr).getD 0 = e.exceptionType := by
        rw [misreads_iff he, not_not] at hl
        exact hl
      exact .of_dependent hcreates hkind hne he hprimary htype (hagrees p)
    . exact hother hd hbd hcreates.others
  | raiseForeign d =>
    rcases horigin with ⟨hd, hothers, hkind⟩
    by_cases hbd : b = d
    . subst hbd
      intro e he
      rw [Heap.kind_of_cxx he, Option.some.injEq] at hkind
      exact absurd hkind CxaException.kind_ne_foreign
    . exact (hagrees b).of_stays (hothers b hbd).cxx hstays rfl fun _ _ => rfl
  | _ => exact hkeeps horigin

theorem agrees_of_reach (hs : Reach Tracked.init (step img) (Allowed img) s)
    : s.state.Inv ∧ s.state.NoForeign ∧ ∀ b, Agrees s.state.process.heap s.origin b := by
  apply hs.invariant
  . refine ⟨State.Inv.init, ?_, ?_⟩
    . intro i x hx
      contradiction
    . intro b e he
      contradiction
  . rintro s ⟨i, action⟩ s' ⟨hinv, hno, hagrees⟩ ⟨hcxx, hl⟩ hstep
    rcases Option.map_eq_some_iff.mp hstep with ⟨s₁, hstep₁, rfl⟩
    have houtcome := hinv.of_step (hno.clean _) hstep₁
    exact ⟨houtcome.inv, hno.of_step hinv hcxx hstep₁, agrees_of_step hinv hagrees hl houtcome hstep⟩

theorem currentExceptionType_eq (private1 : Nat → Addr)
    (hs : Reach Tracked.init (step img) (Allowed img) s) (i : Nat) (x : Exc)
    (hx : (handlers (s.state.activities i)).head? = some x)
    : (Access.cxaCurrentExceptionType private1 i s.state.process).result
          =
        .ok (s.origin x.block).2
      ∧ ∃ w, cxaCurrentPrimaryException i s.state.process
          =
        .ok (some ⟨(s.origin x.block).1, 128⟩, w) := by
  rcases agrees_of_reach hs with ⟨hinv, hno, hagrees⟩
  have hmem : x ∈ excs (s.state.activities i) := mem_excs_of_head hx
  have hcaught := hinv.caughtExceptions_eq hx
  rcases hinv.cxx_of_mem hmem (hno i x hmem) with ⟨e, he, _, _, hkind⟩
  rcases hagrees x.block e he with ⟨htype, hprimary, hdependent⟩
  constructor
  . unfold Access.cxaCurrentExceptionType Access.exceptionTypeOf
    rw [hcaught]
    simp [he, Heap.cxa_of_cxx he, htype]
  . have hreal : ∃ n, realExceptionFromException s.state.process.heap ⟨x.block, 0⟩
          = .ok ⟨(s.origin x.block).1, 0⟩
        ∧ s.state.process.heap.kind (s.origin x.block).1 = some (.primary n) := by
      rcases hkind with ⟨n, hn⟩ | ⟨p, hp⟩
      . rw [hprimary n hn]
        refine ⟨n, realExceptionFromException_primary he hn, ?_⟩
        rw [Heap.kind_of_cxx he, hn]
      . rw [(hdependent p hp).2]
        rcases hinv.owners.dependent x.block p (by rw [Heap.kind_of_cxx he, hp]) with ⟨n, hn⟩
        exact ⟨n, realExceptionFromException_dependent he hp, hn⟩
    rcases hreal with ⟨n, hreal, hn⟩
    rcases cxaCurrentPrimaryException_view hcaught hreal hn with ⟨w, hcurrent, _⟩
    exact ⟨w, hcurrent⟩

theorem currentExceptionType_eq_rethrown
    : ∃ s, Reach Tracked.init (step Sample.img) (Allowed Sample.img) s
      ∧ (Access.cxaCurrentExceptionType (fun _ => 0) 0 s.state.process).result = .ok 0x2000 := by
  have hs : Reach Tracked.init (step Sample.img) (Allowed Sample.img) _ :=
    Reach.of_run .init (by simp [Allowed, State.CxxOnly, Misreads])
      (rfl : run _ _ [(0, .throw 0 0x2000 0), (0, .beginCatch), (0, .currentPrimary), (0, .rethrow),
        (0, .endCatchUnwinding), (0, .beginCatch)] = some _)
  exact ⟨_, hs, (currentExceptionType_eq (fun _ => 0) hs 0 ⟨0, false⟩ rfl).1⟩

/--
The exception that is rethrown has been caught first, so it is not on a list any more, and its type is
read to be null.
-/
theorem currentExceptionType_ne
    : ∃ s, Reach Tracked.init (step Sample.img) (fun s l => s.state.CxxOnly l) s
      ∧ (handlers (s.state.activities 0)).head? = some ⟨1, false⟩
      ∧ s.origin 1 = (0, 0x2000)
      ∧ (Access.cxaCurrentExceptionType (fun _ => 0) 0 s.state.process).result = .ok 0 := by
  have hs : Reach Tracked.init (step Sample.img) (fun s l => s.state.CxxOnly l) _ :=
    Reach.of_run .init (by simp [State.CxxOnly])
      (rfl : run _ _ [(0, .throw 0 0x2000 0), (0, .beginCatch), (0, .currentPrimary), (0, .endCatch),
        (0, .rethrowPrimary 0 1), (0, .beginCatch)] = some _)
  exact ⟨_, hs, rfl, rfl, rfl⟩

end Tracked

end LibCxxRt
