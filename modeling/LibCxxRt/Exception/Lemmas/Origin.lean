import LibCxxRt.Exception.Lemmas.Runtime

/-!
This module contains what stays the same about an exception for as long as it exists, no matter what
is called for it: its type and its destructor.
-/

namespace LibCxxRt

namespace CxaException

structure SameOrigin (e e' : CxaException) : Prop where
  exceptionType : e'.exceptionType = e.exceptionType
  exceptionDestructor : e'.exceptionDestructor = e.exceptionDestructor

end CxaException

namespace Heap

-- if there is an exception `b` in `h'`, it is left from `h`
structure KeptAt (h h' : Heap) (b : Nat) : Prop where
  fresh : h b = none → h' b = none
  cxx : ∀ e', h' b = some (.cxx e') → ∃ e, h b = some (.cxx e) ∧ e.SameOrigin e'
  foreign : ∀ header beyond', h' b = some (.foreign header beyond')
    → ∃ beyond, h b = some (.foreign header beyond)

def Keeps (h h' : Heap) : Prop :=
  ∀ b, KeptAt h h' b

variable {h h' h'' : Heap} {p : Ptr} {e e' : CxaException} {b b' : Nat}

namespace KeptAt

theorem of_eq (heq : h' b = h b) : KeptAt h h' b := by
  constructor
  . intro hb
    rw [heq, hb]
  . intro e he
    rw [heq] at he
    exact ⟨e, he, rfl, rfl⟩
  . intro header beyond hobj
    rw [heq] at hobj
    exact ⟨beyond, hobj⟩

theorem trans (hkept : KeptAt h h' b) (hkept' : KeptAt h' h'' b) : KeptAt h h'' b := by
  constructor
  . intro hb
    exact hkept'.fresh (hkept.fresh hb)
  . intro e'' he''
    rcases hkept'.cxx e'' he'' with ⟨e', he', htype', hdest'⟩
    rcases hkept.cxx e' he' with ⟨e, he, htype, hdest⟩
    exact ⟨e, he, htype'.trans htype, hdest'.trans hdest⟩
  . intro header beyond'' hobj''
    rcases hkept'.foreign header beyond'' hobj'' with ⟨beyond', hobj'⟩
    exact hkept.foreign header beyond' hobj'

theorem of_none (hb : h' b = none) : KeptAt h h' b := by
  constructor
  . intro _
    exact hb
  . intro e he
    rw [hb] at he
    contradiction
  . intro header beyond hobj
    rw [hb] at hobj
    contradiction

end KeptAt

namespace Keeps

theorem refl (h : Heap) : h.Keeps h := by
  intro b
  exact .of_eq rfl

theorem trans (hkeeps : h.Keeps h') (hkeeps' : h'.Keeps h'') : h.Keeps h'' := by
  intro b
  exact (hkeeps b).trans (hkeeps' b)

theorem set (hb : h b = some (.cxx e)) (horigin : e.SameOrigin e') : h.Keeps (h.set b (.cxx e')) := by
  intro b'
  by_cases heq : b' = b
  . subst heq
    constructor
    . simp [hb]
    . intro e'' he''
      rw [set_self] at he''
      cases he''
      exact ⟨e, hb, horigin⟩
    . simp
  . exact .of_eq (set_of_ne _ _ heq)

theorem free (h : Heap) (b : Nat) : h.Keeps (h.free b) := by
  intro b'
  by_cases heq : b' = b
  . rw [heq]
    exact .of_none (free_self h b)
  . exact .of_eq (free_of_ne _ heq)

theorem setTail (h : Heap) (p : Ptr) (t : CxaTail) : h.Keeps (h.setTail p t) := by
  unfold Heap.setTail
  split
  . split
    . next e he => exact set he ⟨rfl, rfl⟩
    . next header beyond hobj =>
      intro b'
      by_cases heq : b' = p.block
      . rw [heq]
        constructor <;> simp +contextual [hobj]
      . exact .of_eq (set_of_ne _ _ heq)
    . exact refl h
  . exact refl h

end Keeps

theorem of_cxa (hcxa : h.cxa p = .ok e) : p.off = 0 ∧ h p.block = some (.cxx e) := by
  unfold cxa at hcxa
  split at hcxa
  . next hoff =>
    split at hcxa
    . next e' he =>
      cases hcxa
      exact ⟨hoff, he⟩
    . contradiction
  . contradiction

end Heap

variable {w w' : Process} {ex e p : Ptr} {i depth : Nat}

theorem setCxa_keeps {e e' : CxaException} (hcxa : w.heap.cxa ex = .ok e) (horigin : e.SameOrigin e')
    : w.heap.Keeps (w.setCxa ex e').heap := by
  exact .set (Heap.of_cxa hcxa).2 horigin

theorem freeException_keeps (hfree : freeException ex w = .ok w') : w.heap.Keeps w'.heap := by
  unfold freeException at hfree
  rcases Res.bind_eq_ok.mp hfree with ⟨_, _, hfree⟩
  cases hfree
  exact .free w.heap ex.block

theorem cxaFreeException_keeps (hfree : cxaFreeException p w = .ok w')
    : w.heap.Keeps w'.heap := by
  unfold cxaFreeException at hfree
  rcases Res.bind_eq_ok.mp hfree with ⟨e, _, hfree⟩
  split at hfree
  . have hkeeps : (w.record _).heap.Keeps w'.heap := freeException_keeps hfree
    exact hkeeps
  . exact freeException_keeps hfree

theorem addReference_keeps (hadd : addReference ex w = .ok w') : w.heap.Keeps w'.heap := by
  unfold addReference at hadd
  rcases Res.bind_eq_ok.mp hadd with ⟨e, he, hadd⟩
  split at hadd
  . cases hadd
    exact setCxa_keeps he ⟨rfl, rfl⟩
  . contradiction

theorem subReference_keeps {n : Nat} (hsub : subReference ex w = .ok (n, w'))
    : w.heap.Keeps w'.heap := by
  unfold subReference at hsub
  rcases Res.bind_eq_ok.mp hsub with ⟨e, he, hsub⟩
  split at hsub
  . cases hsub
    exact setCxa_keeps he ⟨rfl, rfl⟩
  . contradiction

theorem releaseException_keeps (depth : Nat) (p : Ptr) (w w' : Process)
    : (releaseException depth p w = .ok w' → w.heap.Keeps w'.heap)
      ∧ (cxaFreeDependentException depth p w = .ok w' → w.heap.Keeps w'.heap) := by
  induction depth generalizing p w w' with
  | zero => exact ⟨nofun, nofun⟩
  | succ depth ih =>
    constructor
    . intro hrelease
      unfold releaseException at hrelease
      rcases Res.bind_eq_ok.mp hrelease with ⟨t, _, hrelease⟩
      split at hrelease
      . have hkeeps : (w.record _).heap.Keeps w'.heap := (ih _ _ _).2 hrelease
        exact hkeeps
      . rcases Res.bind_eq_ok.mp hrelease with ⟨⟨n, w₁⟩, hsub, hrelease⟩
        have hkeeps : (w.record _).heap.Keeps w₁.heap := subReference_keeps hsub
        dsimp only at hrelease
        split at hrelease
        . have hfree : w₁.heap.Keeps w'.heap := cxaFreeException_keeps hrelease
          exact hkeeps.trans hfree
        . cases hrelease
          exact hkeeps
    . intro hfree
      unfold cxaFreeDependentException at hfree
      rcases Res.bind_eq_ok.mp hfree with ⟨e, _, hfree⟩
      split at hfree
      . contradiction
      . split at hfree
        . rcases Res.bind_eq_ok.mp hfree with ⟨real, _, hfree⟩
          rcases Res.bind_eq_ok.mp hfree with ⟨w₁, hrelease, hfree⟩
          exact ((ih _ _ _).1 hrelease).trans (freeException_keeps hfree)
        . exact freeException_keeps hfree

theorem callExceptionCleanup_keeps (hcall : callExceptionCleanup e w = .ok w')
    : w.heap.Keeps w'.heap := by
  unfold callExceptionCleanup at hcall
  rcases Res.bind_eq_ok.mp hcall with ⟨header, _, hcall⟩
  split at hcall
  . cases hcall
    exact .refl _
  . exact cxaFreeException_keeps hcall
  . exact (releaseException_keeps ..).2 hcall
  . cases hcall
    exact .free w.heap e.block

theorem throwException_keeps {raised : Ptr} (hthrow : throwException i ex w = .ok (raised, w'))
    : w.heap.Keeps w'.heap := by
  unfold throwException at hthrow
  rcases Res.bind_eq_ok.mp hthrow with ⟨t, _, hthrow⟩
  cases hthrow
  exact .setTail w.heap ex _

theorem cxaIncrementExceptionRefcount_keeps {thrown : Option Ptr}
    (hincrement : cxaIncrementExceptionRefcount thrown w = .ok w') : w.heap.Keeps w'.heap := by
  unfold cxaIncrementExceptionRefcount at hincrement
  split at hincrement
  . cases hincrement
    exact .refl _
  . rcases Res.bind_eq_ok.mp hincrement with ⟨e, _, hincrement⟩
    split at hincrement
    . cases hincrement
      exact .refl _
    . exact addReference_keeps hincrement

theorem cxaDecrementExceptionRefcount_keeps {thrown : Option Ptr}
    (hdecrement : cxaDecrementExceptionRefcount thrown w = .ok w') : w.heap.Keeps w'.heap := by
  unfold cxaDecrementExceptionRefcount at hdecrement
  split at hdecrement
  . cases hdecrement
    exact .refl _
  . exact (releaseException_keeps ..).1 hdecrement

theorem cxaCurrentPrimaryException_keeps {thrown : Option Ptr}
    (hcurrent : cxaCurrentPrimaryException i w = .ok (thrown, w')) : w.heap.Keeps w'.heap := by
  unfold cxaCurrentPrimaryException at hcurrent
  split at hcurrent
  . cases hcurrent
    exact .refl _
  . rcases Res.bind_eq_ok.mp hcurrent with ⟨real, _, hcurrent⟩
    rcases Res.bind_eq_ok.mp hcurrent with ⟨w₁, hadd, hcurrent⟩
    cases hcurrent
    exact addReference_keeps hadd

theorem cxaRethrow_keeps {raised : Ptr} (hrethrow : cxaRethrow i w = .ok (raised, w'))
    : w.heap.Keeps w'.heap := by
  unfold cxaRethrow at hrethrow
  dsimp only at hrethrow
  split at hrethrow
  . contradiction
  . split at hrethrow
    . cases hrethrow
      exact .refl _
    . rcases Res.bind_eq_ok.mp hrethrow with ⟨t, _, hrethrow⟩
      split at hrethrow
      . cases hrethrow
        exact .setTail w.heap _ _
      . contradiction

theorem cxaBeginCatch_keeps {img : Image} {a : Addr} (hcatch : cxaBeginCatch img i p w = .ok (a, w'))
    : w.heap.Keeps w'.heap := by
  unfold cxaBeginCatch at hcatch
  rcases Res.bind_eq_ok.mp hcatch with ⟨header, _, hcatch⟩
  split at hcatch
  . rcases Res.bind_eq_ok.mp hcatch with ⟨t, _, hcatch⟩
    cases hcatch
    exact .setTail w.heap _ _
  . split at hcatch
    . contradiction
    . cases hcatch
      exact .refl _

theorem cxaCallUnexpected_keeps {img : Image} {call : UnexpectedCall}
    (hcall : cxaCallUnexpected img i p w = .ok (call, w')) : w.heap.Keeps w'.heap := by
  unfold cxaCallUnexpected at hcall
  rcases Res.bind_eq_ok.mp hcall with ⟨⟨a, w₁⟩, hcatch, hcall⟩
  rcases Res.bind_eq_ok.mp hcall with ⟨header, _, hcall⟩
  have hkeeps : w.heap.Keeps w₁.heap := cxaBeginCatch_keeps hcatch
  split at hcall
  . rcases Res.bind_eq_ok.mp hcall with ⟨t, _, hcall⟩
    cases hcall
    exact hkeeps
  . cases hcall
    exact hkeeps

theorem cxaEndCatch_keeps (hend : cxaEndCatch i w = .ok w') : w.heap.Keeps w'.heap := by
  unfold cxaEndCatch endCatchForeign at hend
  dsimp only at hend
  split at hend
  . contradiction
  . split at hend
    . split at hend
      . rcases Res.bind_eq_ok.mp hend with ⟨w₁, hcall, hend⟩
        have hkeeps : w.heap.Keeps w₁.heap := callExceptionCleanup_keeps hcall
        cases hend
        exact hkeeps
      . cases hend
        exact .refl _
    . rcases Res.bind_eq_ok.mp hend with ⟨t, _, hend⟩
      generalize (if t.handlerCount < 0 then t.handlerCount + 1 else t.handlerCount - 1) = n at hend
      have hkeeps (p : Ptr) (t : CxaTail) : w.heap.Keeps (w.setTail p t).heap := .setTail w.heap p t
      split at hend
      . split at hend
        . have hrelease := (releaseException_keeps ..).1 hend
          exact (hkeeps _ _).trans hrelease
        . cases hend
          exact hkeeps _ _
      . cases hend
        exact hkeeps _ _

namespace Heap

-- the exception `b` is new or has been initialised again
def KeepsBut (b : Nat) (h h' : Heap) : Prop :=
  ∀ b', b' ≠ b → KeptAt h h' b'

variable {h h' h'' : Heap} {b : Nat}

namespace KeepsBut

theorem of_keeps (hkeeps : h.Keeps h') (b : Nat) : KeepsBut b h h' := by
  intro b' _
  exact hkeeps b'

theorem set (h : Heap) (b : Nat) (o : Obj) : KeepsBut b h (h.set b o) := by
  intro b' hne
  exact .of_eq (set_of_ne _ _ hne)

theorem trans (hkeeps : KeepsBut b h h') (hkeeps' : KeepsBut b h' h'') : KeepsBut b h h'' := by
  intro b' hne
  exact (hkeeps b' hne).trans (hkeeps' b' hne)

end KeepsBut

structure Creates (b : Nat) (tinfo dest : Addr) (h h' : Heap) : Prop where
  others : KeepsBut b h h'
  created : ∀ e, h' b = some (.cxx e) → e.exceptionType = tinfo ∧ e.exceptionDestructor = dest

namespace Creates

variable {tinfo dest : Addr}

theorem set (hothers : KeepsBut b h h') (e : CxaException)
    : Creates b e.exceptionType e.exceptionDestructor h (h'.set b (.cxx e)) := by
  constructor
  . exact hothers.trans (.set h' b _)
  . intro e' he'
    rw [set_self] at he'
    cases he'
    exact ⟨rfl, rfl⟩

theorem keeps (hcreates : Creates b tinfo dest h h') (hkeeps : h'.Keeps h'')
    : Creates b tinfo dest h h'' := by
  constructor
  . exact hcreates.others.trans (.of_keeps hkeeps b)
  . intro e' he'
    rcases (hkeeps b).cxx e' he' with ⟨e, he, htype, hdest⟩
    rw [htype, hdest]
    exact hcreates.created e he

end Creates

end Heap

variable {b : Nat} {tinfo dest : Addr} {object : Ptr}

theorem cxaAllocateException_cases (halloc : cxaAllocateException b w = .ok (object, w'))
    : object = ⟨b, 128⟩ ∧ w.heap b = none
      ∧ w' = { w with heap := w.heap.set b (.cxx .zero) } := by
  unfold cxaAllocateException at halloc
  split at halloc
  . next hb =>
    cases halloc
    exact ⟨rfl, hb, rfl⟩
  . contradiction

theorem cxaInitPrimaryException_creates {h : Heap} (hothers : Heap.KeepsBut b h w.heap)
    (hinit : cxaInitPrimaryException ⟨b, 128⟩ tinfo dest w = .ok (ex, w'))
    : ex = ⟨b, 0⟩ ∧ Heap.Creates b tinfo dest h w'.heap := by
  unfold cxaInitPrimaryException at hinit
  rcases Res.bind_eq_ok.mp hinit with ⟨e, _, hinit⟩
  cases hinit
  refine ⟨rfl, ?_⟩
  exact .set (b := b) hothers {
    e with
    countWord := .referenceCount 0
    exceptionType := tinfo
    exceptionDestructor := dest
    unwindHeader := ⟨exceptionClass, some .exceptionCleanup⟩
  }

theorem cxaThrow_creates {h : Heap} (hothers : Heap.KeepsBut b h w.heap)
    (hthrow : cxaThrow i ⟨b, 128⟩ tinfo dest w = .ok (p, w'))
    : Heap.Creates b tinfo dest h w'.heap := by
  unfold cxaThrow at hthrow
  rcases Res.bind_eq_ok.mp hthrow with ⟨⟨ex, w₁⟩, hinit, hthrow⟩
  rcases Res.bind_eq_ok.mp hthrow with ⟨e, he, hthrow⟩
  rcases cxaInitPrimaryException_creates hothers hinit with ⟨rfl, hcreates⟩
  have hset : w₁.heap.Keeps (w₁.setCxa ⟨b, 0⟩ { e with countWord := .referenceCount 1 }).heap :=
    setCxa_keeps he ⟨rfl, rfl⟩
  exact (hcreates.keeps hset).keeps (throwException_keeps hthrow)

-- the type of a dependent exception is the word that `__cxa_rethrow_primary_exception` reads
theorem cxaRethrowPrimaryException_creates {img : Image} {d n : Nat} {raised : Option Ptr}
    {e : CxaException} (hb : w.heap b = some (.cxx e)) (hkind : e.kind = .primary n)
    (hrethrow : cxaRethrowPrimaryException img i d (some ⟨b, 128⟩) w = .ok (raised, w'))
    : Heap.Creates d ((e.nextException.map img.addr).getD 0) 0 w.heap w'.heap := by
  unfold cxaRethrowPrimaryException at hrethrow
  rcases Res.bind_eq_ok.mp hrethrow with ⟨⟨object, w₀⟩, halloc, hrethrow⟩
  rcases cxaAllocateException_cases halloc with ⟨rfl, hd, rfl⟩
  have hne : b ≠ d := by
    rintro rfl
    rw [hb] at hd
    contradiction
  rcases Res.bind_eq_ok.mp hrethrow with ⟨e₀, he₀, hrethrow⟩
  have hzero : e₀ = .zero := by
    have hset : w.heap.set d (.cxx .zero) d = some (.cxx e₀) := (Heap.of_cxa he₀).2
    rw [Heap.set_self] at hset
    cases hset
    rfl
  subst hzero
  rcases Res.bind_eq_ok.mp hrethrow with ⟨w₂, hincrement, hrethrow⟩
  rcases Res.bind_eq_ok.mp hrethrow with ⟨type, htype, hrethrow⟩
  rcases Res.bind_eq_ok.mp hrethrow with ⟨⟨p, w₃⟩, hthrow, hrethrow⟩
  cases hrethrow
  generalize hw₁ : Process.setCxa _ _ _ = w₁ at hincrement
  have hothers₁ : Heap.KeepsBut d w.heap w₁.heap := by
    rw [← hw₁]
    exact (Heap.KeepsBut.set w.heap d _).trans (.set _ d _)
  have hb₁ : w₁.heap b = some (.cxx e) := by
    rw [← hw₁]
    exact (Heap.set_of_ne _ _ hne).trans ((Heap.set_of_ne _ _ hne).trans hb)
  have hkind₁ : w₁.heap.kind b = some (.primary n) := by
    rw [Heap.kind_of_cxx hb₁, hkind]
  have hothers₂ := hothers₁.trans (.of_keeps (cxaIncrementExceptionRefcount_keeps hincrement) d)
  have htype' : type = (e.nextException.map img.addr).getD 0 := by
    rcases cxaIncrementExceptionRefcount_view hkind₁ with ⟨w₂', hincrement', hview⟩
    rw [hincrement, Except.ok.injEq] at hincrement'
    subst hincrement'
    have hlink : w₂.heap.link b = some (.cxx e.handlerCount e.nextException) := by
      have hsame : w₂.heap.link = w₁.heap.link := congrArg View.link hview
      rw [hsame, Heap.link_of_cxx hb₁]
    rcases Heap.cxx_of_link hlink with ⟨e₂, he₂, _, hnext⟩
    rw [exceptionTypeAt_thrownObject img he₂, hnext, Except.ok.injEq] at htype
    exact htype.symm
  rw [← htype']
  exact (Heap.Creates.set hothers₂ _).keeps (throwException_keeps hthrow)

end LibCxxRt
