import LibCxxRt.Exception.Lemmas.Frame
import LibCxxRt.Exception.Lemmas.Unwinder

/-!
This module contains the results about the frames that an exception propagates through: which of them
the cleanup phase enters, and with which selector.
-/

namespace LibCxxRt

/-!
The LSDA of a function that has three call sites, with the chains `cleanup, throw(int)`,
`catch (int)` and `cleanup, catch (int)`.
-/
namespace Sample

def mem : Mem := Mem.ofList 0x1000 [
  0xff, 0x00, 0x20, 0x01, 0x0c,
  0x00, 0x10, 0x20, 0x01,
  0x10, 0x10, 0x30, 0x05,
  0x20, 0x10, 0x40, 0x07,
  0x00, 0x01, 0x7f, 0x00, 0x01, 0x00, 0x00, 0x01, 0x01, 0x00,
  0x00, 0x20, 0x00, 0x00, 0x00, 0x00, 0x00, 0x00,
  0x01, 0x00
]

def int : TypeInfo := .fundamentalType 0x2000 0x2800

def img : Image where
  mem := mem
  types a := [int].find? fun t => t.self == a
  voidName := 0x2900
  blockBase b := BitVec.ofNat 64 (0x10000 * (b + 1))
  types_self := by
    intro a t ht
    simpa using List.find?_some ht

def context (ip : Addr) : UnwindContext where
  ip := 0x4000 + ip
  regionStart := 0x4000
  languageSpecificData := 0x1000
  textRelBase := 0
  dataRelBase := 0
  gr0 := none
  gr1 := 0

def lsda : DwarfEhLsda where
  regionStart := 0x4000
  landingPads := 0x4000
  typeTable := 0x1023
  typeTableEncoding := 0
  callSiteTable := 0x1005
  actionTable := 0x1011
  callsiteEncoding := 1

-- an `int` that has been thrown
def thrown : CxaException := {
  CxaException.zero with
  exceptionType := 0x2000
  countWord := .referenceCount 1
  unwindHeader := ⟨exceptionClass, some .exceptionCleanup⟩
}

def heap : Heap := Heap.set (fun _ => none) 0 (.cxx thrown)

theorem raised : Raised heap ⟨0, 96⟩ exceptionClass (some ⟨0, 0⟩) (some ⟨0, 0⟩) thrown.toCxaTail := by
  exact .cxx rfl rfl rfl rfl rfl

-- an object of another runtime
def foreignHeap : Heap :=
  Heap.set (fun _ => none) 0 (.foreign ⟨0, none⟩ CxaException.zero.toCxaTail)

theorem foreignRaised : Raised foreignHeap ⟨0, 0⟩ 0 none none CxaException.zero.toCxaTail := by
  exact .foreign rfl rfl rfl (by decide)

theorem parse_eq (ip : Addr) : parseLsda mem (context ip) 0x1000 = .ok lsda := by
  rfl

def cleanupThrowInt : FrameView Judged :=
  .site ⟨0x4020, 0x1011⟩ (some [(0, .cleanup), (-1, .permit 0x10080)])

theorem reads_cleanupThrowInt
    : ReadsFrame mem (context 5)
        (.site ⟨0x4020, 0x1011⟩ (some [.cleanup, .spec (-1) [0x2000]])) := by
  apply ReadsFrame.site (by decide) (parse_eq 5) rfl
  apply ReadsSite.some (by decide)
  apply ReadsChain.cons (by decide) rfl rfl .cleanup
  apply ReadsChain.cons (by decide) rfl rfl
  . apply ReadsClause.spec (by decide)
    apply ReadsSpec.cons rfl (by decide) rfl
    exact .nil rfl
  . exact .nil

theorem known_cleanupThrowInt : Known img heap (some ⟨0, 0⟩) 4 (context 5) cleanupThrowInt := by
  refine ⟨_, reads_cleanupThrowInt, ?_, by decide⟩
  apply JudgesFrame.site
  apply Option.Rel.some
  exact .cons ⟨rfl, rfl⟩ (.cons ⟨rfl, rfl⟩ .nil)

-- an exception specification does not concern a foreign exception
theorem known_cleanupThrowInt_foreign
    : Known img foreignHeap none 4 (context 5)
        (.site ⟨0x4020, 0x1011⟩ (some [(0, .cleanup), (-1, .pass)])) := by
  refine ⟨_, reads_cleanupThrowInt, ?_, by decide⟩
  apply JudgesFrame.site
  apply Option.Rel.some
  exact .cons ⟨rfl, rfl⟩ (.cons ⟨rfl, rfl⟩ .nil)

def catchInt : FrameView Judged :=
  .site ⟨0x4030, 0x1015⟩ (some [(1, .handle (some 0x10080))])

theorem known_catchInt : Known img heap (some ⟨0, 0⟩) 4 (context 0x15) catchInt := by
  refine ⟨.site ⟨0x4030, 0x1015⟩ (some [.handler 1 0x2000]), ?_, ?_, by decide⟩
  . apply ReadsFrame.site (by decide) (parse_eq 0x15) rfl
    apply ReadsSite.some (by decide)
    apply ReadsChain.cons (by decide) rfl rfl
    . exact .handler (by decide) rfl
    . exact .nil
  . apply JudgesFrame.site
    apply Option.Rel.some
    exact .cons ⟨rfl, rfl⟩ .nil

def cleanupCatchInt : FrameView Judged :=
  .site ⟨0x4040, 0x1017⟩ (some [(0, .cleanup), (1, .handle (some 0x10080))])

theorem known_cleanupCatchInt
    : Known img heap (some ⟨0, 0⟩) 4 (context 0x25) cleanupCatchInt := by
  refine ⟨.site ⟨0x4040, 0x1017⟩ (some [.cleanup, .handler 1 0x2000]), ?_, ?_, by decide⟩
  . apply ReadsFrame.site (by decide) (parse_eq 0x25) rfl
    apply ReadsSite.some (by decide)
    apply ReadsChain.cons (by decide) rfl rfl .cleanup
    apply ReadsChain.cons (by decide) rfl rfl
    . exact .handler (by decide) rfl
    . exact .nil
  . apply JudgesFrame.site
    apply Option.Rel.some
    exact .cons ⟨rfl, rfl⟩ (.cons ⟨rfl, rfl⟩ .nil)

-- an address that no call site covers
theorem known_noCallsite : Known img heap (some ⟨0, 0⟩) 4 (context 0x35) .noCallsite := by
  refine ⟨.noCallsite, ?_, .noCallsite, by decide⟩
  exact .noCallsite (by decide) (parse_eq 0x35) rfl

end Sample

section

variable {img : Image} {fuel : Nat} {code : LandingPadCode} {cls : BitVec 64} {obj : Ptr}
variable {h h₀ : Heap} {ex real : Option Ptr} {t : CxaTail}

/--
The cleanup phase enters a frame with the selector 0, unless a satisfied exception specification
comes after the last cleanup of the chain.
-/
theorem gxxPersonalityV0_cleanup_selector (hr : Raised h obj cls ex real t)
    {context : UnwindContext} {j : FrameView Judged} (hknown : Known img h real fuel context j)
    (actions : UnwindAction) (hhandler : actions.has .handlerFrame = false)
    : (∀ context' h', gxxPersonalityV0 img fuel 1 actions cls obj context h
          = .ok (.installContext, context', h') → context'.gr1 = 0)
        ↔
      ¬ (actions.has .searchPhase = false ∧ j.ClobbersSelector) := by
  cases hsearch : actions.has .searchPhase with
  | true =>
    rw [gxxPersonalityV0_search hr actions hsearch hknown]
    simp only [Bool.true_eq_false, false_and, not_false_eq_true, iff_true]
    intro context' h' heq
    simp only [Except.ok.injEq, Prod.mk.injEq] at heq
    rcases heq with ⟨heq, _⟩
    split at heq <;> simp at heq
  | false =>
    have hfilters : ∀ action js, j = .site action (some js) → PermitsHaveFilters js := by
      intro action js heq
      subst heq
      exact hknown.permitsHaveFilters
    have hselector := FrameView.cleanupAnswer_gr1_eq_zero_iff hfilters obj context
    rw [gxxPersonalityV0_cleanup hr actions hsearch hhandler hknown]
    simp only [true_and]
    rw [← hselector]
    constructor
    . intro hzero henter
      apply hzero
      rw [henter]
    . intro hzero context' h' heq
      simp only [Except.ok.injEq, Prod.mk.injEq] at heq
      rcases heq with ⟨henter, hcontext, _⟩
      rw [← hcontext]
      exact hzero henter

theorem gxxPersonalityV0_cleanup_selector_foreign
    : ∃ context' h', gxxPersonalityV0 Sample.img 4 1 .cleanupPhase 0 ⟨0, 0⟩ (Sample.context 5)
          Sample.foreignHeap = .ok (.installContext, context', h')
        ∧ context'.gr1 = 0 := by
  have hselector := (gxxPersonalityV0_cleanup_selector Sample.foreignRaised
    Sample.known_cleanupThrowInt_foreign .cleanupPhase (by decide)).mpr
  rw [gxxPersonalityV0_cleanup Sample.foreignRaised .cleanupPhase (by decide) (by decide)
    Sample.known_cleanupThrowInt_foreign] at hselector ⊢
  refine ⟨_, _, rfl, hselector ?_ _ _ rfl⟩
  have hnone : ∀ j ∈ [((0 : BitVec 32), Verdict.cleanup), (-1, .pass)], ¬ j.2.isPermit := by
    decide
  rintro ⟨_, _, _, pre, j, post, hjs, _, hpermit, _⟩
  apply hnone j _ hpermit
  rw [hjs]
  exact List.mem_append_right _ List.mem_cons_self

theorem gxxPersonalityV0_cleanupThrowInt_selector
    : ∃ context' h', gxxPersonalityV0 Sample.img 4 1 .cleanupPhase exceptionClass ⟨0, 96⟩
        (Sample.context 5) Sample.heap = .ok (.installContext, context', h')
          ∧ context'.gr1 ≠ 0 := by
  rw [gxxPersonalityV0_cleanup Sample.raised .cleanupPhase (by decide) (by decide)
    Sample.known_cleanupThrowInt]
  exact ⟨_, _, rfl, by decide⟩

/--
In a pass over frames every frame with a cleanup is entered exactly if no frame with a cleanup has a
clause that decides.
-/
theorem cleanupPass_enters_cleanups (hcode : code.Spares obj cls ex real)
    (hr : Raised h obj cls ex real t) (actions : UnwindAction)
    (hsearch : actions.has .searchPhase = false) (hhandler : actions.has .handlerFrame = false)
    {fs : List UnwindContext} {js : List (FrameView Judged)}
    (hknown : List.Forall₂ (Known img h real fuel) fs js)
    : ∃ answers h', cleanupPass img fuel code cls obj actions fs h = .ok (answers, h')
        ∧ (List.Forall₂ (fun j a => j.HasCleanup → a.1 = .installContext) js answers
            ↔ ∀ j ∈ js, j.HasCleanup → j.LetsThrough) := by
  rcases cleanupPass_eq hcode hr rfl actions hsearch hhandler hknown
    with ⟨h', t', hpass, _⟩
  refine ⟨_, h', hpass, ?_⟩
  apply FrameView.forall₂_cleanupAnswer_iff
  exact hknown.length_eq

theorem forcedUnwind_enters_cleanups_cleanupThrowInt
    : ∃ answers h', cleanupPass Sample.img 4 (fun _ h => h) exceptionClass ⟨0, 96⟩
          (.cleanupPhase ||| .forceUnwind) [Sample.context 5] Sample.heap = .ok (answers, h')
        ∧ (List.Forall₂ (fun j a => j.HasCleanup → a.1 = .installContext) [Sample.cleanupThrowInt]
            answers ↔ ∀ j ∈ [Sample.cleanupThrowInt], j.HasCleanup → j.LetsThrough) := by
  apply cleanupPass_enters_cleanups LandingPadCode.spares_id Sample.raised
  . decide
  . decide
  . exact .cons Sample.known_cleanupThrowInt .nil

theorem forcedUnwind_skips_cleanupCatchInt
    : Sample.cleanupCatchInt.HasCleanup
        ∧ ∃ context' h', forcedUnwind Sample.img 4 (fun _ h => h) exceptionClass ⟨0, 96⟩
            [Sample.context 0x25] Sample.heap = .ok ([(.continueUnwind, context')], h') := by
  constructor
  . exact ⟨by decide, _, List.mem_cons_self .., rfl⟩
  . unfold forcedUnwind cleanupPass
    rw [gxxPersonalityV0_cleanup Sample.raised _ (by decide) (by decide)
      Sample.known_cleanupCatchInt]
    exact ⟨_, _, rfl⟩

/--
The second phase of an exception that has a handler enters every frame with a cleanup, the search
phase has passed over these frames because none of their clauses decides.
-/
theorem deliver_enters_cleanups (hcode : code.Spares obj cls ex real)
    (hr : Raised h obj cls ex real t) {fs : List UnwindContext} {js : List (FrameView Judged)}
    (hknown : List.Forall₂ (Known img h real fuel) fs js) {passed : List UnwindContext}
    {handler : UnwindContext} {h₁ : Heap}
    (hsearch : searchPhase img fuel cls obj fs h = .ok (.handlerFound passed handler, h₁))
    : ∃ answers h₂, cleanupPass img fuel code cls obj .cleanupPhase passed h₁ = .ok (answers, h₂)
        ∧ List.Forall₂ (fun j a => j.HasCleanup → a.1 = .installContext) (js.take passed.length)
            answers := by
  cases searchPhase_cases hr rfl hknown with
  | inl hnone =>
    rcases hnone with ⟨_, _, hphase⟩
    rw [hphase] at hsearch
    simp at hsearch
  | inr hsome =>
    rcases hsome with ⟨passed', f, rest, jpassed, j, jrest, adjustedPtr, hfs, hjs, hpassed, hf,
      hnone, hj, hphase⟩
    rw [hphase] at hsearch
    simp only [Except.ok.injEq, Prod.mk.injEq, SearchResult.handlerFound.injEq] at hsearch
    rcases hsearch with ⟨⟨hpassed', _⟩, hheap⟩
    subst hpassed' hheap
    have hr₁ := hr.withTail _ (j.unwindHeader_searchTail f { t with adjustedPtr })
    rcases cleanupPass_eq hcode hr₁ (Heap.typeOf_withTail ..).symm .cleanupPhase (by decide)
      (by decide) hpassed with ⟨h₂, t₂, hpass, _⟩
    refine ⟨_, h₂, hpass, ?_⟩
    rw [hjs, hpassed.length_eq, List.take_left]
    apply (FrameView.forall₂_cleanupAnswer_iff hpassed.length_eq obj).mpr
    intro j' hj' _
    exact FrameView.letsThrough_of_not_stops (hnone j' hj')

end

end LibCxxRt
