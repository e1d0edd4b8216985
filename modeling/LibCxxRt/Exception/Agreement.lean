import LibCxxRt.Exception.Decoded
import LibCxxRt.Exception.Lemmas.Adjusted
import LibCxxRt.Exception.TwoPhase

/-!
This module determines when the two phases agree about a C++ exception: they do unless the search phase
comes to a frame without a record for its instruction pointer and finds one in what follows the table.
-/

namespace LibCxxRt

-- no frame before `f` stops the search
def Searched (img : Image) (fuel : Nat) (h : Heap) (real : Option Ptr) (fs : List DecodedFrame)
    (f : DecodedFrame) : Prop :=
  ∃ pre post, fs = pre ++ f :: post ∧ ∀ g ∈ pre, ¬ g.Stops img fuel h real

/--
The second phase at the frame `f` at which the search phase has stopped after it has passed over the
frames `passed`. Without a record it calls `std::terminate`. With a handler it enters the landing pad
with the selector that the search phase has found, afterwards `catchTemp` is 0 again, so the exception
can be raised again.
-/
structure DeliversFound (img : Image) (fuel : Nat) (code : LandingPadCode) (cls : BitVec 64)
    (obj p : Ptr) (real : Option Ptr) (h : Heap) (passed : List UnwindContext) (f : DecodedFrame)
    (h₁ : Heap) : Prop where
  terminates : f.LacksRecord
    → deliver img fuel code cls obj passed f.context h₁ = .error .terminate
  enters : ∀ action selector, f.Catches img fuel h real action selector
    → ∃ d, deliver img fuel code cls obj passed f.context h₁ = .ok d
        ∧ d.handler = (.installContext, installContext f.context obj selector action.landingPad)
        ∧ ∃ t, Raised d.heap obj cls (some p) real t ∧ t.catchTemp = 0

-- the search phase stops at the innermost frame that lacks a record or that has a handler
def PhasesAgree (img : Image) (fuel : Nat) (code : LandingPadCode) (cls : BitVec 64) (obj p : Ptr)
    (real : Option Ptr) (h : Heap) (fs : List DecodedFrame) : Prop :=
  ∃ res h₁, searchPhase img fuel cls obj (fs.map (·.context)) h = .ok (res, h₁) ∧
    match res with
    | .fatalPhase1Error => False
    | .endOfStack =>
      (∀ f ∈ fs, ¬ f.Stops img fuel h real)
        ∧ ∃ t, Raised h₁ obj cls (some p) real t ∧ t.catchTemp = 0
    | .handlerFound passed handler =>
      ∃ pre f post, fs = pre ++ f :: post ∧ passed = pre.map (·.context) ∧ handler = f.context
        ∧ (∀ g ∈ pre, ¬ g.Stops img fuel h real) ∧ f.Stops img fuel h real
        ∧ DeliversFound img fuel code cls obj p real h passed f h₁

/--
The record that is read behind the table of a frame covers the instruction pointer, its landing pad is
null and its chain of actions catches the exception. Then the search phase stops at the frame as it
would without the record.
-/
def DecodedFrame.CatchesBehind (img : Image) (fuel : Nat) (h : Heap) (real : Option Ptr)
    (f : DecodedFrame) : Prop :=
  ∃ t r next selector, f.table = some t
    ∧ ReadsRecord img.mem t.lsda.callsiteEncoding t.lsda.actionTable r next
    ∧ r.Covers f.ip ∧ (r.decoded t.lsda).landingPad = 0
    ∧ CatchesAction img fuel h real f.context t.lsda (r.decoded t.lsda) selector

section

variable {img : Image} {fuel : Nat} {code : LandingPadCode} {cls : BitVec 64} {obj p : Ptr}
variable {h : Heap} {real : Option Ptr} {tail : CxaTail}
variable {fs pre post : List DecodedFrame} {f : DecodedFrame} {js jpre : List (FrameView Judged)}

theorem Searched.mem (hf : Searched img fuel h real fs f) : f ∈ fs := by
  rcases hf with ⟨pre, post, heq, _⟩
  rw [heq]
  exact List.mem_append_right _ List.mem_cons_self

namespace DecodedFrame

theorem lacksCallsite_iff {m : Mem} (hstored : f.Stored m) (hread : f.ReadsBack)
    (hends : f.EndsScan m) : LacksCallsite m f.context ↔ f.LacksRecord := by
  constructor
  . rintro ⟨hlsda, lsda, action, hparse, hfind⟩
    have hshows := (shows_iff hstored hread hends _).mpr (.noCallsite hlsda hparse hfind)
    cases hshows with
    | noCallsite hlacks => exact hlacks
  . intro hlacks
    have hreads := (shows_iff hstored hread hends _).mp (.noCallsite hlacks)
    cases hreads with
    | noCallsite hlsda hparse hfind => exact ⟨hlsda, _, _, hparse, hfind⟩

theorem lookedUp_of_not_stops (hknown : List.Forall₂ (DecodedFrame.Known img h real fuel) fs js)
    (hread : ∀ f ∈ fs, f.ReadsBack) (hjs : ∀ j ∈ js, j.stops = false)
    : List.Forall₂ (LibCxxRt.Known img h real fuel) (fs.map (·.context)) js := by
  induction hknown with
  | nil => exact .nil
  | cons hf _ ih =>
    rw [List.forall_mem_cons] at hread hjs
    apply List.Forall₂.cons
    . exact (known_iff hf.stored hread.1 (hf.endsScan_of_not_stops hjs.1)).mp hf
    . exact ih hread.2 hjs.2

theorem forall_not_stops_iff (hknown : List.Forall₂ (DecodedFrame.Known img h real fuel) fs js)
    : (∀ f ∈ fs, ¬ f.Stops img fuel h real) ↔ ∀ j ∈ js, j.stops = false := by
  induction hknown with
  | nil => simp
  | cons hf _ ih =>
    rw [List.forall_mem_cons, List.forall_mem_cons, ih, hf.stops_iff]
    simp

end DecodedFrame

theorem Searched.of_mem (hnone : ∀ g ∈ pre, ¬ g.Stops img fuel h real) (hf : f ∈ pre)
    (post : List DecodedFrame) : Searched img fuel h real (pre ++ post) f := by
  rcases List.append_of_mem hf with ⟨before, after, heq⟩
  subst heq
  refine ⟨before, after ++ post, by simp, ?_⟩
  intro g hg
  exact hnone g (List.mem_append_left _ hg)

theorem Res.map_eq_ok {α β : Type} {x : Res α} {g : α → β} {b : β}
    : x.map g = .ok b ↔ ∃ a, x = .ok a ∧ g a = b := by
  cases x <;> simp [Except.map]

-- a search that returns has an answer for the first frame that it does not know
theorem exists_answer_of_searchPhase (hr : Raised h obj cls (some p) real tail)
    {passed : List UnwindContext} (hpassed : List.Forall₂ (Known img h real fuel) passed jpre)
    (hnone : ∀ j ∈ jpre, j.stops = false) {context : UnwindContext} {rest : List UnwindContext}
    {res : SearchResult} {h₁ : Heap}
    (hphase : searchPhase img fuel cls obj (passed ++ context :: rest) h = .ok (res, h₁))
    : ∃ adjustedPtr answer, gxxPersonalityV0 img fuel 1 .searchPhase cls obj context
            (h.withTail (some p) { tail with adjustedPtr }) = .ok answer
        ∧ (answer.1 = .continueUnwind
          → ∃ res' : SearchResult,
              res = passed.foldr SearchResult.push (res'.push context)) := by
  rcases searchPhase_append hr rfl hpassed hnone with ⟨adjustedPtr, happend⟩
  rw [happend, Res.map_eq_ok] at hphase
  rcases hphase with ⟨_, hphase, heq⟩
  rw [searchPhase, Res.bind_eq_ok] at hphase
  rcases hphase with ⟨answer, hanswer, hphase⟩
  refine ⟨adjustedPtr, answer, hanswer, ?_⟩
  intro hcontinue
  simp only [hcontinue, Res.bind_eq_ok] at hphase
  rcases hphase with ⟨⟨res', h₂⟩, _, hphase⟩
  cases hphase
  cases heq
  exact ⟨res', rfl⟩

-- the search phase where the lookup finds a record with a chain that catches the exception
theorem searchPhase_of_catches (hr : Raised h obj cls (some p) real tail)
    {passed : List UnwindContext} (hpassed : List.Forall₂ (Known img h real fuel) passed jpre)
    (hnone : ∀ j ∈ jpre, j.stops = false) {context : UnwindContext} {lsda : DwarfEhLsda}
    {action : DwarfEhAction} {selector : BitVec 64} (hlsda : context.languageSpecificData ≠ 0)
    (hparse : parseLsda img.mem context context.languageSpecificData = .ok lsda)
    (hfind : dwarfEhFindCallsite img.mem context lsda = .ok (true, action))
    (hcatches : CatchesAction img fuel h real context lsda action selector)
    (rest : List UnwindContext)
    : ∃ h₁ tail₁, searchPhase img fuel cls obj (passed ++ context :: rest) h
          = .ok (.handlerFound passed context, h₁)
        ∧ Raised h₁ obj cls (some p) real tail₁ ∧ h.typeOf real = h₁.typeOf real
        ∧ tail₁.catchTemp = action.landingPad := by
  rcases searchPhase_append hr rfl hpassed hnone with ⟨adjustedPtr, happend⟩
  have hr₁ := hr.withTail { tail with adjustedPtr } rfl
  have htype₁ : h.typeOf real = (h.withTail (some p) { tail with adjustedPtr }).typeOf real := by
    rw [Heap.typeOf_withTail]
  rcases hcatches 0 with ⟨_, hcheck⟩
  rcases checkActionRecord_congr htype₁ hcheck adjustedPtr with ⟨adjustedPtr', hcheck₁⟩
  have hsearch := gxxPersonalityV0_search_found hr₁ .searchPhase (by decide) hlsda hparse hfind
    hcheck₁
  simp only [↓reduceIte] at hsearch
  refine ⟨_, {
      tail with
      handlerSwitchValue := selector.setWidth 32
      actionRecord := action.actionRecord
      languageSpecificData := context.languageSpecificData
      catchTemp := action.landingPad
      adjustedPtr := adjustedPtr'
    }, ?_, hr₁.withTail _ rfl, ?_, rfl⟩
  . rw [happend, searchPhase, hsearch]
    simp only [Res.ok_bind, Res.pure_eq_ok, Except.map, SearchResult.foldr_push_handlerFound,
      List.append_nil]
  . rw [Heap.typeOf_withTail, htype₁]

theorem mem_of_append_eq_append {α : Type} {a : α} {before after before' after' : List α}
    (heq : before ++ a :: after = before' ++ after') (hlt : before.length < before'.length)
    : a ∈ before' := by
  rcases List.append_eq_append_iff.mp heq with ⟨as, hbefore', hafter⟩ | ⟨as, hbefore, _⟩
  . cases as with
    | nil =>
      rw [hbefore', List.append_nil] at hlt
      exact absurd hlt (Nat.lt_irrefl _)
    | cons b bs =>
      rw [List.cons_append, List.cons.injEq] at hafter
      rw [hbefore', hafter.1]
      exact List.mem_append_right _ List.mem_cons_self
  . rw [hbefore, List.length_append] at hlt
    omega

namespace PhasesAgree

theorem of_endsScan (hcode : code.Spares obj cls (some p) real)
    (hr : Raised h obj cls (some p) real tail) (htemp : tail.catchTemp = 0)
    (hpre : List.Forall₂ (DecodedFrame.Known img h real fuel) pre jpre)
    (hnone : ∀ j ∈ jpre, j.stops = false) (hread : ∀ g ∈ pre, g.ReadsBack)
    {j : FrameView Judged} (hf : f.Known img h real fuel j) (hpads : j.HasLandingPads)
    (hj : j.stops) (hfread : f.ReadsBack) (hends : f.EndsScan img.mem)
    : PhasesAgree img fuel code cls obj p real h (pre ++ f :: post) := by
  have hpassed := DecodedFrame.lookedUp_of_not_stops hpre hread hnone
  have hlooked := (DecodedFrame.known_iff hf.stored hfread hends).mp hf
  rcases searchPhase_of_stops hr rfl hpassed hnone hlooked hj (post.map (·.context))
    with ⟨adjustedPtr, hphase⟩
  rw [← List.map_cons, ← List.map_append] at hphase
  refine ⟨_, _, hphase, pre, f, post, rfl, rfl, rfl,
    (DecodedFrame.forall_not_stops_iff hpre).mpr hnone, hf.stops_iff.mpr hj, ?_, ?_⟩
  . intro hlacks
    rw [hf.lacksRecord_iff] at hlacks
    subst hlacks
    exact deliver_noCallsite hcode hr htemp rfl hpassed hlooked adjustedPtr
  . intro action selector hcatches
    rw [hf.catches_iff] at hcatches
    rcases hcatches with ⟨chain, heq, hcatch, hselector⟩
    subst heq hselector
    rcases deliver_site hcode hr rfl hpassed hlooked hpads hcatch adjustedPtr
      with ⟨h₂, t₂, hdeliver, hr₂, _, hcache⟩
    simp only [CxaTail.cache, Prod.mk.injEq] at hcache
    exact ⟨_, hdeliver, rfl, t₂, hr₂, hcache.2.1⟩

-- the search phase caches the null landing pad of the record behind the table
theorem of_catchesBehind (hcode : code.Spares obj cls (some p) real)
    (hr : Raised h obj cls (some p) real tail)
    (hpre : List.Forall₂ (DecodedFrame.Known img h real fuel) pre jpre)
    (hnone : ∀ j ∈ jpre, j.stops = false) (hread : ∀ g ∈ pre, g.ReadsBack)
    (hstored : f.Stored img.mem) (hfread : f.ReadsBack) (hends : ¬ f.EndsScan img.mem)
    (hbehind : f.CatchesBehind img fuel h real)
    : PhasesAgree img fuel code cls obj p real h (pre ++ f :: post) := by
  have hpassed := DecodedFrame.lookedUp_of_not_stops hpre hread hnone
  rcases f.exists_of_not_endsScan hends with ⟨t, htable, hlacks, hends⟩
  rcases hbehind with ⟨t', r, next, selector, htable', hreads, _, hpad, hcatches⟩
  rw [htable, Option.some.injEq] at htable'
  subst htable'
  have hstored := hstored.of_table htable
  have hfind := (hstored.find_of_behind rfl (hfread t htable) hlacks hends hreads).2
  rcases searchPhase_of_catches hr hpassed hnone hstored.languageSpecificData hstored.parse hfind
    hcatches (post.map (·.context)) with ⟨h₁, tail₁, hphase, hr₁, htype₁, htemp₁⟩
  rw [← List.map_cons, ← List.map_append] at hphase
  have hlacks : f.LacksRecord := ⟨t, htable, hlacks⟩
  refine ⟨_, _, hphase, pre, f, post, rfl, rfl, rfl,
    (DecodedFrame.forall_not_stops_iff hpre).mpr hnone, .inl hlacks, ?_, ?_⟩
  . intro _
    exact deliver_eq_terminate hcode hr₁ htype₁ hpassed hstored.languageSpecificData
      (htemp₁.trans hpad)
  . rintro action selector ⟨t', r', htable', hr', hcovers', _⟩
    exact absurd hlacks (DecodedFrame.not_lacksRecord_of_covers htable' hr' hcovers')

-- what two searches that stop at a frame have found is the same
theorem deliversFound {h₁ : Heap}
    (hagree : PhasesAgree img fuel code cls obj p real h (pre ++ f :: post))
    (hphase : searchPhase img fuel cls obj ((pre ++ f :: post).map (·.context)) h
      = .ok (.handlerFound (pre.map (·.context)) f.context, h₁))
    : DeliversFound img fuel code cls obj p real h (pre.map (·.context)) f h₁ := by
  rcases hagree with ⟨res, h₁', hphase', hres⟩
  rw [hphase, Except.ok.injEq, Prod.mk.injEq] at hphase'
  rcases hphase' with ⟨hres', hheap⟩
  subst hres' hheap
  rcases hres with ⟨pre', f', post', heq, hpassed, _, _, _, hdelivers⟩
  have hlength : pre.length = pre'.length := by
    simpa using congrArg List.length hpassed
  rcases List.append_inj heq hlength with ⟨_, hcons⟩
  rw [List.cons.injEq] at hcons
  rw [hcons.1]
  exact hdelivers

-- a search that stops at a frame does not pass over it
theorem not_passed (hagree : PhasesAgree img fuel code cls obj p real h (pre ++ f :: post))
    (hstops : f.Stops img fuel h real) {res : SearchResult} {h₁ : Heap}
    (hphase : searchPhase img fuel cls obj ((pre ++ f :: post).map (·.context)) h = .ok (res, h₁))
    : ¬ ∃ res' : SearchResult,
        res = (pre.map (·.context)).foldr SearchResult.push (res'.push f.context) := by
  rintro ⟨res', hpush⟩
  rcases hagree with ⟨_, _, hphase', hres⟩
  rw [hphase, Except.ok.injEq, Prod.mk.injEq] at hphase'
  rcases hphase' with ⟨hres', _⟩
  rw [hpush] at hres'
  cases res' with
  | fatalPhase1Error =>
    rw [SearchResult.push, SearchResult.foldr_push_fatalPhase1Error] at hres'
    subst hres'
    exact hres
  | endOfStack =>
    rw [SearchResult.push, SearchResult.foldr_push_endOfStack] at hres'
    subst hres'
    exact hres.1 f (by simp) hstops
  | handlerFound passed handler =>
    rw [SearchResult.push, SearchResult.foldr_push_handlerFound] at hres'
    subst hres'
    rcases hres with ⟨pre', f', post', heq, hpassed, _, hnone, _⟩
    have hlength := congrArg List.length hpassed
    simp only [List.length_append, List.length_map, List.length_cons] at hlength
    exact hnone f (mem_of_append_eq_append heq (by omega)) hstops

theorem catchesBehind (hcode : code.Spares obj cls (some p) real)
    (hr : Raised h obj cls (some p) real tail)
    (hpre : List.Forall₂ (DecodedFrame.Known img h real fuel) pre jpre)
    (hnone : ∀ j ∈ jpre, j.stops = false) (hread : ∀ g ∈ pre, g.ReadsBack)
    (hstored : f.Stored img.mem) (hfread : f.ReadsBack) (hends : ¬ f.EndsScan img.mem)
    (hagree : PhasesAgree img fuel code cls obj p real h (pre ++ f :: post))
    : f.CatchesBehind img fuel h real := by
  have hpassed := DecodedFrame.lookedUp_of_not_stops hpre hread hnone
  rcases f.exists_of_not_endsScan hends with ⟨t, htable, hlacks, hends⟩
  have hstored := hstored.of_table htable
  have hstops : f.Stops img fuel h real := .inl ⟨t, htable, hlacks⟩
  -- the search phase returns, so it has read a record behind the table and walked its chain
  have hreturns := hagree
  rcases hreturns with ⟨res, h₁, hphase, _⟩
  have hphase' := hphase
  rw [List.map_append, List.map_cons] at hphase'
  rcases exists_answer_of_searchPhase hr hpassed hnone hphase' with
    ⟨adjustedPtr, answer, hanswer, hcontinue⟩
  have hr₁ := hr.withTail { tail with adjustedPtr } rfl
  rcases exists_find_of_search hr₁ (by decide) hstored.languageSpecificData hstored.parse hanswer
    with ⟨found, action, hfind, hcheck⟩
  rcases hstored.exists_behind rfl (hfread t htable) hlacks hends hfind with ⟨r, next, hreads⟩
  rcases hstored.find_of_behind rfl (hfread t htable) hlacks hends hreads with ⟨hcovers, hfind'⟩
  rw [hfind', Except.ok.injEq, Prod.mk.injEq] at hfind
  rcases hfind with ⟨hfound, haction⟩
  subst hfound haction
  rcases hcheck rfl with ⟨handler, selector, adjustedPtr', hcheck⟩
  by_cases hcatch : handler = .handlerCatch
  . subst hcatch
    have hcatches : CatchesAction img fuel h real f.context t.lsda (r.decoded t.lsda) selector :=
      checkActionRecord_congr (Heap.typeOf_withTail ..) hcheck
    rcases searchPhase_of_catches hr hpassed hnone hstored.languageSpecificData hstored.parse hfind'
      hcatches (post.map (·.context)) with ⟨h₂, tail₂, hphase₂, hr₂, htype₂, htemp₂⟩
    rw [← List.map_cons, ← List.map_append] at hphase₂
    refine ⟨t, r, next, selector, htable, hreads, hcovers, ?_, hcatches⟩
    by_contra hpad
    have hterminate := (hagree.deliversFound hphase₂).terminates ⟨t, htable, hlacks⟩
    rcases deliver_eq_ok hcode hr₂ htype₂ hpassed hstored.languageSpecificData
      (by rwa [htemp₂]) with ⟨_, _, hdeliver, _⟩
    rw [hdeliver] at hterminate
    contradiction
  . rw [gxxPersonalityV0_search_found hr₁ .searchPhase (by decide) hstored.languageSpecificData
      hstored.parse hfind' hcheck, if_neg hcatch] at hanswer
    cases hanswer
    exact absurd (hcontinue rfl) (hagree.not_passed hstops hphase)

end PhasesAgree

/--
The two phases agree about a C++ exception exactly if at every frame that the search comes to and that
lacks a record the scan of its table ends, or the record that is found behind the table makes the search
stop there as well.
-/
theorem phasesAgree_iff (hcode : code.Spares obj cls (some p) real)
    (hr : Raised h obj cls (some p) real tail) (htemp : tail.catchTemp = 0)
    (hfs : ∀ f ∈ fs, f.WellFormed img h real fuel)
    (hread : ∀ f, Searched img fuel h real fs f → f.ReadsBack)
    : PhasesAgree img fuel code cls obj p real h fs
        ↔
      ∀ f, Searched img fuel h real fs f
        → f.EndsScan img.mem ∨ f.CatchesBehind img fuel h real := by
  constructor
  . rintro hagree f ⟨pre, post, heq, hnone⟩
    subst heq
    have hfread : f.ReadsBack := hread f ⟨pre, post, rfl, hnone⟩
    have hpread : ∀ g ∈ pre, g.ReadsBack := fun g hg => hread g (.of_mem hnone hg _)
    rw [List.forall_mem_append, List.forall_mem_cons] at hfs
    rcases hfs with ⟨hpre, ⟨j, hf, _⟩, _⟩
    rcases exists_forall₂_of_forall hpre with ⟨jpre, hpre, _⟩
    rw [DecodedFrame.forall_not_stops_iff hpre] at hnone
    by_cases hends : f.EndsScan img.mem
    . exact .inl hends
    . exact .inr (hagree.catchesBehind hcode hr hpre hnone hpread hf.stored hfread hends)
  . intro hsearched
    rcases exists_forall₂_of_forall hfs with ⟨js, hknown, hpads⟩
    cases FrameView.exists_first_stop js with
    | inl hnone =>
      have hnstops := (DecodedFrame.forall_not_stops_iff hknown).mpr hnone
      have hfread : ∀ f ∈ fs, f.ReadsBack := by
        intro f hf
        apply hread f
        rw [← List.append_nil fs]
        exact .of_mem hnstops hf []
      have hlooked := DecodedFrame.lookedUp_of_not_stops hknown hfread hnone
      rcases searchPhase_of_not_stops hr rfl hlooked hnone with ⟨adjustedPtr, hphase⟩
      exact ⟨_, _, hphase, hnstops, _, hr.withTail { tail with adjustedPtr } rfl, htemp⟩
    | inr hsome =>
      rcases hsome with ⟨jpre, j, jpost, hjs, hnone, hj⟩
      subst hjs
      rcases exists_split_of_forall₂ hknown with ⟨pre, f, post, heq, hpre, hf⟩
      subst heq
      have hnstops := (DecodedFrame.forall_not_stops_iff hpre).mpr hnone
      have hpread : ∀ g ∈ pre, g.ReadsBack := fun g hg => hread g (.of_mem hnstops hg _)
      have hfsearched : Searched img fuel h real (pre ++ f :: post) f := ⟨pre, post, rfl, hnstops⟩
      have hfread := hread f hfsearched
      by_cases hends : f.EndsScan img.mem
      . exact .of_endsScan hcode hr htemp hpre hnone hpread hf (hpads j (by simp)) hj hfread hends
      . have hbehind := (hsearched f hfsearched).resolve_left hends
        exact .of_catchesBehind hcode hr hpre hnone hpread hf.stored hfread hends hbehind

end

open Sample in
theorem phasesAgree_iff_three
    : PhasesAgree img 4 (fun _ h => h) exceptionClass ⟨0, 96⟩ ⟨0, 0⟩ (some ⟨0, 0⟩) heap
          [frame 5, frame 0x15, frame 0x35]
        ∧ PhasesAgree img 4 (fun _ h => h) exceptionClass ⟨0, 96⟩ ⟨0, 0⟩ (some ⟨0, 0⟩) heap
            [frame 5, frame 0x35, frame 0x15] := by
  have hperm : ∀ f ∈ [frame 5, frame 0x35, frame 0x15], f ∈ [frame 5, frame 0x15, frame 0x35] := by
    intro f hf
    simp only [List.mem_cons] at hf ⊢
    tauto
  have hread : ∀ f ∈ [frame 5, frame 0x15, frame 0x35], f.ReadsBack := by
    simp [readsBack]
  constructor
  . rw [phasesAgree_iff LandingPadCode.spares_id raised rfl (fun f hf => wellFormed hf)
      (fun f hf => hread f hf.mem)]
    intro f hf
    exact .inl (endsScan hf.mem)
  . rw [phasesAgree_iff LandingPadCode.spares_id raised rfl (fun f hf => wellFormed (hperm f hf))
      (fun f hf => hread f (hperm f hf.mem))]
    intro f hf
    exact .inl (endsScan (hperm f hf.mem))

/-!
The LSDA of a function that has one call site, with the chain `catch (int)`. The action table starts
with four bytes that no call site refers to, and that are read as a call site.
-/
namespace Overrun

def mem : Mem := Mem.ofList 0x1000 [
  0xff, 0x00, 0x14, 0x01, 0x04,
  0x10, 0x10, 0x30, 0x05,
  0x30, 0x10, 0x07, 0x00, 0x01, 0x00,
  0x00, 0x20, 0x00, 0x00, 0x00, 0x00, 0x00, 0x00
]

def img : Image :=
  { Sample.img with mem := mem }

def lsda : DwarfEhLsda where
  regionStart := 0x4000
  landingPads := 0x4000
  typeTable := 0x1017
  typeTableEncoding := 0
  callSiteTable := 0x1005
  actionTable := 0x1009
  callsiteEncoding := 1

def table : CallsiteTable where
  lsda := lsda
  records := [⟨0x10, 0x10, 0x30, 5⟩]
  describes := ⟨rfl, by decide, by decide⟩
  storable := fun _ _ => ⟨trivial, trivial, trivial⟩
  inOrder := by simp [Callsite.InOrder]
  room := by decide

def frame (ip : Addr) : DecodedFrame :=
  ⟨Sample.context ip, some table⟩

theorem parse_eq (ip : Addr) : parseLsda mem (Sample.context ip) 0x1000 = .ok lsda := by
  rfl

theorem stored (ip : Addr) : (frame ip).Stored mem := by
  have hlsda : (0x1000 : Addr) ≠ 0 := by decide
  refine ⟨hlsda, parse_eq ip, ?_⟩
  have hholds : ∀ i, i < 4 → mem (0x1005 + BitVec.ofNat 64 i)
      = (writeCallsites 1 table.records)[i]? := by
    decide
  exact hholds

theorem lacksRecord : (frame 0x35).LacksRecord := by
  exact ⟨table, rfl, by unfold CallsiteTable.Lacks; decide⟩

theorem wellFormed_inner : (frame 0x35).WellFormed img Sample.heap (some ⟨0, 0⟩) 4 := by
  exact ⟨.noCallsite, ⟨stored _, _, .noCallsite lacksRecord, .noCallsite, by decide⟩, trivial⟩

theorem wellFormed_outer : (frame 0x15).WellFormed img Sample.heap (some ⟨0, 0⟩) 4 := by
  refine ⟨.site ⟨0x4030, 0x100d⟩ (some [(1, .handle (some 0x10080))]), ⟨stored _,
    .site ⟨0x4030, 0x100d⟩ (some [.handler 1 0x2000]), ?_, ?_, by decide⟩, fun _ => by decide⟩
  . apply DecodedFrame.Shows.site (t := table) (r := ⟨0x10, 0x10, 0x30, 5⟩) rfl (by decide)
      (by decide)
    apply ReadsSite.some (by decide)
    apply ReadsChain.cons (by decide) rfl rfl
    . exact .handler (by decide) rfl
    . exact .nil
  . apply JudgesFrame.site
    apply Option.Rel.some
    exact .cons ⟨rfl, rfl⟩ .nil

end Overrun

/--
The inner frame has no record for its instruction pointer. The search phase passes over it to the
handler of the outer frame, and the second phase enters the inner frame at the address that is read
behind its table.
-/
theorem not_phasesAgree
    : (∀ f ∈ [Overrun.frame 0x35, Overrun.frame 0x15],
          f.WellFormed Overrun.img Sample.heap (some ⟨0, 0⟩) 4)
        ∧ (Overrun.frame 0x35).LacksRecord
        ∧ (∃ h₁ d, searchPhase Overrun.img 4 exceptionClass ⟨0, 96⟩
                [Sample.context 0x35, Sample.context 0x15] Sample.heap
              = .ok (.handlerFound [Sample.context 0x35] (Sample.context 0x15), h₁)
            ∧ deliver Overrun.img 4 (fun _ h => h) exceptionClass ⟨0, 96⟩ [Sample.context 0x35]
                (Sample.context 0x15) h₁ = .ok d
            ∧ d.passed.map (fun a => (a.1, a.2.ip)) = [(.installContext, 0x4007)]
            ∧ d.handler.2.ip = 0x4030)
        ∧ ¬ PhasesAgree Overrun.img 4 (fun _ h => h) exceptionClass ⟨0, 96⟩ ⟨0, 0⟩ (some ⟨0, 0⟩)
            Sample.heap [Overrun.frame 0x35, Overrun.frame 0x15] := by
  have hphase : ∃ h₁ d, searchPhase Overrun.img 4 exceptionClass ⟨0, 96⟩
          [Sample.context 0x35, Sample.context 0x15] Sample.heap
        = .ok (.handlerFound [Sample.context 0x35] (Sample.context 0x15), h₁)
      ∧ deliver Overrun.img 4 (fun _ h => h) exceptionClass ⟨0, 96⟩ [Sample.context 0x35]
          (Sample.context 0x15) h₁ = .ok d
      ∧ d.passed.map (fun a => (a.1, a.2.ip)) = [(.installContext, 0x4007)]
      ∧ d.handler.2.ip = 0x4030 := by
    exact ⟨_, _, rfl, rfl, rfl, rfl⟩
  refine ⟨?_, Overrun.lacksRecord, hphase, ?_⟩
  . simp only [List.forall_mem_cons, List.not_mem_nil, false_implies, implies_true, and_true]
    exact ⟨Overrun.wellFormed_inner, Overrun.wellFormed_outer⟩
  . rintro ⟨res, h₁', hphase', hres⟩
    rcases hphase with ⟨h₁, _, hphase, _⟩
    have hsame := hphase.symm.trans hphase'
    rw [Except.ok.injEq, Prod.mk.injEq] at hsame
    rcases hsame with ⟨hres', _⟩
    subst hres'
    rcases hres with ⟨pre, f, post, heq, hpassed, _, hnone, _⟩
    cases pre with
    | nil => simp at hpassed
    | cons g pre =>
      rw [List.cons_append, List.cons.injEq] at heq
      apply hnone g List.mem_cons_self
      rw [← heq.1]
      exact .inl Overrun.lacksRecord

end LibCxxRt
