import LibCxxRt.Exception.Impl.Runtime
import LibCxxRt.Exception.TwoPhase

/-!
This module contains the result about the pointer that a handler gets from `__cxa_begin_catch`.
-/

namespace LibCxxRt

section

variable {img : Image} {fuel : Nat} {code : LandingPadCode} {cls : BitVec 64} {obj : Ptr}
variable {h : Heap} {ex real : Option Ptr} {t : CxaTail}

theorem FrameView.cleanupAdjusted_eq {j : FrameView Judged} (hj : j.stops = false)
    (adjustedPtr : Addr)
    : j.cleanupAdjusted adjustedPtr = j.permitted.getLast?.getD adjustedPtr := by
  have hthrough := letsThrough_of_not_stops hj
  cases j with
  | noLsda => rfl
  | noCallsite => rfl
  | site action chain =>
    unfold cleanupAdjusted permitted
    cases chain with
    | none => simp [resolveSite]
    | some js =>
      dsimp only
      split
      . rfl
      . exact resolve_adjustedPtr_of_not_decides hthrough .handlerNone 0 adjustedPtr

-- the write that survives a pass over frames is the last one
theorem foldl_cleanupAdjusted_eq {js : List (FrameView Judged)}
    (hjs : ∀ j ∈ js, j.stops = false) (adjustedPtr : Addr)
    : js.foldl (fun adjustedPtr j => j.cleanupAdjusted adjustedPtr) adjustedPtr
        =
      (js.flatMap FrameView.permitted).getLast?.getD adjustedPtr := by
  induction js generalizing adjustedPtr with
  | nil => rfl
  | cons j js ih =>
    rw [List.forall_mem_cons] at hjs
    rw [List.foldl_cons, ih hjs.2, FrameView.cleanupAdjusted_eq hjs.1]
    rw [List.flatMap_cons, List.getLast?_append]
    cases (js.flatMap FrameView.permitted).getLast? <;> rfl

theorem Raised.cxaBeginCatch_eq {p : Ptr} {w : Process} (hr : Raised w.heap obj cls (some p) real t)
    (img : Image) (i : Nat)
    : ∃ w', cxaBeginCatch img i obj w = .ok (t.adjustedPtr, w') := by
  have htail := hr.tail
  cases hr with
  | @cxx e real hoff hheader hcls hcxx _ =>
    have hunwind : w.heap.unwindException obj = .ok e.unwindHeader := by
      simp [Heap.unwindException, hoff, hheader]
    unfold cxaBeginCatch
    rw [hunwind]
    simp only [Res.ok_bind, ← hcls, hcxx, ↓reduceIte, htail, Res.pure_eq_ok]
    exact ⟨_, rfl⟩

/--
A handler gets the pointer that was computed for it exactly if no frame on the way changes it, or the
last satisfied exception specification on the way computes the same one.
-/
theorem cxaBeginCatch_adjustedPtr_iff {p : Ptr} (hcode : code.Spares obj cls (some p) real)
    (hr : Raised h obj cls (some p) real t) {passed : List UnwindContext}
    {jpassed : List (FrameView Judged)}
    (hpassed : List.Forall₂ (Known img h real fuel) passed jpassed)
    (hnone : ∀ j ∈ jpassed, j.stops = false) {f : UnwindContext} {action : DwarfEhAction}
    {pre post : List Judged} {filter : BitVec 32} {adjustedPtr : Addr}
    (hf : Known img h real fuel f
      (.site action (some (pre ++ (filter, .handle (some adjustedPtr)) :: post))))
    (hpre : ∀ j ∈ pre, j.2.decides = false)
    (hpad : action.landingPad ≠ 0) (rest : List UnwindContext)
    : ∃ h₁ t₁ d, searchPhase img fuel cls obj (passed ++ f :: rest) h
          = .ok (.handlerFound passed f, h₁)
        ∧ Raised h₁ obj cls (some p) real t₁ ∧ t₁.adjustedPtr = adjustedPtr
        ∧ deliver img fuel code cls obj passed f h₁ = .ok d
        ∧ ∀ i w, w.heap = d.heap → ∃ caught w', cxaBeginCatch img i obj w = .ok (caught, w')
            ∧ (caught = adjustedPtr
                ↔ ∀ a, (jpassed.flatMap FrameView.permitted).getLast? = some a
                    → a = adjustedPtr) := by
  have hcatch : (resolveSite (some (pre ++ (filter, .handle (some adjustedPtr)) :: post)) 0).1
      = .handlerCatch := by
    rw [resolveSite, resolve_of_handle hpre]
  have hstops : (FrameView.site action
      (some (pre ++ (filter, .handle (some adjustedPtr)) :: post))).stops := by
    simp only [FrameView.stops, hcatch, BEq.rfl]
  rcases searchPhase_of_stops hr rfl hpassed hnone hf hstops rest with ⟨a, hphase⟩
  rcases deliver_site hcode hr rfl hpassed hf (fun _ => hpad) hcatch a
    with ⟨h₂, t₂, hdeliver, hr₂, _, hcache⟩
  refine ⟨_, _, _, hphase, hr.withTail _ (FrameView.unwindHeader_searchTail _ f _), ?_, hdeliver, ?_⟩
  . simp only [FrameView.searchTail, hcatch, ↓reduceIte]
    rw [resolveSite, resolve_of_handle hpre]
  . intro i w hw
    dsimp only at hw
    rw [← hw] at hr₂
    rcases hr₂.cxaBeginCatch_eq img i with ⟨w', hcaught⟩
    refine ⟨_, w', hcaught, ?_⟩
    simp only [CxaTail.cache, Prod.mk.injEq] at hcache
    rw [hcache.2.2, foldl_cleanupAdjusted_eq hnone]
    rw [resolveSite, resolve_of_handle hpre]
    cases (jpassed.flatMap FrameView.permitted).getLast? <;> simp

theorem cxaBeginCatch_adjustedPtr_iff_catchInt
    : ∃ h₁ t₁ d, searchPhase Sample.img 4 exceptionClass ⟨0, 96⟩
          ([Sample.context 5] ++ Sample.context 0x15 :: []) Sample.heap
            = .ok (.handlerFound [Sample.context 5] (Sample.context 0x15), h₁)
        ∧ Raised h₁ ⟨0, 96⟩ exceptionClass (some ⟨0, 0⟩) (some ⟨0, 0⟩) t₁
        ∧ t₁.adjustedPtr = 0x10080
        ∧ deliver Sample.img 4 (fun _ h => h) exceptionClass ⟨0, 96⟩ [Sample.context 5]
            (Sample.context 0x15) h₁ = .ok d
        ∧ ∀ i w, w.heap = d.heap →
            ∃ caught w', cxaBeginCatch Sample.img i ⟨0, 96⟩ w = .ok (caught, w')
              ∧ (caught = 0x10080
                  ↔ ∀ a, ([Sample.cleanupThrowInt].flatMap FrameView.permitted).getLast? = some a
                      → a = 0x10080) := by
  have hf : Known Sample.img Sample.heap (some ⟨0, 0⟩) 4 (Sample.context 0x15)
      (.site ⟨0x4030, 0x1015⟩ (some ([] ++ (1, .handle (some 0x10080)) :: []))) :=
    Sample.known_catchInt
  apply cxaBeginCatch_adjustedPtr_iff LandingPadCode.spares_id Sample.raised
    (.cons Sample.known_cleanupThrowInt .nil) (by decide) hf
  . simp
  . decide

namespace Sample

/-!
An object of a class `D` with the bases `A` at offset 0 and `B` at offset 8 is thrown through a
function with the exception specification `throw(A)` to a `catch (B&)`.
-/

def basesMem : Mem := Mem.ofList 0x1000 [
  0xff, 0x00, 0x1e, 0x01, 0x08,
  0x00, 0x10, 0x20, 0x01,
  0x10, 0x10, 0x30, 0x03,
  0x7f, 0x00, 0x02, 0x00,
  0x00, 0x23, 0x00, 0x00, 0x00, 0x00, 0x00, 0x00,
  0x00, 0x22, 0x00, 0x00, 0x00, 0x00, 0x00, 0x00,
  0x01, 0x00
]

def classA : ClassTypeInfo := .classType 0x2200 0x2a00

def classB : ClassTypeInfo := .classType 0x2300 0x2b00

def classD : ClassTypeInfo := .vmiClassType 0x2100 0x2d00 0 [⟨classA, 0x002⟩, ⟨classB, 0x802⟩]

def basesImg : Image where
  mem := basesMem
  types a := [.class classD, .class classA, .class classB].find? fun t => t.self == a
  voidName := 0x2900
  blockBase b := BitVec.ofNat 64 (0x10000 * (b + 1))
  types_self := by
    intro a t ht
    simpa using List.find?_some ht

def basesProcess : Process where
  heap := Heap.set (fun _ => none) 0 (.cxx { thrown with exceptionType := 0x2100 })
  threads _ := .zero
  terminateHandler := 0
  unexpectedHandler := 0
  log := []

end Sample

-- the search phase computes the address of `B`, the handler gets the one of `A`
theorem cxaBeginCatch_throwA_catchB
    : ((searchPhase Sample.basesImg 4 exceptionClass ⟨0, 96⟩ [Sample.context 5, Sample.context 0x15]
            Sample.basesProcess.heap).bind fun (_, h₁) =>
          (h₁.tail ⟨0, 0⟩).bind fun t₁ =>
          (deliver Sample.basesImg 4 (fun _ h => h) exceptionClass ⟨0, 96⟩ [Sample.context 5]
            (Sample.context 0x15) h₁).bind fun d =>
          (cxaBeginCatch Sample.basesImg 0 ⟨0, 96⟩ { Sample.basesProcess with heap := d.heap }).bind
            fun (caught, _) => .ok (t₁.adjustedPtr, caught))
        =
      .ok (0x10088, 0x10080) := by
  rfl

end

end LibCxxRt
