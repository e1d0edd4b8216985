import LibCxxRt.Exception.Cleanup
import LibCxxRt.Exception.Lemmas.PointerReads

/-!
This module contains the result about thrown pointers: for which pointers and handlers the pointer that
`check_type_signature` computes is null exactly if the thrown one is.
-/

namespace LibCxxRt

open Util
open ClassTypeInfo (hierarchy)
open PointerReads (staticOffset)

-- A handler for pointers to the class `C` matches the thrown pointer `v` to the class `T`.
structure CatchesPointer (img : Image) (h : Heap) (ex : Ptr) (type : Addr)
    (exType handlerType : TypeInfo) (T C : ClassTypeInfo) (v : Addr) : Prop where
  thrown : ∃ cxa, h.cxa ex = .ok cxa ∧ img.typeInfo cxa.exceptionType = .ok exType
  handler : type ≠ 0 ∧ img.typeInfo type = .ok handlerType
  pointers : ∃ self name flags self' name' flags',
    exType = .pointerType self name flags (.class T)
      ∧ handlerType = .pointerType self' name' flags' (.class C) ∧ flags &&& ~~~flags' = 0
  value : img.mem.loadPtr (img.addr (thrownObject ex)) = .ok v
  notVoid : C.name ≠ img.voidName
  base : ∃ k, hierarchy.Has false T .whole C.self k

/--
The first subobject of class `C` that the search visits has the address of the object, and the search
does not come to a virtual base before.
-/
def AtOffsetZero (T C : ClassTypeInfo) : Prop :=
  ∃ pre c post, T.visit staticOffset (some 0) = pre ++ (c, some 0) :: post ∧ c.self = C.self
    ∧ ∀ e ∈ pre, e.1.self ≠ C.self ∧ e.2 ≠ none

-- the rest of `check_type_signature` if the types are different
def afterUpcast (m : Mem) (T C : ClassTypeInfo) (v adjustedPtr : Addr) :
    PointerReads.Run (Bool × Addr) := do
  let (upcast, obj) ← PointerReads.doUpcast m T C v
  if upcast then
    return (true, obj)
  else
    return (false, adjustedPtr)

section

variable {img : Image} {h : Heap} {ex : Ptr} {type : Addr} {exType handlerType : TypeInfo}
variable {T C : ClassTypeInfo} {v : Addr}

theorem Image.types_of_typeInfo {a : Addr} {t : TypeInfo} (ht : img.typeInfo a = .ok t)
    : img.types a = some t := by
  unfold typeInfo at ht
  split at ht
  . next t' htypes =>
    cases ht
    exact htypes
  . contradiction

namespace CatchesPointer

theorem eq_of_self (hcatch : CatchesPointer img h ex type exType handlerType T C v)
    (hself : exType.self = handlerType.self)
    : exType = handlerType := by
  rcases hcatch.thrown with ⟨cxa, _, hex⟩
  have hthrown := Image.types_of_typeInfo hex
  have hhandler := Image.types_of_typeInfo hcatch.handler.2
  rw [img.types_self _ _ hthrown, img.types_self _ _ hhandler] at hself
  rw [hself, hhandler] at hthrown
  exact (Option.some.inj hthrown).symm

theorem checkTypeSignature_eq
    (hcatch : CatchesPointer img h ex type exType handlerType T C v) (adjustedPtr : Addr)
    : PointerReads.checkTypeSignature img h (some ex) type adjustedPtr
        =
      if handlerType.eq exType then
        pure (true, v)
      else
        afterUpcast img.mem T C v adjustedPtr := by
  have hsame := hcatch.eq_of_self
  have hvoid := hcatch.notVoid
  rcases hcatch.thrown with ⟨cxa, hcxa, hex⟩
  rcases hcatch.handler with ⟨hne, hhandler⟩
  rcases hcatch.pointers with ⟨self, name, flags, self', name', flags', rfl, rfl, hflags⟩
  have hvalue : exceptionPtr img (.pointerType self name flags (.class T)) ex = .ok v :=
    hcatch.value
  unfold PointerReads.checkTypeSignature
  simp only [hcxa, hex, hhandler, hvalue, Traced.liftM_ok_bind, if_neg hne]
  split
  . rfl
  . next heq =>
    have hself : self ≠ self' := by
      intro hself
      rw [hsame hself] at heq
      simp [TypeInfo.eq] at heq
    have hname : (TypeInfo.class C).name ≠ img.voidName := hvoid
    have hcatch : PointerReads.doCatch img.mem img.voidName
        (.pointerType self' name' flags' (.class C)) (.pointerType self name flags (.class T)) v 1
          = PointerReads.doUpcast img.mem T C v := by
      unfold PointerReads.doCatch PointerReads.pbaseDoCatch
      simp only [TypeInfo.self, if_neg hself, hflags, hname, ne_eq, not_true_eq_false, ↓reduceIte]
      rw [if_neg (by decide), PointerReads.doCatch]
      split
      . next heq' => rw [PointerReads.doUpcast_self heq'.symm]
      . rfl
    rw [hcatch]
    rfl

end CatchesPointer

theorem atOffsetZero_iff (m : Mem) (T C : ClassTypeInfo) (adjustedPtr : Addr)
    : (afterUpcast m T C 0 adjustedPtr).record = []
          ∧ (afterUpcast m T C 0 adjustedPtr).result = .ok (true, 0)
        ↔
      AtOffsetZero T C := by
  have hagrees := PointerReads.doUpcast_agrees m C T 0
  rw [AtOffsetZero, ← PointerReads.outcome_eq_found_iff]
  unfold afterUpcast
  cases hout : PointerReads.outcome C 0 (T.visit staticOffset (some 0)) with
  | none =>
    rw [hout] at hagrees
    refine iff_of_false ?_ (by simp)
    rintro ⟨hrecord, _⟩
    exact Traced.record_bind_ne_nil hagrees _ hrecord
  | some r =>
    rw [hout] at hagrees
    have heq : PointerReads.doUpcast m T C 0 = pure r := hagrees
    rw [heq, Traced.pure_bind]
    rcases r with ⟨found, a⟩
    cases found with
    | true => simp
    | false => simp

theorem afterUpcast_result (layout : Layout img.mem T v)
    (hbase : ∃ k, hierarchy.Has false T .whole C.self k) (adjustedPtr : Addr)
    : ∃ k, hierarchy.Has false T .whole C.self k
        ∧ (afterUpcast img.mem T C v adjustedPtr).result = .ok (true, layout.address k) := by
  have hupcast := layout.doUpcast_eq C
  cases hfirst : T.firstSubobject C.self with
  | none =>
    rcases hbase with ⟨k, hk⟩
    exact absurd hk (ClassTypeInfo.not_has_of_firstSubobject hfirst k)
  | some k =>
    rw [hfirst, ← PointerReads.doUpcast_result] at hupcast
    refine ⟨k, ClassTypeInfo.has_of_firstSubobject hfirst, ?_⟩
    unfold afterUpcast
    rw [Traced.result_bind, hupcast]
    rfl

/--
A null pointer is only converted to a null pointer if the conversion adds nothing to it and does not
need a vtable. For other pointers there always is an object.
-/
theorem checkTypeSignature_null_iff
    (hcatch : CatchesPointer img h ex type exType handlerType T C v)
    (layout : v ≠ 0 → Layout img.mem T v) (adjustedPtr : Addr)
    : (v = 0 → (PointerReads.checkTypeSignature img h (some ex) type adjustedPtr).record = []
            ∧ checkTypeSignature img h (some ex) type adjustedPtr = .ok (true, 0))
          ∧ (∀ hv : v ≠ 0, ∃ a, checkTypeSignature img h (some ex) type adjustedPtr = .ok (true, a)
            ∧ (handlerType.eq exType ∧ a = v
              ∨ ∃ k, hierarchy.Has false T .whole C.self k ∧ a = (layout hv).address k))
        ↔
      (v = 0 → handlerType.eq exType ∨ AtOffsetZero T C) := by
  rw [← PointerReads.checkTypeSignature_result, hcatch.checkTypeSignature_eq]
  by_cases heq : handlerType.eq exType
  . rw [if_pos heq]
    refine iff_of_true ⟨?_, ?_⟩ (fun _ => .inl heq)
    . rintro rfl
      exact ⟨rfl, rfl⟩
    . intro _
      exact ⟨v, rfl, .inl ⟨heq, rfl⟩⟩
  . rw [if_neg heq]
    constructor
    . rintro ⟨hnull, _⟩ hv
      subst hv
      exact .inr ((atOffsetZero_iff ..).1 (hnull rfl))
    . intro hzero
      refine ⟨?_, ?_⟩
      . intro hv
        subst hv
        exact (atOffsetZero_iff ..).2 ((hzero rfl).resolve_left heq)
      . intro hv
        rcases afterUpcast_result (layout hv) hcatch.base adjustedPtr with ⟨k, hk, hres⟩
        exact ⟨_, hres, .inr ⟨k, hk, rfl⟩⟩

end

namespace Sample

open ClassTypeInfo.Sample (a left)

def other : ClassTypeInfo := .classType 0x2b00 0x3400

-- the base `a` is at offset 8
def secondA : ClassTypeInfo := .vmiClassType 0x2c00 0x3500 0 [⟨other, 0x002⟩, ⟨a, 0x802⟩]

-- the base `a` is virtual, its offset is 24 bytes in front of the vtable
def virtualA : ClassTypeInfo := .vmiClassType 0x2d00 0x3600 0 [⟨a, 0xffffffffffffe803⟩]

def pointerTo (T : ClassTypeInfo) : TypeInfo := .pointerType 0x2000 0x2800 0 (.class T)

def pointerToA : TypeInfo := .pointerType 0x2100 0x2900 0 (.class a)

def nullMem : Mem :=
  Mem.ofList 0x10080 [0x00, 0x00, 0x00, 0x00, 0x00, 0x00, 0x00, 0x00]

-- a null pointer to the class `T` is thrown
def nullImg (T : ClassTypeInfo) : Image where
  mem := nullMem
  types x := [pointerTo T, pointerToA].find? fun t => t.self == x
  voidName := 0x2f00
  blockBase := img.blockBase
  types_self := by
    intro x t ht
    simpa using List.find?_some ht

theorem catchesNull {T : ClassTypeInfo} (k : Subobject Addr)
    (hfirst : T.firstSubobject a.self = some k)
    : CatchesPointer (nullImg T) heap ⟨0, 0⟩ 0x2100 (pointerTo T) pointerToA T a 0 where
  thrown := ⟨thrown, by rfl, by rfl⟩
  handler := ⟨by decide, by rfl⟩
  pointers := ⟨_, _, _, _, _, _, rfl, rfl, by decide⟩
  value := by
    have hvalue : nullMem.loadPtr (img.addr (thrownObject ⟨0, 0⟩)) = .ok 0 := by
      decide +kernel
    exact hvalue
  notVoid := by
    have hname : a.name ≠ (0x2f00 : Addr) := by
      decide
    exact hname
  base := ⟨k, ClassTypeInfo.has_of_firstSubobject hfirst⟩

end Sample

open Sample ClassTypeInfo.Sample in
theorem checkTypeSignature_null_iff_left
    : (PointerReads.checkTypeSignature (nullImg left) heap (some ⟨0, 0⟩) 0x2100 0).record = []
        ∧ checkTypeSignature (nullImg left) heap (some ⟨0, 0⟩) 0x2100 0 = .ok (true, 0) := by
  have hcatch := catchesNull ⟨none, [0]⟩ (by rfl : left.firstSubobject a.self = _)
  have hzero : AtOffsetZero left a := ⟨[(left, some 0)], a, [], by rfl, by rfl, by decide⟩
  have hiff := checkTypeSignature_null_iff hcatch (fun hv => absurd rfl hv) 0
  exact (hiff.2 fun _ => .inr hzero).1 rfl

open Sample ClassTypeInfo.Sample in
-- a pointer to the second base is not null, for a virtual base the null pointer is dereferenced
theorem checkTypeSignature_null_changed
    : CatchesPointer (nullImg secondA) heap ⟨0, 0⟩ 0x2100 (pointerTo secondA) pointerToA secondA a 0
        ∧ checkTypeSignature (nullImg secondA) heap (some ⟨0, 0⟩) 0x2100 0 = .ok (true, 8)
        ∧ CatchesPointer (nullImg virtualA) heap ⟨0, 0⟩ 0x2100 (pointerTo virtualA) pointerToA
          virtualA a 0
        ∧ (PointerReads.checkTypeSignature (nullImg virtualA) heap (some ⟨0, 0⟩) 0x2100 0).record
          = [0]
        ∧ checkTypeSignature (nullImg virtualA) heap (some ⟨0, 0⟩) 0x2100 0 = .error .fault := by
  exact ⟨catchesNull ⟨none, [1]⟩ (by rfl), by rfl, catchesNull ⟨some 0x2200, []⟩ (by rfl), by rfl,
    by rfl⟩

end LibCxxRt
