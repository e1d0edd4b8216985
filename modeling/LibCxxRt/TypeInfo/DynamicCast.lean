import LibCxxRt.TypeInfo.Impl.DynamicCast
import LibCxxRt.TypeInfo.Upcast

/-!
This module contains the results about `cast_to` and `__dynamic_cast`: the former does the same as
`__do_upcast`, the latter returns the subobject that the language defines for some casts only.
-/

namespace LibCxxRt

open Util
open ClassTypeInfo (hierarchy)

variable {m : Mem} {types : Addr → Option ClassTypeInfo} {D : ClassTypeInfo} {p : Addr}

-- The header of the vtable of the subobject at `sub` leads to the object.
structure HasHeader (m : Mem) (types : Addr → Option ClassTypeInfo) (D : ClassTypeInfo)
    (p sub vtable : Addr) : Prop where
  loadVtable : m.loadPtr sub = .ok vtable
  leafOffset : m.load (vtable - 16) 8 = .ok (p - sub)
  type : m.loadPtr (vtable - 8) = .ok D.self
  types : types D.self = some D

-- different subobjects of one class are at different addresses
structure CompleteObject (m : Mem) (D : ClassTypeInfo) (p : Addr) extends Layout m D p where
  ne_zero : ∀ d k, hierarchy.Has false D .whole d k → address k ≠ 0
  inj : ∀ d k k', hierarchy.Has false D .whole d k → hierarchy.Has false D .whole d k' →
    address k = address k' → k = k'

theorem castTo_eq {c dst : ClassTypeInfo} {obj : Addr}
    : c.castTo m obj dst
        =
      (c.doUpcast m dst obj).map fun r => if r.1 then r.2 else 0 := by
  induction c using ClassTypeInfo.induction with
  | h c ih =>
    cases c with
    | classType self name =>
      by_cases hself : self = dst.self
      . simp [ClassTypeInfo.castTo, ClassTypeInfo.doUpcast, hself, Except.map]
      . simp [ClassTypeInfo.castTo, ClassTypeInfo.doUpcast, hself, Except.map]
    | siClassType self name baseType =>
      have hbase := ih ⟨baseType, 0x2⟩ (by simp [ClassTypeInfo.bases])
      by_cases hself : self = dst.self
      . simp [ClassTypeInfo.castTo, ClassTypeInfo.doUpcast, hself, Except.map]
      . simp only [ClassTypeInfo.castTo, ClassTypeInfo.doUpcast, hself, ↓reduceIte]
        exact hbase
    | vmiClassType self name flags baseInfo =>
      unfold ClassTypeInfo.castTo
      cases (ClassTypeInfo.vmiClassType self name flags baseInfo).doUpcast m dst obj with
      | error e => rfl
      | ok r =>
        rcases r with ⟨found, obj'⟩
        cases found <;> rfl

-- the search for a dynamic cast and the one for a handler
theorem castTo_agrees {T C : ClassTypeInfo} {obj : Addr}
    (hne : ∀ p, T.doUpcast m C obj = .ok (true, p) → p ≠ 0)
    : ((∃ r, T.castTo m obj C = .ok r ∧ r ≠ 0) ↔ ∃ p, T.doUpcast m C obj = .ok (true, p))
        ∧ (∀ r, T.castTo m obj C = .ok r → r ≠ 0 → T.doUpcast m C obj = .ok (true, r))
        ∧ ∀ e, T.castTo m obj C = .error e ↔ T.doUpcast m C obj = .error e := by
  rw [castTo_eq]
  cases hupcast : T.doUpcast m C obj with
  | error e => simp [Except.map]
  | ok r =>
    rcases r with ⟨found, p⟩
    cases found with
    | false => simp [Except.map]
    | true =>
      have hp := hne p hupcast
      simpa [Except.map] using hp

open ClassTypeInfo.Sample in
theorem castTo_agrees_diamond
    : ∃ r, diamond.castTo diamondMem 0x10000 a = .ok r ∧ r ≠ 0 := by
  have hupcast : diamond.doUpcast diamondMem a 0x10000 = .ok (true, 0x10010) := by
    decide +kernel
  refine (castTo_agrees ?_).1.2 ⟨_, hupcast⟩
  intro p hp
  rw [hupcast] at hp
  cases hp
  decide

theorem dynamicCast_eq (layout : Layout m D p) {sub vtable : Addr}
    (hheader : HasHeader m types D p sub vtable) (src dst : ClassTypeInfo)
    (src2dstOffset : BitVec 64)
    : dynamicCast m types sub src dst src2dstOffset
        =
      .ok ((D.firstSubobject dst.self).elim 0 layout.address) := by
  have hleaf : sub + (p - sub) = p := by
    rw [BitVec.add_comm, BitVec.sub_add_cancel]
  have htype : vtable - 16 + 8 = vtable - 8 := by
    bv_omega
  unfold dynamicCast
  simp only [hheader.loadVtable, hheader.leafOffset, Res.ok_bind, htype, hheader.type, hheader.types,
    hleaf, castTo_eq, layout.doUpcast_eq]
  cases D.firstSubobject dst.self <;> rfl

/--
The cast takes the first subobject of the class in the whole object, wherever the subobject that is
cast lies in it.
-/
theorem dynamicCast_eq_iff (object : CompleteObject m D p) {src : ClassTypeInfo}
    {s : Subobject Addr} {vtable : Addr}
    (hheader : HasHeader m types D p (object.address s) vtable) (dst : ClassTypeInfo)
    (src2dstOffset : BitVec 64)
    : (∀ r, hierarchy.DynamicCast D src.self s dst.self r →
          dynamicCast m types (object.address s) src dst src2dstOffset
            = .ok (r.elim 0 object.address))
        ↔
      (∀ k, ¬ hierarchy.Has false D .whole dst.self k)
        ∨ (∃ k, D.firstSubobject dst.self = some k
            ∧ hierarchy.Contains D src.self s dst.self k
            ∧ ∀ k', hierarchy.Contains D src.self s dst.self k' → k' = k)
        ∨ hierarchy.Has true D .whole src.self s ∧ ∃ k, hierarchy.PublicBase D dst.self k := by
  rw [← Hierarchy.dynamicCast_iff (fun k => ClassTypeInfo.has_of_firstSubobject)
    ClassTypeInfo.not_has_of_firstSubobject
    (fun hself : D.self = dst.self => by rw [← hself, ClassTypeInfo.firstSubobject_self])]
  rw [dynamicCast_eq object.toLayout hheader]
  constructor
  . intro hreturns
    rcases Hierarchy.exists_dynamicCast hierarchy D src.self s dst.self with ⟨r, hr⟩
    have haddress := Except.ok.inj (hreturns r hr)
    suffices heq : D.firstSubobject dst.self = r by rwa [heq]
    cases hfirst : D.firstSubobject dst.self with
    | none =>
      cases r with
      | none => rfl
      | some k =>
        rw [hfirst] at haddress
        exact absurd haddress.symm (object.ne_zero _ k hr.has)
    | some k =>
      have hk := ClassTypeInfo.has_of_firstSubobject hfirst
      rw [hfirst] at haddress
      cases r with
      | none => exact absurd haddress (object.ne_zero _ k hk)
      | some k' => rw [object.inj _ k k' hk hr.has haddress]
  . intro hfirst r hr
    rw [hfirst.unique hr]

namespace ClassTypeInfo.Sample

def b : ClassTypeInfo := .siClassType 0x2600 0x3000 a

def leftB : ClassTypeInfo := .siClassType 0x2700 0x3100 b

def rightB : ClassTypeInfo := .siClassType 0x2800 0x3200 b

-- an object has two subobjects of class `b`, each of them has one of class `a`
def twoB : ClassTypeInfo := .vmiClassType 0x2900 0x3300 1 [⟨leftB, 0x002⟩, ⟨rightB, 0x802⟩]

def leftA : Subobject Addr := ⟨none, [0, 0, 0]⟩

def rightA : Subobject Addr := ⟨none, [1, 0, 0]⟩

-- the two vtable pointers of the object, and in front of the vtables their headers
def twoBMem : Mem := fun x =>
  (Mem.ofList 0x10000 [
    0x10, 0x50, 0x00, 0x00, 0x00, 0x00, 0x00, 0x00,
    0x20, 0x50, 0x00, 0x00, 0x00, 0x00, 0x00, 0x00
  ] x).or
  (Mem.ofList 0x5000 [
    0x00, 0x00, 0x00, 0x00, 0x00, 0x00, 0x00, 0x00,
    0x00, 0x29, 0x00, 0x00, 0x00, 0x00, 0x00, 0x00,
    0xf8, 0xff, 0xff, 0xff, 0xff, 0xff, 0xff, 0xff,
    0x00, 0x29, 0x00, 0x00, 0x00, 0x00, 0x00, 0x00
  ] x)

def classAt (x : Addr) : Option ClassTypeInfo :=
  if x = 0x2900 then some twoB else none

def twoBAddress (k : Subobject Addr) : Addr :=
  if k.steps.head? = some 1 then 0x10008 else 0x10000

def twoBObject : CompleteObject twoBMem twoB 0x10000 where
  toLayout := .ofVisit twoBAddress (by decide)
  ne_zero := by
    intro d k _
    show twoBAddress k ≠ 0
    unfold twoBAddress
    split <;> decide
  inj := by
    rintro d k k' ⟨c, hpath, hid⟩ ⟨c', hpath', hid'⟩ heq
    have hinj : ∀ e ∈ twoB.visit hierarchy.step .whole, ∀ e' ∈ twoB.visit hierarchy.step .whole,
        e.1.self = e'.1.self → twoBAddress e.2 = twoBAddress e'.2 → e.2 = e'.2 := by
      decide
    exact hinj (c, k) (mem_visit_iff.2 hpath) (c', k') (mem_visit_iff.2 hpath')
      (Eq.trans hid hid'.symm) heq

end ClassTypeInfo.Sample

open ClassTypeInfo.Sample in
theorem dynamicCast_eq_iff_leftA
    : (∀ r, hierarchy.DynamicCast twoB a.self leftA b.self r →
          dynamicCast twoBMem classAt 0x10000 a b 0 = .ok (r.elim 0 twoBAddress))
        ↔
      (∀ k, ¬ hierarchy.Has false twoB .whole b.self k)
        ∨ (∃ k, twoB.firstSubobject b.self = some k
            ∧ hierarchy.Contains twoB a.self leftA b.self k
            ∧ ∀ k', hierarchy.Contains twoB a.self leftA b.self k' → k' = k)
        ∨ hierarchy.Has true twoB .whole a.self leftA ∧ ∃ k, hierarchy.PublicBase twoB b.self k := by
  have hheader : HasHeader twoBMem classAt twoB 0x10000 (twoBObject.address leftA) 0x5010 :=
    ⟨by rfl, by rfl, by rfl, by rfl⟩
  exact dynamicCast_eq_iff twoBObject hheader b 0

open ClassTypeInfo.Sample in
-- the language defines the subobject of class `b` on the right, the code returns the one on the left
theorem dynamicCast_rightA
    : Nonempty (CompleteObject twoBMem twoB 0x10000)
        ∧ HasHeader twoBMem classAt twoB 0x10000 (twoBAddress rightA) 0x5020
        ∧ hierarchy.DynamicCast twoB a.self rightA b.self (some ⟨none, [1, 0]⟩)
        ∧ twoBAddress ⟨none, [1, 0]⟩ = 0x10008
        ∧ dynamicCast twoBMem classAt (twoBAddress rightA) a b 0 = .ok 0x10000 := by
  refine ⟨⟨twoBObject⟩, ⟨by rfl, by rfl, by rfl, by rfl⟩, .down ?_ ?_, by rfl, by rfl⟩
  . refine ⟨b, .step (i := 1) rfl (by simp) (.step (i := 0) rfl (by simp) (.refl ..)), rfl, a, ?_, rfl⟩
    exact .step (i := 0) rfl (fun _ => rfl) (.refl ..)
  . rintro k ⟨c, hpath, hid, hhas⟩
    rcases hhas.ofPublic with ⟨c', hpath', hid'⟩
    have hunique : ∀ e ∈ twoB.visit hierarchy.step .whole, e.1.self = b.self →
        ∀ e' ∈ e.1.visit hierarchy.step e.2, e'.1.self = a.self → e'.2 = rightA →
          e.2 = ⟨none, [1, 0]⟩ := by
      decide
    exact hunique (c, k) (ClassTypeInfo.mem_visit_iff.2 hpath) hid (c', rightA)
      (ClassTypeInfo.mem_visit_iff.2 hpath') hid' rfl

end LibCxxRt
