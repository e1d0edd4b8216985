import LibCxxRt.TypeInfo.Impl
import LibCxxRt.Util.Hierarchy

/-!
This module contains the class hierarchy that a `__class_type_info` object describes, and the order
in which `__do_upcast` visits it.
-/

namespace LibCxxRt

open Util

abbrev Base :=
  BaseClassTypeInfo ClassTypeInfo

namespace ClassTypeInfo

-- `__si_class_type_info` is for a single, public and non-virtual base at offset 0
def bases : ClassTypeInfo → List Base
  | .classType _ _ => []
  | .siClassType _ _ baseType => [⟨baseType, 0x2⟩]
  | .vmiClassType _ _ _ baseInfo => baseInfo

def hierarchy : Hierarchy ClassTypeInfo Base Addr where
  bases := bases
  type := BaseClassTypeInfo.baseType
  isVirtual := BaseClassTypeInfo.isVirtual
  isPublic := BaseClassTypeInfo.isPublic
  id := self

end ClassTypeInfo

section

variable {κ : Type} (next : κ → Nat → Base → κ)

mutual

-- the classes in the order of the search, `next` says what a base makes of the state of its class
def ClassTypeInfo.visit : ClassTypeInfo → κ → List (ClassTypeInfo × κ)
  | .classType self name, k => [(.classType self name, k)]
  | .siClassType self name baseType, k =>
    (.siClassType self name baseType, k) :: baseType.visit (next k 0 ⟨baseType, 0x2⟩)
  | .vmiClassType self name flags baseInfo, k =>
    (.vmiClassType self name flags baseInfo, k) :: visitBases baseInfo 0 k

def visitBases : List Base → Nat → κ → List (ClassTypeInfo × κ)
  | [], _, _ => []
  | ⟨baseType, offsetFlags⟩ :: rest, i, k =>
    baseType.visit (next k i ⟨baseType, offsetFlags⟩) ++ visitBases rest (i + 1) k

end

end

namespace ClassTypeInfo

mutual

theorem induction {P : ClassTypeInfo → Prop} (h : ∀ c, (∀ b ∈ c.bases, P b.baseType) → P c)
    : ∀ c, P c
  | .classType self name => h _ (by simp [bases])
  | .siClassType self name baseType => h _ (by simpa [bases] using induction h baseType)
  | .vmiClassType self name flags baseInfo => h _ (inductionBases h baseInfo)

theorem inductionBases {P : ClassTypeInfo → Prop}
    (h : ∀ c, (∀ b ∈ c.bases, P b.baseType) → P c)
    : ∀ baseInfo : List Base, ∀ b ∈ baseInfo, P b.baseType
  | [] => by simp
  | ⟨baseType, offsetFlags⟩ :: rest => by
    simp only [List.forall_mem_cons]
    exact ⟨induction h baseType, inductionBases h rest⟩

end

variable {κ : Type} {next : κ → Nat → Base → κ}

theorem visit_eq (c : ClassTypeInfo) (k : κ)
    : c.visit next k = (c, k) :: visitBases next c.bases 0 k := by
  cases c <;> simp [visit, visitBases, bases]

theorem mem_visitBases {bs : List Base} {i : Nat} {k : κ} {e : ClassTypeInfo × κ}
    : e ∈ visitBases next bs i k
        ↔
      ∃ (j : Nat) (b : Base), bs[j]? = some b ∧ e ∈ b.baseType.visit next (next k (i + j) b) := by
  induction bs generalizing i with
  | nil => simp [visitBases]
  | cons b bs ih =>
    rcases b with ⟨baseType, offsetFlags⟩
    simp only [visitBases, List.mem_append, ih]
    constructor
    . rintro (he | ⟨j, b, hb, he⟩)
      . exact ⟨0, _, rfl, he⟩
      . refine ⟨j + 1, b, hb, ?_⟩
        rwa [Nat.add_assoc, Nat.add_comm 1] at he
    . rintro ⟨j, b, hb, he⟩
      cases j with
      | zero =>
        cases hb
        exact .inl he
      | succ j =>
        refine .inr ⟨j, b, hb, ?_⟩
        rwa [Nat.add_assoc, Nat.add_comm 1]

-- the search visits the subobjects to which there is a path
theorem mem_visit_iff {c : ClassTypeInfo} {k : Subobject Addr}
    {e : ClassTypeInfo × Subobject Addr}
    : e ∈ c.visit hierarchy.step k ↔ hierarchy.Path false c k e.1 e.2 := by
  induction c using ClassTypeInfo.induction generalizing k with
  | h c ih =>
    rw [visit_eq, List.mem_cons, mem_visitBases]
    constructor
    . rintro (rfl | ⟨j, b, hb, he⟩)
      . exact .refl ..
      . rw [ih b (List.mem_of_getElem? hb), Nat.zero_add] at he
        exact .step hb (by simp) he
    . intro hpath
      cases hpath with
      | refl => exact .inl rfl
      | @step _ _ _ _ i b hb _ hrest =>
        refine .inr ⟨i, b, hb, ?_⟩
        rw [ih b (List.mem_of_getElem? hb), Nat.zero_add]
        exact hrest

-- the first subobject of class `d` that the search visits
def firstSubobject (T : ClassTypeInfo) (d : Addr) : Option (Subobject Addr) :=
  ((T.visit hierarchy.step .whole).find? fun e => e.1.self == d).map (·.2)

theorem has_of_firstSubobject {T : ClassTypeInfo} {d : Addr} {k : Subobject Addr}
    (hfirst : T.firstSubobject d = some k)
    : hierarchy.Has false T .whole d k := by
  rw [firstSubobject, Option.map_eq_some_iff] at hfirst
  rcases hfirst with ⟨e, he, heq⟩
  have hself : e.1.self = d := by simpa using List.find?_some he
  refine ⟨e.1, ?_, hself⟩
  rw [← heq]
  exact mem_visit_iff.1 (List.mem_of_find?_eq_some he)

theorem not_has_of_firstSubobject {T : ClassTypeInfo} {d : Addr}
    (hfirst : T.firstSubobject d = none) (k : Subobject Addr)
    : ¬ hierarchy.Has false T .whole d k := by
  rintro ⟨c, hpath, hid⟩
  rw [firstSubobject, Option.map_eq_none_iff, List.find?_eq_none] at hfirst
  have hne := hfirst (c, k) (mem_visit_iff.2 hpath)
  exact hne (beq_iff_eq.2 hid)

theorem firstSubobject_self (T : ClassTypeInfo)
    : T.firstSubobject T.self = some .whole := by
  simp [firstSubobject, visit_eq]

end ClassTypeInfo

end LibCxxRt
