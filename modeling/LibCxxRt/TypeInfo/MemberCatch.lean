import LibCxxRt.TypeInfo.PointerCatch

/-!
This module contains the result about `__pbase_type_info::__do_catch` for the type of a pointer to a
member: which thrown types it takes for one of that type. The rule of the language looks at pointers
and pointers to members at all levels, the code only at pointers.
-/

namespace LibCxxRt

namespace TypeInfo

-- the class at a level is that of a pointer to a member
def mixedLevels : TypeInfo → List (Option Addr × BitVec 32)
  | .pointerType _ _ flags pointee => (none, flags) :: pointee.mixedLevels
  | .pointerToMemberType _ _ flags pointee context =>
    (some context.self, flags) :: pointee.mixedLevels
  | _ => []

def mixedInnermost : TypeInfo → TypeInfo
  | .pointerType _ _ _ pointee => pointee.mixedInnermost
  | .pointerToMemberType _ _ _ pointee _ => pointee.mixedInnermost
  | type => type

def isPointerToMember : TypeInfo → Bool
  | .pointerToMemberType .. => true
  | _ => false

structure MixedConversion (type exType : TypeInfo) : Prop where
  classes : type.mixedLevels.map Prod.fst = exType.mixedLevels.map Prod.fst
  included : List.Forall₂ (fun l l' => Includes l.2 l'.2) type.mixedLevels exType.mixedLevels
  innermost : type.mixedInnermost.self = exType.mixedInnermost.self
  const : ∀ i : Nat, type.mixedLevels[i]?.map (qualifiers ∘ Prod.snd)
      ≠ exType.mixedLevels[i]?.map (qualifiers ∘ Prod.snd) →
    ∀ j < i, ∀ l, type.mixedLevels[j]? = some l → isConst l.2 = true

-- the rule of the language, the handler is for a pointer to a member
def HandlesMember (type exType : TypeInfo) : Prop :=
  exType.isPointerToMember = true ∧ MixedConversion type exType

-- The thrown type is not the handler's own, but the rule has the handler catch it.
def MissesMember (type exType : TypeInfo) : Prop :=
  HandlesMember type exType ∧ exType.self ≠ type.self

/--
The thrown type is an ordinary pointer, and the flags and the pointees are accepted like those of two
ordinary pointers.
-/
def TakesForMember (m : Mem) (voidName obj : Addr) (type exType : TypeInfo) : Prop :=
  exType.isPointerP = true ∧ ∃ n ordinary pointee exPointee,
    Below true type exType (n + 1) ordinary pointee exPointee ∧ Accepts m voidName obj pointee exPointee

theorem MixedConversion.refl (type : TypeInfo)
    : MixedConversion type type where
  classes := rfl
  included := List.forall₂_same.2 fun l _ => includes_of_and_not (BitVec.and_not_self l.2)
  innermost := rfl
  const := fun _ hdiffer => absurd rfl hdiffer

variable {m : Mem} {voidName obj : Addr} {self name : Addr} {flags : BitVec 32}
variable {pointee exType : TypeInfo} {context : ClassTypeInfo}

theorem caught_member_iff
    : Caught m voidName obj true (.pointerToMemberType self name flags pointee context) exType
        ↔
      exType.self = self
        ∨ TakesForMember m voidName obj (.pointerToMemberType self name flags pointee context)
          exType := by
  constructor
  . rintro (hself | ⟨_, _, _, heq, _⟩ | ⟨n, ordinary, t, t', hbelow, haccepts⟩)
    . exact .inl hself
    . contradiction
    . exact .inr ⟨hbelow.isPointerP, n, ordinary, t, t', hbelow, haccepts⟩
  . rintro (hself | ⟨_, hbelow⟩)
    . exact .inl hself
    . exact .inr (.inr hbelow)

theorem TakesForMember.not_handles {type : TypeInfo}
    (htakes : TakesForMember m voidName obj type exType)
    : ¬ HandlesMember type exType := by
  rintro ⟨hmember, _⟩
  cases exType with
  | pointerToMemberType => exact absurd htakes.1 (by simp [isPointerP])
  | _ => exact absurd hmember (by simp [isPointerToMember])

/--
The code does not tell a pointer to a member from an ordinary pointer, and does not catch any other
type of a pointer to a member than the handler's own.
-/
theorem doCatch_eq_handlesMember_iff
    (hobject : exType.self = self →
      exType = .pointerToMemberType self name flags pointee context)
    : ((∃ obj', (pointerToMemberType self name flags pointee context).doCatch m voidName exType obj 1
            = .ok (true, obj'))
          ↔ HandlesMember (.pointerToMemberType self name flags pointee context) exType)
        ↔
      ¬ MissesMember (.pointerToMemberType self name flags pointee context) exType
        ∧ ¬ TakesForMember m voidName obj (.pointerToMemberType self name flags pointee context)
          exType := by
  rw [doCatch_iff]
  have hown (hself : exType.self = self)
      : HandlesMember (.pointerToMemberType self name flags pointee context) exType := by
    rw [hobject hself]
    exact ⟨rfl, .refl _⟩
  constructor
  . intro hrule
    refine ⟨?_, ?_⟩
    . rintro ⟨hhandles, hne⟩
      rcases caught_member_iff.1 (hrule.2 hhandles) with hself | htakes
      . exact hne hself
      . exact htakes.not_handles hhandles
    . intro htakes
      exact htakes.not_handles (hrule.1 (caught_member_iff.2 (.inr htakes)))
  . rintro ⟨hmiss, htakes⟩
    constructor
    . intro hcaught
      exact hown ((caught_member_iff.1 hcaught).resolve_right htakes)
    . intro hhandles
      by_contra hcaught
      refine hmiss ⟨hhandles, ?_⟩
      intro hself
      exact hcaught (caught_member_iff.2 (.inl hself))

namespace Sample

def point : ClassTypeInfo := .classType 0x3b00 0x4b00

-- the type `int point::*`
def pointerToIntMember : TypeInfo := .pointerToMemberType 0x3c00 0x4c00 0x0 int point

def pointerToConstIntMember : TypeInfo := .pointerToMemberType 0x3d00 0x4d00 0x1 int point

end Sample

open TypeInfo.Sample in
theorem doCatch_eq_handlesMember_iff_self
    : (∃ obj', pointerToConstIntMember.doCatch (fun _ => none) 0x4000 pointerToConstIntMember
            0x10000 1
          = .ok (true, obj'))
        ↔
      HandlesMember pointerToConstIntMember pointerToConstIntMember := by
  refine (doCatch_eq_handlesMember_iff fun _ => rfl).2 ⟨?_, ?_⟩
  . rintro ⟨_, hne⟩
    exact hne rfl
  . rintro ⟨hpointer, _⟩
    exact absurd hpointer (by decide)

open TypeInfo.Sample in
-- the handler catches `int*` and does not catch `int point::*`
theorem doCatch_member_not_handles
    : pointerToConstIntMember.doCatch (fun _ => none) 0x4000 pointerToInt 0x10000 1
          = .ok (true, 0x10000)
        ∧ ¬ HandlesMember pointerToConstIntMember pointerToInt
        ∧ pointerToConstIntMember.doCatch (fun _ => none) 0x4000 pointerToIntMember 0x10000 1
          = .ok (false, 0x10000)
        ∧ HandlesMember pointerToConstIntMember pointerToIntMember := by
  refine ⟨by rfl, ?_, by rfl, rfl, rfl, ?_, rfl, ?_⟩
  . rintro ⟨hmember, _⟩
    exact absurd hmember (by decide)
  . exact .cons (by unfold Includes; decide) .nil
  . intro i hdiffer j hj l hl
    cases i with
    | zero => omega
    | succ i => exact absurd rfl hdiffer

end TypeInfo

end LibCxxRt
