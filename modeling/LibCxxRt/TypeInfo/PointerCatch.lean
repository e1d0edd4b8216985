import LibCxxRt.TypeInfo.Impl
import Mathlib.Data.List.Forall2

/-!
This module contains the result about `__pbase_type_info::__do_catch`: for which handlers and thrown
types it follows the rule of the language for the conversion of pointers.

`Below` follows the two types through the levels that the code accepts, its first argument is the low
bit of the parameter `outer`.
-/

namespace LibCxxRt

namespace TypeInfo

-- const, volatile and restrict, the other flags are about incomplete types
def qualifiers (flags : BitVec 32) : BitVec 32 :=
  flags &&& 0x7

def isConst (flags : BitVec 32) : Bool :=
  flags &&& 0x1 != 0

-- the flags at the levels of an ordinary pointer type
def levels : TypeInfo → List (BitVec 32)
  | .pointerType _ _ flags pointee => flags :: pointee.levels
  | _ => []

def innermost : TypeInfo → TypeInfo
  | .pointerType _ _ _ pointee => pointee.innermost
  | type => type

def isFunctionP : TypeInfo → Bool
  | .functionType _ _ => true
  | _ => false

-- the types at all levels
def chain : TypeInfo → List TypeInfo
  | .pointerType self name flags pointee => .pointerType self name flags pointee :: pointee.chain
  | .pointerToMemberType self name flags pointee context =>
    .pointerToMemberType self name flags pointee context :: pointee.chain
  | type => [type]

def Includes (flags exFlags : BitVec 32) : Prop :=
  qualifiers exFlags &&& ~~~flags = 0

structure QualificationConversion (type exType : TypeInfo) : Prop where
  included : List.Forall₂ Includes type.levels exType.levels
  innermost : type.innermost.self = exType.innermost.self
  const : ∀ i : Nat, type.levels[i]?.map qualifiers ≠ exType.levels[i]?.map qualifiers →
    ∀ j < i, ∀ flags, type.levels[j]? = some flags → isConst flags = true

-- the conversion to a pointer to a base class
inductive BaseConversion (m : Mem) (obj : Addr) : TypeInfo → TypeInfo → Prop where
  | mk {self name self' name' : Addr} {flags exFlags : BitVec 32} {c d : ClassTypeInfo} {obj' : Addr}
      (hflags : Includes flags exFlags) (hupcast : d.doUpcast m c obj = .ok (true, obj')) :
      BaseConversion m obj (.pointerType self name flags (.class c))
        (.pointerType self' name' exFlags (.class d))

inductive VoidConversion (voidName : Addr) : TypeInfo → TypeInfo → Prop where
  | mk {self name self' name' : Addr} {flags exFlags : BitVec 32} {pointee exPointee : TypeInfo}
      (hflags : Includes flags exFlags) (hvoid : pointee.name = voidName)
      (hfunction : exPointee.isFunctionP = false) :
      VoidConversion voidName (.pointerType self name flags pointee)
        (.pointerType self' name' exFlags exPointee)

-- the rule of the language, the handler is for an ordinary pointer type
def Handles (m : Mem) (voidName obj : Addr) (type exType : TypeInfo) : Prop :=
  exType.self = type.self ∨ exType.isPointerP = true
    ∧ (QualificationConversion type exType ∨ BaseConversion m obj type exType
      ∨ VoidConversion voidName type exType)

-- Equal types are the same object, and `void` is a fundamental type.
structure Interned (voidName : Addr) (type exType : TypeInfo) : Prop where
  eq_of_self : ∀ t ∈ type.chain, ∀ t' ∈ exType.chain, t.self = t'.self → t = t'
  self_eq : ∀ t ∈ type.chain, ∀ t' ∈ exType.chain,
    t.levels.map qualifiers = t'.levels.map qualifiers → t.innermost.self = t'.innermost.self →
      t.self = t'.self
  fundamental : ∀ t ∈ type.chain, t.name = voidName → ∃ self, t = .fundamentalType self voidName

/--
The types below `n` levels at which the flags of the handler include those of the thrown type. All but
the last of the levels are const. With `ordinary` the handler is an ordinary pointer at all of them.
-/
inductive Below : (outer : Bool) → (type exType : TypeInfo) → (n : Nat) → (ordinary : Bool) →
    (pointee exPointee : TypeInfo) → Prop where
  | zero (outer : Bool) (type exType : TypeInfo) : Below outer type exType 0 true type exType
  | pointer {self name flags pointee self' name' exFlags exPointee n ordinary t t'}
      (hflags : exFlags &&& ~~~flags = 0)
      (hrest : Below (isConst flags) pointee exPointee n ordinary t t') :
      Below true (.pointerType self name flags pointee)
        (.pointerType self' name' exFlags exPointee) (n + 1) ordinary t t'
  | member {self name flags pointee context self' name' exFlags exPointee n ordinary t t'}
      (hflags : exFlags &&& ~~~flags = 0)
      (hrest : Below (isConst flags) pointee exPointee n ordinary t t') :
      Below true (.pointerToMemberType self name flags pointee context)
        (.pointerType self' name' exFlags exPointee) (n + 1) false t t'

-- where the code accepts the types below some levels
inductive Accepts (m : Mem) (voidName obj : Addr) : TypeInfo → TypeInfo → Prop where
  | same {type exType : TypeInfo} (hself : exType.self = type.self) :
      Accepts m voidName obj type exType
  | void {type exType : TypeInfo} (hvoid : type.name = voidName) : Accepts m voidName obj type exType
  | base {c d : ClassTypeInfo} {obj' : Addr} (hupcast : d.doUpcast m c obj = .ok (true, obj')) :
      Accepts m voidName obj (.class c) (.class d)

/--
A handler that is not for the thrown type by the rule: a `void*` catches a pointer to a function, a
pointer to `void` or to a base class below the first level is taken for the thrown type, or a pointer to
a member is taken for an ordinary pointer.
-/
inductive FalseCatch (m : Mem) (voidName obj : Addr) (type exType : TypeInfo) : Prop where
  | function {pointee exPointee : TypeInfo} (hbelow : Below true type exType 1 true pointee exPointee)
      (hvoid : pointee.name = voidName) (hfunction : exPointee.isFunctionP = true) :
      FalseCatch m voidName obj type exType
  | void {pointee exPointee : TypeInfo} {n : Nat}
      (hbelow : Below true type exType (n + 2) true pointee exPointee)
      (hvoid : pointee.name = voidName) (hne : exPointee.self ≠ pointee.self) :
      FalseCatch m voidName obj type exType
  | base {c d : ClassTypeInfo} {n : Nat} {obj' : Addr}
      (hbelow : Below true type exType (n + 2) true (.class c) (.class d))
      (hupcast : d.doUpcast m c obj = .ok (true, obj')) (hne : d.self ≠ c.self) :
      FalseCatch m voidName obj type exType
  | member {pointee exPointee : TypeInfo} {n : Nat}
      (hbelow : Below true type exType n false pointee exPointee)
      (haccepts : Accepts m voidName obj pointee exPointee) : FalseCatch m voidName obj type exType

-- The flags of the thrown type about incomplete types are ones that the handler does not have.
def FalseMiss (m : Mem) (voidName obj : Addr) (type exType : TypeInfo) : Prop :=
  Handles m voidName obj type exType
    ∧ ∃ x ∈ type.levels.zip exType.levels, x.2 &&& ~~~x.1 ≠ 0

variable {m : Mem} {voidName obj : Addr} {type exType : TypeInfo}

theorem isConst_outer (outer flags : BitVec 32)
    : isConst (if flags &&& 1 = 0 then outer &&& ~~~1 else outer)
        =
      (isConst outer && isConst flags) := by
  have hclear : outer &&& ~~~1 &&& 1 = 0 := by
    rw [BitVec.and_assoc, BitVec.and_comm (~~~1)]
    simp
  by_cases hflags : flags &&& 1 = 0
  . have hconst : isConst flags = false := bne_eq_false_iff_eq.2 hflags
    rw [if_pos hflags, hconst, Bool.and_false]
    exact bne_eq_false_iff_eq.2 hclear
  . have hconst : isConst flags = true := bne_iff_ne.2 hflags
    rw [if_neg hflags, hconst, Bool.and_true]

-- where the code accepts two types as they are
def Caught (m : Mem) (voidName obj : Addr) (outer : Bool) (type exType : TypeInfo) : Prop :=
  exType.self = type.self
    ∨ (∃ c d obj', type = .class c ∧ exType = .class d ∧ d.doUpcast m c obj = .ok (true, obj'))
    ∨ ∃ n ordinary pointee exPointee, Below outer type exType (n + 1) ordinary pointee exPointee
      ∧ Accepts m voidName obj pointee exPointee

theorem void_or_caught_iff (outer : Bool)
    : type.name = voidName ∨ Caught m voidName obj outer type exType
        ↔
      ∃ n ordinary pointee exPointee, Below outer type exType n ordinary pointee exPointee
        ∧ Accepts m voidName obj pointee exPointee := by
  constructor
  . rintro (hvoid | hself | ⟨c, d, obj', rfl, rfl, hupcast⟩ | ⟨n, o, t, t', hbelow, haccepts⟩)
    . exact ⟨0, true, type, exType, .zero .., .void hvoid⟩
    . exact ⟨0, true, type, exType, .zero .., .same hself⟩
    . exact ⟨0, true, _, _, .zero .., .base hupcast⟩
    . exact ⟨n + 1, o, t, t', hbelow, haccepts⟩
  . rintro ⟨n, o, t, t', hbelow, haccepts⟩
    cases n with
    | succ n => exact .inr (.inr (.inr ⟨n, o, t, t', hbelow, haccepts⟩))
    | zero =>
      cases hbelow
      cases haccepts with
      | same hself => exact .inr (.inl hself)
      | void hvoid => exact .inl hvoid
      | base hupcast => exact .inr (.inr (.inl ⟨_, _, _, rfl, rfl, hupcast⟩))

theorem pbaseDoCatch_iff {self : Addr} {flags : BitVec 32} {pointee exType : TypeInfo}
    {outer : BitVec 32} {catchPointee : TypeInfo → Addr → BitVec 32 → Res (Bool × Addr)}
    (hpointee : ∀ exType outer, (∃ obj', catchPointee exType obj outer = .ok (true, obj'))
      ↔ Caught m voidName obj (isConst outer) pointee exType)
    : (∃ obj', pbaseDoCatch voidName self flags pointee exType obj outer catchPointee
          = .ok (true, obj'))
        ↔
      exType.self = self ∨ isConst outer = true ∧ ∃ self' name' exFlags exPointee,
        exType = .pointerType self' name' exFlags exPointee ∧ exFlags &&& ~~~flags = 0
          ∧ ∃ n ordinary t t', Below (isConst flags) pointee exPointee n ordinary t t'
            ∧ Accepts m voidName obj t t' := by
  simp only [← void_or_caught_iff]
  unfold pbaseDoCatch
  by_cases hself : exType.self = self
  . rw [if_pos hself]
    exact iff_of_true ⟨_, rfl⟩ (.inl hself)
  . rw [if_neg hself]
    simp only [hself, false_or]
    cases exType with
    | pointerType self' name' exFlags exPointee =>
      simp only [pointerType.injEq, ↓existsAndEq, true_and]
      by_cases houter : outer &&& 1 = 0
      . have hconst : isConst outer = false := bne_eq_false_iff_eq.2 houter
        rw [if_pos houter]
        exact iff_of_false (by simp) (by simp [hconst])
      . have hconst : isConst outer = true := bne_iff_ne.2 houter
        rw [if_neg houter]
        by_cases hflags : exFlags &&& ~~~flags = 0
        . rw [if_neg (not_not.2 hflags)]
          by_cases hvoid : pointee.name = voidName
          . rw [if_pos hvoid]
            exact iff_of_true ⟨_, rfl⟩ ⟨hconst, hflags, .inl hvoid⟩
          . rw [if_neg hvoid, hpointee, isConst_outer, hconst, Bool.true_and]
            simp only [hflags, hvoid, false_or, true_and]
        . rw [if_pos hflags]
          refine iff_of_false (by simp) ?_
          rintro ⟨_, heq, _⟩
          exact hflags heq
    | _ => simp

theorem same_iff (self exSelf obj : Addr)
    : (∃ obj', (.ok (self == exSelf, obj) : Res (Bool × Addr)) = .ok (true, obj')) ↔ exSelf = self := by
  constructor
  . rintro ⟨obj', heq⟩
    simp only [Except.ok.injEq, Prod.mk.injEq, beq_iff_eq] at heq
    exact heq.1.symm
  . rintro rfl
    exact ⟨obj, by simp⟩

theorem caught_leaf_iff {outer : Bool} (hleaf : ∀ exType n ordinary pointee exPointee,
      ¬ Below outer type exType (n + 1) ordinary pointee exPointee) (hclass : ∀ c, type ≠ .class c)
    : Caught m voidName obj outer type exType ↔ exType.self = type.self := by
  constructor
  . rintro (hself | ⟨c, _, _, heq, _⟩ | ⟨_, _, _, _, hbelow, _⟩)
    . exact hself
    . exact absurd heq (hclass c)
    . exact absurd hbelow (hleaf _ _ _ _ _)
  . exact .inl

theorem doCatch_iff (m : Mem) (voidName obj : Addr) (type exType : TypeInfo) (outer : BitVec 32)
    : (∃ obj', type.doCatch m voidName exType obj outer = .ok (true, obj'))
        ↔
      Caught m voidName obj (isConst outer) type exType := by
  induction type generalizing exType outer with
  | pointerType self name flags pointee ih =>
    rw [doCatch, pbaseDoCatch_iff ih]
    generalize isConst outer = o
    constructor
    . rintro (hself | ⟨rfl, _, _, _, _, rfl, hflags, n, ordinary, t, t', hbelow, haccepts⟩)
      . exact .inl hself
      . exact .inr (.inr ⟨n, ordinary, t, t', .pointer hflags hbelow, haccepts⟩)
    . rintro (hself | ⟨_, _, _, heq, _⟩ | ⟨n, ordinary, t, t', hbelow, haccepts⟩)
      . exact .inl hself
      . contradiction
      . cases hbelow with
        | pointer hflags hrest =>
          exact .inr ⟨rfl, _, _, _, _, rfl, hflags, n, ordinary, t, t', hrest, haccepts⟩
  | pointerToMemberType self name flags pointee context ih =>
    rw [doCatch, pbaseDoCatch_iff ih]
    generalize isConst outer = o
    constructor
    . rintro (hself | ⟨rfl, _, _, _, _, rfl, hflags, n, ordinary, t, t', hbelow, haccepts⟩)
      . exact .inl hself
      . exact .inr (.inr ⟨n, false, t, t', .member hflags hbelow, haccepts⟩)
    . rintro (hself | ⟨_, _, _, heq, _⟩ | ⟨n, ordinary, t, t', hbelow, haccepts⟩)
      . exact .inl hself
      . contradiction
      . cases hbelow with
        | member hflags hrest =>
          exact .inr ⟨rfl, _, _, _, _, rfl, hflags, n, _, t, t', hrest, haccepts⟩
  | «class» c =>
    generalize isConst outer = o
    unfold doCatch
    split
    . next hself => exact iff_of_true ⟨_, rfl⟩ (.inl hself.symm)
    . next hself =>
      constructor
      . rintro ⟨obj', hupcast⟩
        cases exType with
        | «class» d => exact .inr (.inl ⟨c, d, obj', rfl, rfl, hupcast⟩)
        | _ => simp [doUpcast] at hupcast
      . rintro (hself' | ⟨_, d, obj', heq, rfl, hupcast⟩ | ⟨_, _, _, _, hbelow, _⟩)
        . exact absurd hself'.symm hself
        . cases heq
          exact ⟨obj', hupcast⟩
        . cases hbelow
  | _ =>
    generalize isConst outer = o
    rw [caught_leaf_iff (fun _ _ _ _ _ hbelow => by cases hbelow) (by simp)]
    exact same_iff ..

theorem includes_of_and_not {flags exFlags : BitVec 32} (hflags : exFlags &&& ~~~flags = 0)
    : Includes flags exFlags := by
  unfold Includes qualifiers
  rw [BitVec.and_assoc, BitVec.and_comm 0x7, ← BitVec.and_assoc, hflags]
  exact BitVec.zero_and

theorem mem_chain (type : TypeInfo)
    : type ∈ type.chain := by
  cases type <;> simp [chain]

theorem innermost_of_levels (hlevels : type.levels = [])
    : type.innermost = type := by
  cases type with
  | pointerType self name flags pointee => contradiction
  | _ => rfl

namespace Below

variable {outer ordinary : Bool} {n : Nat} {t t' : TypeInfo}

theorem outer_eq (h : Below outer type exType (n + 1) ordinary t t')
    : outer = true := by
  cases h <;> rfl

theorem zero_cases (h : Below outer type exType 0 ordinary t t')
    : ordinary = true ∧ type = t ∧ exType = t' := by
  cases h
  exact ⟨rfl, rfl, rfl⟩

theorem mem_chain (h : Below outer type exType n ordinary t t')
    : t ∈ type.chain ∧ t' ∈ exType.chain := by
  induction h with
  | zero => exact ⟨TypeInfo.mem_chain _, TypeInfo.mem_chain _⟩
  | pointer _ _ ih => exact ⟨List.mem_cons_of_mem _ ih.1, List.mem_cons_of_mem _ ih.2⟩
  | member _ _ ih => exact ⟨List.mem_cons_of_mem _ ih.1, List.mem_cons_of_mem _ ih.2⟩

theorem eq_of_eq (h : Below outer type exType n ordinary t t') (heq : type = exType)
    : t = t' ∧ ordinary = true := by
  induction h with
  | zero => exact ⟨heq, rfl⟩
  | pointer _ _ ih =>
    cases heq
    exact ih rfl
  | member => contradiction

-- a pointer to a member ends the levels of the handler
theorem length_lt (h : Below outer type exType n ordinary t t') (hmember : ordinary = false)
    : type.levels.length < exType.levels.length := by
  induction h with
  | zero => contradiction
  | pointer _ _ ih => simpa [levels] using ih hmember
  | member => simp [levels]

theorem levels_eq (h : Below outer type exType n ordinary t t') (hordinary : ordinary = true)
    : ∃ fs gs, type.levels = fs ++ t.levels ∧ exType.levels = gs ++ t'.levels ∧ fs.length = n
        ∧ List.Forall₂ (fun f g => g &&& ~~~f = 0) fs gs
        ∧ ∀ j f, j + 1 < n → fs[j]? = some f → isConst f = true := by
  induction h with
  | zero => exact ⟨[], [], rfl, rfl, rfl, .nil, by simp⟩
  | @pointer _ _ flags _ _ _ exFlags _ n _ _ _ hflags hrest ih =>
    rcases ih hordinary with ⟨fs, gs, htype, hexType, hlen, hincluded, hconst⟩
    refine ⟨flags :: fs, exFlags :: gs, ?_, ?_, ?_, .cons hflags hincluded, ?_⟩
    . rw [levels, htype, List.cons_append]
    . rw [levels, hexType, List.cons_append]
    . rw [List.length_cons, hlen]
    . intro j f hj hf
      cases j with
      | zero =>
        cases hf
        cases n with
        | zero => omega
        | succ n => exact hrest.outer_eq
      | succ j => exact hconst j f (by omega) hf
  | member => contradiction

theorem innermost_eq (h : Below outer type exType n ordinary t t') (hordinary : ordinary = true)
    : type.innermost = t.innermost ∧ exType.innermost = t'.innermost := by
  induction h with
  | zero => exact ⟨rfl, rfl⟩
  | pointer _ _ ih => exact ih hordinary
  | member => contradiction

theorem qualificationConversion (h : Below outer type exType n true t t)
    : QualificationConversion type exType := by
  rcases h.levels_eq rfl with ⟨fs, gs, htype, hexType, hlen, hincluded, hconst⟩
  have hlen' : gs.length = n := hincluded.length_eq.symm.trans hlen
  refine ⟨?_, ?_, ?_⟩
  . rw [htype, hexType]
    refine List.rel_append (hincluded.imp fun _ _ => includes_of_and_not) ?_
    apply List.forall₂_same.2
    intro f _
    exact includes_of_and_not (BitVec.and_not_self _)
  . rw [(h.innermost_eq rfl).1, (h.innermost_eq rfl).2]
  . intro i hdiffer j hj f hf
    rw [htype, hexType] at hdiffer
    have hi : i < n := by
      by_contra hge
      apply hdiffer
      rw [List.getElem?_append_right (by omega), List.getElem?_append_right (by omega), hlen, hlen']
    rw [htype, List.getElem?_append_left (by omega)] at hf
    exact hconst j f (by omega) hf

end Below

theorem exists_getElem?_ne {fs gs : List (BitVec 32)}
    (hdiffer : fs.map qualifiers ≠ gs.map qualifiers)
    : ∃ i : Nat, fs[i]?.map qualifiers ≠ gs[i]?.map qualifiers := by
  by_contra hsame
  apply hdiffer
  apply List.ext_getElem?
  intro i
  rw [List.getElem?_map, List.getElem?_map]
  by_contra hne
  exact hsame ⟨i, hne⟩

-- the induction is on the handler, equal types below a level that is not const are one object
theorem caught_of_qualifies {outer : Bool}
    (hincluded : List.Forall₂ (fun f g => g &&& ~~~f = 0) type.levels exType.levels)
    (hinnermost : type.innermost.self = exType.innermost.self)
    (hconst : ∀ i : Nat, type.levels[i]?.map qualifiers ≠ exType.levels[i]?.map qualifiers →
      ∀ j < i, ∀ flags, type.levels[j]? = some flags → isConst flags = true)
    (houter : type.levels.map qualifiers ≠ exType.levels.map qualifiers → outer = true)
    (hinterned : ∀ t ∈ type.chain, ∀ t' ∈ exType.chain,
      t.levels.map qualifiers = t'.levels.map qualifiers → t.innermost.self = t'.innermost.self →
        t.self = t'.self)
    : Caught m voidName obj outer type exType := by
  induction type generalizing exType outer with
  | pointerType self name flags pointee ih =>
    cases exType with
    | pointerType self' name' exFlags exPointee =>
      rcases List.forall₂_cons.1 hincluded with ⟨hflags, hincluded⟩
      by_cases heq : (pointerType self name flags pointee).levels.map qualifiers
          = (pointerType self' name' exFlags exPointee).levels.map qualifiers
      . exact .inl (hinterned _ (mem_chain _) _ (mem_chain _) heq hinnermost).symm
      . have hpointee : Caught m voidName obj (isConst flags) pointee exPointee := by
          apply ih hincluded hinnermost
          . intro i hdiffer j hj f hf
            exact hconst (i + 1) hdiffer (j + 1) (by omega) f hf
          . intro hdiffer
            rcases exists_getElem?_ne hdiffer with ⟨i, hindex⟩
            exact hconst (i + 1) hindex 0 (by omega) flags rfl
          . intro t ht t' ht'
            exact hinterned t (List.mem_cons_of_mem _ ht) t' (List.mem_cons_of_mem _ ht')
        rcases (void_or_caught_iff _).1 (.inr hpointee) with ⟨n, o, t, t', hbelow, haccepts⟩
        have houter := houter heq
        subst houter
        exact .inr (.inr ⟨n, o, t, t', .pointer hflags hbelow, haccepts⟩)
    | _ => cases hincluded
  | _ =>
    have hlevels := List.forall₂_nil_left_iff.1 hincluded
    rw [innermost_of_levels hlevels] at hinnermost
    exact .inl hinnermost.symm

theorem FalseCatch.caught (hcatch : FalseCatch m voidName obj type exType)
    : Caught m voidName obj true type exType := by
  cases hcatch with
  | function hbelow hvoid _ => exact .inr (.inr ⟨_, _, _, _, hbelow, .void hvoid⟩)
  | void hbelow hvoid _ => exact .inr (.inr ⟨_, _, _, _, hbelow, .void hvoid⟩)
  | base hbelow hupcast _ => exact .inr (.inr ⟨_, _, _, _, hbelow, .base hupcast⟩)
  | @member _ _ n hbelow haccepts =>
    cases n with
    | zero => cases hbelow
    | succ n => exact .inr (.inr ⟨n, _, _, _, hbelow, haccepts⟩)

section

variable {n : Nat} {ordinary : Bool} {t t' pointee : TypeInfo}

-- the levels of the handler end where those of the thrown type do
theorem Below.self_eq_of_qualifies (h : Below true type exType n true t t')
    (hconversion : QualificationConversion type exType) (hlevels : t.levels = [])
    : t.self = t'.self := by
  rcases h.levels_eq rfl with ⟨fs, gs, htype, hexType, hlen, hincluded, _⟩
  have hlength := hconversion.included.length_eq
  have hlevels' : t'.levels = [] := by
    rw [htype, hexType, List.length_append, List.length_append, hincluded.length_eq, hlevels]
      at hlength
    exact List.eq_nil_of_length_eq_zero (by simpa using hlength.symm)
  have hinnermost := hconversion.innermost
  rw [(h.innermost_eq rfl).1, (h.innermost_eq rfl).2, innermost_of_levels hlevels,
    innermost_of_levels hlevels'] at hinnermost
  exact hinnermost

theorem Below.of_leaf {self name : Addr} {flags : BitVec 32}
    (hleaf : ∀ outer exType n ordinary t t', ¬ Below outer pointee exType (n + 1) ordinary t t')
    (h : Below true (.pointerType self name flags pointee) exType n ordinary t t')
    : ordinary = true ∧ n ≤ 1 := by
  cases h with
  | zero => exact ⟨rfl, by omega⟩
  | @pointer _ _ _ _ _ _ _ _ n _ _ _ _ hrest =>
    cases n with
    | zero => exact ⟨hrest.zero_cases.1, by omega⟩
    | succ n => exact absurd hrest (hleaf _ _ _ _ _ _)

theorem FalseCatch.not_qualificationConversion (hinterned : Interned voidName type exType)
    (hcatch : FalseCatch m voidName obj type exType)
    : ¬ QualificationConversion type exType := by
  intro hconversion
  cases hcatch with
  | @function t t' hbelow hvoid hfunction =>
    rcases hinterned.fundamental t hbelow.mem_chain.1 hvoid with ⟨self, rfl⟩
    have hself := hbelow.self_eq_of_qualifies hconversion rfl
    have heq := hinterned.eq_of_self _ hbelow.mem_chain.1 _ hbelow.mem_chain.2 hself
    subst heq
    contradiction
  | @void t t' n hbelow hvoid hne =>
    rcases hinterned.fundamental t hbelow.mem_chain.1 hvoid with ⟨self, rfl⟩
    exact hne (hbelow.self_eq_of_qualifies hconversion rfl).symm
  | base hbelow _ hne => exact hne (hbelow.self_eq_of_qualifies hconversion rfl).symm
  | member hbelow _ =>
    have hlength := hbelow.length_lt rfl
    rw [hconversion.included.length_eq] at hlength
    omega

theorem FalseCatch.self_ne (hinterned : Interned voidName type exType)
    (hcatch : FalseCatch m voidName obj type exType)
    : exType.self ≠ type.self := by
  intro hself
  have heq := hinterned.eq_of_self type (mem_chain _) exType (mem_chain _) hself.symm
  cases hcatch with
  | @function t t' hbelow hvoid hfunction =>
    rcases hinterned.fundamental t hbelow.mem_chain.1 hvoid with ⟨self, rfl⟩
    cases (hbelow.eq_of_eq heq).1
    contradiction
  | void hbelow _ hne => exact hne (congrArg TypeInfo.self (hbelow.eq_of_eq heq).1.symm)
  | base hbelow _ hne => exact hne (congrArg TypeInfo.self (hbelow.eq_of_eq heq).1.symm)
  | member hbelow _ => exact absurd (hbelow.eq_of_eq heq).2 (by simp)

theorem FalseCatch.not_of_leaf {self name : Addr} {flags : BitVec 32}
    (hleaf : ∀ outer exType n ordinary t t', ¬ Below outer pointee exType (n + 1) ordinary t t')
    (hcatch : FalseCatch m voidName obj (.pointerType self name flags pointee) exType)
    : pointee.name = voidName ∧ ∃ self' name' exFlags exPointee,
        exType = .pointerType self' name' exFlags exPointee ∧ exPointee.isFunctionP = true := by
  cases hcatch with
  | function hbelow hvoid hfunction =>
    cases hbelow with
    | pointer _ hrest =>
      rcases hrest.zero_cases with ⟨_, rfl, rfl⟩
      exact ⟨hvoid, _, _, _, _, rfl, hfunction⟩
  | void hbelow => exact absurd (hbelow.of_leaf hleaf).2 (by omega)
  | base hbelow => exact absurd (hbelow.of_leaf hleaf).2 (by omega)
  | member hbelow => exact absurd (hbelow.of_leaf hleaf).1 (by simp)

theorem FalseCatch.not_handles (hinterned : Interned voidName type exType)
    (hcatch : FalseCatch m voidName obj type exType)
    : ¬ Handles m voidName obj type exType := by
  rintro (hself | ⟨_, hconversion | hbase | hvoid⟩)
  . exact hcatch.self_ne hinterned hself
  . exact hcatch.not_qualificationConversion hinterned hconversion
  . cases hbase with
    | @mk self name self' name' flags exFlags c d obj' hflags hupcast =>
      have hvoid := (hcatch.not_of_leaf fun _ _ _ _ _ _ h => by cases h).1
      have hmem : TypeInfo.class c ∈ (pointerType self name flags (.class c)).chain := by
        simp [chain]
      rcases hinterned.fundamental _ hmem hvoid with ⟨_, heq⟩
      contradiction
  . cases hvoid with
    | @mk self name self' name' flags exFlags pointee exPointee hflags hvoid hfunction =>
      have hmem : pointee ∈ (pointerType self name flags pointee).chain :=
        List.mem_cons_of_mem _ (mem_chain _)
      rcases hinterned.fundamental _ hmem hvoid with ⟨_, rfl⟩
      rcases (hcatch.not_of_leaf fun _ _ _ _ _ _ h => by cases h).2 with ⟨_, _, _, _, heq, htrue⟩
      cases heq
      simp [hfunction] at htrue

theorem Below.isPointerP (hbelow : Below true type exType (n + 1) ordinary t t')
    : exType.isPointerP = true := by
  cases hbelow <;> rfl

theorem Below.handles_of_self (hinterned : Interned voidName type exType)
    (hbelow : Below true type exType (n + 1) true t t') (hself : t'.self = t.self)
    : Handles m voidName obj type exType := by
  have heq := hinterned.eq_of_self _ hbelow.mem_chain.1 _ hbelow.mem_chain.2 hself.symm
  subst heq
  exact .inr ⟨hbelow.isPointerP, .inl hbelow.qualificationConversion⟩

-- the conversions of the rule are those at the first level
theorem Below.handles_or_falseCatch (hinterned : Interned voidName type exType)
    (hbelow : Below true type exType (n + 1) ordinary t t')
    (haccepts : Accepts m voidName obj t t')
    : Handles m voidName obj type exType ∨ FalseCatch m voidName obj type exType := by
  cases ordinary with
  | false => exact .inr (.member hbelow haccepts)
  | true =>
    by_cases hself : t'.self = t.self
    . exact .inl (hbelow.handles_of_self hinterned hself)
    . cases n with
      | succ n =>
        cases haccepts with
        | same hself' => contradiction
        | void hvoid => exact .inr (.void hbelow hvoid hself)
        | base hupcast => exact .inr (.base hbelow hupcast hself)
      | zero =>
        cases hbelow with
        | @pointer _ _ flags _ _ _ exFlags exPointee _ _ _ _ hflags hrest =>
          rcases hrest.zero_cases with ⟨_, rfl, rfl⟩
          have hincluded : Includes flags exFlags := includes_of_and_not hflags
          cases haccepts with
          | same hself' => contradiction
          | base hupcast => exact .inl (.inr ⟨rfl, .inr (.inl (.mk hincluded hupcast))⟩)
          | void hvoid =>
            cases hfunction : exPointee.isFunctionP with
            | false => exact .inl (.inr ⟨rfl, .inr (.inr (.mk hincluded hvoid hfunction))⟩)
            | true => exact .inr (.function (.pointer hflags (.zero ..)) hvoid hfunction)

theorem Caught.handles_or_falseCatch {self name : Addr} {flags : BitVec 32}
    (hinterned : Interned voidName (.pointerType self name flags pointee) exType)
    (hcaught : Caught m voidName obj true (.pointerType self name flags pointee) exType)
    : Handles m voidName obj (.pointerType self name flags pointee) exType
        ∨ FalseCatch m voidName obj (.pointerType self name flags pointee) exType := by
  rcases hcaught with hself | ⟨_, _, _, heq, _⟩ | ⟨n, ordinary, t, t', hbelow, haccepts⟩
  . exact .inl (.inl hself)
  . contradiction
  . exact hbelow.handles_or_falseCatch hinterned haccepts

theorem Handles.caught {self name : Addr} {flags : BitVec 32}
    (hinterned : Interned voidName (.pointerType self name flags pointee) exType)
    (hhandles : Handles m voidName obj (.pointerType self name flags pointee) exType)
    (hflags : ∀ x ∈ (pointerType self name flags pointee).levels.zip exType.levels,
      x.2 &&& ~~~x.1 = 0)
    : Caught m voidName obj true (.pointerType self name flags pointee) exType := by
  rcases hhandles with hself | ⟨_, hconversion | hbase | hvoid⟩
  . exact .inl hself
  . refine caught_of_qualifies ?_ hconversion.innermost hconversion.const (fun _ => rfl)
      hinterned.self_eq
    refine List.forall₂_iff_zip.2 ⟨hconversion.included.length_eq, ?_⟩
    intro f g hmem
    exact hflags (f, g) hmem
  . cases hbase with
    | mk _ hupcast =>
      exact .inr (.inr ⟨0, true, _, _, .pointer (hflags _ List.mem_cons_self) (.zero ..),
        .base hupcast⟩)
  . cases hvoid with
    | mk _ hvoid _ =>
      exact .inr (.inr ⟨0, true, _, _, .pointer (hflags _ List.mem_cons_self) (.zero ..),
        .void hvoid⟩)

theorem Accepts.levels (hinterned : Interned voidName type exType) (hmem : t ∈ type.chain)
    (hmem' : t' ∈ exType.chain) (haccepts : Accepts m voidName obj t t')
    : t = t' ∨ t.levels = [] := by
  cases haccepts with
  | same hself => exact .inl (hinterned.eq_of_self t hmem t' hmem' hself.symm)
  | void hvoid =>
    rcases hinterned.fundamental t hmem hvoid with ⟨self, rfl⟩
    exact .inr rfl
  | base => exact .inr rfl

theorem and_not_of_mem_zip_self {fs : List (BitVec 32)} {x : BitVec 32 × BitVec 32}
    (hmem : x ∈ fs.zip fs)
    : x.2 &&& ~~~x.1 = 0 := by
  have hself : List.Forall₂ (fun f g : BitVec 32 => g &&& ~~~f = 0) fs fs := by
    apply List.forall₂_same.2
    intro f _
    exact BitVec.and_not_self f
  exact List.forall₂_zip hself hmem

-- the code compares all flags at the levels that it comes to
theorem Below.and_not_of_mem_zip (hbelow : Below true type exType n true t t')
    (hend : t = t' ∨ t.levels = []) {x : BitVec 32 × BitVec 32}
    (hmem : x ∈ type.levels.zip exType.levels)
    : x.2 &&& ~~~x.1 = 0 := by
  rcases hbelow.levels_eq rfl with ⟨fs, gs, htype, hexType, _, hincluded, _⟩
  rw [htype, hexType, List.zip_append hincluded.length_eq, List.mem_append] at hmem
  rcases hmem with hmem | hmem
  . exact List.forall₂_zip hincluded hmem
  . rcases hend with rfl | hlevels
    . exact and_not_of_mem_zip_self hmem
    . rw [hlevels, List.zip_nil_left] at hmem
      contradiction

theorem FalseMiss.not_caught {self name : Addr} {flags : BitVec 32}
    (hinterned : Interned voidName (.pointerType self name flags pointee) exType)
    (hmiss : FalseMiss m voidName obj (.pointerType self name flags pointee) exType)
    : ¬ Caught m voidName obj true (.pointerType self name flags pointee) exType := by
  intro hcaught
  rcases hmiss with ⟨hhandles, x, hmem, hne⟩
  rcases hcaught with hself | ⟨_, _, _, heq, _⟩ | ⟨n, ordinary, t, t', hbelow, haccepts⟩
  . have heq := hinterned.eq_of_self _ (mem_chain _) _ (mem_chain _) hself.symm
    rw [← heq] at hmem
    exact hne (and_not_of_mem_zip_self hmem)
  . contradiction
  . cases ordinary with
    | false => exact (FalseCatch.member hbelow haccepts).not_handles hinterned hhandles
    | true =>
      have hend := haccepts.levels hinterned hbelow.mem_chain.1 hbelow.mem_chain.2
      exact hne (hbelow.and_not_of_mem_zip hend hmem)

/--
The code handles pointers by the rule, except for what it takes for a conversion and for the flags about
incomplete types, which it compares like qualifiers.
-/
theorem doCatch_eq_handles_iff {self name : Addr} {flags : BitVec 32}
    (hinterned : Interned voidName (.pointerType self name flags pointee) exType)
    : ((∃ obj', (pointerType self name flags pointee).doCatch m voidName exType obj 1
            = .ok (true, obj'))
          ↔ Handles m voidName obj (.pointerType self name flags pointee) exType)
        ↔
      ¬ FalseMiss m voidName obj (.pointerType self name flags pointee) exType
        ∧ ¬ FalseCatch m voidName obj (.pointerType self name flags pointee) exType := by
  rw [doCatch_iff]
  constructor
  . intro hrule
    refine ⟨?_, ?_⟩
    . intro hmiss
      exact hmiss.not_caught hinterned (hrule.2 hmiss.1)
    . intro hcatch
      exact hcatch.not_handles hinterned (hrule.1 hcatch.caught)
  . rintro ⟨hmiss, hcatch⟩
    constructor
    . intro hcaught
      exact (hcaught.handles_or_falseCatch hinterned).resolve_right hcatch
    . intro hhandles
      apply hhandles.caught hinterned
      intro x hx
      by_contra hne
      exact hmiss ⟨hhandles, x, hx, hne⟩

end

namespace Sample

def voidType : TypeInfo := .fundamentalType 0x3000 0x4000

def int : TypeInfo := .fundamentalType 0x3100 0x4100

def function : TypeInfo := .functionType 0x3200 0x4200

def incomplete : ClassTypeInfo := .classType 0x3300 0x4300

def pointerToVoid : TypeInfo := .pointerType 0x3400 0x4400 0x0 voidType

def pointerToInt : TypeInfo := .pointerType 0x3500 0x4500 0x0 int

def pointerToConstInt : TypeInfo := .pointerType 0x3600 0x4600 0x1 int

def pointerToFunction : TypeInfo := .pointerType 0x3700 0x4700 0x0 function

def pointerToIncomplete : TypeInfo := .pointerType 0x3800 0x4800 0x8 (.class incomplete)

-- the type `void *const *`
def pointerToConstPointerToVoid : TypeInfo := .pointerType 0x3900 0x4900 0x1 pointerToVoid

def pointerToPointerToInt : TypeInfo := .pointerType 0x3a00 0x4a00 0x0 pointerToInt

end Sample

open TypeInfo.Sample in
theorem doCatch_eq_handles_iff_int
    : (∃ obj', pointerToConstInt.doCatch (fun _ => none) 0x4000 pointerToInt 0x10000 1
          = .ok (true, obj'))
        ↔
      Handles (fun _ => none) 0x4000 0x10000 pointerToConstInt pointerToInt := by
  have hinterned : Interned 0x4000 pointerToConstInt pointerToInt := by
    constructor <;> simp [pointerToConstInt, pointerToInt, int, chain, self, name, levels, innermost,
      qualifiers]
  refine (doCatch_eq_handles_iff hinterned).2 ⟨?_, ?_⟩
  . rintro ⟨_, x, hmem, hne⟩
    have hx : x = (0x1, 0x0) := List.mem_singleton.1 hmem
    subst hx
    exact hne (by decide)
  . intro hcatch
    have hname := (hcatch.not_of_leaf fun _ _ _ _ _ _ h => by cases h).1
    exact absurd hname (by decide)

open TypeInfo.Sample in
-- a `void*` catches a pointer to a function and misses one to an incomplete class
theorem doCatch_not_handles
    : Interned 0x4000 pointerToVoid pointerToFunction
        ∧ pointerToVoid.doCatch (fun _ => none) 0x4000 pointerToFunction 0x10000 1
          = .ok (true, 0x10000)
        ∧ ¬ Handles (fun _ => none) 0x4000 0x10000 pointerToVoid pointerToFunction
        ∧ Interned 0x4000 pointerToConstPointerToVoid pointerToPointerToInt
        ∧ pointerToConstPointerToVoid.doCatch (fun _ => none) 0x4000 pointerToPointerToInt 0x10000 1
          = .ok (true, 0x10000)
        ∧ ¬ Handles (fun _ => none) 0x4000 0x10000 pointerToConstPointerToVoid pointerToPointerToInt
        ∧ Interned 0x4000 pointerToVoid pointerToIncomplete
        ∧ pointerToVoid.doCatch (fun _ => none) 0x4000 pointerToIncomplete 0x10000 1
          = .ok (false, 0x10000)
        ∧ Handles (fun _ => none) 0x4000 0x10000 pointerToVoid pointerToIncomplete := by
  have hfunction : Interned 0x4000 pointerToVoid pointerToFunction := by
    constructor <;> simp [pointerToVoid, pointerToFunction, voidType, function, chain, self, name,
      innermost]
  have hpointer : Interned 0x4000 pointerToConstPointerToVoid pointerToPointerToInt := by
    constructor <;> simp [pointerToConstPointerToVoid, pointerToVoid, pointerToPointerToInt,
      pointerToInt, voidType, int, chain, self, name, innermost]
  have hincomplete : Interned 0x4000 pointerToVoid pointerToIncomplete := by
    constructor <;> simp [pointerToVoid, pointerToIncomplete, voidType, incomplete, chain, self, name,
      innermost, ClassTypeInfo.self]
  refine ⟨hfunction, by rfl, ?_, hpointer, by rfl, ?_, hincomplete, by rfl, ?_⟩
  . have hbelow : Below true pointerToVoid pointerToFunction 1 true voidType function :=
      .pointer (by decide) (.zero ..)
    exact (FalseCatch.function hbelow rfl rfl).not_handles hfunction
  . have hbelow : Below true pointerToConstPointerToVoid pointerToPointerToInt 2 true voidType int :=
      .pointer (by decide) (.pointer (by decide) (.zero ..))
    exact (FalseCatch.void hbelow rfl (by decide)).not_handles hpointer
  . exact .inr ⟨rfl, .inr (.inr (.mk (by unfold Includes; decide) rfl rfl))⟩

end TypeInfo

end LibCxxRt
