import LibCxxRt.TypeInfo.Hierarchy

/-!
This module contains the results about `__do_upcast`: what it does with the pointer, and for which
classes it follows the rule of the language for the conversion to a base class.
-/

namespace LibCxxRt

open Util
open ClassTypeInfo (hierarchy)

/--
An object of class `T` at `p` with the addresses of its subobjects. The offset of a virtual base is in
the vtable of the subobject that has the base.
-/
structure Layout (m : Mem) (T : ClassTypeInfo) (p : Addr) where
  address : Subobject Addr → Addr
  whole : address .whole = p
  base : ∀ c k, hierarchy.Path false T .whole c k → ∀ (i : Nat) (b : Base), c.bases[i]? = some b →
    b.isVirtual = false → address (hierarchy.step k i b) = address k + b.offset
  virtualBase : ∀ c k, hierarchy.Path false T .whole c k → ∀ (i : Nat) (b : Base),
    c.bases[i]? = some b → b.isVirtual = true →
      ∃ vtable offset, m.loadPtr (address k) = .ok vtable
        ∧ m.load (vtable + b.offset) 8 = .ok offset
        ∧ address (hierarchy.step k i b) = address k + offset

variable {m : Mem} {T : ClassTypeInfo} {p : Addr}

theorem Layout.cast (layout : Layout m T p) {c : ClassTypeInfo} {k : Subobject Addr}
    (hpath : hierarchy.Path false T .whole c k) {i : Nat} {b : Base} (hb : c.bases[i]? = some b)
    : b.cast m (layout.address k) = .ok (layout.address (hierarchy.step k i b)) := by
  unfold BaseClassTypeInfo.cast
  cases hvirtual : b.isVirtual with
  | false =>
    rw [layout.base c k hpath i b hb hvirtual]
    rfl
  | true =>
    rcases layout.virtualBase c k hpath i b hb hvirtual with ⟨vtable, offset, hvtable, hoffset, heq⟩
    simp only [↓reduceIte, hvtable, hoffset, heq, Res.ok_bind, Res.pure_eq_ok]

theorem cast_siBase (m : Mem) (baseType : ClassTypeInfo) (obj : Addr)
    : (BaseClassTypeInfo.mk baseType 0x2).cast m obj = .ok obj := by
  simp [BaseClassTypeInfo.cast, BaseClassTypeInfo.isVirtual, BaseClassTypeInfo.flags,
    BaseClassTypeInfo.offset]

section

variable {κ : Type} {next : κ → Nat → Base → κ} {address : κ → Addr} {C : ClassTypeInfo}

-- the outcome of a search that visits `visited` and takes the first class `C`
def upcastResult (address : κ → Addr) (C : ClassTypeInfo) (visited : List (ClassTypeInfo × κ))
    (obj : Addr) : Bool × Addr :=
  match visited.find? fun e => e.1.self == C.self with
  | some e => (true, address e.2)
  | none => (false, obj)

theorem upcastResult_append (visited rest : List (ClassTypeInfo × κ)) (obj : Addr)
    : upcastResult address C (visited ++ rest) obj
        =
      if (upcastResult address C visited obj).1 then
        upcastResult address C visited obj
      else
        upcastResult address C rest obj := by
  unfold upcastResult
  rw [List.find?_append]
  cases visited.find? fun e => e.1.self == C.self <;> rfl

theorem upcastResult_cons (c : ClassTypeInfo) (k : κ) (rest : List (ClassTypeInfo × κ)) (obj : Addr)
    : upcastResult address C ((c, k) :: rest) obj
        =
      if c.self = C.self then (true, address k) else upcastResult address C rest obj := by
  unfold upcastResult
  rw [List.find?_cons]
  by_cases hself : c.self = C.self
  . simp [hself]
  . simp [hself, beq_eq_false_iff_ne.2 hself]

-- `address` maps the states of the search to the addresses that the casts compute
def Tracks (m : Mem) (next : κ → Nat → Base → κ) (address : κ → Addr)
    (visited : List (ClassTypeInfo × κ)) : Prop :=
  ∀ e ∈ visited, ∀ (i : Nat) (b : Base), e.1.bases[i]? = some b →
    b.cast m (address e.2) = .ok (address (next e.2 i b))

theorem upcastBases_eq {bs : List Base} {i : Nat} {k : κ}
    (hcast : ∀ (j : Nat) (b : Base), bs[j]? = some b →
      b.cast m (address k) = .ok (address (next k (i + j) b)))
    (hbases : ∀ (j : Nat) (b : Base), bs[j]? = some b →
      b.baseType.doUpcast m C (address (next k (i + j) b))
        = .ok (upcastResult address C (b.baseType.visit next (next k (i + j) b))
          (address (next k (i + j) b))))
    : upcastBases m bs C (address k)
        =
      .ok (upcastResult address C (visitBases next bs i k) (address k)) := by
  induction bs generalizing i with
  | nil => rfl
  | cons b bs ih =>
    rcases b with ⟨baseType, offsetFlags⟩
    have hcast₀ : (BaseClassTypeInfo.mk baseType offsetFlags).cast m (address k)
        = .ok (address (next k i ⟨baseType, offsetFlags⟩)) := hcast 0 _ rfl
    have hbase₀ : baseType.doUpcast m C (address (next k i ⟨baseType, offsetFlags⟩))
        = .ok (upcastResult address C (baseType.visit next (next k i ⟨baseType, offsetFlags⟩))
          (address (next k i ⟨baseType, offsetFlags⟩))) := hbases 0 _ rfl
    have hrest : upcastBases m bs C (address k)
        = .ok (upcastResult address C (visitBases next bs (i + 1) k) (address k)) := by
      apply ih
      . intro j b hb
        rw [Nat.add_right_comm]
        exact hcast (j + 1) b hb
      . intro j b hb
        rw [Nat.add_right_comm]
        exact hbases (j + 1) b hb
    simp only [upcastBases, visitBases, hcast₀, hbase₀, hrest, upcastResult_append, Res.ok_bind]
    rw [ClassTypeInfo.visit_eq]
    simp only [upcastResult_cons]
    by_cases hself : baseType.self = C.self
    . simp [hself]
    . simp only [hself, ↓reduceIte]
      unfold upcastResult
      cases (visitBases next baseType.bases 0 (next k i ⟨baseType, offsetFlags⟩)).find? _ <;> rfl

theorem doUpcast_eq {c : ClassTypeInfo} {k : κ} (htracks : Tracks m next address (c.visit next k))
    : c.doUpcast m C (address k)
        =
      .ok (upcastResult address C (c.visit next k) (address k)) := by
  induction c using ClassTypeInfo.induction generalizing k with
  | h c ih =>
    rw [ClassTypeInfo.visit_eq] at htracks
    have hcast := htracks _ List.mem_cons_self
    have hbase : ∀ (j : Nat) (b : Base), c.bases[j]? = some b →
        b.baseType.doUpcast m C (address (next k j b))
          = .ok (upcastResult address C (b.baseType.visit next (next k j b))
            (address (next k j b))) := by
      intro j b hb
      apply ih b (List.mem_of_getElem? hb)
      intro e he
      apply htracks e
      rw [← Nat.zero_add j] at he
      exact List.mem_cons_of_mem _ (ClassTypeInfo.mem_visitBases.2 ⟨j, b, hb, he⟩)
    rw [ClassTypeInfo.visit_eq, upcastResult_cons]
    by_cases hself : c.self = C.self
    . rw [if_pos hself]
      cases c with
      | classType self name =>
        exact congrArg (fun b => Except.ok (b, address k)) (beq_iff_eq.2 hself)
      | siClassType self name baseType => exact if_pos hself
      | vmiClassType self name flags baseInfo => exact if_pos hself
    . rw [if_neg hself]
      cases c with
      | classType self name =>
        exact congrArg (fun b => Except.ok (b, address k)) (beq_eq_false_iff_ne.2 hself)
      | siClassType self name baseType =>
        have haddress : address (next k 0 ⟨baseType, 0x2⟩) = address k := by
          have heq := (hcast 0 _ rfl).symm.trans (cast_siBase m baseType (address k))
          exact Except.ok.inj heq
        have hbase₀ := hbase 0 _ rfl
        rw [haddress] at hbase₀
        refine (if_neg hself).trans (hbase₀.trans ?_)
        simp [ClassTypeInfo.bases, visitBases]
      | vmiClassType self name flags baseInfo =>
        refine (if_neg hself).trans (upcastBases_eq ?_ ?_)
        . intro j b hb
          rw [Nat.zero_add]
          exact hcast j b hb
        . intro j b hb
          rw [Nat.zero_add]
          exact hbase j b hb

end

namespace Layout

theorem tracks (layout : Layout m T p)
    : Tracks m hierarchy.step layout.address (T.visit hierarchy.step .whole) := by
  intro e he i b hb
  exact layout.cast (ClassTypeInfo.mem_visit_iff.1 he) hb

theorem doUpcast_eq (layout : Layout m T p) (C : ClassTypeInfo)
    : T.doUpcast m C p
        =
      match T.firstSubobject C.self with
      | some k => .ok (true, layout.address k)
      | none => .ok (false, p) := by
  have hupcast := LibCxxRt.doUpcast_eq (C := C) layout.tracks
  rw [layout.whole] at hupcast
  rw [hupcast, ClassTypeInfo.firstSubobject, upcastResult]
  cases (T.visit hierarchy.step .whole).find? fun e => e.1.self == C.self <;> rfl

def ofVisit (address : Subobject Addr → Addr)
    (hcast : ∀ e ∈ T.visit hierarchy.step .whole, ∀ x ∈ e.1.bases.zipIdx,
      x.1.cast m (address e.2) = .ok (address (hierarchy.step e.2 x.2 x.1))) :
    Layout m T (address .whole) where
  address := address
  whole := rfl
  base := by
    intro c k hpath i b hb hvirtual
    have hbase := hcast (c, k) (ClassTypeInfo.mem_visit_iff.2 hpath) (b, i)
      (List.mk_mem_zipIdx_iff_getElem?.2 hb)
    simpa [BaseClassTypeInfo.cast, hvirtual, eq_comm] using hbase
  virtualBase := by
    intro c k hpath i b hb hvirtual
    have hbase := hcast (c, k) (ClassTypeInfo.mem_visit_iff.2 hpath) (b, i)
      (List.mk_mem_zipIdx_iff_getElem?.2 hb)
    simp only [BaseClassTypeInfo.cast, hvirtual, ↓reduceIte, Res.bind_eq_ok] at hbase
    rcases hbase with ⟨vtable, hvtable, offset, hoffset, heq⟩
    exact ⟨vtable, offset, hvtable, hoffset, (Except.ok.inj heq).symm⟩

end Layout

theorem doUpcast_spec (layout : Layout m T p) (C : ClassTypeInfo)
    : ∃ found p', T.doUpcast m C p = .ok (found, p')
        ∧ (found = true → ∃ k, hierarchy.Has false T .whole C.self k ∧ p' = layout.address k)
        ∧ (found = false → p' = p) := by
  rw [layout.doUpcast_eq]
  cases hfirst : T.firstSubobject C.self with
  | some k =>
    refine ⟨_, _, rfl, ?_, by simp⟩
    intro _
    exact ⟨k, ClassTypeInfo.has_of_firstSubobject hfirst, rfl⟩
  | none => exact ⟨_, _, rfl, by simp, fun _ => rfl⟩

theorem doUpcast_eq_true_iff (layout : Layout m T p) (C : ClassTypeInfo)
    : (∃ p', T.doUpcast m C p = .ok (true, p')) ↔ ∃ k, hierarchy.Has false T .whole C.self k := by
  rw [layout.doUpcast_eq]
  cases hfirst : T.firstSubobject C.self with
  | some k => exact iff_of_true ⟨_, rfl⟩ ⟨k, ClassTypeInfo.has_of_firstSubobject hfirst⟩
  | none =>
    refine iff_of_false (by simp) ?_
    rintro ⟨k, hk⟩
    exact ClassTypeInfo.not_has_of_firstSubobject hfirst k hk

/--
The search does not look at the access to a base or at the number of subobjects that a class has in
the object.
-/
theorem doUpcast_eq_publicBase_iff (layout : Layout m T p) (C : ClassTypeInfo)
    : ((∃ p', T.doUpcast m C p = .ok (true, p')) ↔ ∃ k, hierarchy.PublicBase T C.self k)
        ↔
      T.self = C.self ∨ ¬ hierarchy.Inaccessible T C.self ∧ ¬ hierarchy.Ambiguous T C.self := by
  rw [doUpcast_eq_true_iff layout]
  by_cases hself : T.self = C.self
  . refine iff_of_true (iff_of_true ?_ ?_) (.inl hself)
    . exact ⟨.whole, T, .refl .., hself⟩
    . exact ⟨.whole, .inl ⟨hself, rfl⟩⟩
  . rw [Hierarchy.publicBase_iff hself]
    simp only [hself, false_or]
    constructor
    . intro hrule
      by_cases hbase : ∃ k, hierarchy.Has false T .whole C.self k
      . exact (hrule.1 hbase).2
      . refine ⟨fun h => hbase h.1, ?_⟩
        rintro ⟨k, _, hk, _⟩
        exact hbase ⟨k, hk⟩
    . rintro hrule
      exact ⟨fun hbase => ⟨hbase, hrule⟩, And.left⟩

namespace ClassTypeInfo.Sample

def a : ClassTypeInfo := .classType 0x2200 0x2a00

-- the base `a` is private
def privateA : ClassTypeInfo := .vmiClassType 0x2100 0x2d00 0 [⟨a, 0x000⟩]

def left : ClassTypeInfo := .siClassType 0x2300 0x2b00 a

def right : ClassTypeInfo := .siClassType 0x2400 0x2c00 a

-- an object has two subobjects of class `a`
def twoA : ClassTypeInfo := .vmiClassType 0x2500 0x2e00 1 [⟨left, 0x002⟩, ⟨right, 0x802⟩]

-- the base `a` is virtual, its offset is 24 bytes in front of the vtable
def virtualLeft : ClassTypeInfo := .vmiClassType 0x4000 0x4800 0 [⟨a, 0xffffffffffffe803⟩]

def virtualRight : ClassTypeInfo := .vmiClassType 0x4100 0x4900 0 [⟨a, 0xffffffffffffe803⟩]

-- both bases have the same virtual base `a`
def diamond : ClassTypeInfo :=
  .vmiClassType 0x4200 0x4a00 2 [⟨virtualLeft, 0x002⟩, ⟨virtualRight, 0x802⟩]

-- the vtables of the two bases, then what is in front of them
def diamondMem : Mem :=
  Mem.ofList 0x10000 [
    0x28, 0x00, 0x01, 0x00, 0x00, 0x00, 0x00, 0x00,
    0x30, 0x00, 0x01, 0x00, 0x00, 0x00, 0x00, 0x00,
    0x10, 0x00, 0x00, 0x00, 0x00, 0x00, 0x00, 0x00,
    0x08, 0x00, 0x00, 0x00, 0x00, 0x00, 0x00, 0x00
  ]

def diamondAddress (k : Subobject Addr) : Addr :=
  if k.virtualBase = some a.self then
    0x10010
  else if k.steps.head? = some 1 then
    0x10008
  else
    0x10000

def diamondLayout : Layout diamondMem diamond 0x10000 :=
  .ofVisit diamondAddress (by decide +kernel)

def privateALayout : Layout (fun _ => none) privateA 0x10000 :=
  .ofVisit (fun _ => 0x10000) (by decide)

def twoALayout : Layout (fun _ => none) twoA 0x10000 :=
  .ofVisit (fun k => if k.steps.head? = some 1 then 0x10008 else 0x10000) (by decide)

theorem inaccessible_privateA
    : hierarchy.Inaccessible privateA a.self := by
  refine ⟨⟨_, has_of_firstSubobject (by rfl : _ = some ⟨none, [0]⟩)⟩, ?_⟩
  rintro k ⟨c, hpath, hid⟩
  cases hpath with
  | refl => exact absurd hid (by decide)
  | @step _ _ _ _ i b hb hpub _ =>
    cases i with
    | zero =>
      cases hb
      exact absurd (hpub rfl) (by decide)
    | succ i => contradiction

theorem ambiguous_twoA
    : hierarchy.Ambiguous twoA a.self := by
  refine ⟨⟨none, [0, 0]⟩, ⟨none, [1, 0]⟩, ?_, ?_, by decide⟩
  . exact ⟨a, .step (i := 0) rfl (by simp) (.step (i := 0) rfl (by simp) (.refl ..)), rfl⟩
  . exact ⟨a, .step (i := 1) rfl (by simp) (.step (i := 0) rfl (by simp) (.refl ..)), rfl⟩

end ClassTypeInfo.Sample

open ClassTypeInfo.Sample in
theorem doUpcast_spec_diamond
    : ∃ found p', diamond.doUpcast diamondMem a 0x10000 = .ok (found, p')
        ∧ (found = true → ∃ k, hierarchy.Has false diamond .whole a.self k ∧ p' = diamondAddress k)
        ∧ (found = false → p' = 0x10000) := by
  exact doUpcast_spec diamondLayout a

open ClassTypeInfo.Sample in
theorem doUpcast_eq_publicBase_iff_diamond
    : (∃ p', diamond.doUpcast diamondMem a 0x10000 = .ok (true, p'))
        ↔
      ∃ k, hierarchy.PublicBase diamond a.self k := by
  have hunique : ∀ e ∈ diamond.visit hierarchy.step .whole, e.1.self = a.self →
      e.2 = ⟨some a.self, []⟩ := by
    decide
  refine (doUpcast_eq_publicBase_iff diamondLayout a).2 (.inr ⟨?_, ?_⟩)
  . rintro ⟨_, hnone⟩
    refine hnone ⟨some a.self, []⟩ ⟨a, ?_, rfl⟩
    exact .step (i := 0) rfl (fun _ => rfl) (.step (i := 0) rfl (fun _ => rfl) (.refl ..))
  . rintro ⟨k, k', ⟨c, hpath, hid⟩, ⟨c', hpath', hid'⟩, hne⟩
    have hk := hunique (c, k) (ClassTypeInfo.mem_visit_iff.2 hpath) hid
    have hk' := hunique (c', k') (ClassTypeInfo.mem_visit_iff.2 hpath') hid'
    exact hne (Eq.trans hk hk'.symm)

open ClassTypeInfo.Sample in
-- a private base and an ambiguous base
theorem doUpcast_not_publicBase
    : Nonempty (Layout (fun _ => none) privateA 0x10000)
        ∧ privateA.doUpcast (fun _ => none) a 0x10000 = .ok (true, 0x10000)
        ∧ (¬ ∃ k, hierarchy.PublicBase privateA a.self k)
        ∧ Nonempty (Layout (fun _ => none) twoA 0x10000)
        ∧ twoA.doUpcast (fun _ => none) a 0x10000 = .ok (true, 0x10000)
        ∧ ¬ ∃ k, hierarchy.PublicBase twoA a.self k := by
  refine ⟨⟨privateALayout⟩, by rfl, ?_, ⟨twoALayout⟩, by rfl, ?_⟩
  . rw [Hierarchy.publicBase_iff (by decide)]
    rintro ⟨_, haccess, _⟩
    exact haccess inaccessible_privateA
  . rw [Hierarchy.publicBase_iff (by decide)]
    rintro ⟨_, _, hambiguous⟩
    exact hambiguous ambiguous_twoA

end LibCxxRt
