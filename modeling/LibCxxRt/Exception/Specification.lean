import LibCxxRt.DwarfEh.Lemmas.Mem
import LibCxxRt.Exception.Cleanup
import LibCxxRt.Exception.Impl.SpecScan
import LibCxxRt.Exception.Lemmas.ActionRecord
import LibCxxRt.Exception.TypeTable
import LibCxxRt.Util.Leb128

/-!
This module contains the result about the lists of types in exception specifications: which of them
`check_action_record` decodes. A list has the numbers of entries of the type table in unsigned
LEB128 and ends with a zero.
-/

namespace LibCxxRt

open Util
open Util.Leb128 (bytes)

/--
The type table has the given types, `matched` says which of them accept the exception. The first entry
has the number 1.
-/
structure HoldsTypes (img : Image) (h : Heap) (context : UnwindContext) (lsda : DwarfEhLsda)
    (ex : Ptr) (types : List Addr) (matched : Addr → Bool) : Prop where
  entry : ∀ i type, types[i]? = some type →
    typeTableEntry img.mem context lsda (i + 1) = .ok type
  matchType : ∀ type ∈ types, ∃ o, matchType img h ex type = .ok o ∧ o.isSome = matched type

def acceptsEntry (types : List Addr) (matched : Addr → Bool) (i : Nat) : Bool :=
  types[i - 1]?.any matched

def specBytes (is : List Nat) : List (BitVec 8) :=
  is.flatMap (fun i => bytes (Nat.digits 128 i)) ++ [0]

-- the entries that have to be tested, none after the first one that accepts the exception
def tested (accepts : Nat → Bool) : List Nat → List Nat
  | [] => []
  | i :: is => i :: if accepts i then [] else tested accepts is

/--
The bytes of an index are taken for indices. The first byte of an index between 128 and 255 is the
index itself, the second one is 1.
-/
def Decoded (accepts : Nat → Bool) : List Nat → Prop
  | [] => True
  | i :: is =>
    if i < 128 then
      accepts i ∨ Decoded accepts is
    else
      i < 256 ∧ (accepts i ∨ is.head? = some 1 ∧ accepts 1)

theorem getTypeInfoEntry_setWidth (m : Mem) (context : UnwindContext) (lsda : DwarfEhLsda)
    (index : BitVec 8)
    : getTypeInfoEntry m context lsda (index.setWidth 32)
        =
      typeTableEntry m context lsda index.toNat := by
  cases hsize : dwarfSizeOfFixedSizeField lsda.typeTableEncoding with
  | error e =>
    unfold getTypeInfoEntry typeTableEntry
    rw [hsize]
    rfl
  | ok size =>
    have hindex : (index.setWidth 32).toNat = index.toNat := by
      rw [BitVec.toNat_setWidth]
      omega
    have hmul : size.toNat * index.toNat ≤ 8 * 255 := Nat.mul_le_mul (size_le hsize) (by omega)
    rw [getTypeInfoEntry_eq hsize (by rw [hindex]; omega), hindex]

theorem specBytes_cons (i : Nat) (is : List Nat)
    : specBytes (i :: is) = bytes (Nat.digits 128 i) ++ specBytes is := by
  simp [specBytes]

theorem bytes_digits_of_lt {i : Nat} (hpos : 0 < i) (hlt : i < 128)
    : bytes (Nat.digits 128 i) = [BitVec.ofNat 8 i] := by
  rw [Nat.digits_of_lt 128 i (by omega) hlt]
  rfl

-- the first byte of an index that needs several of them
theorem bytes_digits_of_le {i : Nat} (hle : 128 ≤ i)
    : bytes (Nat.digits 128 i)
        =
      BitVec.ofNat 8 (i % 128 + 128) :: bytes (Nat.digits 128 (i / 128)) := by
  have hpos : 0 < i / 128 := by omega
  rw [Nat.digits_def' (by decide) (by omega)]
  cases hrest : Nat.digits 128 (i / 128) with
  | nil => exact absurd (Nat.digits_eq_nil_iff_eq_zero.1 hrest) (by omega)
  | cons d ds => rfl

theorem toNat_ofNat_of_lt {i : Nat} (hlt : i < 256)
    : (BitVec.ofNat 8 i).toNat = i := by
  rw [BitVec.toNat_ofNat]
  omega

theorem ofNat_ne_zero {i : Nat} (hpos : 0 < i) (hlt : i < 256)
    : BitVec.ofNat 8 i ≠ 0 := by
  intro heq
  have hnat := congrArg BitVec.toNat heq
  rw [toNat_ofNat_of_lt hlt] at hnat
  simp at hnat
  omega

namespace SpecScan

theorem checkExceptionSpec_result (img : Image) (h : Heap) (context : UnwindContext)
    (lsda : DwarfEhLsda) (ex : Option Ptr) (fuel : Nat) (p adjustedPtr : Addr)
    : (checkExceptionSpec img h context lsda ex fuel p adjustedPtr).result
        =
      LibCxxRt.checkExceptionSpec img h context lsda ex fuel p adjustedPtr := by
  induction fuel generalizing p adjustedPtr with
  | zero => rfl
  | succ fuel ih =>
    unfold checkExceptionSpec LibCxxRt.checkExceptionSpec
    simp only [Traced.result_bind, Traced.result_liftM]
    congr
    funext index
    split
    . rfl
    . simp only [Traced.result_bind, Traced.result_liftM, Traced.result_note, Res.ok_bind]
      congr
      funext type
      congr
      funext r
      split
      . rfl
      . exact ih ..

variable {img : Image} {h : Heap} {context : UnwindContext} {lsda : DwarfEhLsda} {ex : Ptr}
variable {types : List Addr} {matched : Addr → Bool} {is : List Nat} {p : Addr} {fuel i : Nat}

theorem checkExceptionSpec_zero (fuel : Nat) (adjustedPtr : Addr) (hb : img.mem p = some 0)
    : checkExceptionSpec img h context lsda (some ex) (fuel + 1) p adjustedPtr
        =
      ⟨[], .ok (false, adjustedPtr)⟩ := by
  unfold checkExceptionSpec
  rw [Mem.byte_of_eq_some hb]
  rfl

theorem checkExceptionSpec_record (fuel : Nat) (adjustedPtr : Addr) (hpos : 0 < i) (hlt : i < 256)
    (hb : img.mem p = some (BitVec.ofNat 8 i))
    : ∃ is, (checkExceptionSpec img h context lsda (some ex) (fuel + 1) p adjustedPtr).record
        = i :: is := by
  unfold checkExceptionSpec
  rw [Mem.byte_of_eq_some hb]
  simp only [Traced.liftM_ok_bind, if_neg (ofNat_ne_zero hpos hlt), Traced.note_bind,
    toNat_ofNat_of_lt hlt]
  exact ⟨_, rfl⟩

theorem checkExceptionSpec_entry (hholds : HoldsTypes img h context lsda ex types matched)
    (fuel : Nat) (adjustedPtr : Addr) (hpos : 0 < i) (hlt : i < 256) (hlen : i ≤ types.length)
    (hb : img.mem p = some (BitVec.ofNat 8 i))
    : ∃ adjustedPtr', checkExceptionSpec img h context lsda (some ex) (fuel + 1) p adjustedPtr
        = if acceptsEntry types matched i then
            ⟨[i], .ok (true, adjustedPtr')⟩
          else
            ⟨i :: (checkExceptionSpec img h context lsda (some ex) fuel (p + 1) adjustedPtr).record,
              (checkExceptionSpec img h context lsda (some ex) fuel (p + 1) adjustedPtr).result⟩ := by
  have hindex : i - 1 < types.length := by omega
  have htype : types[i - 1]? = some types[i - 1] := List.getElem?_eq_getElem hindex
  have hentry := hholds.entry _ _ htype
  rcases hholds.matchType _ (List.mem_of_getElem? htype) with ⟨o, ho, hmatched⟩
  rw [Nat.sub_add_cancel hpos] at hentry
  have haccepts : acceptsEntry types matched i = o.isSome := by
    rw [acceptsEntry, htype, hmatched]
    rfl
  refine ⟨o.getD adjustedPtr, ?_⟩
  rw [checkExceptionSpec, Mem.byte_of_eq_some hb]
  simp only [Traced.liftM_ok_bind, if_neg (ofNat_ne_zero hpos hlt), Traced.note_bind,
    getTypeInfoEntry_setWidth, toNat_ofNat_of_lt hlt, hentry, checkTypeSignature_some, ho, haccepts]
  cases o <;> rfl

theorem checkExceptionSpec_accepted (hholds : HoldsTypes img h context lsda ex types matched)
    (fuel : Nat) (adjustedPtr : Addr) (hpos : 0 < i) (hlt : i < 256) (hlen : i ≤ types.length)
    (hb : img.mem p = some (BitVec.ofNat 8 i)) (haccepts : acceptsEntry types matched i = true)
    : ∃ adjustedPtr', checkExceptionSpec img h context lsda (some ex) (fuel + 1) p adjustedPtr
        = ⟨[i], .ok (true, adjustedPtr')⟩ := by
  rcases checkExceptionSpec_entry hholds fuel adjustedPtr hpos hlt hlen hb with ⟨_, hentry⟩
  exact ⟨_, by rw [hentry, if_pos haccepts]⟩

theorem checkExceptionSpec_refused (hholds : HoldsTypes img h context lsda ex types matched)
    (fuel : Nat) (adjustedPtr : Addr) (hpos : 0 < i) (hlt : i < 256) (hlen : i ≤ types.length)
    (hb : img.mem p = some (BitVec.ofNat 8 i)) (haccepts : acceptsEntry types matched i = false)
    : checkExceptionSpec img h context lsda (some ex) (fuel + 1) p adjustedPtr
        =
      ⟨i :: (checkExceptionSpec img h context lsda (some ex) fuel (p + 1) adjustedPtr).record,
        (checkExceptionSpec img h context lsda (some ex) fuel (p + 1) adjustedPtr).result⟩ := by
  rcases checkExceptionSpec_entry hholds fuel adjustedPtr hpos hlt hlen hb with ⟨_, hentry⟩
  rw [hentry, if_neg (by simp [haccepts])]

-- the entries that are tested and the result are those of the list
def Scans (img : Image) (h : Heap) (context : UnwindContext) (lsda : DwarfEhLsda) (ex : Ptr)
    (fuel : Nat) (p adjustedPtr : Addr) (accepts : Nat → Bool) (is : List Nat) : Prop :=
  (checkExceptionSpec img h context lsda (some ex) fuel p adjustedPtr).record = tested accepts is
    ∧ ∃ adjustedPtr', (checkExceptionSpec img h context lsda (some ex) fuel p adjustedPtr).result
      = .ok (is.any accepts, adjustedPtr')

theorem scans_of_accepted (hholds : HoldsTypes img h context lsda ex types matched)
    (fuel : Nat) (adjustedPtr : Addr) (is : List Nat) (hpos : 0 < i) (hlt : i < 256)
    (hlen : i ≤ types.length) (hb : img.mem p = some (BitVec.ofNat 8 i))
    (haccepts : acceptsEntry types matched i = true)
    : Scans img h context lsda ex (fuel + 1) p adjustedPtr (acceptsEntry types matched)
        (i :: is) := by
  rcases checkExceptionSpec_accepted hholds fuel adjustedPtr hpos hlt hlen hb haccepts
    with ⟨adjustedPtr', hscan⟩
  simp [Scans, hscan, tested, haccepts]

theorem scans_refused_iff (hholds : HoldsTypes img h context lsda ex types matched)
    (fuel : Nat) (adjustedPtr : Addr) (is : List Nat) (hpos : 0 < i) (hlt : i < 256)
    (hlen : i ≤ types.length) (hb : img.mem p = some (BitVec.ofNat 8 i))
    (haccepts : acceptsEntry types matched i = false)
    : Scans img h context lsda ex (fuel + 1) p adjustedPtr (acceptsEntry types matched) (i :: is)
        ↔
      Scans img h context lsda ex fuel (p + 1) adjustedPtr (acceptsEntry types matched) is := by
  unfold Scans
  rw [checkExceptionSpec_refused hholds fuel adjustedPtr hpos hlt hlen hb haccepts]
  simp [tested, haccepts]

-- the first byte of the list selects another entry than its first index
theorem not_scans_of_ne {b : Nat} (fuel : Nat) (adjustedPtr : Addr) (accepts : Nat → Bool)
    (is : List Nat) (hpos : 0 < b) (hlt : b < 256) (hb : img.mem p = some (BitVec.ofNat 8 b))
    (hne : is.head? ≠ some b)
    : ¬ Scans img h context lsda ex (fuel + 1) p adjustedPtr accepts is := by
  rintro ⟨hrecord, _⟩
  rcases checkExceptionSpec_record fuel adjustedPtr hpos hlt hb with ⟨is', his'⟩
  rw [his'] at hrecord
  cases is with
  | nil => simp [tested] at hrecord
  | cons i is =>
    rw [tested, List.cons.injEq] at hrecord
    exact hne (congrArg some hrecord.1.symm)

-- the second byte of an index is an entry more than the list has
theorem not_scans_of_one (hholds : HoldsTypes img h context lsda ex types matched)
    (hone : acceptsEntry types matched 1 = false) (hlen : 1 ≤ types.length)
    (hbytes : img.mem.Holds p (BitVec.ofNat 8 1 :: specBytes is))
    (hfuel : (specBytes is).length < fuel) (adjustedPtr : Addr)
    : ¬ Scans img h context lsda ex fuel p adjustedPtr (acceptsEntry types matched) is := by
  induction is generalizing p fuel with
  | nil =>
    rcases Mem.holds_cons.1 hbytes with ⟨hb, _⟩
    cases fuel with
    | zero => simp at hfuel
    | succ fuel =>
      exact not_scans_of_ne fuel adjustedPtr _ [] (by decide) (by decide) hb (by simp)
  | cons i is ih =>
    rcases Mem.holds_cons.1 hbytes with ⟨hb, hrest⟩
    cases fuel with
    | zero => simp at hfuel
    | succ fuel =>
      by_cases hi : i = 1
      . subst hi
        rw [specBytes_cons, bytes_digits_of_lt (by decide) (by decide)] at hrest hfuel
        rw [scans_refused_iff hholds fuel adjustedPtr is (by decide) (by decide) hlen hb hone]
        exact ih hrest (by simpa using hfuel)
      . exact not_scans_of_ne fuel adjustedPtr _ _ (by decide) (by decide) hb (by simpa using hi)

-- the second byte of an index between 128 and 255 is taken for an index
theorem scans_second_iff (hholds : HoldsTypes img h context lsda ex types matched)
    (hlen : 1 ≤ types.length) (hbytes : img.mem.Holds p (BitVec.ofNat 8 1 :: specBytes is))
    (hfuel : (specBytes is).length < fuel) (adjustedPtr : Addr)
    : Scans img h context lsda ex fuel p adjustedPtr (acceptsEntry types matched) is
        ↔
      is.head? = some 1 ∧ acceptsEntry types matched 1 = true := by
  cases hone : acceptsEntry types matched 1 with
  | false =>
    exact iff_of_false (not_scans_of_one hholds hone hlen hbytes hfuel adjustedPtr) (by simp)
  | true =>
    rcases Mem.holds_cons.1 hbytes with ⟨hb, _⟩
    cases fuel with
    | zero => simp at hfuel
    | succ fuel =>
      by_cases hhead : is.head? = some 1
      . rcases List.head?_eq_some_iff.1 hhead with ⟨is, rfl⟩
        exact iff_of_true
          (scans_of_accepted hholds fuel adjustedPtr is (by decide) (by decide) hlen hb hone)
          ⟨rfl, rfl⟩
      . refine iff_of_false ?_ (by simp [hhead])
        exact not_scans_of_ne fuel adjustedPtr _ is (by decide) (by decide) hb hhead

/--
The result and the entries that are tested are those of the list exactly if the bytes of the list are
its indices as far as the loop has to go.
-/
theorem scans_iff (hholds : HoldsTypes img h context lsda ex types matched)
    (his : ∀ i ∈ is, 0 < i ∧ i ≤ types.length) (hbytes : img.mem.Holds p (specBytes is))
    (hfuel : (specBytes is).length ≤ fuel) (adjustedPtr : Addr)
    : Scans img h context lsda ex fuel p adjustedPtr (acceptsEntry types matched) is
        ↔
      Decoded (acceptsEntry types matched) is := by
  induction is generalizing p fuel with
  | nil =>
    cases fuel with
    | zero => simp [specBytes] at hfuel
    | succ fuel =>
      unfold Scans
      rw [checkExceptionSpec_zero fuel adjustedPtr (Mem.holds_cons.1 hbytes).1]
      simp [tested, Decoded]
  | cons i is ih =>
    rcases List.forall_mem_cons.1 his with ⟨⟨hpos, hlen⟩, his⟩
    rw [specBytes_cons] at hbytes hfuel
    unfold Decoded
    by_cases hlt : i < 128
    . rw [bytes_digits_of_lt hpos hlt] at hbytes hfuel
      rcases Mem.holds_cons.1 hbytes with ⟨hb, hrest⟩
      rw [if_pos hlt]
      cases fuel with
      | zero => simp at hfuel
      | succ fuel =>
        cases haccepts : acceptsEntry types matched i with
        | true =>
          exact iff_of_true (scans_of_accepted hholds fuel adjustedPtr is hpos (by omega) hlen hb
            haccepts) (.inl rfl)
        | false =>
          rw [scans_refused_iff hholds fuel adjustedPtr is hpos (by omega) hlen hb haccepts,
            ih his hrest (by simpa using hfuel)]
          simp
    . rw [if_neg hlt]
      rw [bytes_digits_of_le (by omega)] at hbytes hfuel
      rcases Mem.holds_cons.1 hbytes with ⟨hb, hrest⟩
      cases fuel with
      | zero => simp at hfuel
      | succ fuel =>
        by_cases hlarge : i < 256
        . have hbyte : i % 128 + 128 = i := by omega
          have hsecond : i / 128 = 1 := by omega
          rw [hbyte] at hb
          rw [hsecond, bytes_digits_of_lt (by decide) (by decide)] at hrest hfuel
          simp only [hlarge, true_and]
          cases haccepts : acceptsEntry types matched i with
          | true =>
            exact iff_of_true (scans_of_accepted hholds fuel adjustedPtr is hpos hlarge hlen hb
              haccepts) (.inl rfl)
          | false =>
            rw [scans_refused_iff hholds fuel adjustedPtr is hpos hlarge hlen hb haccepts,
              scans_second_iff hholds (by omega) hrest (by simpa using hfuel)]
            simp
        . refine iff_of_false ?_ (by simp [hlarge])
          refine not_scans_of_ne fuel adjustedPtr _ _ (by omega) (by omega) hb ?_
          intro hhead
          have hi := Option.some.inj hhead
          omega

end SpecScan

theorem checkExceptionSpec_eq_iff {img : Image} {h : Heap} {context : UnwindContext}
    {lsda : DwarfEhLsda} {ex : Ptr} {types : List Addr} {matched : Addr → Bool} {is : List Nat}
    {filter : BitVec 32} {fuel : Nat} (hholds : HoldsTypes img h context lsda ex types matched)
    (his : ∀ i ∈ is, 0 < i ∧ i ≤ types.length)
    (hbytes : img.mem.Holds (lsda.typeTable - filter.signExtend 64 - 1) (specBytes is))
    (hfuel : (specBytes is).length ≤ fuel) (adjustedPtr : Addr)
    : (SpecScan.checkExceptionSpec img h context lsda (some ex) fuel
              (lsda.typeTable - filter.signExtend 64 - 1) adjustedPtr).record
            = tested (acceptsEntry types matched) is
          ∧ (∃ adjustedPtr', checkExceptionSpec img h context lsda (some ex) fuel
              (lsda.typeTable - filter.signExtend 64 - 1) adjustedPtr
                = .ok (is.any (acceptsEntry types matched), adjustedPtr'))
        ↔
      Decoded (acceptsEntry types matched) is := by
  rw [← SpecScan.checkExceptionSpec_result]
  exact SpecScan.scans_iff hholds his hbytes hfuel adjustedPtr

namespace Sample

-- a type table with two entries of two bytes, and the list of both
def twoTypesImg : Image where
  mem := Mem.ofList 0x1000 [0x00, 0x20, 0x00, 0x21, 0x01, 0x02, 0x00]
  types a := [int, .fundamentalType 0x2100 0x2a00].find? fun t => t.self == a
  voidName := 0x2900
  blockBase := img.blockBase
  types_self := by
    intro a t ht
    simpa using List.find?_some ht

def twoTypesLsda : DwarfEhLsda :=
  { lsda with typeTable := 0x1004, typeTableEncoding := 2 }

theorem holdsTwoTypes
    : HoldsTypes twoTypesImg heap (context 0) twoTypesLsda ⟨0, 0⟩ [0x2100, 0x2000] (· == 0x2000) := by
  constructor
  . intro i type htype
    match i with
    | 0 =>
      cases htype
      rfl
    | 1 =>
      cases htype
      rfl
    | i + 2 => simp at htype
  . intro type htype
    simp only [List.mem_cons, List.not_mem_nil, or_false] at htype
    rcases htype with rfl | rfl
    . exact ⟨none, rfl, rfl⟩
    . exact ⟨some 0x10080, rfl, rfl⟩

end Sample

-- the thrown type is the second one of the list
theorem checkExceptionSpec_eq_iff_two
    : (SpecScan.checkExceptionSpec Sample.twoTypesImg Sample.heap (Sample.context 0)
              Sample.twoTypesLsda (some ⟨0, 0⟩) 3
              (Sample.twoTypesLsda.typeTable - (-1 : BitVec 32).signExtend 64 - 1) 0).record
            = tested (acceptsEntry [0x2100, 0x2000] (· == 0x2000)) [1, 2]
          ∧ (∃ adjustedPtr', checkExceptionSpec Sample.twoTypesImg Sample.heap (Sample.context 0)
              Sample.twoTypesLsda (some ⟨0, 0⟩) 3
              (Sample.twoTypesLsda.typeTable - (-1 : BitVec 32).signExtend 64 - 1) 0
                = .ok ([1, 2].any (acceptsEntry [0x2100, 0x2000] (· == 0x2000)), adjustedPtr'))
        ↔
      Decoded (acceptsEntry [0x2100, 0x2000] (· == 0x2000)) [1, 2] := by
  refine checkExceptionSpec_eq_iff Sample.holdsTwoTypes (by decide) ?_ (by decide) 0
  unfold Mem.Holds
  decide

namespace Sample

-- a type table with 130 entries of two bytes, only the last one is not `int`
def manyTypes : List Addr :=
  List.replicate 129 0x2000 ++ [0x2100]

def manyTypesImg : Image where
  mem := Mem.ofList 0x1000
    ([0x00, 0x21] ++ (List.replicate 129 [0x00, 0x20]).flatten ++ [0x82, 0x01, 0x00])
  types a := [int, .fundamentalType 0x2100 0x2a00].find? fun t => t.self == a
  voidName := 0x2900
  blockBase := img.blockBase
  types_self := by
    intro a t ht
    simpa using List.find?_some ht

def manyTypesLsda : DwarfEhLsda :=
  { lsda with typeTable := 0x1104, typeTableEncoding := 2 }

end Sample

-- the list has the entry 130, the loop tests the entries 130 and 1
theorem checkExceptionSpec_second_byte
    : HoldsTypes Sample.manyTypesImg Sample.heap (Sample.context 0) Sample.manyTypesLsda ⟨0, 0⟩
          Sample.manyTypes (· == 0x2000)
        ∧ Sample.manyTypesImg.mem.Holds
          (Sample.manyTypesLsda.typeTable - (-1 : BitVec 32).signExtend 64 - 1) (specBytes [130])
        ∧ [130].any (acceptsEntry Sample.manyTypes (· == 0x2000)) = false
        ∧ (SpecScan.checkExceptionSpec Sample.manyTypesImg Sample.heap (Sample.context 0)
              Sample.manyTypesLsda (some ⟨0, 0⟩) 3
              (Sample.manyTypesLsda.typeTable - (-1 : BitVec 32).signExtend 64 - 1) 0).record
            = [130, 1]
        ∧ checkExceptionSpec Sample.manyTypesImg Sample.heap (Sample.context 0) Sample.manyTypesLsda
            (some ⟨0, 0⟩) 3 (Sample.manyTypesLsda.typeTable - (-1 : BitVec 32).signExtend 64 - 1) 0
          = .ok (true, 0x10080) := by
  have hentry : ∀ i < 130, typeTableEntry Sample.manyTypesImg.mem (Sample.context 0)
      Sample.manyTypesLsda (i + 1) = .ok (Sample.manyTypes.getD i 0) := by
    decide +kernel
  refine ⟨⟨?_, ?_⟩, ?_, by decide, by decide +kernel, by rfl⟩
  . intro i type htype
    rcases List.getElem?_eq_some_iff.1 htype with ⟨hi, _⟩
    have hlt : i < 130 := hi
    rw [hentry i hlt, List.getD, htype]
    rfl
  . intro type htype
    simp only [Sample.manyTypes, List.mem_append, List.mem_replicate, List.mem_singleton] at htype
    rcases htype with ⟨_, htype⟩ | htype
    . subst htype
      exact ⟨some 0x10080, rfl, rfl⟩
    . subst htype
      exact ⟨none, rfl, rfl⟩
  . unfold Mem.Holds
    decide +kernel

end LibCxxRt
