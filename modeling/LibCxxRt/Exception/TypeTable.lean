import LibCxxRt.DwarfEh.Lemmas.Value
import LibCxxRt.Exception.Impl.ActionRecord

/-!
This module determines which entries of a type table `get_type_info_entry` finds. The table lies in
front of `lsda->type_table`, the number of an entry is its distance from there.
-/

namespace LibCxxRt

-- the entry of the type table with the number `i`
def typeTableEntry (m : Mem) (context : UnwindContext) (lsda : DwarfEhLsda) (i : Nat) :
    Res Addr := do
  let size ← dwarfSizeOfFixedSizeField lsda.typeTableEncoding
  let record := lsda.typeTable - BitVec.ofNat 64 (size.toNat * i)
  let (offset, _) ← readValue m lsda.typeTableEncoding record
  if offset = 0 then
    return 0
  else
    resolveIndirectValue m context lsda.typeTableEncoding offset record

-- the stored value and the address of the `type_info` object
structure TypeEntry where
  value : BitVec 64
  type : Addr
  deriving DecidableEq, Repr

structure TypeEntry.StoredAt (e : TypeEntry) (m : Mem) (context : UnwindContext)
    (encoding : BitVec 8) (start : Addr) : Prop where
  bytes : m.Holds start (writeValue encoding e.value)
  representable : Representable encoding e.value
  value_ne_zero : e.value ≠ 0
  type_ne_zero : e.type ≠ 0
  type : if isIndirect encoding then
      m.loadPtr (e.value + relativeTo context encoding start) = .ok e.type
    else
      e.value + relativeTo context encoding start = e.type

-- an entry of the table at its place, `none` is the one for `catch (...)`
def StoredEntry (m : Mem) (context : UnwindContext) (encoding : BitVec 8) (start : Addr) :
    Option TypeEntry → Prop
  | none => m.Holds start (writeValue encoding 0)
  | some e => e.StoredAt m context encoding start

-- the first entry of the list has the number 1
def StoresTypes (m : Mem) (context : UnwindContext) (lsda : DwarfEhLsda) (size : Nat)
    (table : List (Option TypeEntry)) : Prop :=
  ∀ j e, table[j]? = some e → StoredEntry m context lsda.typeTableEncoding
    (lsda.typeTable - BitVec.ofNat 64 (size * (j + 1))) e

def entryType (e : Option TypeEntry) : Addr :=
  e.elim 0 TypeEntry.type

/--
The entry with the number `filter` is found in every table that has so many entries, wherever it is,
and nothing but its bytes is read for the entry for `catch (...)`.
-/
def FindsEntry (encoding : BitVec 8) (size : Nat) (filter : BitVec 32) : Prop :=
  ∀ m context lsda table, lsda.typeTableEncoding = encoding → StoresTypes m context lsda size table →
    ∀ j e, filter.toNat = j + 1 → table[j]? = some e →
      getTypeInfoEntry m context lsda filter = .ok (entryType e)
        ∧ (e = none → ∀ m' : Mem,
          m'.Holds (lsda.typeTable - BitVec.ofNat 64 (size * (j + 1))) (writeValue encoding 0) →
            getTypeInfoEntry m' context lsda filter = .ok 0)

section

variable {m : Mem} {context : UnwindContext} {lsda : DwarfEhLsda} {encoding : BitVec 8}
variable {size : BitVec 32} {start : Addr}

theorem size_cases (hsize : dwarfSizeOfFixedSizeField encoding = .ok size)
    : size = 2 ∨ size = 4 ∨ size = 8 := by
  unfold dwarfSizeOfFixedSizeField at hsize
  split at hsize <;> simp at hsize <;> subst hsize <;> decide

theorem size_le (hsize : dwarfSizeOfFixedSizeField encoding = .ok size)
    : size.toNat ≤ 8 := by
  rcases size_cases hsize with rfl | rfl | rfl <;> decide

theorem writeValue_fixed (hsize : dwarfSizeOfFixedSizeField encoding = .ok size) (v : BitVec 64)
    : writeValue encoding v = littleEndian size.toNat v := by
  unfold dwarfSizeOfFixedSizeField at hsize
  unfold writeValue
  cases henc : getEncoding encoding with
  | uleb128 | sleb128 | unknown => simp [henc] at hsize
  | _ =>
    simp only [henc, Except.ok.injEq] at hsize
    subst hsize
    rfl

theorem asRead_fixed (hsize : dwarfSizeOfFixedSizeField encoding = .ok size) (v : BitVec 64)
    : asRead encoding v = v := by
  unfold dwarfSizeOfFixedSizeField at hsize
  unfold asRead
  cases henc : getEncoding encoding with
  | uleb128 | sleb128 | unknown => simp [henc] at hsize
  | _ => rfl

theorem representable_zero (hsize : dwarfSizeOfFixedSizeField encoding = .ok size)
    : Representable encoding 0 := by
  unfold dwarfSizeOfFixedSizeField at hsize
  unfold Representable
  cases henc : getEncoding encoding with
  | uleb128 | sleb128 | unknown => simp [henc] at hsize
  | _ => simp

theorem readValue_fixed (hsize : dwarfSizeOfFixedSizeField encoding = .ok size) {v : BitVec 64}
    (hv : Representable encoding v) (h : m.Holds start (writeValue encoding v))
    : ∃ next, readValue m encoding start = .ok (v, next) := by
  refine ⟨start + BitVec.ofNat 64 (writeValue encoding v).length, ?_⟩
  rw [readValue_write hv h, asRead_fixed hsize]

theorem resolve_of_storedAt {e : TypeEntry} (he : e.StoredAt m context encoding start)
    : resolveIndirectValue m context encoding e.value start = .ok e.type := by
  have htype := he.type
  rw [resolveIndirectValue_eq]
  split at htype
  . next hindirect => rw [if_pos hindirect, htype]
  . next hindirect => rw [if_neg hindirect, htype]

theorem typeTableEntry_stored (hsize : dwarfSizeOfFixedSizeField lsda.typeTableEncoding = .ok size)
    {i : Nat} {e : Option TypeEntry} (he : StoredEntry m context lsda.typeTableEncoding
      (lsda.typeTable - BitVec.ofNat 64 (size.toNat * i)) e)
    : typeTableEntry m context lsda i = .ok (entryType e) := by
  unfold typeTableEntry
  rw [hsize]
  cases e with
  | none =>
    rcases readValue_fixed hsize (representable_zero hsize) he with ⟨next, hread⟩
    simp only [Res.ok_bind, hread]
    rfl
  | some e =>
    rcases readValue_fixed hsize he.representable he.bytes with ⟨next, hread⟩
    simp only [Res.ok_bind, hread, if_neg he.value_ne_zero, resolve_of_storedAt he]
    rfl

theorem signExtend_mul {filter : BitVec 32} (hfit : size.toNat * filter.toNat < 2 ^ 31)
    : (size * filter).signExtend 64 = BitVec.ofNat 64 (size.toNat * filter.toNat) := by
  have hnat : (size * filter).toNat = size.toNat * filter.toNat := by
    rw [BitVec.toNat_mul, Nat.mod_eq_of_lt (by omega)]
  rw [BitVec.signExtend_eq_setWidth_of_msb_false]
  . apply BitVec.eq_of_toNat_eq
    rw [BitVec.toNat_setWidth, hnat, BitVec.toNat_ofNat]
  . rw [BitVec.msb_eq_false_iff_two_mul_lt, hnat]
    omega

theorem getTypeInfoEntry_eq (hsize : dwarfSizeOfFixedSizeField lsda.typeTableEncoding = .ok size)
    {filter : BitVec 32} (hfit : size.toNat * filter.toNat < 2 ^ 31)
    : getTypeInfoEntry m context lsda filter = typeTableEntry m context lsda filter.toNat := by
  unfold getTypeInfoEntry typeTableEntry
  rw [hsize]
  simp only [Res.ok_bind, signExtend_mul hfit]

theorem findsEntry_of_lt (hsize : dwarfSizeOfFixedSizeField encoding = .ok size)
    {filter : BitVec 32} (hfit : size.toNat * filter.toNat < 2 ^ 31)
    : FindsEntry encoding size.toNat filter := by
  intro m context lsda table hencoding hstores j e hj he
  subst hencoding
  have hentry := hstores j e he
  rw [← hj] at hentry ⊢
  refine ⟨?_, ?_⟩
  . rw [getTypeInfoEntry_eq hsize hfit, typeTableEntry_stored hsize hentry]
  . intro _ m' hnull
    rw [getTypeInfoEntry_eq hsize hfit]
    have hstored : StoredEntry m' context lsda.typeTableEncoding
        (lsda.typeTable - BitVec.ofNat 64 (size.toNat * filter.toNat)) none := hnull
    exact typeTableEntry_stored hsize hstored

end

/-!
A table in which all entries but the one that is looked up have the same value. All bytes of the memory
that do not belong to that entry are `1`.
-/
namespace Overflow

def value (size : Nat) : BitVec 64 :=
  BitVec.ofNat 64 ((2 ^ (8 * size) - 1) / 255)

def typeTable : Addr := 0x8000000000000000

theorem sub_sub_sub (t a b : BitVec 64)
    : t - a - (t - b) = b - a := by
  have ha := a.isLt
  have hb := b.isLt
  have ht := t.isLt
  apply BitVec.eq_of_toNat_eq
  simp only [BitVec.toNat_sub]
  omega

-- the entry with the number `i` is zero
def zeroEntry (size i : Nat) : Addr :=
  typeTable - BitVec.ofNat 64 (size * i)

def memory (size i : Nat) : Mem := fun x =>
  if (x - zeroEntry size i).toNat < size then some 0 else some 1

def context : UnwindContext where
  ip := 0
  regionStart := 0
  languageSpecificData := 0
  textRelBase := 0
  dataRelBase := 0
  gr0 := none
  gr1 := 0

def lsda (encoding : BitVec 8) : DwarfEhLsda where
  regionStart := 0
  landingPads := 0
  typeTable := typeTable
  typeTableEncoding := encoding
  callSiteTable := 0
  actionTable := 0
  callsiteEncoding := 0

def entry (encoding : BitVec 8) (size : Nat) (start : Addr) : TypeEntry where
  value := value size
  type :=
    if isIndirect encoding then
      value 8
    else
      value size + relativeTo context encoding start

variable {encoding : BitVec 8} {size i : Nat} {a start : Addr}

theorem relativeTo_cases (encoding : BitVec 8) (start : Addr)
    : relativeTo context encoding start = start ∨ relativeTo context encoding start = 0 := by
  unfold relativeTo
  cases getBase encoding with
  | pcrel => exact .inl rfl
  | _ => exact .inr rfl

theorem holds_ones {n : Nat} (hlow : size ≤ (a - zeroEntry size i).toNat)
    (hhigh : (a - zeroEntry size i).toNat + n ≤ 2 ^ 64)
    : (memory size i).Holds a (List.replicate n 1) := by
  intro k hk
  rw [List.length_replicate] at hk
  have hnat : (a + BitVec.ofNat 64 k - zeroEntry size i).toNat = (a - zeroEntry size i).toNat + k := by
    rw [BitVec.add_sub_comm, BitVec.toNat_add, BitVec.toNat_ofNat]
    omega
  rw [List.getElem?_replicate, if_pos hk, memory, hnat, if_neg (by omega)]

theorem writeValue_value {size : BitVec 32}
    (hsize : dwarfSizeOfFixedSizeField encoding = .ok size)
    : writeValue encoding (value size.toNat) = List.replicate size.toNat 1 := by
  rw [writeValue_fixed hsize]
  rcases size_cases hsize with rfl | rfl | rfl
  . rfl
  . rfl
  . rfl

theorem representable_value {size : BitVec 32}
    (hsize : dwarfSizeOfFixedSizeField encoding = .ok size)
    : Representable encoding (value size.toNat) := by
  unfold dwarfSizeOfFixedSizeField at hsize
  unfold Representable
  cases henc : getEncoding encoding with
  | uleb128 | sleb128 | unknown => simp [henc] at hsize
  | _ =>
    simp only [henc, Except.ok.injEq] at hsize
    subst hsize
    decide

theorem value_bounds {size : BitVec 32} (hsize : dwarfSizeOfFixedSizeField encoding = .ok size)
    : 257 ≤ (value size.toNat).toNat ∧ (value size.toNat).toNat < 2 ^ 57 := by
  rcases size_cases hsize with rfl | rfl | rfl <;> decide

-- no value leads to the entry that is zero
theorem value_distance {size : BitVec 32} (hsize : dwarfSizeOfFixedSizeField encoding = .ok size)
    (hi : size.toNat * i < 2 ^ 35) (hhigh : (start - zeroEntry size.toNat i).toNat < 2 ^ 36)
    : value size.toNat + relativeTo context encoding start ≠ 0
        ∧ 8 ≤ (value size.toNat + relativeTo context encoding start
            - zeroEntry size.toNat i).toNat
        ∧ (value size.toNat + relativeTo context encoding start
            - zeroEntry size.toNat i).toNat + 8 ≤ 2 ^ 64 := by
  rcases value_bounds hsize with ⟨hmin, hmax⟩
  have hzero : (zeroEntry size.toNat i).toNat = 2 ^ 63 - size.toNat * i := by
    rw [zeroEntry, BitVec.toNat_sub, BitVec.toNat_ofNat, typeTable]
    simp only [BitVec.reduceToNat]
    omega
  rw [BitVec.toNat_sub] at hhigh
  have hrel : (relativeTo context encoding start).toNat = start.toNat
      ∨ (relativeTo context encoding start).toNat = 0 := by
    rcases relativeTo_cases encoding start with heq | heq
    . exact .inl (congrArg BitVec.toNat heq)
    . exact .inr (congrArg BitVec.toNat heq)
  have hstart := start.isLt
  have hadd : (value size.toNat + relativeTo context encoding start).toNat
      = (value size.toNat).toNat + (relativeTo context encoding start).toNat := by
    rw [BitVec.toNat_add]
    omega
  refine ⟨?_, ?_, ?_⟩
  . intro heq
    have hnat : (value size.toNat + relativeTo context encoding start).toNat = 0 :=
      congrArg BitVec.toNat heq
    omega
  . rw [BitVec.toNat_sub, hadd]
    omega
  . rw [BitVec.toNat_sub, hadd]
    omega

theorem entry_storedAt {size : BitVec 32} (hsize : dwarfSizeOfFixedSizeField encoding = .ok size)
    (hi : size.toNat * i < 2 ^ 35) (hlow : size.toNat ≤ (start - zeroEntry size.toNat i).toNat)
    (hhigh : (start - zeroEntry size.toNat i).toNat < 2 ^ 36)
    : (entry encoding size.toNat start).StoredAt (memory size.toNat i) context encoding start := by
  rcases value_bounds hsize with ⟨hmin, _⟩
  rcases value_distance hsize hi hhigh with ⟨hne, hafter, hbefore⟩
  have hle := size_le hsize
  refine ⟨?_, representable_value hsize, ?_, ?_, ?_⟩
  . show Mem.Holds _ start (writeValue encoding (value size.toNat))
    rw [writeValue_value hsize]
    exact holds_ones hlow (by omega)
  . intro heq
    have hnat : (value size.toNat).toNat = 0 := congrArg BitVec.toNat heq
    omega
  . simp only [entry]
    split
    . decide
    . exact hne
  . simp only [entry]
    split
    . have hpointer : (memory size.toNat i).Holds
          (value size.toNat + relativeTo context encoding start) (littleEndian 8 (value 8)) :=
        holds_ones (by omega) hbefore
      rw [Mem.loadPtr, Mem.load_littleEndian hpointer]
      rfl
    . rfl

theorem holds_zeros (size i : Nat) (hsize : size ≤ 8)
    : (memory size i).Holds (zeroEntry size i) (List.replicate size 0) := by
  intro k hk
  rw [List.length_replicate] at hk
  have hnat : (zeroEntry size i + BitVec.ofNat 64 k - zeroEntry size i).toNat = k := by
    rw [BitVec.add_comm, BitVec.add_sub_cancel, BitVec.toNat_ofNat]
    omega
  rw [List.getElem?_replicate, if_pos hk, memory, hnat, if_pos hk]

theorem writeValue_zero {size : BitVec 32}
    (hsize : dwarfSizeOfFixedSizeField encoding = .ok size)
    : writeValue encoding 0 = List.replicate size.toNat 0 := by
  rw [writeValue_fixed hsize]
  rcases size_cases hsize with rfl | rfl | rfl
  . rfl
  . rfl
  . rfl

def table (encoding : BitVec 8) (size i : Nat) : List (Option TypeEntry) :=
  (List.range i).map fun j =>
    if j + 1 = i then
      none
    else
      some (entry encoding size (typeTable - BitVec.ofNat 64 (size * (j + 1))))

theorem storesTypes {size : BitVec 32} (hsize : dwarfSizeOfFixedSizeField encoding = .ok size)
    (hi : size.toNat * i < 2 ^ 35)
    : StoresTypes (memory size.toNat i) context (lsda encoding) size.toNat
        (table encoding size.toNat i) := by
  intro j e he
  simp only [table, List.getElem?_map, Option.map_eq_some_iff] at he
  rcases he with ⟨j', hj, rfl⟩
  rcases List.getElem?_eq_some_iff.1 hj with ⟨hlt, heq⟩
  rw [List.length_range] at hlt
  rw [List.getElem_range] at heq
  subst heq
  have hle := size_le hsize
  by_cases hlast : j + 1 = i
  . rw [if_pos hlast, hlast]
    show Mem.Holds _ (zeroEntry size.toNat i) (writeValue encoding 0)
    rw [writeValue_zero hsize]
    exact holds_zeros size.toNat i hle
  . rw [if_neg hlast]
    have hdistance : (typeTable - BitVec.ofNat 64 (size.toNat * (j + 1))
        - zeroEntry size.toNat i).toNat = size.toNat * i - size.toNat * (j + 1) := by
      have hmul : size.toNat * (j + 1) ≤ size.toNat * i := Nat.mul_le_mul_left _ hlt
      rw [zeroEntry, sub_sub_sub, BitVec.toNat_sub, BitVec.toNat_ofNat, BitVec.toNat_ofNat]
      omega
    have hmul : size.toNat * (j + 1 + 1) ≤ size.toNat * i := Nat.mul_le_mul_left _ (by omega)
    rw [Nat.mul_succ] at hmul
    exact entry_storedAt hsize hi (by omega) (by omega)

-- the product of two numbers of type `int` wraps
theorem distance_of_overflow {size filter : BitVec 32}
    (hover : 2 ^ 31 ≤ size.toNat * filter.toNat) (hi : size.toNat * filter.toNat < 2 ^ 35)
    : 2 ^ 31 ≤ (typeTable - (size * filter).signExtend 64
          - zeroEntry size.toNat filter.toNat).toNat
        ∧ (typeTable - (size * filter).signExtend 64
          - zeroEntry size.toNat filter.toNat).toNat < 2 ^ 36 := by
  have hmul : (size * filter).toNat = size.toNat * filter.toNat % 2 ^ 32 := BitVec.toNat_mul ..
  rw [zeroEntry, sub_sub_sub, BitVec.toNat_sub, BitVec.toNat_signExtend, BitVec.toNat_setWidth,
    BitVec.toNat_ofNat, BitVec.msb_eq_decide, hmul]
  generalize size.toNat * filter.toNat = p at hover hi
  by_cases hneg : 2 ^ (32 - 1) ≤ p % 2 ^ 32
  . simp only [hneg, decide_true, ↓reduceIte]
    omega
  . simp only [hneg, decide_false, Bool.false_eq_true, ↓reduceIte]
    omega

theorem not_findsEntry {size filter : BitVec 32}
    (hsize : dwarfSizeOfFixedSizeField encoding = .ok size) (hfilter : filter.toNat < 2 ^ 31)
    (hover : 2 ^ 31 ≤ size.toNat * filter.toNat)
    : ¬ FindsEntry encoding size.toNat filter := by
  intro hfinds
  have hi : size.toNat * filter.toNat < 2 ^ 35 := by
    calc size.toNat * filter.toNat
      _ ≤ 8 * filter.toNat := Nat.mul_le_mul_right _ (size_le hsize)
      _ < 2 ^ 35 := by omega
  have hpos : 0 < filter.toNat := by
    by_contra hzero
    rw [Nat.eq_zero_of_not_pos hzero] at hover
    omega
  have hnone : (table encoding size.toNat filter.toNat)[filter.toNat - 1]? = some none := by
    simp only [table, List.getElem?_map, List.getElem?_range (by omega : filter.toNat - 1 < filter.toNat)]
    simp [Nat.sub_add_cancel hpos]
  have hnull := (hfinds _ context (lsda encoding) _ rfl (storesTypes hsize hi) _ _ (by omega) hnone).1
  rcases distance_of_overflow hover hi with ⟨hlow, hhigh⟩
  have hle := size_le hsize
  have hstored := entry_storedAt hsize hi (by omega) hhigh
  rcases readValue_fixed hsize hstored.representable hstored.bytes with ⟨next, hread⟩
  unfold getTypeInfoEntry at hnull
  rw [show (lsda encoding).typeTableEncoding = encoding from rfl, hsize] at hnull
  simp only [Res.ok_bind] at hnull
  rw [show (lsda encoding).typeTable = typeTable from rfl, hread] at hnull
  simp only [Res.ok_bind, if_neg hstored.value_ne_zero, resolve_of_storedAt hstored] at hnull
  exact hstored.type_ne_zero (Except.ok.inj hnull)

end Overflow

/--
The distance of an entry is computed as an `int`, it wraps for an entry that is 2 GiB or more in front
of the end of the table.
-/
theorem findsEntry_iff {encoding : BitVec 8} {size filter : BitVec 32}
    (hsize : dwarfSizeOfFixedSizeField encoding = .ok size) (hfilter : filter.toNat < 2 ^ 31)
    : FindsEntry encoding size.toNat filter ↔ size.toNat * filter.toNat < 2 ^ 31 := by
  constructor
  . intro hfinds
    by_contra hover
    exact Overflow.not_findsEntry hsize hfilter (by omega) hfinds
  . exact findsEntry_of_lt hsize

-- four bytes, relative to the entry, with a further pointer
theorem findsEntry_iff_sdata4
    : FindsEntry 0x9b 4 3 := by
  have hsize : dwarfSizeOfFixedSizeField 0x9b = .ok 4 := by rfl
  exact (findsEntry_iff hsize (by decide)).2 (by decide)

-- the entry with the number 2 ^ 28 in a table of absolute pointers
theorem not_findsEntry_absptr
    : ¬ FindsEntry 0x00 8 0x10000000 := by
  have hsize : dwarfSizeOfFixedSizeField 0x00 = .ok 8 := by rfl
  have hfilter : (0x10000000 : BitVec 32).toNat < 2 ^ 31 := by decide
  have hover : 2 ^ 31 ≤ (8 : BitVec 32).toNat * (0x10000000 : BitVec 32).toNat := by decide
  have hfinds := Overflow.not_findsEntry hsize hfilter hover
  rwa [show (8 : BitVec 32).toNat = 8 from rfl] at hfinds

end LibCxxRt
