import LibCxxRt.DwarfEh.Lemmas.Value

/-!
This module determines which headers of a language-specific data area `parse_lsda` reads back: a base
for the landing pads that is relative to its own address is off by one, and the numbers have to be ones
that the readers give back.
-/

namespace LibCxxRt

open Util.Leb128 (bytes IsUnsigned IsSigned)

-- an unsigned LEB128 number, it can have more digits than it needs
structure Uleb where
  value : BitVec 64
  digits : List Nat
  isUnsigned : IsUnsigned digits value.toNat
  length_le : digits.length ≤ 10

-- the digits are those of a LEB128 number
structure StoredValue where
  encoding : BitVec 8
  value : BitVec 64
  digits : List Nat
  stored : match getEncoding encoding with
    | .uleb128 => IsUnsigned digits value.toNat ∧ digits.length ≤ 10
    | .sleb128 => IsSigned digits value.toInt ∧ digits.length ≤ 10
    | _ => Representable encoding value

namespace StoredValue

def bytes (v : StoredValue) : List (BitVec 8) :=
  match getEncoding v.encoding with
  | .uleb128 | .sleb128 => Util.Leb128.bytes v.digits
  | _ => writeValue v.encoding v.value

-- what `read_value` makes of it
def asRead (v : StoredValue) : BitVec 64 :=
  match getEncoding v.encoding with
  | .uleb128 => BitVec.ofInt 64 (placed 0 v.digits)
  | .sleb128 => decodeSigned v.digits
  | _ => v.value

def ReadBack (v : StoredValue) : Prop :=
  match getEncoding v.encoding with
  | .uleb128 => v.value.toNat < 2 ^ 31
  | .sleb128 => SlebReadable v.digits.length v.value.toInt
  | _ => True

end StoredValue

structure LsdaHeader where
  landingPads : Option StoredValue
  -- the encoding of the entries and the offset of the end of the table
  typeTable : Option (BitVec 8 × Uleb)
  callsiteEncoding : BitVec 8
  callsiteSize : Uleb
  typeTable_ne_omit : ∀ t, typeTable = some t → t.1 ≠ dwEhPeOmit

namespace LsdaHeader

variable (header : LsdaHeader)

def landingPadBytes : List (BitVec 8) :=
  match header.landingPads with
  | none => [dwEhPeOmit]
  | some v => v.encoding :: v.bytes

def typeTableBytes : List (BitVec 8) :=
  match header.typeTable with
  | none => [dwEhPeOmit]
  | some (encoding, offset) => encoding :: bytes offset.digits

def write : List (BitVec 8) :=
  header.landingPadBytes ++ header.typeTableBytes
    ++ header.callsiteEncoding :: bytes header.callsiteSize.digits

-- where the offset of the type table counts from, for a header at `a`
def offsetBase (a : Addr) : Addr :=
  a + BitVec.ofNat 64 header.landingPadBytes.length + BitVec.ofNat 64 header.typeTableBytes.length

/--
The base of the landing pads. A value that is relative to its address follows the byte with its encoding,
the base may be what the value is the address of.
-/
def HasBase (m : Mem) (context : UnwindContext) (a base : Addr) : Prop :=
  match header.landingPads with
  | none => base = context.regionStart
  | some v =>
    if isIndirect v.encoding then
      m.loadPtr (v.value + relativeTo context v.encoding (a + 1)) = .ok base
    else
      v.value + relativeTo context v.encoding (a + 1) = base

-- what the header says
def lsda (context : UnwindContext) (a base : Addr) : DwarfEhLsda where
  regionStart := context.regionStart
  landingPads := base
  typeTable := header.typeTable.elim 0 fun t => header.offsetBase a + t.2.value
  typeTableEncoding := header.typeTable.elim dwEhPeOmit Prod.fst
  callSiteTable := a + BitVec.ofNat 64 header.write.length
  actionTable := a + BitVec.ofNat 64 header.write.length + header.callsiteSize.value
  callsiteEncoding := header.callsiteEncoding

/--
The base is read back if it is not relative to its address. Otherwise there can still be a pointer to
the base at the address that is used instead.
-/
def ReadsBase (m : Mem) (context : UnwindContext) (a base : Addr) : Prop :=
  ∀ v, header.landingPads = some v →
    getBase v.encoding ≠ .pcrel ∧ v.ReadBack
      ∨ isIndirect v.encoding = true
        ∧ m.loadPtr (v.asRead + relativeTo context v.encoding a) = .ok base

end LsdaHeader

namespace StoredValue

variable {m : Mem} {a : Addr} {v : StoredValue}

theorem asRead_eq_iff
    : v.asRead = v.value ↔ v.ReadBack := by
  have hstored := v.stored
  unfold asRead ReadBack
  cases henc : getEncoding v.encoding with
  | uleb128 =>
    simp only [henc] at hstored
    exact ofInt_placed_eq_iff hstored.1 hstored.2
  | sleb128 =>
    simp only [henc] at hstored
    exact decodeSigned_eq_iff hstored.1 hstored.2
  | _ => simp

theorem readValue_bytes (h : m.Holds a v.bytes)
    : readValue m v.encoding a = .ok (v.asRead, a + BitVec.ofNat 64 v.bytes.length) := by
  have hstored := v.stored
  unfold bytes at h ⊢
  unfold asRead
  cases henc : getEncoding v.encoding with
  | uleb128 =>
    simp only [henc] at hstored h ⊢
    unfold readValue
    rw [henc, Util.Leb128.length_bytes]
    exact readUleb128_bytes hstored.1.ne_nil hstored.1.lt hstored.2 h
  | sleb128 =>
    simp only [henc] at hstored h ⊢
    unfold readValue
    rw [henc, Util.Leb128.length_bytes]
    exact readSleb128_bytes hstored.1.ne_nil hstored.1.lt hstored.2 h
  | _ =>
    simp only [henc] at hstored h ⊢
    have hread := readValue_write hstored h
    unfold LibCxxRt.asRead at hread
    simpa only [henc] using hread

-- the digits beyond the fifth are placed wrongly, but not as low as at the lowest bit
theorem toNat_placed_mod {ds : List Nat} (hds : ∀ d ∈ ds, d < 128) (hlen : ds.length ≤ 10)
    : (BitVec.ofInt 64 (placed 0 ds)).toNat % 2 = Nat.ofDigits 128 ds % 2 := by
  have hlow := int32_emod (Nat.ofDigits 128 ds % 2 ^ 35 : Nat)
  have hhigh := int32_emod (8 * (Nat.ofDigits 128 ds / 2 ^ 35 : Nat))
  rw [placed_zero hds hlen, BitVec.toNat_ofInt]
  generalize int32 (Nat.ofDigits 128 ds % 2 ^ 35 : Nat) = low at *
  generalize int32 (8 * (Nat.ofDigits 128 ds / 2 ^ 35 : Nat)) = high at *
  omega

theorem getLsbD_zero (x : BitVec 64)
    : x.getLsbD 0 = decide (x.toNat % 2 = 1) := by
  exact Nat.testBit_zero x.toNat

theorem getLsbD_decodeSigned {ds : List Nat} (hne : ds ≠ []) (hlen : ds.length ≤ 10)
    : (decodeSigned ds).getLsbD 0 = (BitVec.ofInt 64 (placed 0 ds)).getLsbD 0 := by
  have hpos : 0 < ds.length := List.length_pos_iff.2 hne
  have hdvd : 2 ∣ 2 ^ (7 * ds.length % 64) := dvd_pow_self 2 (by omega)
  have hsign : (-((1 <<< (7 * ds.length % 64) : Nat) : BitVec 64)).getLsbD 0 = false := by
    rw [getLsbD_zero, toNat_neg_shiftLeft (by omega), decide_eq_false_iff_not]
    omega
  unfold decodeSigned
  dsimp only
  split
  . rw [BitVec.getLsbD_or, hsign, Bool.or_false]
  . rfl

theorem getLsbD_asRead
    : v.asRead.getLsbD 0 = v.value.getLsbD 0 := by
  have hstored := v.stored
  unfold asRead
  cases henc : getEncoding v.encoding with
  | uleb128 =>
    simp only [henc] at hstored ⊢
    rw [getLsbD_zero, getLsbD_zero, toNat_placed_mod hstored.1.lt hstored.2, hstored.1.value]
  | sleb128 =>
    simp only [henc] at hstored ⊢
    have hdvd : (2 : Int) ∣ 128 ^ v.digits.length :=
      dvd_pow (by decide) hstored.1.length_pos.ne'
    have hmod : (Nat.ofDigits 128 v.digits : Nat) % (2 : Int) = v.value.toInt % 2 := by
      rw [hstored.1.ofDigits_eq, Int.emod_emod_of_dvd _ hdvd]
    rw [getLsbD_decodeSigned hstored.1.ne_nil hstored.2, getLsbD_zero, getLsbD_zero,
      toNat_placed_mod hstored.1.lt hstored.2]
    rw [BitVec.toInt_eq_toNat_cond] at hmod
    congr 2
    split at hmod <;> omega
  | _ => rfl

theorem asRead_ne
    : v.asRead ≠ v.value + 1 := by
  intro heq
  have hbit := getLsbD_asRead (v := v)
  rw [heq, getLsbD_zero, getLsbD_zero, decide_eq_decide, BitVec.toNat_add] at hbit
  have hone : (1 : BitVec 64).toNat = 1 := by rfl
  omega

-- a value that is misread is never off by just the one byte that the address is off by
theorem asRead_add_relativeTo_eq_iff {context : UnwindContext}
    : v.asRead + relativeTo context v.encoding a = v.value + relativeTo context v.encoding (a + 1)
        ↔
      getBase v.encoding ≠ .pcrel ∧ v.ReadBack := by
  by_cases hrel : getBase v.encoding = .pcrel
  . simp only [relativeTo, hrel, ne_eq, not_true, false_and, iff_false]
    rw [BitVec.add_comm a 1, ← BitVec.add_assoc, BitVec.add_left_inj]
    exact asRead_ne
  . rw [relativeTo_of_ne hrel a (a + 1), BitVec.add_left_inj, asRead_eq_iff]
    exact (and_iff_right hrel).symm

theorem encoding_ne_omit
    : v.encoding ≠ dwEhPeOmit := by
  intro heq
  have hstored := v.stored
  rw [heq] at hstored
  exact hstored

end StoredValue

namespace Uleb

variable {m : Mem} {a : Addr} {v : Uleb}

-- what `read_uleb128` makes of it
def asRead (v : Uleb) : BitVec 64 :=
  BitVec.ofInt 64 (placed 0 v.digits)

theorem asRead_eq_iff
    : v.asRead = v.value ↔ v.value.toNat < 2 ^ 31 := by
  exact ofInt_placed_eq_iff v.isUnsigned v.length_le

theorem readUleb128_bytes (h : m.Holds a (bytes v.digits))
    : readUleb128 m a = .ok (v.asRead, a + BitVec.ofNat 64 (bytes v.digits).length) := by
  rw [Util.Leb128.length_bytes]
  exact LibCxxRt.readUleb128_bytes v.isUnsigned.ne_nil v.isUnsigned.lt v.length_le h

end Uleb

namespace LsdaHeader

variable {header : LsdaHeader} {m : Mem} {context : UnwindContext} {a base : Addr}

-- the base for the landing pads that `parse_lsda` arrives at
def baseAsRead (header : LsdaHeader) (m : Mem) (context : UnwindContext) (a : Addr) : Res Addr :=
  match header.landingPads with
  | none => .ok context.regionStart
  | some v => resolveIndirectValue m context v.encoding v.asRead a

theorem readValueWithEncoding_eq (h : m.Holds a header.landingPadBytes)
    : readValueWithEncoding m context a context.regionStart
        =
      header.baseAsRead m context a >>= fun base =>
        .ok (base, a + BitVec.ofNat 64 header.landingPadBytes.length) := by
  unfold landingPadBytes at h ⊢
  unfold baseAsRead readValueWithEncoding
  cases hpads : header.landingPads with
  | none =>
    simp only [hpads] at h
    simp [Mem.byte_of_eq_some (Mem.holds_cons.1 h).1]
  | some v =>
    simp only [hpads] at h
    rcases Mem.holds_cons.1 h with ⟨hencoding, hvalue⟩
    simp only [Mem.byte_of_eq_some hencoding, Res.ok_bind, v.encoding_ne_omit, if_false,
      StoredValue.readValue_bytes hvalue, Res.pure_eq_ok, List.length_cons, add_ofNat_succ]

theorem readTypeTable_eq (h : m.Holds a header.typeTableBytes)
    : ∃ encoding, m a = some encoding
        ∧ encoding = header.typeTable.elim dwEhPeOmit Prod.fst
        ∧ readTypeTable m encoding (a + 1)
            =
          .ok (header.typeTable.elim 0 fun t =>
            a + BitVec.ofNat 64 header.typeTableBytes.length + t.2.asRead,
            a + BitVec.ofNat 64 header.typeTableBytes.length) := by
  unfold typeTableBytes at h ⊢
  unfold readTypeTable
  cases htable : header.typeTable with
  | none =>
    simp only [htable] at h
    exact ⟨dwEhPeOmit, (Mem.holds_cons.1 h).1, rfl, by simp⟩
  | some t =>
    simp only [htable] at h
    rcases Mem.holds_cons.1 h with ⟨hencoding, hoffset⟩
    refine ⟨t.1, hencoding, rfl, ?_⟩
    rw [if_pos (header.typeTable_ne_omit t htable), t.2.readUleb128_bytes hoffset]
    simp only [Res.ok_bind, Res.pure_eq_ok, Option.elim_some, List.length_cons, add_ofNat_succ]

theorem baseAsRead_eq_iff (hbase : header.HasBase m context a base)
    : header.baseAsRead m context a = .ok base ↔ header.ReadsBase m context a base := by
  unfold HasBase at hbase
  unfold baseAsRead ReadsBase
  cases hpads : header.landingPads with
  | none =>
    simp only [hpads] at hbase
    simp [hbase]
  | some v =>
    simp only [hpads] at hbase
    simp only [Option.some.injEq, forall_eq']
    rw [resolveIndirectValue_eq]
    by_cases hindirect : isIndirect v.encoding = true
    . simp only [hindirect, if_true, true_and] at hbase ⊢
      refine ⟨Or.inr, ?_⟩
      rintro (hread | hload)
      . rwa [StoredValue.asRead_add_relativeTo_eq_iff.2 hread]
      . exact hload
    . rw [Bool.not_eq_true] at hindirect
      simp only [hindirect, Bool.false_eq_true, if_false, false_and, or_false] at hbase ⊢
      rw [Except.ok.injEq, ← hbase]
      exact StoredValue.asRead_add_relativeTo_eq_iff

-- what `parse_lsda` makes of the header
def lsdaAsRead (header : LsdaHeader) (context : UnwindContext) (a base : Addr) : DwarfEhLsda where
  regionStart := context.regionStart
  landingPads := base
  typeTable := header.typeTable.elim 0 fun t => header.offsetBase a + t.2.asRead
  typeTableEncoding := header.typeTable.elim dwEhPeOmit Prod.fst
  callSiteTable := a + BitVec.ofNat 64 header.write.length
  actionTable := a + BitVec.ofNat 64 header.write.length + header.callsiteSize.asRead
  callsiteEncoding := header.callsiteEncoding

theorem lsdaAsRead_eq_iff {base' : Addr}
    : header.lsdaAsRead context a base' = header.lsda context a base
        ↔
      base' = base ∧ (∀ t, header.typeTable = some t → t.2.value.toNat < 2 ^ 31)
        ∧ header.callsiteSize.value.toNat < 2 ^ 31 := by
  unfold lsdaAsRead lsda
  simp only [DwarfEhLsda.mk.injEq, true_and, and_true, BitVec.add_right_inj, Uleb.asRead_eq_iff]
  cases header.typeTable with
  | none => simp
  | some t => simp [Uleb.asRead_eq_iff]

theorem parseLsda_eq (h : m.Holds a header.write)
    : parseLsda m context a
        =
      header.baseAsRead m context a >>= fun base => .ok (header.lsdaAsRead context a base) := by
  rcases Mem.holds_append.1 h with ⟨hfront, hcallsite⟩
  rcases Mem.holds_append.1 hfront with ⟨hpads, htable⟩
  have hoffset : a + BitVec.ofNat 64 (header.landingPadBytes ++ header.typeTableBytes).length
        =
      header.offsetBase a := by
    rw [List.length_append, BitVec.ofNat_add, ← BitVec.add_assoc]
    rfl
  rw [hoffset] at hcallsite
  rcases Mem.holds_cons.1 hcallsite with ⟨hencoding, hsize⟩
  rcases readTypeTable_eq htable with ⟨encoding, hbyte, rfl, hread⟩
  have hend : a + BitVec.ofNat 64 header.write.length
        =
      header.offsetBase a + 1 + BitVec.ofNat 64 (bytes header.callsiteSize.digits).length := by
    rw [write, List.length_append, BitVec.ofNat_add, ← BitVec.add_assoc, hoffset,
      List.length_cons, add_ofNat_succ]
  unfold parseLsda lsdaAsRead
  simp only [readValueWithEncoding_eq hpads, hend]
  cases header.baseAsRead m context a with
  | error e => rfl
  | ok base =>
    simp only [Res.ok_bind, Mem.byte_of_eq_some hbyte, hread]
    rw [← offsetBase]
    simp only [Res.ok_bind, Mem.byte_of_eq_some hencoding, Uleb.readUleb128_bytes hsize]
    rfl

end LsdaHeader

theorem parseLsda_eq_iff {header : LsdaHeader} {m : Mem} {context : UnwindContext} {a base : Addr}
    (h : m.Holds a header.write) (hbase : header.HasBase m context a base)
    : parseLsda m context a = .ok (header.lsda context a base)
        ↔
      header.ReadsBase m context a base
        ∧ (∀ t, header.typeTable = some t → t.2.value.toNat < 2 ^ 31)
        ∧ header.callsiteSize.value.toNat < 2 ^ 31 := by
  rw [LsdaHeader.parseLsda_eq h, Res.bind_eq_ok, ← LsdaHeader.baseAsRead_eq_iff hbase]
  simp only [Except.ok.injEq, LsdaHeader.lsdaAsRead_eq_iff]
  constructor
  . rintro ⟨_, hread, rfl, hsizes⟩
    exact ⟨hread, hsizes⟩
  . rintro ⟨hread, hsizes⟩
    exact ⟨base, hread, rfl, hsizes⟩

namespace LsdaHeader.Sample

def context : UnwindContext := ⟨0x400010, 0x400000, 0, 0, 0, none, 0⟩

-- one digit
def short (v : BitVec 64) (hv : v.toNat < 128) : Uleb where
  value := v
  digits := [v.toNat]
  isUnsigned := ⟨by simp, by simpa using hv, by simp⟩
  length_le := by simp

-- four bytes
def offset (encoding : BitVec 8) (hencoding : getEncoding encoding = .sdata4) : StoredValue where
  encoding := encoding
  value := 0x20
  digits := []
  stored := by
    simp only [hencoding, Representable]
    decide

def header (encoding : BitVec 8) (hencoding : getEncoding encoding = .sdata4) : LsdaHeader where
  landingPads := some (offset encoding hencoding)
  typeTable := some (0x9b, short 0x25 (by decide))
  callsiteEncoding := 0x01
  callsiteSize := short 0x10 (by decide)
  typeTable_ne_omit := by
    rintro t ⟨⟩
    decide

-- relative to the start of the function
def funcrel : LsdaHeader :=
  header 0x4b rfl

def pcrel : LsdaHeader :=
  header 0x1b rfl

end LsdaHeader.Sample

open LsdaHeader.Sample

theorem parseLsda_eq_iff_funcrel
    : parseLsda (Mem.ofList 0x1000 funcrel.write) context 0x1000
        =
      .ok (funcrel.lsda context 0x1000 0x400020) := by
  have hholds : (Mem.ofList 0x1000 funcrel.write).Holds 0x1000 funcrel.write :=
    Mem.holds_ofList (by decide)
  have hbase : funcrel.HasBase (Mem.ofList 0x1000 funcrel.write) context 0x1000 0x400020 := rfl
  refine (parseLsda_eq_iff hholds hbase).2 ⟨?_, ?_, by decide⟩
  . rintro v ⟨⟩
    exact .inl ⟨by decide, trivial⟩
  . rintro t ⟨⟩
    decide

-- the value is stored at 0x1001
theorem parseLsda_pcrel
    : (Mem.ofList 0x1000 pcrel.write).Holds 0x1000 pcrel.write
        ∧ pcrel.HasBase (Mem.ofList 0x1000 pcrel.write) context 0x1000 0x1021
        ∧ parseLsda (Mem.ofList 0x1000 pcrel.write) context 0x1000
            =
          .ok (pcrel.lsda context 0x1000 0x1020)
        ∧ parseLsda (Mem.ofList 0x1000 pcrel.write) context 0x1000
            ≠
          .ok (pcrel.lsda context 0x1000 0x1021) := by
  exact ⟨Mem.holds_ofList (by decide), rfl, by decide +kernel, by decide +kernel⟩

end LibCxxRt
