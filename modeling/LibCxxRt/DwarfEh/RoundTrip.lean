import LibCxxRt.DwarfEh.Impl.Shift
import LibCxxRt.DwarfEh.Lemmas.Leb128

/-!
This module contains the results about `read_uleb128` and `read_sleb128`: for which numbers they are
the inverses of an encoder. The encoding of a number can be longer than it has to be.
-/

namespace LibCxxRt

open Util
open Util.Leb128 (bytes IsUnsigned IsSigned)

variable {m : Mem} {a : Addr} {ds : List Nat} {v : BitVec 64}

/--
The bits of a digit from the 32nd one on are lost before it is added to the accumulator, and the
31st one is taken for a sign.
-/
theorem readUleb128_eq_iff (hds : IsUnsigned ds v.toNat) (hlen : ds.length ≤ 10)
    (h : m.Holds a (bytes ds))
    : readUleb128 m a = .ok (v, a + BitVec.ofNat 64 ds.length) ↔ v.toNat < 2 ^ 31 := by
  rw [readUleb128_bytes hds.ne_nil hds.lt hlen h, ← ofInt_placed_eq_iff hds hlen]
  simp

-- the encoding has two digits more than it needs
theorem readUleb128_eq_iff_padded
    : readUleb128 (Mem.ofList 0x1000 (bytes [44, 2, 0, 0] ++ [0x7f])) 0x1000 = .ok (300, 0x1004)
        ↔
      (300 : BitVec 64).toNat < 2 ^ 31 := by
  have hholds : (Mem.ofList 0x1000 (bytes [44, 2, 0, 0] ++ [0x7f])).Holds 0x1000
      (bytes [44, 2, 0, 0]) :=
    (Mem.holds_append.1 (Mem.holds_ofList (by decide))).1
  exact readUleb128_eq_iff ⟨by simp, by decide, rfl⟩ (by decide) hholds

theorem readUleb128_sign
    : IsUnsigned [0, 0, 0, 0, 8] (2 ^ 31)
        ∧ readUleb128 (Mem.ofList 0x1000 (bytes [0, 0, 0, 0, 8])) 0x1000
          = .ok (0xffffffff80000000, 0x1005) := by
  exact ⟨⟨by simp, by decide, rfl⟩, by decide +kernel⟩

namespace Shift

theorem readLeb128.go_result (m : Mem) (fuel : Nat) (uleb : BitVec 64) (bit : Nat) (data : Addr)
    : (readLeb128.go m fuel uleb bit data).result = LibCxxRt.readLeb128.go m fuel uleb bit data := by
  induction fuel generalizing uleb bit data with
  | zero => rfl
  | succ fuel ih =>
    unfold go LibCxxRt.readLeb128.go
    split
    . simp only [Traced.result_bind, Traced.result_liftM, Traced.result_note, Res.ok_bind]
      congr
      funext byte
      split
      . rfl
      . exact ih ..
    . rfl

theorem readLeb128_result (m : Mem) (data : Addr)
    : (readLeb128 m data).result = LibCxxRt.readLeb128 m data := by
  exact readLeb128.go_result ..

theorem readSleb128_result (m : Mem) (data : Addr)
    : (readSleb128 m data).result = LibCxxRt.readSleb128 m data := by
  unfold readSleb128 LibCxxRt.readSleb128
  simp only [Traced.result_bind, readLeb128_result, Traced.result_note, Res.ok_bind]
  congr
  funext r
  split
  . simp
  . rfl

theorem readLeb128.only_go_bytes {P : Shift → Prop} {fuel bit : Nat} {uleb : BitVec 64}
    {data : Addr} (hne : ds ≠ []) (hds : ∀ d ∈ ds, d < 128) (hfuel : ds.length ≤ fuel)
    (hbit : bit + 7 * ds.length < 71) (h : m.Holds data (bytes ds))
    : Traced.Only P (go m fuel uleb bit data) ↔ ∀ i, i < ds.length → P ⟨32, bit + 7 * i⟩ := by
  induction ds generalizing fuel uleb bit data with
  | nil => contradiction
  | cons d ds ih =>
    cases fuel with
    | zero => simp at hfuel
    | succ fuel =>
      have hd : d < 128 := hds d List.mem_cons_self
      rcases and_0x7f_eq hd with ⟨hlast, hmore, hne'⟩
      simp only [List.length_cons] at hfuel hbit
      have hlt : bit < 64 := by omega
      cases ds with
      | nil =>
        have hbyte : m data = some (BitVec.ofNat 8 d) := (Mem.holds_cons.1 h).1
        simp only [go, if_pos hlt, Mem.byte_of_eq_some hbyte, Traced.only_bind, Traced.only_liftM,
          true_and, Traced.result_liftM, Except.ok.injEq, forall_eq', hlast, Traced.only_note,
          Traced.result_note, if_pos, Traced.only_pure, implies_true, and_true]
        simp
      | cons d' ds =>
        have hbyte : m data = some (BitVec.ofNat 8 (d + 128)) := (Mem.holds_cons.1 h).1
        have hrest (uleb : BitVec 64)
            : Traced.Only P (go m fuel uleb (bit + 7) (data + 1))
                ↔
              ∀ i, i < (d' :: ds).length → P ⟨32, bit + 7 + 7 * i⟩ := by
          apply ih (by simp) _ (by omega) (by omega) (Mem.holds_cons.1 h).2
          intro x hx
          exact hds x (List.mem_cons_of_mem d hx)
        simp only [go, if_pos hlt, Mem.byte_of_eq_some hbyte, Traced.only_bind, Traced.only_liftM,
          true_and, Traced.result_liftM, Except.ok.injEq, forall_eq', hmore, Traced.only_note,
          Traced.result_note, if_neg hne', hrest]
        have hlen : (d :: d' :: ds).length = (d' :: ds).length + 1 := rfl
        rw [hlen, Nat.forall_lt_succ_left']
        simp [Nat.mul_add, Nat.add_assoc, Nat.add_comm 7]

theorem only_readLeb128 {P : Shift → Prop} (hne : ds ≠ []) (hds : ∀ d ∈ ds, d < 128)
    (hlen : ds.length ≤ 10) (h : m.Holds a (bytes ds))
    : Traced.Only P (readLeb128 m a) ↔ ∀ i, i < ds.length → P ⟨32, 7 * i⟩ := by
  have honly : Traced.Only P (readLeb128 m a) ↔ _ :=
    readLeb128.only_go_bytes hne hds (by omega) (by omega) h
  simpa using honly

-- the sixth digit is shifted by 35 bits
theorem only_defined_readSleb128 (hne : ds ≠ []) (hds : ∀ d ∈ ds, d < 128)
    (hlen : ds.length ≤ 10) (h : m.Holds a (bytes ds))
    : Traced.Only Defined (readSleb128 m a) ↔ ds.length ≤ 5 := by
  unfold readSleb128
  rw [Traced.only_bind, only_readLeb128 hne hds hlen h, readLeb128_result,
    readLeb128_bytes hne hds hlen h]
  have hpos : 0 < ds.length := List.length_pos_iff.2 hne
  constructor
  . rintro ⟨hdigits, _⟩
    by_contra hlong
    have hcount : 7 * 5 < 32 := hdigits 5 (by omega)
    contradiction
  . intro hshort
    refine ⟨?_, ?_⟩
    . intro i hi
      show 7 * i < 32
      omega
    . simp only [Except.ok.injEq, forall_eq', Traced.only_bind, Traced.only_note, Defined]
      refine ⟨?_, ?_⟩
      . show 7 * ds.length - 1 < 64
        omega
      intro _ _
      split
      . simp only [Traced.only_bind, Traced.only_note, Traced.only_pure, implies_true, and_true]
        show 7 * ds.length < 64
        omega
      . exact Traced.only_pure _

end Shift

/--
The shifts of the digits are only defined for encodings of up to five bytes. Five bytes have room for
35 bits, of which 32 are kept.
-/
theorem readSleb128_eq_iff (hds : IsSigned ds v.toInt) (hlen : ds.length ≤ 10)
    (h : m.Holds a (bytes ds))
    : readSleb128 m a = .ok (v, a + BitVec.ofNat 64 ds.length)
          ∧ Traced.Only Shift.Defined (Shift.readSleb128 m a)
        ↔
      ds.length ≤ 5 ∧ -2 ^ 31 ≤ v.toInt ∧ v.toInt < 2 ^ 31 := by
  rw [readSleb128_bytes hds.ne_nil hds.lt hlen h,
    Shift.only_defined_readSleb128 hds.ne_nil hds.lt hlen h]
  simp only [Except.ok.injEq, Prod.mk.injEq, and_true]
  rw [decodeSigned_eq_iff hds hlen, SlebReadable, and_comm]
  apply and_congr_right
  intro hshort
  rw [if_pos hshort]

theorem readSleb128_eq_iff_padded
    : readSleb128 (Mem.ofList 0x1000 (bytes [0x7e, 0x7f, 0x7f] ++ [0x01])) 0x1000
            = .ok (-2, 0x1003)
          ∧ Traced.Only Shift.Defined
            (Shift.readSleb128 (Mem.ofList 0x1000 (bytes [0x7e, 0x7f, 0x7f] ++ [0x01])) 0x1000)
        ↔
      3 ≤ 5 ∧ -2 ^ 31 ≤ (-2 : BitVec 64).toInt ∧ (-2 : BitVec 64).toInt < 2 ^ 31 := by
  have hholds : (Mem.ofList 0x1000 (bytes [0x7e, 0x7f, 0x7f] ++ [0x01])).Holds 0x1000
      (bytes [0x7e, 0x7f, 0x7f]) :=
    (Mem.holds_append.1 (Mem.holds_ofList (by decide))).1
  exact readSleb128_eq_iff ⟨by simp, by decide, by decide⟩ (by decide) hholds

-- `-1` with three digits more than it needs, and a number that needs 33 bits
theorem readSleb128_misread
    : IsSigned [0x7f, 0x7f, 0x7f, 0x7f, 0x7f, 0x7f] (-1)
        ∧ readSleb128 (Mem.ofList 0x1000 (bytes [0x7f, 0x7f, 0x7f, 0x7f, 0x7f, 0x7f])) 0x1000
          = .ok (1015, 0x1006)
        ∧ IsSigned [0, 0, 0, 0, 8] (2 ^ 31)
        ∧ readSleb128 (Mem.ofList 0x1000 (bytes [0, 0, 0, 0, 8])) 0x1000
          = .ok (-0x80000000, 0x1005) := by
  exact ⟨⟨by simp, by decide, by decide⟩, by decide +kernel, ⟨by simp, by decide, by decide⟩,
    by decide +kernel⟩

end LibCxxRt
