import LibCxxRt.DwarfEh.Lemmas.Leb128

/-!
This module determines what `read_value` makes of a stored value, and what the result is relative to.
-/

namespace LibCxxRt

def Readable (encoding : BitVec 8) (v : BitVec 64) : Prop :=
  match getEncoding encoding with
  | .uleb128 => v.toNat < 2 ^ 31
  | .sleb128 => -2 ^ 31 ≤ v.toInt ∧ v.toInt < 2 ^ 31
  | _ => True

def asRead (encoding : BitVec 8) (v : BitVec 64) : BitVec 64 :=
  match getEncoding encoding with
  | .uleb128 => ulebAsRead v
  | .sleb128 => slebAsRead v
  | _ => v

-- what a value that is stored at `start` is relative to
def relativeTo (context : UnwindContext) (encoding : BitVec 8) (start : Addr) : Addr :=
  match getBase encoding with
  | .pcrel => start
  | .textrel => context.textRelBase
  | .datarel => context.dataRelBase
  | .funcrel => context.regionStart
  | .absolute | .aligned | .unknown => 0

variable {m : Mem} {a : Addr} {encoding : BitVec 8} {v : BitVec 64}

theorem asRead_eq_iff
    : asRead encoding v = v ↔ Readable encoding v := by
  unfold asRead Readable
  cases getEncoding encoding with
  | uleb128 => exact ulebAsRead_eq_iff
  | sleb128 => exact slebAsRead_eq_iff
  | _ => simp

theorem zeroExtend_setWidth {w : Nat} (hv : v.toNat < 2 ^ w)
    : (v.setWidth w).zeroExtend 64 = v := by
  apply BitVec.eq_of_toNat_eq
  rw [BitVec.toNat_setWidth, BitVec.toNat_setWidth, Nat.mod_eq_of_lt hv, Nat.mod_eq_of_lt v.isLt]

theorem signExtend_setWidth {w : Nat} (hw : w ≤ 64) (hlow : -2 ^ w ≤ v.toInt * 2)
    (hhigh : v.toInt * 2 < 2 ^ w)
    : (v.setWidth w).signExtend 64 = v := by
  have hcast : ((2 ^ w : Nat) : Int) = 2 ^ w := by
    push_cast
    rfl
  apply BitVec.eq_of_toInt_eq
  rw [BitVec.toInt_signExtend_of_le hw, BitVec.toInt_setWidth,
    ← Int.bmod_bmod_of_dvd (Nat.pow_dvd_pow 2 hw), ← BitVec.toInt_eq_toNat_bmod]
  apply Int.bmod_eq_of_le_mul_two
  . omega
  . omega

theorem readValue_write (hv : Representable encoding v) (h : m.Holds a (writeValue encoding v))
    : readValue m encoding a
        =
      .ok (asRead encoding v, a + BitVec.ofNat 64 (writeValue encoding v).length) := by
  unfold Representable at hv
  unfold writeValue at h ⊢
  unfold readValue asRead
  cases henc : getEncoding encoding with
  | uleb128 =>
    rw [henc] at h
    exact readUleb128_write h
  | sleb128 =>
    rw [henc] at h
    exact readSleb128_write h
  | udata2 | udata4 =>
    simp only [henc] at h hv ⊢
    rw [Mem.load_littleEndian h, length_littleEndian]
    simp only [Res.ok_bind, Res.pure_eq_ok, zeroExtend_setWidth hv]
    rfl
  | sdata2 | sdata4 =>
    simp only [henc] at h hv ⊢
    rw [Mem.load_littleEndian h, length_littleEndian]
    simp only [Res.ok_bind, Res.pure_eq_ok]
    rw [signExtend_setWidth (by omega) (by omega) (by omega)]
    rfl
  | udata8 | sdata8 | absptr =>
    simp only [henc] at h ⊢
    rw [Mem.load_littleEndian h, length_littleEndian]
    simp only [Res.ok_bind, Res.pure_eq_ok]
    rfl
  | unknown => simp only [henc] at hv

theorem readValue_unmapped (hencoding : getEncoding encoding ≠ .unknown) (ha : m a = none)
    : readValue m encoding a = .error .fault := by
  have hbyte : m.byte a = .error .fault := by
    simp [Mem.byte, ha]
  unfold readValue
  cases henc : getEncoding encoding with
  | unknown => contradiction
  | uleb128 => simp [readUleb128, readLeb128, readLeb128.go, hbyte]
  | sleb128 => simp [readSleb128, readLeb128, readLeb128.go, hbyte]
  | _ => simp [Mem.load, hbyte]

theorem relativeTo_of_ne {context : UnwindContext} (h : getBase encoding ≠ .pcrel) (start a : Addr)
    : relativeTo context encoding start = relativeTo context encoding a := by
  unfold relativeTo
  cases hbase : getBase encoding with
  | pcrel => contradiction
  | _ => rfl

theorem resolveIndirectValue_eq (m : Mem) (context : UnwindContext) (encoding : BitVec 8)
    (v : BitVec 64) (start : Addr)
    : resolveIndirectValue m context encoding v start
        =
      if isIndirect encoding then
        m.loadPtr (v + relativeTo context encoding start)
      else
        .ok (v + relativeTo context encoding start) := by
  unfold resolveIndirectValue relativeTo
  cases getBase encoding <;> simp

end LibCxxRt
