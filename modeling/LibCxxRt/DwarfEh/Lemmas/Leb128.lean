import LibCxxRt.DwarfEh.Lemmas.Mem
import Mathlib.Tactic.IntervalCases

/-!
This module determines what the readers of the variable length integers make of a number: they give
it back if it fits into 32 bits with a sign, and only then.
-/

namespace LibCxxRt

open Util.Leb128 (digits bytes unsigned signed IsUnsigned IsSigned)

-- the `int` with the low 32 bits of `x`
def int32 (x : Int) : Int :=
  x.bmod (2 ^ 32)

-- what the reader makes of digits, the first of which has the weight `2 ^ bit`
def placed (bit : Nat) : List Nat → Int
  | [] => 0
  | d :: ds => int32 (d * 2 ^ (bit % 32)) + placed (bit + 7) ds

theorem toInt_shiftDigit {d : Nat} (bit : Nat) (hd : d < 128)
    : (shiftDigit (BitVec.ofNat 8 d) bit).toInt = int32 (d * 2 ^ (bit % 32)) := by
  have hlt : d % 2 ^ 8 % 2 ^ 32 = d := by omega
  rw [shiftDigit, BitVec.toInt_signExtend_of_le (by omega), BitVec.toInt_shiftLeft,
    BitVec.toNat_setWidth, BitVec.toNat_ofNat, hlt, Nat.shiftLeft_eq]
  unfold int32
  push_cast
  rfl

theorem shiftDigit_eq {d : Nat} (bit : Nat) (hd : d < 128)
    : shiftDigit (BitVec.ofNat 8 d) bit = BitVec.ofInt 64 (int32 (d * 2 ^ (bit % 32))) := by
  rw [← toInt_shiftDigit bit hd, BitVec.ofInt_toInt]

theorem and_0x7f_eq {d : Nat} (hd : d < 128)
    : BitVec.ofNat 8 d &&& 0x7f = BitVec.ofNat 8 d
        ∧ BitVec.ofNat 8 (d + 128) &&& 0x7f = BitVec.ofNat 8 d
        ∧ BitVec.ofNat 8 (d + 128) ≠ BitVec.ofNat 8 d := by
  revert d
  decide

namespace readLeb128

theorem go_bytes {m : Mem} {fuel bit : Nat} {uleb : BitVec 64} {data : Addr} {ds : List Nat}
    (hne : ds ≠ []) (hds : ∀ d ∈ ds, d < 128) (hfuel : ds.length ≤ fuel)
    (hbit : bit + 7 * ds.length < 71) (h : m.Holds data (bytes ds))
    : go m fuel uleb bit data
        =
      .ok (uleb + BitVec.ofInt 64 (placed bit ds), bit + 7 * ds.length,
        data + BitVec.ofNat 64 ds.length) := by
  induction ds generalizing fuel uleb bit data with
  | nil => contradiction
  | cons d ds ih =>
    cases fuel with
    | zero => simp at hfuel
    | succ fuel =>
      have hd : d < 128 := hds d List.mem_cons_self
      rcases and_0x7f_eq hd with ⟨hlast, hmore, hne'⟩
      simp only [List.length_cons] at hfuel hbit
      have hlt : bit < 64 := by omega
      cases ds with
      | nil =>
        have hbyte : m data = some (BitVec.ofNat 8 d) := (Mem.holds_cons.1 h).1
        simp only [go, if_pos hlt, Mem.byte_of_eq_some hbyte, Res.ok_bind, hlast, if_pos,
          Res.pure_eq_ok, shiftDigit_eq bit hd, placed, Int.add_zero]
        rfl
      | cons d' ds =>
        have hbyte : m data = some (BitVec.ofNat 8 (d + 128)) := (Mem.holds_cons.1 h).1
        have hrest : go m fuel (uleb + shiftDigit (BitVec.ofNat 8 d) bit) (bit + 7) (data + 1) = _ :=
          ih (by simp) (fun x hx => hds x (List.mem_cons_of_mem d hx)) (by omega) (by omega)
            (Mem.holds_cons.1 h).2
        have hsum : uleb + BitVec.ofInt 64 (placed bit (d :: d' :: ds))
            =
          uleb + shiftDigit (BitVec.ofNat 8 d) bit
            + BitVec.ofInt 64 (placed (bit + 7) (d' :: ds)) := by
          rw [placed, BitVec.ofInt_add, shiftDigit_eq bit hd, BitVec.add_assoc]
        simp only [go, if_pos hlt, Mem.byte_of_eq_some hbyte, Res.ok_bind, hmore, if_neg hne', hrest]
        have hlen : (d :: d' :: ds).length = (d' :: ds).length + 1 := rfl
        rw [hsum, hlen, add_ofNat_succ, Nat.mul_add, Nat.add_assoc, Nat.add_comm 7]

end readLeb128

theorem readLeb128_bytes {m : Mem} {data : Addr} {ds : List Nat} (hne : ds ≠ [])
    (hds : ∀ d ∈ ds, d < 128) (hlen : ds.length ≤ 10) (h : m.Holds data (bytes ds))
    : readLeb128 m data
        =
      .ok (BitVec.ofInt 64 (placed 0 ds), 7 * ds.length, data + BitVec.ofNat 64 ds.length) := by
  have hgo : readLeb128.go m 11 0 0 data = _ :=
    readLeb128.go_bytes hne hds (by omega) (by omega) h
  rw [readLeb128, hgo, Nat.zero_add]
  simp only [BitVec.ofNat_eq_ofNat, BitVec.zero_add]

theorem int32_bounds (x : Int)
    : -2 ^ 31 ≤ int32 x ∧ int32 x < 2 ^ 31 := by
  exact ⟨Int.le_bmod (by decide), Int.bmod_lt (by decide)⟩

theorem int32_emod (x : Int)
    : int32 x % 2 ^ 32 = x % 2 ^ 32 := by
  exact Int.bmod_emod

theorem dvd_int32 {x : Int} {k : Nat} (hk : k ≤ 32) (h : 2 ^ k ∣ x)
    : 2 ^ k ∣ int32 x := by
  have hdvd : (2 : Int) ^ k ∣ 2 ^ 32 := pow_dvd_pow 2 hk
  have hmod : (2 : Int) ^ 32 ∣ int32 x - x := Int.dvd_bmod_sub_self
  have := (hdvd.trans hmod).add h
  rwa [Int.sub_add_cancel] at this

theorem int32_eq {x y : Int} (hlow : -2 ^ 31 ≤ y) (hhigh : y < 2 ^ 31) (h : y % 2 ^ 32 = x % 2 ^ 32)
    : int32 x = y := by
  have := int32_bounds x
  have := int32_emod x
  omega

theorem int32_add {x y : Int} {k : Nat} (hk : k ≤ 31) (h0 : 0 ≤ x) (hx : x < 2 ^ k)
    (hy : 2 ^ k ∣ y)
    : int32 (x + y) = x + int32 y := by
  have hbounds := int32_bounds y
  have hroom : int32 y + 2 ^ k ≤ 2 ^ 31 := by
    rcases dvd_int32 (by omega) hy with ⟨t, ht⟩
    rcases pow_dvd_pow (2 : Int) hk with ⟨r, hr⟩
    have hlt : 2 ^ k * t < 2 ^ k * r := by
      rw [← ht, ← hr]
      exact hbounds.2
    have : t + 1 ≤ r := Int.lt_of_mul_lt_mul_left hlt (by positivity)
    calc int32 y + 2 ^ k
      _ = 2 ^ k * (t + 1) := by rw [ht]; ring
      _ ≤ 2 ^ k * r := Int.mul_le_mul_of_nonneg_left this (by positivity)
      _ = 2 ^ 31 := hr.symm
  have hmod := int32_emod y
  apply int32_eq (by omega) (by omega)
  rw [Int.add_emod, hmod, ← Int.add_emod]

theorem placed_eq_int32 {bit : Nat} {ds : List Nat} (hds : ∀ d ∈ ds, d < 128)
    (hfit : bit % 32 + 7 * ds.length ≤ 38)
    : placed bit ds = int32 (2 ^ (bit % 32) * (Nat.ofDigits 128 ds : Nat)) := by
  induction ds generalizing bit with
  | nil => simp [placed, int32]
  | cons d ds ih =>
    rw [Nat.ofDigits_cons, placed]
    rw [List.length_cons] at hfit
    have hd : d < 128 := hds d List.mem_cons_self
    by_cases hnil : ds = []
    . subst hnil
      simp [placed, mul_comm]
    . have hpos : 0 < ds.length := List.length_pos_iff.2 hnil
      have hbit : (bit + 7) % 32 = bit % 32 + 7 := by omega
      have h0 : (0 : Int) ≤ d * 2 ^ (bit % 32) := by positivity
      have hlt : (d * 2 ^ (bit % 32) : Int) < 2 ^ (bit % 32 + 7) := by
        rw [pow_add, mul_comm]
        exact Int.mul_lt_mul_of_pos_left (by omega) (by positivity)
      have hle : (2 : Int) ^ (bit % 32 + 7) ≤ 2 ^ 31 := pow_le_pow_right₀ (by omega) (by omega)
      rw [ih (fun x hx => hds x (List.mem_cons_of_mem d hx)) (by omega), hbit,
        int32_eq (by omega) (by omega) rfl, ← int32_add (by omega) h0 hlt ⟨_, rfl⟩]
      congr 1
      push_cast
      ring

theorem placed_append (bit : Nat) (ds ds' : List Nat)
    : placed bit (ds ++ ds') = placed bit ds + placed (bit + 7 * ds.length) ds' := by
  induction ds generalizing bit with
  | nil => simp [placed]
  | cons d ds ih =>
    rw [List.cons_append, placed, placed, ih, List.length_cons, Int.add_assoc]
    congr 3
    omega

theorem ofDigits_lt {ds : List Nat} {n : Nat} (hds : ∀ d ∈ ds, d < 128) (hlen : ds.length ≤ n)
    : Nat.ofDigits 128 ds < 128 ^ n := by
  calc Nat.ofDigits 128 ds
    _ < 128 ^ ds.length := Nat.ofDigits_lt_base_pow_length (by omega) hds
    _ ≤ 128 ^ n := Nat.pow_le_pow_right (by omega) hlen

-- from the sixth digit on the count of the shift wraps, from 35 to 3
theorem placed_zero {ds : List Nat} (hds : ∀ d ∈ ds, d < 128) (hlen : ds.length ≤ 10)
    : placed 0 ds
        =
      int32 (Nat.ofDigits 128 ds % 2 ^ 35 : Nat)
        + int32 (8 * (Nat.ofDigits 128 ds / 2 ^ 35 : Nat)) := by
  by_cases hshort : ds.length ≤ 5
  . have hlt : Nat.ofDigits 128 ds < 2 ^ 35 := ofDigits_lt (n := 5) hds hshort
    rw [placed_eq_int32 hds (by omega), Nat.mod_eq_of_lt hlt, Nat.div_eq_of_lt hlt]
    simp [int32]
  . have htake : ∀ d ∈ ds.take 5, d < 128 := fun d hd => hds d (List.mem_of_mem_take hd)
    have hdrop : ∀ d ∈ ds.drop 5, d < 128 := fun d hd => hds d (List.mem_of_mem_drop hd)
    have hlen5 : (ds.take 5).length = 5 := by
      rw [List.length_take]
      omega
    have hlt : Nat.ofDigits 128 (ds.take 5) < 2 ^ 35 := ofDigits_lt (n := 5) htake (by omega)
    have hsum : Nat.ofDigits 128 ds
          =
        Nat.ofDigits 128 (ds.take 5) + 2 ^ 35 * Nat.ofDigits 128 (ds.drop 5) := by
      conv => lhs; rw [← List.take_append_drop 5 ds, Nat.ofDigits_append, hlen5]
      rfl
    have hplaced : placed 0 ds = placed 0 (ds.take 5) + placed 35 (ds.drop 5) := by
      conv => lhs; rw [← List.take_append_drop 5 ds, placed_append, hlen5]
    rw [hplaced, placed_eq_int32 htake (by omega), placed_eq_int32 hdrop (by simp; omega), hsum,
      Nat.add_mul_mod_self_left, Nat.mod_eq_of_lt hlt, Nat.add_mul_div_left _ _ (by omega),
      Nat.div_eq_of_lt hlt, Nat.zero_add]
    norm_num

theorem readUleb128_bytes {m : Mem} {a : Addr} {ds : List Nat} (hne : ds ≠ [])
    (hds : ∀ d ∈ ds, d < 128) (hlen : ds.length ≤ 10) (h : m.Holds a (bytes ds))
    : readUleb128 m a
        =
      .ok (BitVec.ofInt 64 (placed 0 ds), a + BitVec.ofNat 64 ds.length) := by
  rw [readUleb128, readLeb128_bytes hne hds hlen h]
  rfl

-- what `readUleb128` makes of a stored `v`
def ulebAsRead (v : BitVec 64) : BitVec 64 :=
  BitVec.ofInt 64 (placed 0 (digits unsigned 10 v.toNat))

theorem readUleb128_write {m : Mem} {a : Addr} {v : BitVec 64} (h : m.Holds a (writeUleb128 v))
    : readUleb128 m a = .ok (ulebAsRead v, a + BitVec.ofNat 64 (writeUleb128 v).length) := by
  rw [writeUleb128, Util.Leb128.length_bytes]
  exact readUleb128_bytes (Util.Leb128.digits_ne_nil 9 _) (fun _ hd => Util.Leb128.digits_lt hd)
    (Util.Leb128.length_digits_le 10 _) h

theorem ofDigits_unsigned (v : BitVec 64)
    : Nat.ofDigits 128 (digits unsigned 10 v.toNat) = v.toNat := by
  have hv := v.isLt
  have hlast : unsigned (v.toNat / 128 ^ ((digits unsigned 10 v.toNat).length - 1)) := by
    apply Util.Leb128.last_of_exists (i := 9) (by omega)
    simp only [unsigned, decide_eq_true_eq]
    omega
  have hpos : 0 < (digits unsigned 10 v.toNat).length :=
    List.length_pos_iff.2 (Util.Leb128.digits_ne_nil 9 _)
  have hlt : (v.toNat : Int) < 128 ^ (digits unsigned 10 v.toNat).length := by
    simp only [unsigned, decide_eq_true_eq] at hlast
    rw [← Nat.sub_add_cancel hpos, pow_succ']
    exact Int.lt_mul_of_ediv_lt (by positivity) hlast.2
  have hmod := Util.Leb128.ofDigits_digits unsigned 10 v.toNat
  rw [Int.emod_eq_of_lt (by omega) hlt] at hmod
  omega

theorem toNat_placed_eq_iff {n : Nat} (hn : n < 2 ^ 64)
    : ((int32 (n % 2 ^ 35 : Nat) + int32 (8 * (n / 2 ^ 35 : Nat))) % (2 ^ 64 : Nat)).toNat = n
        ↔
      n < 2 ^ 31 := by
  have hlow := int32_bounds (n % 2 ^ 35 : Nat)
  have hhigh := int32_bounds (8 * (n / 2 ^ 35 : Nat))
  have hlow' := int32_emod (n % 2 ^ 35 : Nat)
  have hhigh' := int32_emod (8 * (n / 2 ^ 35 : Nat))
  generalize int32 (n % 2 ^ 35 : Nat) = low at *
  generalize int32 (8 * (n / 2 ^ 35 : Nat)) = high at *
  constructor
  . intro h
    -- modulo `2 ^ 32` the low part is all of `n`
    have hsum : (low + high) % 2 ^ 32 = low % 2 ^ 32 := by omega
    have hzero : n / 2 ^ 35 = 0 := by omega
    omega
  . intro h
    have hlow : low = n := by omega
    have hhigh : high = 0 := by omega
    omega

theorem isUnsigned_digits (v : BitVec 64) : IsUnsigned (digits unsigned 10 v.toNat) v.toNat where
  ne_nil := Util.Leb128.digits_ne_nil 9 _
  lt := fun _ hd => Util.Leb128.digits_lt hd
  value := ofDigits_unsigned v

theorem ofInt_placed_eq_iff {ds : List Nat} {v : BitVec 64} (hds : IsUnsigned ds v.toNat)
    (hlen : ds.length ≤ 10)
    : BitVec.ofInt 64 (placed 0 ds) = v ↔ v.toNat < 2 ^ 31 := by
  rw [placed_zero hds.lt hlen, hds.value, ← BitVec.toNat_inj, BitVec.toNat_ofInt]
  exact toNat_placed_eq_iff v.isLt

theorem ulebAsRead_eq_iff {v : BitVec 64}
    : ulebAsRead v = v ↔ v.toNat < 2 ^ 31 := by
  exact ofInt_placed_eq_iff (isUnsigned_digits v) (Util.Leb128.length_digits_le 10 _)

-- what `readSleb128` makes of stored digits
def decodeSigned (ds : List Nat) : BitVec 64 :=
  let uleb := BitVec.ofInt 64 (placed 0 ds)
  if uleb >>> ((7 * ds.length - 1) % 64) = 1 then
    uleb ||| (-1 <<< (7 * ds.length % 64))
  else
    uleb

theorem readSleb128_bytes {m : Mem} {a : Addr} {ds : List Nat} (hne : ds ≠ [])
    (hds : ∀ d ∈ ds, d < 128) (hlen : ds.length ≤ 10) (h : m.Holds a (bytes ds))
    : readSleb128 m a = .ok (decodeSigned ds, a + BitVec.ofNat 64 ds.length) := by
  rw [readSleb128, readLeb128_bytes hne hds hlen h, decodeSigned]
  simp only [Res.ok_bind, Res.pure_eq_ok]
  split <;> rfl

-- what `readSleb128` makes of a stored `v`
def slebAsRead (v : BitVec 64) : BitVec 64 :=
  decodeSigned (digits signed 10 v.toInt)

theorem readSleb128_write {m : Mem} {a : Addr} {v : BitVec 64} (h : m.Holds a (writeSleb128 v))
    : readSleb128 m a = .ok (slebAsRead v, a + BitVec.ofNat 64 (writeSleb128 v).length) := by
  rw [writeSleb128, Util.Leb128.length_bytes]
  exact readSleb128_bytes (Util.Leb128.digits_ne_nil 9 _) (fun _ hd => Util.Leb128.digits_lt hd)
    (Util.Leb128.length_digits_le 10 _) h

theorem toNat_neg_shiftLeft {k : Nat} (hk : k < 64)
    : (-((1 <<< k : Nat) : BitVec 64)).toNat = 2 ^ 64 - 2 ^ k := by
  have hle : 2 ^ k ≤ 2 ^ 63 := Nat.pow_le_pow_right (by omega) (by omega)
  have hpos : 0 < 2 ^ k := Nat.two_pow_pos k
  rw [BitVec.toNat_neg, BitVec.natCast_eq_ofNat, BitVec.toNat_ofNat, Nat.one_shiftLeft]
  omega

theorem toInt_or_neg_shiftLeft {u : BitVec 64} {k : Nat} (hk : k < 64) (hu : u.toNat < 2 ^ k)
    : (u ||| (-1 <<< k)).toInt = (u.toNat : Int) - 2 ^ k := by
  have hle : 2 ^ k ≤ 2 ^ 63 := Nat.pow_le_pow_right (by omega) (by omega)
  have hones : 2 ^ 64 - 2 ^ k = 2 ^ k * (2 ^ (64 - k) - 1) := by
    rw [Nat.mul_sub_one, ← pow_add, Nat.add_sub_cancel' (by omega)]
  have hor : (u ||| (-1 <<< k)).toNat = 2 ^ 64 - 2 ^ k + u.toNat := by
    rw [BitVec.toNat_or, toNat_neg_shiftLeft hk, hones, Nat.or_comm,
      Nat.two_pow_add_eq_or_of_lt hu]
  have hcast : ((2 ^ k : Nat) : Int) = 2 ^ k := by
    push_cast
    rfl
  rw [BitVec.toInt_eq_toNat_cond, hor]
  split <;> omega

theorem toInt_signExtend {u : BitVec 64} {k : Nat} (hpos : 0 < k) (hk : k < 64)
    : (if u >>> (k - 1) = 1 then u ||| (-1 <<< k) else u).toInt
        =
      if 2 ^ (k - 1) ≤ u.toNat ∧ u.toNat < 2 ^ k then (u.toNat : Int) - 2 ^ k else u.toInt := by
  have hdouble : 2 ^ k = 2 * 2 ^ (k - 1) := by
    rw [← pow_succ', Nat.sub_add_cancel hpos]
  have hiff : u >>> (k - 1) = 1 ↔ 2 ^ (k - 1) ≤ u.toNat ∧ u.toNat < 2 ^ k := by
    rw [← BitVec.toNat_inj, BitVec.toNat_ushiftRight, Nat.shiftRight_eq_div_pow, hdouble]
    have hpos : 0 < 2 ^ (k - 1) := Nat.two_pow_pos _
    show _ = 1 ↔ _
    rw [Nat.div_eq_iff hpos]
    omega
  by_cases h : 2 ^ (k - 1) ≤ u.toNat ∧ u.toNat < 2 ^ k
  . rw [if_pos (hiff.2 h), if_pos h, toInt_or_neg_shiftLeft hk h.2]
  . rw [if_neg (hiff.not.2 h), if_neg h]

theorem toInt_signExtend_ofInt {p : Int} {k : Nat} (hpos : 0 < k) (hk : k < 64)
    (hp : -2 ^ 32 ≤ p ∧ p < 2 ^ 32)
    : (if BitVec.ofInt 64 p >>> (k - 1) = 1 then
          BitVec.ofInt 64 p ||| (-1 <<< k)
        else
          BitVec.ofInt 64 p).toInt
        =
      if 2 ^ (k - 1) ≤ p % 2 ^ 64 ∧ p % 2 ^ 64 < 2 ^ k then p % 2 ^ 64 - 2 ^ k else p := by
  have htoNat : ((BitVec.ofInt 64 p).toNat : Int) = p % 2 ^ 64 := by
    rw [BitVec.toNat_ofInt]
    omega
  have htoInt : (BitVec.ofInt 64 p).toInt = p := by
    apply BitVec.toInt_ofInt_eq_self (by omega) (by omega) (by omega)
  rw [toInt_signExtend hpos hk, htoInt, htoNat]
  congr 1
  rw [← htoNat]
  norm_cast

section

variable {v low high : Int} {n u : Nat}

theorem signed_short_eq_iff (h0 : 0 < n) (hn : n ≤ 5) (hu : (u : Int) = v % 128 ^ n)
    (hlast : -64 ≤ v / 128 ^ (n - 1) ∧ v / 128 ^ (n - 1) < 64)
    (hlow : -2 ^ 31 ≤ low ∧ low < 2 ^ 31) (hlow' : low % 2 ^ 32 = (u % 2 ^ 35 : Nat) % 2 ^ 32)
    (hhigh : -2 ^ 31 ≤ high ∧ high < 2 ^ 31)
    (hhigh' : high % 2 ^ 32 = (8 * (u / 2 ^ 35 : Nat)) % 2 ^ 32)
    : (if 2 ^ (7 * n % 64 - 1) ≤ (low + high) % 2 ^ 64 ∧ (low + high) % 2 ^ 64 < 2 ^ (7 * n % 64) then
          (low + high) % 2 ^ 64 - 2 ^ (7 * n % 64)
        else
          low + high) = v
        ↔
      -2 ^ 31 ≤ v ∧ v < 2 ^ 31 := by
  rcases Nat.lt_or_eq_of_le hn with hlt | heq
  . interval_cases n
    all_goals
      norm_num at hlast hu ⊢
      have : low = u := by omega
      have : high = 0 := by omega
      split <;> omega
  . subst heq
    norm_num at hlast hu ⊢
    have : low % 2 ^ 32 = v % 2 ^ 32 := by omega
    have : high = 0 := by omega
    clear hlow' hhigh' hu hlast
    split <;> omega

-- the seven bits that the tenth digit adds make the count of the last shift wrap
theorem signed_long_eq_iff (hgt : 5 < n) (hn : n ≤ 10) (hpos : 0 ≤ v) (hv : v < 2 ^ 63)
    (hu : (u : Int) = v % 128 ^ n)
    (hlast : -64 ≤ v / 128 ^ (n - 1) ∧ v / 128 ^ (n - 1) < 64)
    (hlow : -2 ^ 31 ≤ low ∧ low < 2 ^ 31) (hlow' : low % 2 ^ 32 = (u % 2 ^ 35 : Nat) % 2 ^ 32)
    (hhigh : -2 ^ 31 ≤ high ∧ high < 2 ^ 31)
    (hhigh' : high % 2 ^ 32 = (8 * (u / 2 ^ 35 : Nat)) % 2 ^ 32)
    : (if 2 ^ (7 * n % 64 - 1) ≤ (low + high) % 2 ^ 64 ∧ (low + high) % 2 ^ 64 < 2 ^ (7 * n % 64) then
          (low + high) % 2 ^ 64 - 2 ^ (7 * n % 64)
        else
          low + high) = v
        ↔
      v < 2 ^ 31 ∧ (n = 10 → ¬ (32 ≤ v ∧ v < 64)) := by
  have heq : (u : Int) = v := by
    clear hlow' hhigh'
    interval_cases n
    all_goals
      norm_num at hlast hu
      omega
  have hlow'' : low % 2 ^ 32 = v % 2 ^ 32 := by omega
  have hzero : v < 2 ^ 35 → high = 0 := by omega
  clear hu hlast hlow' hhigh'
  interval_cases n
  all_goals
    norm_num
    split <;> omega

-- the digits above the fifth are those of `-1`, they are read as another number
theorem signed_long_ne (hgt : 5 < n) (hn : n ≤ 10) (hneg : v < 0)
    (hu : (u : Int) = v % 128 ^ n)
    (hlow : -2 ^ 31 ≤ low ∧ low < 2 ^ 31) (hlow' : low % 2 ^ 32 = (u % 2 ^ 35 : Nat) % 2 ^ 32)
    (hhigh : -2 ^ 31 ≤ high ∧ high < 2 ^ 31)
    (hhigh' : high % 2 ^ 32 = (8 * (u / 2 ^ 35 : Nat)) % 2 ^ 32)
    : (if 2 ^ (7 * n % 64 - 1) ≤ (low + high) % 2 ^ 64 ∧ (low + high) % 2 ^ 64 < 2 ^ (7 * n % 64) then
          (low + high) % 2 ^ 64 - 2 ^ (7 * n % 64)
        else
          low + high) ≠ v := by
  intro heq
  have hsmall : -2 ^ 35 ≤ v := by
    clear hu hlow' hhigh'
    interval_cases n
    all_goals
      norm_num at heq
      split at heq <;> omega
  have hlow'' : low % 2 ^ 32 = v % 2 ^ 32 := by
    clear heq
    interval_cases n
    all_goals
      norm_num at hu
      omega
  have hquot : (u / 2 ^ 35 : Nat) = 128 ^ n / 2 ^ 35 - 1 := by
    clear heq hlow' hhigh' hlow''
    interval_cases n
    all_goals
      norm_num at hu ⊢
      omega
  rw [hquot] at hhigh'
  clear hquot hu hlow'
  interval_cases n
  all_goals
    norm_num at heq hhigh'
    split at heq <;> omega

end

-- the numbers that `readSleb128` reads back when they are stored with `n` digits
def SlebReadable (n : Nat) (v : Int) : Prop :=
  if n ≤ 5 then
    -2 ^ 31 ≤ v ∧ v < 2 ^ 31
  else
    0 ≤ v ∧ v < 2 ^ 31 ∧ (n = 10 → ¬ (32 ≤ v ∧ v < 64))

theorem decodeSigned_eq_iff {ds : List Nat} {v : BitVec 64} (hds : IsSigned ds v.toInt)
    (hlen : ds.length ≤ 10)
    : decodeSigned ds = v ↔ SlebReadable ds.length v.toInt := by
  have hu := hds.ofDigits_eq
  have hlast := hds.ediv_last
  have hpos := hds.length_pos
  have hlow := int32_bounds (Nat.ofDigits 128 ds % 2 ^ 35 : Nat)
  have hhigh := int32_bounds (8 * (Nat.ofDigits 128 ds / 2 ^ 35 : Nat))
  have hbits : (7 * ds.length - 1) % 64 = 7 * ds.length % 64 - 1 := by omega
  rw [decodeSigned, ← BitVec.toInt_inj, placed_zero hds.lt hlen, hbits,
    toInt_signExtend_ofInt (by omega) (by omega) (by omega), SlebReadable]
  by_cases hshort : ds.length ≤ 5
  . rw [if_pos hshort]
    exact signed_short_eq_iff hpos hshort hu hlast hlow (int32_emod _) hhigh (int32_emod _)
  . have hlong : 5 < ds.length := by omega
    rw [if_neg hshort]
    by_cases hneg : v.toInt < 0
    . have hne := signed_long_ne hlong hlen hneg hu hlow (int32_emod _) hhigh (int32_emod _)
      refine iff_of_false hne ?_
      intro hreadable
      exact absurd hneg (Int.not_lt.2 hreadable.1)
    . rw [Int.not_lt] at hneg
      rw [signed_long_eq_iff hlong hlen hneg BitVec.toInt_lt hu hlast hlow (int32_emod _) hhigh
        (int32_emod _)]
      simp only [hneg, true_and]

theorem isSigned_digits (v : BitVec 64) : IsSigned (digits signed 10 v.toInt) v.toInt := by
  have hlow := BitVec.le_toInt v
  have hhigh := BitVec.toInt_lt (x := v)
  have hlast : signed (v.toInt / 128 ^ ((digits signed 10 v.toInt).length - 1)) := by
    apply Util.Leb128.last_of_exists (i := 9) (by omega)
    simp only [signed, decide_eq_true_eq]
    omega
  apply IsSigned.of_emod (Util.Leb128.digits_ne_nil 9 _) (fun _ hd => Util.Leb128.digits_lt hd)
  . exact Util.Leb128.ofDigits_digits signed 10 v.toInt
  . simpa only [signed, decide_eq_true_eq] using hlast

-- more than five digits are only needed for numbers that do not fit into 32 bits
theorem length_digits_le_five {v : Int} (hv : -2 ^ 31 ≤ v ∧ v < 2 ^ 31)
    : (digits signed 10 v).length ≤ 5 := by
  by_contra hlong
  have hmore : signed (v / 128 ^ 4) = false :=
    Util.Leb128.not_last_of_lt (show 4 + 1 < (digits signed 10 v).length by omega)
  simp only [signed, decide_eq_false_iff_not] at hmore
  omega

theorem slebAsRead_eq_iff {v : BitVec 64}
    : slebAsRead v = v ↔ -2 ^ 31 ≤ v.toInt ∧ v.toInt < 2 ^ 31 := by
  rw [slebAsRead, decodeSigned_eq_iff (isSigned_digits v) (Util.Leb128.length_digits_le 10 _),
    SlebReadable]
  split
  . rfl
  . next hlong =>
    refine iff_of_false ?_ fun hv => hlong (length_digits_le_five hv)
    rintro ⟨hpos, hlt, _⟩
    exact hlong (length_digits_le_five ⟨by omega, hlt⟩)

end LibCxxRt
