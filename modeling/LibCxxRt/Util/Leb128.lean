import Mathlib.Data.Nat.Digits.Lemmas

/-!
This module contains the little-endian base 128 format for integers. Every byte has seven bits of
the number, its highest bit is set if another byte follows.
-/

namespace Util

namespace Leb128

-- the digits of `v` up to the first one whose rest passes the test `last`
def digits (last : Int → Bool) : Nat → Int → List Nat
  | 0, _ => []
  | fuel + 1, v =>
    if last v then
      [(v % 128).toNat]
    else
      (v % 128).toNat :: digits last fuel (v / 128)

def unsigned (v : Int) : Bool :=
  0 ≤ v ∧ v < 128

-- the highest bit of the last digit is the sign
def signed (v : Int) : Bool :=
  -64 ≤ v ∧ v < 64

def bytes : List Nat → List (BitVec 8)
  | [] => []
  | [d] => [BitVec.ofNat 8 d]
  | d :: ds => BitVec.ofNat 8 (d + 128) :: bytes ds

theorem length_bytes (ds : List Nat)
    : (bytes ds).length = ds.length := by
  induction ds with
  | nil => rfl
  | cons d ds ih =>
    cases ds with
    | nil => rfl
    | cons d' ds => simp [bytes, ih]

variable {last : Int → Bool}

theorem digits_ne_nil (fuel : Nat) (v : Int)
    : digits last (fuel + 1) v ≠ [] := by
  unfold digits
  split <;> simp

theorem length_digits_le (fuel : Nat) (v : Int)
    : (digits last fuel v).length ≤ fuel := by
  induction fuel generalizing v with
  | zero => simp [digits]
  | succ fuel ih =>
    unfold digits
    split
    . simp
    . have := ih (v / 128)
      simp only [List.length_cons]
      omega

theorem digits_lt {fuel : Nat} {v : Int} {d : Nat} (hd : d ∈ digits last fuel v)
    : d < 128 := by
  induction fuel generalizing v with
  | zero => simp [digits] at hd
  | succ fuel ih =>
    unfold digits at hd
    split at hd
    . rw [List.mem_singleton] at hd
      omega
    . rw [List.mem_cons] at hd
      rcases hd with hd | hd
      . omega
      . exact ih hd

theorem emod_mul {a : Int} (v b : Int) (ha : 0 ≤ a)
    : v % (a * b) = v % a + a * (v / a % b) := by
  rw [Int.emod_def v (a * b), Int.emod_def v a, Int.emod_def (v / a) b,
    Int.ediv_ediv_of_nonneg ha]
  ring

theorem ofDigits_digits (last : Int → Bool) (fuel : Nat) (v : Int)
    : ((Nat.ofDigits 128 (digits last fuel v) : Nat) : Int)
        =
      v % 128 ^ (digits last fuel v).length := by
  induction fuel generalizing v with
  | zero => simp [digits]
  | succ fuel ih =>
    unfold digits
    split
    . simp
      omega
    . rw [Nat.ofDigits_cons, List.length_cons]
      rw [Nat.cast_add, Nat.cast_mul, ih, pow_succ', emod_mul v _ (by omega)]
      simp
      omega

theorem not_last_of_lt {fuel i : Nat} {v : Int} (hi : i + 1 < (digits last fuel v).length)
    : last (v / 128 ^ i) = false := by
  induction fuel generalizing v i with
  | zero => simp [digits] at hi
  | succ fuel ih =>
    unfold digits at hi
    split at hi
    . simp at hi
    . rename_i hv
      cases i with
      | zero => simpa using hv
      | succ i =>
        have := ih (v := v / 128) (i := i) (by simpa using hi)
        rw [pow_succ', ← Int.ediv_ediv_of_nonneg (by omega)]
        exact this

theorem last_of_exists {fuel i : Nat} {v : Int} (hi : i < fuel) (hv : last (v / 128 ^ i))
    : last (v / 128 ^ ((digits last fuel v).length - 1)) := by
  induction fuel generalizing v i with
  | zero => omega
  | succ fuel ih =>
    unfold digits
    split
    . simpa
    . rename_i hlast
      cases i with
      | zero => simp [hlast] at hv
      | succ i =>
        have hlen : 0 < (digits last fuel (v / 128)).length := by
          cases fuel with
          | zero => omega
          | succ fuel => exact List.length_pos_iff.2 (digits_ne_nil fuel _)
        have hrest : last (v / 128 / 128 ^ ((digits last fuel (v / 128)).length - 1)) := by
          apply ih (i := i) (by omega)
          rwa [Int.ediv_ediv_of_nonneg (by omega), ← pow_succ']
        rw [Int.ediv_ediv_of_nonneg (by omega), ← pow_succ'] at hrest
        rwa [List.length_cons, Nat.add_sub_cancel, ← Nat.sub_add_cancel hlen]

-- the number with the given digits in two's complement
def signedValue (ds : List Nat) : Int :=
  let u : Nat := Nat.ofDigits 128 ds
  if 64 ≤ ds.getLast?.getD 0 then u - 128 ^ ds.length else u

-- the digits of a number, there can be more of them than it needs
structure IsUnsigned (ds : List Nat) (v : Nat) : Prop where
  ne_nil : ds ≠ []
  lt : ∀ d ∈ ds, d < 128
  value : Nat.ofDigits 128 ds = v

structure IsSigned (ds : List Nat) (v : Int) : Prop where
  ne_nil : ds ≠ []
  lt : ∀ d ∈ ds, d < 128
  value : signedValue ds = v

theorem signedValue_concat (ds : List Nat) (d : Nat)
    : signedValue (ds ++ [d])
        =
      (Nat.ofDigits 128 ds : Nat)
        + 128 ^ ds.length * (if 64 ≤ d then (d : Int) - 128 else d) := by
  unfold signedValue
  rw [Nat.ofDigits_append, Nat.ofDigits_singleton, List.getLast?_concat, List.length_append,
    List.length_singleton, pow_succ]
  dsimp only [Option.getD_some]
  split
  . push_cast
    ring
  . push_cast
    ring

namespace IsSigned

variable {ds : List Nat} {v : Int}

-- the highest digit, with its sign
theorem exists_last (hds : IsSigned ds v)
    : ∃ low : Nat, ∃ d : Int, low < 128 ^ (ds.length - 1) ∧ -64 ≤ d ∧ d < 64
        ∧ v = low + 128 ^ (ds.length - 1) * d
        ∧ (Nat.ofDigits 128 ds : Nat) = low + 128 ^ (ds.length - 1) * (d % 128) := by
  rcases List.eq_nil_or_concat ds with hnil | ⟨low, d, hconcat⟩
  . exact absurd hnil hds.ne_nil
  . rw [List.concat_eq_append] at hconcat
    subst hconcat
    have hd : d < 128 := hds.lt d (by simp)
    have hlow : Nat.ofDigits 128 low < 128 ^ low.length :=
      Nat.ofDigits_lt_base_pow_length (by omega) fun x hx => hds.lt x (by simp [hx])
    have hvalue := hds.value
    rw [signedValue_concat] at hvalue
    rw [List.length_append, List.length_singleton, Nat.add_sub_cancel, Nat.ofDigits_append,
      Nat.ofDigits_singleton]
    refine ⟨_, if 64 ≤ d then (d : Int) - 128 else d, hlow, ?_, ?_, hvalue.symm, ?_⟩
    . split <;> omega
    . split <;> omega
    . have hmod : (if 64 ≤ d then (d : Int) - 128 else d) % 128 = d := by
        split <;> omega
      rw [hmod]
      push_cast
      rfl

theorem length_pos (hds : IsSigned ds v) : 0 < ds.length :=
  List.length_pos_iff.2 hds.ne_nil

theorem ediv_last (hds : IsSigned ds v)
    : -64 ≤ v / 128 ^ (ds.length - 1) ∧ v / 128 ^ (ds.length - 1) < 64 := by
  rcases hds.exists_last with ⟨low, d, hlow, hmin, hmax, hv, _⟩
  have hquot : v / 128 ^ (ds.length - 1) = d := by
    rw [hv, Int.add_mul_ediv_left _ _ (by positivity),
      Int.ediv_eq_zero_of_lt (by positivity) (by exact_mod_cast hlow), Int.zero_add]
  omega

theorem ofDigits_eq (hds : IsSigned ds v)
    : ((Nat.ofDigits 128 ds : Nat) : Int) = v % 128 ^ ds.length := by
  rcases hds.exists_last with ⟨low, d, hlow, _, _, hv, hdigits⟩
  have hlow' : (low : Int) < 128 ^ (ds.length - 1) := by exact_mod_cast hlow
  have hpow : (128 : Int) ^ ds.length = 128 ^ (ds.length - 1) * 128 := by
    rw [← pow_succ, Nat.sub_add_cancel hds.length_pos]
  rw [hdigits, hpow, emod_mul v _ (by positivity), hv, Int.add_mul_emod_self_left,
    Int.emod_eq_of_lt (by positivity) hlow', Int.add_mul_ediv_left _ _ (by positivity),
    Int.ediv_eq_zero_of_lt (by positivity) hlow', Int.zero_add]

theorem of_emod (hne : ds ≠ []) (hlt : ∀ d ∈ ds, d < 128)
    (hmod : ((Nat.ofDigits 128 ds : Nat) : Int) = v % 128 ^ ds.length)
    (hlast : -64 ≤ v / 128 ^ (ds.length - 1) ∧ v / 128 ^ (ds.length - 1) < 64)
    : IsSigned ds v := by
  refine ⟨hne, hlt, ?_⟩
  -- the digits are those of some number, which has the same remainder and as small a quotient
  have hself : IsSigned ds (signedValue ds) := ⟨hne, hlt, rfl⟩
  have hlast' := hself.ediv_last
  have hmod' := hself.ofDigits_eq
  have hpow : (128 : Int) ^ ds.length = 128 ^ (ds.length - 1) * 128 := by
    rw [← pow_succ, Nat.sub_add_cancel hself.length_pos]
  have hpos : (0 : Int) < 128 ^ (ds.length - 1) := by positivity
  rw [hmod', hpow, emod_mul _ _ hpos.le, emod_mul _ _ hpos.le] at hmod
  have hrem := congrArg (· % (128 : Int) ^ (ds.length - 1)) hmod
  have hquot := congrArg (· / (128 : Int) ^ (ds.length - 1)) hmod
  simp only [Int.add_mul_emod_self_left, Int.emod_emod_of_dvd, dvd_refl] at hrem
  simp only [Int.add_mul_ediv_left _ _ hpos.ne', Int.ediv_eq_zero_of_lt
    (Int.emod_nonneg _ hpos.ne') (Int.emod_lt_of_pos _ hpos), Int.zero_add] at hquot
  have heq : signedValue ds / 128 ^ (ds.length - 1) = v / 128 ^ (ds.length - 1) := by omega
  rw [← Int.emod_add_mul_ediv (signedValue ds) (128 ^ (ds.length - 1)), heq, hrem,
    Int.emod_add_mul_ediv]

end IsSigned

end Leb128

end Util
