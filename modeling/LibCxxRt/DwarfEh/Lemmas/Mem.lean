import LibCxxRt.DwarfEh.Serialize

/-!
This module contains the facts about memory that holds a given sequence of bytes.
-/

namespace LibCxxRt

theorem add_ofNat_succ (a : Addr) (n : Nat)
    : a + BitVec.ofNat 64 (n + 1) = a + 1 + BitVec.ofNat 64 n := by
  rw [BitVec.ofNat_add, BitVec.add_assoc, BitVec.add_comm 1]
  rfl

theorem length_littleEndian (n : Nat) (v : BitVec 64)
    : (littleEndian n v).length = n := by
  induction n generalizing v with
  | zero => rfl
  | succ n ih => simp [littleEndian, ih]

namespace Mem

def Holds (m : Mem) (a : Addr) (bs : List (BitVec 8)) : Prop :=
  ∀ i, i < bs.length → m (a + BitVec.ofNat 64 i) = bs[i]?

variable {m : Mem} {a : Addr}

@[simp]
theorem byte_of_eq_some {b : BitVec 8} (h : m a = some b)
    : m.byte a = .ok b := by
  simp [byte, h]

theorem holds_nil
    : m.Holds a [] := by
  intro i hi
  simp at hi

theorem holds_cons {b : BitVec 8} {bs : List (BitVec 8)}
    : m.Holds a (b :: bs) ↔ m a = some b ∧ m.Holds (a + 1) bs := by
  constructor
  . intro h
    refine ⟨by simpa using h 0 (by simp), ?_⟩
    intro i hi
    have hnext := h (i + 1) (by simpa using hi)
    rw [add_ofNat_succ] at hnext
    simpa using hnext
  . intro h i hi
    cases i with
    | zero => simpa using h.1
    | succ i =>
      rw [add_ofNat_succ, List.getElem?_cons_succ]
      exact h.2 i (by simpa using hi)

theorem holds_append {bs bs' : List (BitVec 8)}
    : m.Holds a (bs ++ bs') ↔ m.Holds a bs ∧ m.Holds (a + BitVec.ofNat 64 bs.length) bs' := by
  induction bs generalizing a with
  | nil => simp [holds_nil]
  | cons b bs ih =>
    simp only [List.cons_append, List.length_cons, holds_cons, ih, add_ofNat_succ, and_assoc]

theorem load_littleEndian {n : Nat} {v : BitVec 64} (h : m.Holds a (littleEndian n v))
    : m.load a n = .ok (v.setWidth (8 * n)) := by
  induction n generalizing a v with
  | zero => exact congrArg Except.ok (BitVec.of_length_zero ).symm
  | succ n ih =>
    rcases holds_cons.1 h with ⟨hlo, hhi⟩
    simp only [load, byte_of_eq_some hlo, ih hhi, Res.ok_bind, Res.pure_eq_ok]
    congr 1
    apply BitVec.eq_of_getLsbD_eq
    intro i hi
    refine Eq.trans ?_ (BitVec.getLsbD_setWidth (8 * (n + 1)) v i).symm
    rw [BitVec.getLsbD_append]
    by_cases hlt : i < 8
    . simp [hlt, show i < 8 * (n + 1) by omega]
    . simp [hlt, show i - 8 < 8 * n by omega, show i < 8 * (n + 1) by omega,
        show 8 + (i - 8) = i by omega]

theorem ofList_add {base : Addr} {bytes : List (BitVec 8)} {n : Nat} (hn : n < 2 ^ 64)
    : ofList base bytes (base + BitVec.ofNat 64 n) = bytes[n]? := by
  have hsub : base + BitVec.ofNat 64 n - base = BitVec.ofNat 64 n := by
    rw [BitVec.add_comm, BitVec.add_sub_cancel]
  simp only [ofList, hsub, BitVec.toNat_ofNat, Nat.mod_eq_of_lt hn]

theorem holds_ofList {base : Addr} {bytes : List (BitVec 8)} (hlen : bytes.length < 2 ^ 64)
    : (ofList base bytes).Holds base bytes := by
  intro i hi
  exact ofList_add (by omega)

end Mem

end LibCxxRt
