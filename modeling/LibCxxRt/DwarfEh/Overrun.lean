import LibCxxRt.DwarfEh.Callsite

/-!
This module contains what the lookup does when no record of the call-site table stops it: it reads the
bytes behind the table as one more record. How it goes on depends on what these bytes are.
-/

namespace LibCxxRt

-- `a'` is at most `n` bytes behind `a`
def Advances (n : Nat) (a a' : Addr) : Prop :=
  ∃ k, 0 < k ∧ k ≤ n ∧ a' = a + BitVec.ofNat 64 k

-- the bytes at `a` are read as the start and the size of a record
def ReadsStart (m : Mem) (encoding : BitVec 8) (a : Addr) (start : BitVec 64) : Prop :=
  ∃ size a₁ a₂, readValue m encoding a = .ok (start, a₁) ∧ readValue m encoding a₁ = .ok (size, a₂)

-- the bytes at `a` are read as the record `r`, which ends before `next`
def ReadsRecord (m : Mem) (encoding : BitVec 8) (a : Addr) (r : Callsite) (next : Addr) : Prop :=
  ∃ a₁ a₂ a₃, readValue m encoding a = .ok (r.start, a₁) ∧ readValue m encoding a₁ = .ok (r.size, a₂)
    ∧ readValue m encoding a₂ = .ok (r.landingPad, a₃) ∧ readUleb128 m a₃ = .ok (r.action, next)

variable {m : Mem} {context : UnwindContext} {lsda : DwarfEhLsda} {encoding : BitVec 8}
variable {a a' a'' next : Addr} {ip start v : BitVec 64} {r : Callsite} {fuel n n' : Nat}

namespace Advances

theorem trans (h : Advances n a a') (h' : Advances n' a' a'') : Advances (n + n') a a'' := by
  rcases h with ⟨k, hpos, hle, rfl⟩
  rcases h' with ⟨k', _, hle', rfl⟩
  refine ⟨k + k', by omega, by omega, ?_⟩
  rw [BitVec.ofNat_add, BitVec.add_assoc]

theorem mono (h : Advances n a a') (hn : n ≤ n') : Advances n' a a' := by
  rcases h with ⟨k, hpos, hle, heq⟩
  exact ⟨k, hpos, by omega, heq⟩

theorem not_le (h : Advances n a a') (ha : a.toNat + n < 2 ^ 64) : ¬ a' ≤ a := by
  rcases h with ⟨k, hpos, hle, rfl⟩
  rw [BitVec.le_def, BitVec.toNat_add, BitVec.toNat_ofNat]
  omega

end Advances

theorem readLeb128.go_advances {uleb u : BitVec 64} {bit b : Nat}
    (h : readLeb128.go m fuel uleb bit a = .ok (u, b, a')) : Advances fuel a a' := by
  induction fuel generalizing uleb bit a with
  | zero =>
    unfold go at h
    contradiction
  | succ fuel ih =>
    unfold go at h
    split at h
    . rw [Res.bind_eq_ok] at h
      rcases h with ⟨byte, _, h⟩
      dsimp only at h
      split at h
      . cases h
        exact ⟨1, by omega, by omega, rfl⟩
      . have hone : Advances 1 a (a + 1) := ⟨1, by omega, by omega, rfl⟩
        exact (hone.trans (ih h)).mono (by omega)
    . contradiction

theorem readUleb128_advances (h : readUleb128 m a = .ok (v, a')) : Advances 11 a a' := by
  unfold readUleb128 at h
  rw [Res.bind_eq_ok] at h
  rcases h with ⟨⟨u, b, next⟩, hleb, h⟩
  cases h
  exact readLeb128.go_advances hleb

theorem readSleb128_advances (h : readSleb128 m a = .ok (v, a')) : Advances 11 a a' := by
  unfold readSleb128 at h
  rw [Res.bind_eq_ok] at h
  rcases h with ⟨⟨u, b, next⟩, hleb, h⟩
  dsimp only at h
  split at h <;> cases h <;> exact readLeb128.go_advances hleb

theorem readValue_advances (h : readValue m encoding a = .ok (v, a')) : Advances 11 a a' := by
  unfold readValue at h
  split at h
  case h_8 => exact readSleb128_advances h
  case h_9 => exact readUleb128_advances h
  case h_10 => contradiction
  all_goals
    rw [Res.bind_eq_ok] at h
    rcases h with ⟨_, _, h⟩
    cases h
    exact ⟨_, by decide, by decide, rfl⟩

namespace ReadsRecord

theorem advances (h : ReadsRecord m encoding a r next) : Advances 44 a next := by
  rcases h with ⟨a₁, a₂, a₃, hstart, hsize, hlandingPad, haction⟩
  exact (((readValue_advances hstart).trans (readValue_advances hsize)).trans
    (readValue_advances hlandingPad)).trans (readUleb128_advances haction)

theorem readsStart (h : ReadsRecord m encoding a r next) : ReadsStart m encoding a r.start := by
  rcases h with ⟨a₁, a₂, _, hstart, hsize, _⟩
  exact ⟨r.size, a₁, a₂, hstart, hsize⟩

end ReadsRecord

namespace dwarfEhFindCallsite

open Callsite

theorem go_of_readsStart (hip : context.ip - context.regionStart = ip) (ha : a ≤ lsda.actionTable)
    (h : ReadsStart m lsda.callsiteEncoding a start) (hlt : ip < start)
    : go m context lsda (fuel + 1) a = .ok (false, ⟨0, 0⟩) := by
  rcases h with ⟨size, a₁, a₂, hstart, hsize⟩
  rw [go]
  simp only [if_pos ha, hstart, hsize, Res.ok_bind, hip, gt_iff_lt, hlt, ↓reduceIte, Res.pure_eq_ok]

theorem go_of_readsRecord (hip : context.ip - context.regionStart = ip) (ha : a ≤ lsda.actionTable)
    (h : ReadsRecord m lsda.callsiteEncoding a r next) (hlt : ¬ ip < r.start)
    : go m context lsda (fuel + 1) a
        =
      if r.Covers ip then
        .ok (true, r.decoded lsda)
      else
        go m context lsda fuel next := by
  rcases h with ⟨a₁, a₂, a₃, hstart, hsize, hlandingPad, haction⟩
  rw [go]
  simp only [if_pos ha, hstart, hsize, hlandingPad, haction, Res.ok_bind, hip, gt_iff_lt, hlt,
    ↓reduceIte, Res.pure_eq_ok, decoded, ne_eq, ite_not]
  rfl

-- a lookup that returns has read the start of a record, and the whole record if that is not too far
theorem reads_of_go (hip : context.ip - context.regionStart = ip) (ha : a ≤ lsda.actionTable)
    {answer : Bool × DwarfEhAction} (h : go m context lsda (fuel + 1) a = .ok answer)
    : (∃ start, ReadsStart m lsda.callsiteEncoding a start ∧ ip < start)
        ∨
      ∃ r next, ReadsRecord m lsda.callsiteEncoding a r next ∧ ¬ ip < r.start := by
  rw [go] at h
  simp only [if_pos ha, Res.bind_eq_ok, hip, gt_iff_lt] at h
  rcases h with ⟨⟨start, a₁⟩, hstart, ⟨size, a₂⟩, hsize, h⟩
  dsimp only at hstart hsize h
  split at h
  . next hlt => exact .inl ⟨start, ⟨size, a₁, a₂, hstart, hsize⟩, hlt⟩
  . next hlt =>
    rw [Res.bind_eq_ok] at h
    rcases h with ⟨⟨landingPad, a₃⟩, hlandingPad, h⟩
    rw [Res.bind_eq_ok] at h
    rcases h with ⟨⟨action, next⟩, haction, _⟩
    exact .inr ⟨⟨start, size, landingPad, action⟩, next,
      ⟨a₁, a₂, a₃, hstart, hsize, hlandingPad, haction⟩, hlt⟩

theorem go_of_not_le (ha : ¬ a ≤ lsda.actionTable)
    : go m context lsda (fuel + 1) a = .ok (false, ⟨0, 0⟩) := by
  rw [go, if_neg ha]
  rfl

section

variable {t : List Callsite}

-- the scan passes over a table without a record that stops it
theorem eq_go_actionTable (hip : context.ip - context.regionStart = ip)
    (hlsda : lsda.Describes encoding t) (hstorable : ∀ r ∈ t, r.Storable encoding)
    (hread : ReadsStarts encoding t ip)
    (h : m.Holds lsda.callSiteTable (writeCallsites encoding t)) (ht : ∀ p ∈ t, ¬ p.Stops ip)
    : ∃ fuel, dwarfEhFindCallsite m context lsda
        =
      go m context lsda (fuel + 2) lsda.actionTable := by
  rw [← List.append_nil t] at hlsda hread h
  rcases exists_eq_go hip hlsda hstorable hread ht h with ⟨fuel, hgo⟩
  rw [List.append_nil] at hlsda
  rw [hlsda.actionTable]
  exact ⟨fuel, hgo⟩

theorem eq_of_covers_of_mem (hip : context.ip - context.regionStart = ip)
    (hlsda : lsda.Describes encoding t) (hstorable : ∀ r ∈ t, r.Storable encoding)
    (hread : ReadsStarts encoding t ip) (horder : InOrder t)
    (h : m.Holds lsda.callSiteTable (writeCallsites encoding t)) (hr : r ∈ t) (hcovers : r.Covers ip)
    (hlandingPad : Readable encoding r.landingPad) (haction : r.action.toNat < 2 ^ 31)
    : dwarfEhFindCallsite m context lsda = .ok (true, r.decoded lsda) := by
  rcases exists_first_stops ⟨r, hr, .inr hcovers⟩ with ⟨pre, first, post, ht, hfirst, hpre⟩
  subst ht
  have hsame : r = first := eq_of_covers horder hpre hfirst hr hcovers
  subst hsame
  rw [eq_of_stops hip hlsda hstorable hread h hpre hfirst, if_pos hcovers, decide_eq_true hcovers,
    result_eq (by rwa [hlsda.callsiteEncoding]) haction]

theorem eq_of_lt_of_mem (hip : context.ip - context.regionStart = ip)
    (hlsda : lsda.Describes encoding t) (hstorable : ∀ r ∈ t, r.Storable encoding)
    (hread : ReadsStarts encoding t ip)
    (h : m.Holds lsda.callSiteTable (writeCallsites encoding t)) (hnone : ∀ r ∈ t, ¬ r.Covers ip)
    (hr : r ∈ t) (hlt : ip < r.start)
    : dwarfEhFindCallsite m context lsda = .ok (false, ⟨0, 0⟩) := by
  rcases exists_first_stops ⟨r, hr, .inl hlt⟩ with ⟨pre, first, post, ht, hfirst, hpre⟩
  subst ht
  have hcovers := hnone first (by simp)
  rw [eq_of_stops hip hlsda hstorable hread h hpre hfirst, if_neg hcovers, decide_eq_false hcovers]

end

end dwarfEhFindCallsite

end LibCxxRt
