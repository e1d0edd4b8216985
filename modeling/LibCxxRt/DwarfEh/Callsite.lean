import LibCxxRt.DwarfEh.Lemmas.Value

/-!
This module determines when the lookup in a call-site table gives the answer that the table has for
an instruction pointer, whatever the memory behind the table contains: the scan has to end at a
record of the table, because it goes on to read one more record if it reaches the end, and the
fields that it uses have to be read back as they were stored.
-/

namespace LibCxxRt

namespace Callsite

-- `ip` is a return address: the call is right before it
def Covers (r : Callsite) (ip : BitVec 64) : Prop :=
  r.start < ip ∧ ip ≤ r.start + r.size

instance (r : Callsite) (ip : BitVec 64) : Decidable (r.Covers ip) :=
  inferInstanceAs (Decidable (_ ∧ _))

def Stops (r : Callsite) (ip : BitVec 64) : Prop :=
  ip < r.start ∨ r.Covers ip

instance (r : Callsite) (ip : BitVec 64) : Decidable (r.Stops ip) :=
  inferInstanceAs (Decidable (_ ∨ _))

structure Storable (encoding : BitVec 8) (r : Callsite) : Prop where
  start : Representable encoding r.start
  size : Representable encoding r.size
  landingPad : Representable encoding r.landingPad

def InOrder (t : List Callsite) : Prop :=
  t.Pairwise (fun r r' => r.start.toNat + r.size.toNat ≤ r'.start.toNat)

end Callsite

structure DwarfEhLsda.Describes (lsda : DwarfEhLsda) (encoding : BitVec 8) (t : List Callsite) : Prop where
  callsiteEncoding : lsda.callsiteEncoding = encoding
  fits : lsda.callSiteTable.toNat + (writeCallsites encoding t).length < 2 ^ 64
  actionTable : lsda.actionTable
      =
    lsda.callSiteTable + BitVec.ofNat 64 (writeCallsites encoding t).length

-- the answer that the table has for `ip`
structure Callsite.Answer (t : List Callsite) (ip : BitVec 64) (lsda : DwarfEhLsda) (found : Bool)
    (result : DwarfEhAction) : Prop where
  found_iff : found = true ↔ ∃ r ∈ t, r.Covers ip
  landingPad : ∀ r ∈ t, r.Covers ip
    → result.landingPad = if r.landingPad = 0 then 0 else lsda.landingPads + r.landingPad
  actionRecord : ∀ r ∈ t, r.Covers ip
    → result.actionRecord = if r.action = 0 then 0 else lsda.actionTable + r.action - 1
  not_found : found = false → result = ⟨0, 0⟩

-- wherever the table is and whatever else is in memory
def LookupExact (encoding : BitVec 8) (t : List Callsite) (ip : BitVec 64) : Prop :=
  ∀ m context lsda, context.ip - context.regionStart = ip → lsda.Describes encoding t
    → Mem.Holds m lsda.callSiteTable (writeCallsites encoding t)
    → (∃ found result, dwarfEhFindCallsite m context lsda = .ok (found, result)
          ∧ Callsite.Answer t ip lsda found result)
        ∧ ∀ m', Mem.Holds m' lsda.callSiteTable (writeCallsites encoding t)
            → dwarfEhFindCallsite m' context lsda = dwarfEhFindCallsite m context lsda

-- the landing pad and the action record that a record of the table stands for
def Callsite.decoded (r : Callsite) (lsda : DwarfEhLsda) : DwarfEhAction where
  landingPad := if r.landingPad = 0 then 0 else lsda.landingPads + r.landingPad
  actionRecord := if r.action = 0 then 0 else lsda.actionTable + r.action - 1

-- what the lookup makes of the record that covers the instruction pointer
def Callsite.result (r : Callsite) (lsda : DwarfEhLsda) : DwarfEhAction :=
  let landingPad := asRead lsda.callsiteEncoding r.landingPad
  let action := ulebAsRead r.action
  { landingPad := if landingPad ≠ 0 then lsda.landingPads + landingPad else 0
    actionRecord := if action ≠ 0 then lsda.actionTable + action - 1 else 0 }

variable {m : Mem} {context : UnwindContext} {lsda : DwarfEhLsda} {ip a : BitVec 64} {fuel : Nat}
variable {encoding : BitVec 8}

namespace dwarfEhFindCallsite

open Callsite

theorem go_record {r : Callsite} (hip : context.ip - context.regionStart = ip)
    (ha : a ≤ lsda.actionTable) (hr : r.Storable lsda.callsiteEncoding)
    (hstart : Readable lsda.callsiteEncoding r.start)
    (hsize : Readable lsda.callsiteEncoding r.size)
    (h : m.Holds a (r.write lsda.callsiteEncoding))
    : go m context lsda (fuel + 1) a
        =
      if ip < r.start then
        .ok (false, ⟨0, 0⟩)
      else if r.Covers ip then
        .ok (true, r.result lsda)
      else
        go m context lsda fuel (a + BitVec.ofNat 64 (r.write lsda.callsiteEncoding).length) := by
  unfold Callsite.write at h ⊢
  simp only [Mem.holds_append, List.length_append, BitVec.ofNat_add, ← BitVec.add_assoc] at h ⊢
  rcases h with ⟨⟨⟨h1, h2⟩, h3⟩, h4⟩
  rw [go]
  simp only [if_pos ha, readValue_write hr.start h1, asRead_eq_iff.2 hstart, Res.ok_bind,
    readValue_write hr.size h2, asRead_eq_iff.2 hsize, hip, gt_iff_lt,
    readValue_write hr.landingPad h3, readUleb128_write h4, Res.pure_eq_ok]
  rfl

theorem go_skip {pre : List Callsite} (hip : context.ip - context.regionStart = ip)
    (hstorable : ∀ r ∈ pre, r.Storable lsda.callsiteEncoding)
    (hread : ∀ r ∈ pre,
      Readable lsda.callsiteEncoding r.start ∧ Readable lsda.callsiteEncoding r.size)
    (hstops : ∀ r ∈ pre, ¬ r.Stops ip)
    (hend : a.toNat + (writeCallsites lsda.callsiteEncoding pre).length ≤ lsda.actionTable.toNat)
    (h : m.Holds a (writeCallsites lsda.callsiteEncoding pre))
    : go m context lsda (fuel + pre.length) a
        =
      go m context lsda fuel
        (a + BitVec.ofNat 64 (writeCallsites lsda.callsiteEncoding pre).length) := by
  induction pre generalizing a with
  | nil => simp [writeCallsites]
  | cons r pre ih =>
    rw [List.forall_mem_cons] at hstorable hread hstops
    simp only [writeCallsites, List.flatMap_cons, List.length_append, Mem.holds_append] at hend h ⊢
    have hle : a ≤ lsda.actionTable := by
      rw [BitVec.le_def]
      omega
    have hlt : ¬ ip < r.start := fun hlt => hstops.1 (.inl hlt)
    have hcovers : ¬ r.Covers ip := fun hcovers => hstops.1 (.inr hcovers)
    have hnext : (a + BitVec.ofNat 64 (r.write lsda.callsiteEncoding).length).toNat
        =
      a.toNat + (r.write lsda.callsiteEncoding).length := by
      have := lsda.actionTable.isLt
      rw [BitVec.toNat_add, BitVec.toNat_ofNat]
      omega
    rw [List.length_cons, ← Nat.add_assoc,
      go_record hip hle hstorable.1 hread.1.1 hread.1.2 h.1, if_neg hlt, if_neg hcovers,
      ih hstorable.2 hread.2 hstops.2 _ h.2, BitVec.ofNat_add, BitVec.add_assoc]
    . rfl
    . rw [hnext, Nat.add_assoc]
      exact hend

end dwarfEhFindCallsite

namespace Callsite

variable {t pre post : List Callsite} {r r' : Callsite}

theorem Stops.toNat_le (h : r.Stops ip)
    : ip.toNat ≤ r.start.toNat + r.size.toNat := by
  rcases h with hlt | hcovers
  . rw [BitVec.lt_def] at hlt
    omega
  . have hle := hcovers.2
    rw [BitVec.le_def, BitVec.toNat_add] at hle
    exact Nat.le_trans hle (Nat.mod_le _ _)

theorem not_covers_of_le (h : ip.toNat ≤ r.start.toNat)
    : ¬ r.Covers ip := by
  intro hcovers
  have hlt := hcovers.1
  rw [BitVec.lt_def] at hlt
  omega

-- the records before the one at which the scan stops do not cover `ip`, those after it neither
theorem eq_of_covers (horder : InOrder (pre ++ r :: post)) (hpre : ∀ p ∈ pre, ¬ p.Stops ip)
    (hr : r.Stops ip) (hmem : r' ∈ pre ++ r :: post) (hcovers : r'.Covers ip)
    : r' = r := by
  rw [List.mem_append, List.mem_cons] at hmem
  rcases hmem with hbefore | heq | hafter
  . exact absurd (.inr hcovers) (hpre r' hbefore)
  . exact heq
  . have hle := (List.pairwise_cons.1 (List.pairwise_append.1 horder).2.1).1 r' hafter
    exact absurd hcovers (not_covers_of_le (Nat.le_trans hr.toNat_le hle))

theorem exists_first_stops (h : ∃ r ∈ t, r.Stops ip)
    : ∃ pre r post, t = pre ++ r :: post ∧ r.Stops ip ∧ ∀ p ∈ pre, ¬ p.Stops ip := by
  have hsome : (t.find? (fun r => decide (r.Stops ip))).isSome := by
    simpa [List.find?_isSome] using h
  rcases Option.isSome_iff_exists.1 hsome with ⟨r, hr⟩
  rw [List.find?_eq_some_iff_append] at hr
  rcases hr with ⟨hr, pre, post, heq, hpre⟩
  exact ⟨pre, r, post, heq, by simpa using hr, by simpa using hpre⟩

theorem result_eq (hlandingPad : Readable lsda.callsiteEncoding r.landingPad)
    (haction : r.action.toNat < 2 ^ 31)
    : r.result lsda = r.decoded lsda := by
  unfold Callsite.result Callsite.decoded
  rw [asRead_eq_iff.2 hlandingPad, ulebAsRead_eq_iff.2 haction]
  simp only [ne_eq, ite_not]

theorem answer (horder : InOrder (pre ++ r :: post)) (hpre : ∀ p ∈ pre, ¬ p.Stops ip)
    (hr : r.Stops ip)
    (hread : r.Covers ip
      → Readable lsda.callsiteEncoding r.landingPad ∧ r.action.toNat < 2 ^ 31)
    : Answer (pre ++ r :: post) ip lsda (decide (r.Covers ip))
        (if r.Covers ip then r.result lsda else ⟨0, 0⟩) where
  found_iff := by
    rw [decide_eq_true_iff]
    constructor
    . intro hcovers
      exact ⟨r, by simp, hcovers⟩
    . rintro ⟨r', hmem, hcovers⟩
      exact eq_of_covers horder hpre hr hmem hcovers ▸ hcovers
  landingPad := by
    intro r' hmem hcovers
    have heq := eq_of_covers horder hpre hr hmem hcovers
    subst heq
    rw [if_pos hcovers, result_eq (hread hcovers).1 (hread hcovers).2]
    rfl
  actionRecord := by
    intro r' hmem hcovers
    have heq := eq_of_covers horder hpre hr hmem hcovers
    subst heq
    rw [if_pos hcovers, result_eq (hread hcovers).1 (hread hcovers).2]
    rfl
  not_found := by
    intro hcovers
    rw [if_neg (of_decide_eq_false hcovers)]

end Callsite

namespace dwarfEhFindCallsite

open Callsite

variable {t pre post : List Callsite} {r : Callsite}

-- the starts and the sizes of the records that the scan comes to are read back
def ReadsStarts (encoding : BitVec 8) (t : List Callsite) (ip : BitVec 64) : Prop :=
  ∀ pre r post, t = pre ++ r :: post → (∀ p ∈ pre, ¬ p.Stops ip)
    → Readable encoding r.start ∧ Readable encoding r.size

theorem ReadsStarts.of_mem {rest : List Callsite} (h : ReadsStarts encoding (pre ++ rest) ip)
    (hpre : ∀ p ∈ pre, ¬ p.Stops ip) (hr : r ∈ pre)
    : Readable encoding r.start ∧ Readable encoding r.size := by
  rcases List.append_of_mem hr with ⟨before, after, heq⟩
  subst heq
  apply h before r (after ++ rest)
  . simp
  . intro p hp
    exact hpre p (List.mem_append_left _ hp)

theorem length_le_length_write (encoding : BitVec 8) (t : List Callsite)
    : t.length ≤ (writeCallsites encoding t).length := by
  induction t with
  | nil => simp
  | cons r t ih =>
    have hpos : 0 < (writeUleb128 r.action).length := by
      rw [writeUleb128, Util.Leb128.length_bytes, List.length_pos_iff]
      apply Util.Leb128.digits_ne_nil
    simp only [writeCallsites, List.flatMap_cons, List.length_append, List.length_cons, write] at ih ⊢
    omega

theorem writeCallsites_append (encoding : BitVec 8) (t t' : List Callsite)
    : writeCallsites encoding (t ++ t') = writeCallsites encoding t ++ writeCallsites encoding t' := by
  exact List.flatMap_append

theorem exists_eq_go {rest : List Callsite} (hip : context.ip - context.regionStart = ip)
    (hlsda : lsda.Describes encoding (pre ++ rest)) (hstorable : ∀ r ∈ pre, r.Storable encoding)
    (hread : ReadsStarts encoding (pre ++ rest) ip) (hpre : ∀ p ∈ pre, ¬ p.Stops ip)
    (h : m.Holds lsda.callSiteTable (writeCallsites encoding (pre ++ rest)))
    : ∃ fuel, dwarfEhFindCallsite m context lsda
        =
      go m context lsda (fuel + 2)
        (lsda.callSiteTable + BitVec.ofNat 64 (writeCallsites encoding pre).length) := by
  rcases hlsda with ⟨henc, hfits, htable⟩
  subst henc
  rw [writeCallsites_append, List.length_append] at hfits htable
  rw [writeCallsites_append, Mem.holds_append] at h
  have hend : lsda.callSiteTable.toNat + (writeCallsites lsda.callsiteEncoding pre).length
      ≤ lsda.actionTable.toNat := by
    rw [htable, BitVec.toNat_add, BitVec.toNat_ofNat]
    omega
  have hlen := length_le_length_write lsda.callsiteEncoding pre
  refine ⟨(writeCallsites lsda.callsiteEncoding pre).length
    + (writeCallsites lsda.callsiteEncoding rest).length - pre.length, ?_⟩
  rw [← go_skip hip hstorable (fun r hr => hread.of_mem hpre hr) hpre hend h.1, dwarfEhFindCallsite]
  congr 1
  rw [htable, BitVec.add_comm, BitVec.add_sub_cancel, BitVec.toNat_ofNat]
  omega

theorem eq_of_stops (hip : context.ip - context.regionStart = ip)
    (hlsda : lsda.Describes encoding (pre ++ r :: post))
    (hstorable : ∀ r' ∈ pre ++ r :: post, r'.Storable encoding)
    (hread : ReadsStarts encoding (pre ++ r :: post) ip)
    (h : m.Holds lsda.callSiteTable (writeCallsites encoding (pre ++ r :: post)))
    (hpre : ∀ p ∈ pre, ¬ p.Stops ip) (hr : r.Stops ip)
    : dwarfEhFindCallsite m context lsda
        =
      .ok (decide (r.Covers ip), if r.Covers ip then r.result lsda else ⟨0, 0⟩) := by
  have hpre_storable : ∀ p ∈ pre, p.Storable encoding := fun p hp => hstorable p (by simp [hp])
  rcases exists_eq_go hip hlsda hpre_storable hread hpre h with ⟨fuel, hgo⟩
  rcases hlsda with ⟨henc, hfits, htable⟩
  subst henc
  rw [writeCallsites_append, List.length_append] at hfits htable
  rw [writeCallsites_append, Mem.holds_append] at h
  have hle : lsda.callSiteTable
        + BitVec.ofNat 64 (writeCallsites lsda.callsiteEncoding pre).length ≤ lsda.actionTable := by
    rw [htable, BitVec.le_def, BitVec.toNat_add, BitVec.toNat_add, BitVec.toNat_ofNat,
      BitVec.toNat_ofNat]
    omega
  have hrecord : m.Holds (lsda.callSiteTable
        + BitVec.ofNat 64 (writeCallsites lsda.callsiteEncoding pre).length)
      (r.write lsda.callsiteEncoding) := by
    have hrest := h.2
    simp only [writeCallsites, List.flatMap_cons] at hrest ⊢
    exact (Mem.holds_append.1 hrest).1
  rcases hread pre r post rfl hpre with ⟨hstart, hsize⟩
  rw [hgo, go_record hip hle (hstorable r (by simp)) hstart hsize hrecord]
  by_cases hlt : ip < r.start
  . have hcovers : ¬ r.Covers ip := not_covers_of_le (BitVec.le_of_lt hlt)
    simp [hlt, hcovers]
  . have hcovers : r.Covers ip := hr.resolve_left hlt
    simp [hlt, hcovers]

theorem eq_of_not_stops (hip : context.ip - context.regionStart = ip)
    (hlsda : lsda.Describes encoding t) (hencoding : getEncoding encoding ≠ .unknown)
    (hstorable : ∀ r ∈ t, r.Storable encoding) (hread : ReadsStarts encoding t ip)
    (h : m.Holds lsda.callSiteTable (writeCallsites encoding t)) (ht : ∀ p ∈ t, ¬ p.Stops ip)
    (hend : m lsda.actionTable = none)
    : dwarfEhFindCallsite m context lsda = .error .fault := by
  rw [← List.append_nil t] at hlsda hread h
  rcases exists_eq_go hip hlsda hstorable hread ht h with ⟨fuel, hgo⟩
  rw [List.append_nil] at hlsda
  rcases hlsda with ⟨henc, -, htable⟩
  subst henc
  rw [hgo, ← htable, go, if_pos (BitVec.le_refl _), readValue_unmapped hencoding hend]
  rfl

end dwarfEhFindCallsite

namespace LookupExact

open Callsite dwarfEhFindCallsite

variable {t : List Callsite} {r : Callsite}

def tableAt (base : Addr) (encoding : BitVec 8) (t : List Callsite) : DwarfEhLsda where
  regionStart := 0
  landingPads := 0
  typeTable := 0
  typeTableEncoding := dwEhPeOmit
  callSiteTable := base
  actionTable := base + BitVec.ofNat 64 (writeCallsites encoding t).length
  callsiteEncoding := encoding

def contextAt (ip : BitVec 64) : UnwindContext where
  ip
  regionStart := 0
  languageSpecificData := 0
  textRelBase := 0
  dataRelBase := 0
  gr0 := none
  gr1 := 0

theorem contextAt_ip
    : (contextAt ip).ip - (contextAt ip).regionStart = ip := by
  exact BitVec.sub_zero ip

theorem tableAt_describes {base : Addr}
    (h : base.toNat + (writeCallsites encoding t).length < 2 ^ 64)
    : (tableAt base encoding t).Describes encoding t where
  callsiteEncoding := rfl
  fits := h
  actionTable := rfl

theorem exists_stops (h : LookupExact encoding t ip)
    (hlen : (writeCallsites encoding t).length + 1 < 2 ^ 64)
    (hencoding : getEncoding encoding ≠ .unknown) (hstorable : ∀ r ∈ t, r.Storable encoding)
    (hread : ReadsStarts encoding t ip)
    : ∃ r ∈ t, r.Stops ip := by
  by_contra hnone
  have ht : ∀ r ∈ t, ¬ r.Stops ip := fun r hr hstops => hnone ⟨r, hr, hstops⟩
  have hlsda : (tableAt 0 encoding t).Describes encoding t :=
    tableAt_describes (by simp; omega)
  have hholds : Mem.Holds (Mem.ofList 0 (writeCallsites encoding t)) 0 (writeCallsites encoding t) :=
    Mem.holds_ofList (by omega)
  -- nothing follows the table
  have hend : Mem.ofList 0 (writeCallsites encoding t) (tableAt 0 encoding t).actionTable = none := by
    rw [tableAt, Mem.ofList_add (by omega), List.getElem?_eq_none (Nat.le_refl _)]
  rcases (h _ _ _ contextAt_ip hlsda hholds).1 with ⟨found, result, heq, _⟩
  rw [eq_of_not_stops contextAt_ip hlsda hencoding hstorable hread hholds ht hend] at heq
  cases heq

theorem readable (h : LookupExact encoding t ip)
    (hlen : (writeCallsites encoding t).length + 1 < 2 ^ 64)
    (hstorable : ∀ r ∈ t, r.Storable encoding)
    (hread : ReadsStarts encoding t ip) (horder : InOrder t) (hr : r ∈ t) (hcovers : r.Covers ip)
    : Readable encoding r.landingPad ∧ r.action.toNat < 2 ^ 31 := by
  have hanswer : ∀ base : Addr, base.toNat + (writeCallsites encoding t).length < 2 ^ 64
      → Callsite.Answer t ip (tableAt base encoding t) true (r.result (tableAt base encoding t)) := by
    intro base hbase
    have hlsda : (tableAt base encoding t).Describes encoding t := tableAt_describes hbase
    have hholds : Mem.Holds (Mem.ofList base (writeCallsites encoding t)) base
        (writeCallsites encoding t) :=
      Mem.holds_ofList (by omega)
    rcases (h _ _ _ contextAt_ip hlsda hholds).1 with ⟨found, result, heq, hanswer⟩
    rcases exists_first_stops ⟨r, hr, .inr hcovers⟩ with ⟨pre, first, post, ht, hfirst, hpre⟩
    subst ht
    have hsame : r = first := eq_of_covers horder hpre hfirst hr hcovers
    subst hsame
    rw [eq_of_stops contextAt_ip hlsda hstorable hread hholds hpre hfirst, if_pos hcovers,
      decide_eq_true hcovers] at heq
    cases heq
    exact hanswer
  constructor
  . have hlandingPad := (hanswer 0 (by simp; omega)).landingPad r hr hcovers
    have hid : ∀ x : BitVec 64, (if x = 0#64 then 0#64 else x) = x := by
      intro x
      split <;> simp [*]
    rw [← asRead_eq_iff]
    simpa [Callsite.result, tableAt, hid] using hlandingPad
  . by_contra hlarge
    have hread0 := (hanswer 0 (by simp; omega)).actionRecord r hr hcovers
    have hread1 := (hanswer 1 (by simp; omega)).actionRecord r hr hcovers
    have hne : ulebAsRead r.action ≠ r.action := by
      rwa [ne_eq, ulebAsRead_eq_iff]
    have hzero : r.action ≠ 0 := by
      rintro hzero
      simp [hzero] at hlarge
    simp only [Callsite.result, tableAt, if_neg hzero] at hread0 hread1
    by_cases hnull : ulebAsRead r.action = 0
    -- then the record that is read is null, and there is a table where it should not be
    . simp only [hnull, ne_eq, not_true_eq_false, if_false] at hread0 hread1
      bv_omega
    . simp only [ne_eq, hnull, not_false_eq_true, if_true] at hread0
      apply hne
      bv_omega

end LookupExact

theorem lookupExact_iff {t : List Callsite} (hencoding : getEncoding encoding ≠ .unknown)
    (hlen : (writeCallsites encoding t).length + 1 < 2 ^ 64)
    (hstorable : ∀ r ∈ t, r.Storable encoding) (horder : Callsite.InOrder t)
    (hread : dwarfEhFindCallsite.ReadsStarts encoding t ip)
    : LookupExact encoding t ip
        ↔
      (∃ r ∈ t, r.Stops ip)
        ∧ ∀ r ∈ t, r.Covers ip → Readable encoding r.landingPad ∧ r.action.toNat < 2 ^ 31 := by
  constructor
  . intro h
    refine ⟨h.exists_stops hlen hencoding hstorable hread, ?_⟩
    intro r hr hcovers
    exact h.readable hlen hstorable hread horder hr hcovers
  . intro ⟨hstops, hcovered⟩ m context lsda hip hlsda hholds
    rcases Callsite.exists_first_stops hstops with ⟨pre, r, post, ht, hr, hpre⟩
    subst ht
    have heq := fun m hholds =>
      dwarfEhFindCallsite.eq_of_stops (m := m) hip hlsda hstorable hread hholds hpre hr
    refine ⟨⟨_, _, heq m hholds, ?_⟩, ?_⟩
    . apply Callsite.answer horder hpre hr
      intro hcovers
      rw [hlsda.callsiteEncoding]
      exact hcovered r (by simp) hcovers
    . intro m' hholds'
      rw [heq m hholds, heq m' hholds']

theorem lookupExact_two_records
    : LookupExact 0x01 [⟨10, 5, 100, 1⟩, ⟨20, 4, 0, 0⟩] 15 := by
  have hreadable : ∀ r ∈ [⟨10, 5, 100, 1⟩, (⟨20, 4, 0, 0⟩ : Callsite)],
      Readable 0x01 r.start ∧ Readable 0x01 r.size := by
    simp [Readable, getEncoding]
  rw [lookupExact_iff]
  . refine ⟨⟨_, List.mem_cons_self, .inr (by decide)⟩, ?_⟩
    simp [Readable, getEncoding]
  . decide
  . decide
  . intro r _
    exact ⟨trivial, trivial, trivial⟩
  . simp [Callsite.InOrder]
  . intro pre r post ht _
    exact hreadable r (by rw [ht]; simp)

def oneCallsite : List Callsite :=
  [⟨0, 4, 0, 0⟩]

def farLandingPad : List Callsite :=
  [⟨0, 16, 0x80000000, 0⟩]

/--
The four bytes behind the first table are read as a record that covers the instruction pointer. The
landing pad in the second table is read as a negative number.
-/
theorem not_lookupExact
    : dwarfEhFindCallsite (Mem.ofList 0x1000 (writeCallsites 0x01 oneCallsite ++ [5, 10, 7, 1]))
          (LookupExact.contextAt 8) (LookupExact.tableAt 0x1000 0x01 oneCallsite)
        =
      .ok (true, ⟨7, 0x1004⟩)
        ∧ ¬ LookupExact 0x01 oneCallsite 8
        ∧ dwarfEhFindCallsite (Mem.ofList 0x1000 (writeCallsites 0x01 farLandingPad))
              (LookupExact.contextAt 8) (LookupExact.tableAt 0x1000 0x01 farLandingPad)
            =
          .ok (true, ⟨0xffffffff80000000, 0⟩)
        ∧ ¬ LookupExact 0x01 farLandingPad 8 := by
  have hfind : dwarfEhFindCallsite
        (Mem.ofList 0x1000 (writeCallsites 0x01 oneCallsite ++ [5, 10, 7, 1]))
        (LookupExact.contextAt 8) (LookupExact.tableAt 0x1000 0x01 oneCallsite)
      =
    .ok (true, ⟨7, 0x1004⟩) := by decide +kernel
  have hfar : dwarfEhFindCallsite (Mem.ofList 0x1000 (writeCallsites 0x01 farLandingPad))
        (LookupExact.contextAt 8) (LookupExact.tableAt 0x1000 0x01 farLandingPad)
      =
    .ok (true, ⟨0xffffffff80000000, 0⟩) := by decide +kernel
  refine ⟨hfind, ?_, hfar, ?_⟩
  . intro h
    have hlsda : (LookupExact.tableAt 0x1000 0x01 oneCallsite).Describes 0x01 oneCallsite :=
      LookupExact.tableAt_describes (by decide)
    have hholds : Mem.Holds (Mem.ofList 0x1000 (writeCallsites 0x01 oneCallsite ++ [5, 10, 7, 1]))
        0x1000 (writeCallsites 0x01 oneCallsite ++ [5, 10, 7, 1]) :=
      Mem.holds_ofList (by decide)
    rw [Mem.holds_append] at hholds
    rcases (h _ _ _ LookupExact.contextAt_ip hlsda hholds.1).1 with ⟨found, result, heq, hanswer⟩
    rw [hfind] at heq
    cases heq
    have hnone : ¬ ∃ r ∈ oneCallsite, r.Covers 8 := by decide
    exact hnone (hanswer.found_iff.1 rfl)
  . intro h
    have hlsda : (LookupExact.tableAt 0x1000 0x01 farLandingPad).Describes 0x01 farLandingPad :=
      LookupExact.tableAt_describes (by decide)
    have hholds : Mem.Holds (Mem.ofList 0x1000 (writeCallsites 0x01 farLandingPad)) 0x1000
        (writeCallsites 0x01 farLandingPad) :=
      Mem.holds_ofList (by decide)
    rcases (h _ _ _ LookupExact.contextAt_ip hlsda hholds).1 with ⟨found, result, heq, hanswer⟩
    rw [hfar] at heq
    cases heq
    have hlandingPad := hanswer.landingPad ⟨0, 16, 0x80000000, 0⟩ List.mem_cons_self (by decide)
    revert hlandingPad
    decide

end LibCxxRt
