import LibCxxRt.DwarfEh.Lemmas.Leb128
import LibCxxRt.Exception.Cleanup
import LibCxxRt.Exception.Lemmas.ActionRecord

/-!
This module contains the result about `check_action_record`: what it makes of a chain of action
records in memory. The numbers of the records can be stored with more digits than they need.
-/

namespace LibCxxRt

open Util.Leb128 (bytes IsSigned)

structure Sleb where
  value : Int
  digits : List Nat
  isSigned : IsSigned digits value

namespace Sleb

variable {s : Sleb} {m : Mem} {a : Addr}

def bytes (s : Sleb) : List (BitVec 8) :=
  Util.Leb128.bytes s.digits

-- `read_leb128` asserts that a number has at most ten bytes
def Fits (s : Sleb) : Prop :=
  s.digits.length ≤ 10

def Readable (s : Sleb) : Prop :=
  s.Fits ∧ SlebReadable s.digits.length s.value

theorem Readable.bounds (hs : s.Readable) : -2 ^ 31 ≤ s.value ∧ s.value < 2 ^ 31 := by
  have hreadable := hs.2
  unfold SlebReadable at hreadable
  split at hreadable
  . exact hreadable
  . exact ⟨by omega, hreadable.2.1⟩

theorem Fits.read (hs : s.Fits) (h : m.Holds a s.bytes)
    : readSleb128 m a = .ok (decodeSigned s.digits, a + BitVec.ofNat 64 s.digits.length) := by
  exact readSleb128_bytes s.isSigned.ne_nil s.isSigned.lt hs h

theorem Readable.decodeSigned_eq (hs : s.Readable)
    : decodeSigned s.digits = BitVec.ofInt 64 s.value := by
  have hbounds := hs.bounds
  have hint : (BitVec.ofInt 64 s.value).toInt = s.value :=
    BitVec.toInt_ofInt_eq_self (by decide) (by omega) (by omega)
  apply (decodeSigned_eq_iff _ hs.1).2
  . rw [hint]
    exact hs.2
  . rw [hint]
    exact s.isSigned

theorem Readable.toInt_ofInt (hs : s.Readable)
    : (BitVec.ofInt 32 s.value).toInt = s.value := by
  have hbounds := hs.bounds
  exact BitVec.toInt_ofInt_eq_self (by decide) (by omega) (by omega)

theorem Readable.signExtend_ofInt (hs : s.Readable)
    : (BitVec.ofInt 32 s.value).signExtend 64 = BitVec.ofInt 64 s.value := by
  rw [BitVec.signExtend, hs.toInt_ofInt]

theorem setWidth_ofInt (v : Int)
    : (BitVec.ofInt 64 v).setWidth 32 = BitVec.ofInt 32 v := by
  apply BitVec.eq_of_toNat_eq
  rw [BitVec.toNat_setWidth, BitVec.toNat_ofInt, BitVec.toNat_ofInt]
  omega

end Sleb

structure ActionRecord where
  filter : Sleb
  displacement : Sleb

namespace ActionRecord

def bytes (r : ActionRecord) : List (BitVec 8) :=
  r.filter.bytes ++ r.displacement.bytes

-- the address of the displacement of the record at `p`
def offsetBase (r : ActionRecord) (p : Addr) : Addr :=
  p + BitVec.ofNat 64 r.filter.digits.length

def next (r : ActionRecord) (p : Addr) : Addr :=
  if r.displacement.value = 0 then
    0
  else
    r.offsetBase p + BitVec.ofInt 64 r.displacement.value

end ActionRecord

inductive LaidOut (m : Mem) : Addr → List ActionRecord → Prop where
  | nil : LaidOut m 0 []
  | cons {p : Addr} {r : ActionRecord} {rs : List ActionRecord} (hp : p ≠ 0)
      (hbytes : m.Holds p r.bytes) (hrest : LaidOut m (r.next p) rs) : LaidOut m p (r :: rs)

-- what a record means for an exception, its filter selects a type or types of the type table
def JudgesRecord (img : Image) (h : Heap) (context : UnwindContext) (lsda : DwarfEhLsda)
    (ex : Option Ptr) (r : ActionRecord) (v : Verdict) : Prop :=
  ∃ c, ReadsClause img.mem context lsda (BitVec.ofInt 32 r.filter.value) c
    ∧ c.verdict img h ex = .ok v

-- the verdicts on the records up to the first one that matches or is violated
inductive Reaches (img : Image) (h : Heap) (context : UnwindContext) (lsda : DwarfEhLsda)
    (ex : Option Ptr) : List ActionRecord → List Verdict → Prop where
  | nil : Reaches img h context lsda ex [] []
  | decides {r : ActionRecord} {rs : List ActionRecord} {v : Verdict}
      (hv : JudgesRecord img h context lsda ex r v) (hdecides : v.decides = true) :
      Reaches img h context lsda ex (r :: rs) [v]
  | cons {r : ActionRecord} {rs : List ActionRecord} {v : Verdict} {vs : List Verdict}
      (hv : JudgesRecord img h context lsda ex r v) (hdecides : v.decides = false)
      (hrest : Reaches img h context lsda ex rs vs) :
      Reaches img h context lsda ex (r :: rs) (v :: vs)

-- the displacement of a record that decides is read and not used
def ReadableFor (r : ActionRecord) (v : Verdict) : Prop :=
  r.filter.Readable ∧ r.displacement.Fits ∧ (v.decides = false → r.displacement.Readable)

def ReachedReadable (rs : List ActionRecord) (vs : List Verdict) : Prop :=
  List.Forall₂ ReadableFor (rs.take vs.length) vs

def firstDeciding (rs : List ActionRecord) (vs : List Verdict) : Option ActionRecord :=
  ((rs.zip vs).find? fun (_, v) => v.decides).map (·.1)

-- the adjusted pointer that a record with the verdict leaves behind
def Verdict.adjusted : Verdict → Option Addr
  | .permit adjustedPtr => some adjustedPtr
  | .handle adjustedPtr => adjustedPtr
  | .pass | .cleanup | .violate => none

def judged (rs : List ActionRecord) (vs : List Verdict) : List Judged :=
  rs.zipWith (fun r v => (BitVec.ofInt 32 r.filter.value, v)) vs

theorem ReadsClause.filter_eq {m : Mem} {context : UnwindContext} {lsda : DwarfEhLsda}
    {filter : BitVec 32} {c : Clause} (hclause : ReadsClause m context lsda filter c)
    : c.filter = filter := by
  cases hclause <;> rfl

theorem ReadsClause.eq_cleanup_iff {m : Mem} {context : UnwindContext} {lsda : DwarfEhLsda}
    {filter : BitVec 32} {c : Clause} (hclause : ReadsClause m context lsda filter c)
    : c = .cleanup ↔ filter = 0 := by
  cases hclause with
  | cleanup => simp
  | @handler filter type hpos htype =>
    refine iff_of_false (by simp) ?_
    intro hzero
    subst hzero
    simp at hpos
  | @spec filter types hneg htypes => exact iff_of_false (by simp) (ne_zero_of_slt_zero hneg)

theorem Clause.verdict_eq_cleanup_iff {img : Image} {h : Heap} {ex : Option Ptr} {c : Clause}
    {v : Verdict} (hv : c.verdict img h ex = .ok v)
    : v = .cleanup ↔ c = .cleanup := by
  cases c with
  | cleanup => simp_all [verdict]
  | handler filter type =>
    refine iff_of_false ?_ (by simp)
    intro hcleanup
    subst hcleanup
    cases ex with
    | none =>
      simp only [verdict] at hv
      split at hv <;> simp at hv
    | some ex =>
      simp only [verdict, Res.bind_eq_ok] at hv
      rcases hv with ⟨o, _, hv⟩
      cases o <;> simp at hv
  | spec filter types =>
    refine iff_of_false ?_ (by simp)
    intro hcleanup
    subst hcleanup
    cases ex with
    | none => simp [verdict] at hv
    | some ex =>
      simp only [verdict, Res.bind_eq_ok] at hv
      rcases hv with ⟨o, _, hv⟩
      cases o <;> simp at hv

section

variable {img : Image} {h : Heap} {context : UnwindContext} {lsda : DwarfEhLsda} {ex : Option Ptr}
variable {r : ActionRecord} {v : Verdict} {rs : List ActionRecord} {vs : List Verdict}

theorem JudgesRecord.eq_cleanup_iff (hv : JudgesRecord img h context lsda ex r v)
    (hr : r.filter.Readable)
    : v = .cleanup ↔ r.filter.value = 0 := by
  rcases hv with ⟨c, hclause, hv⟩
  have hint := hr.toInt_ofInt
  rw [Clause.verdict_eq_cleanup_iff hv, hclause.eq_cleanup_iff, ← BitVec.toInt_inj, hint]
  rfl

theorem resolve_of_reaches (hreaches : Reaches img h context lsda ex rs vs)
    (hreadable : ReachedReadable rs vs) (found : HandlerType) (selector : BitVec 64)
    (adjustedPtr : Addr)
    : match firstDeciding rs vs with
      | some r =>
        (resolve (judged rs vs) found selector adjustedPtr).1 = .handlerCatch
          ∧ (resolve (judged rs vs) found selector adjustedPtr).2.1 = BitVec.ofInt 64 r.filter.value
      | none =>
        (resolve (judged rs vs) found selector adjustedPtr).1
          = if ∃ r ∈ rs, r.filter.value = 0 then .handlerCleanup else found := by
  induction hreaches generalizing found selector adjustedPtr with
  | nil => simp [firstDeciding, judged, resolve]
  | @decides r rs v hv hdecides =>
    rcases List.forall₂_cons.1 hreadable with ⟨⟨hfilter, _, _⟩, _⟩
    cases v with
    | pass => contradiction
    | cleanup => contradiction
    | permit adjustedPtr' => contradiction
    | handle adjustedPtr' => exact ⟨rfl, hfilter.signExtend_ofInt⟩
    | violate => exact ⟨rfl, hfilter.signExtend_ofInt⟩
  | @cons r rs v vs hv hdecides hrest ih =>
    rcases List.forall₂_cons.1 hreadable with ⟨⟨hfilter, _, _⟩, hreadable⟩
    have hzero := hv.eq_cleanup_iff hfilter
    have hfirst : firstDeciding (r :: rs) (v :: vs) = firstDeciding rs vs := by
      simp [firstDeciding, hdecides]
    rw [hfirst]
    specialize ih hreadable
    cases v with
    | pass =>
      have hne : r.filter.value ≠ 0 := by simpa using hzero
      simpa [judged, resolve, hne] using ih found selector adjustedPtr
    | cleanup =>
      have heq : r.filter.value = 0 := by simpa using hzero
      simpa [judged, resolve, heq] using ih .handlerCleanup 0 adjustedPtr
    | permit adjustedPtr' =>
      have hne : r.filter.value ≠ 0 := by simpa using hzero
      simpa [judged, resolve, hne] using ih found _ adjustedPtr'
    | handle adjustedPtr' => contradiction
    | violate => contradiction

theorem resolve_adjustedPtr_of_reaches (hreaches : Reaches img h context lsda ex rs vs)
    (found : HandlerType) (selector : BitVec 64) (adjustedPtr : Addr)
    : (resolve (judged rs vs) found selector adjustedPtr).2.2
        =
      (vs.filterMap Verdict.adjusted).getLast?.getD adjustedPtr := by
  induction hreaches generalizing found selector adjustedPtr with
  | nil => rfl
  | @decides r rs v hv hdecides =>
    cases v with
    | pass => contradiction
    | cleanup => contradiction
    | permit adjustedPtr' => contradiction
    | handle adjustedPtr' => cases adjustedPtr' <;> rfl
    | violate => rfl
  | @cons r rs v vs hv hdecides hrest ih =>
    cases v with
    | pass => exact ih found selector adjustedPtr
    | cleanup => exact ih .handlerCleanup 0 adjustedPtr
    | permit adjustedPtr' =>
      refine (ih found _ adjustedPtr').trans ?_
      simp [Verdict.adjusted, List.getLast?_cons]
    | handle adjustedPtr' => contradiction
    | violate => contradiction

theorem ActionRecord.next_eq (hr : r.displacement.Readable) (p : Addr)
    : r.next p
        =
      if (BitVec.ofInt 64 r.displacement.value).setWidth 32 ≠ (0 : BitVec 32) then
        r.offsetBase p + ((BitVec.ofInt 64 r.displacement.value).setWidth 32).signExtend 64
      else
        0 := by
  have hzero : BitVec.ofInt 32 r.displacement.value = 0 ↔ r.displacement.value = 0 := by
    rw [← BitVec.toInt_inj, hr.toInt_ofInt]
    rfl
  rw [ActionRecord.next, Sleb.setWidth_ofInt, hr.signExtend_ofInt, ite_not]
  simp only [hzero]

theorem checkActionRecord.go_record {p : Addr} (hp : p ≠ 0) (hbytes : img.mem.Holds p r.bytes)
    (hv : JudgesRecord img h context lsda ex r v) (hr : ReadableFor r v)
    : ∃ n, ∀ fuel, n ≤ fuel → ∀ steps found selector adjustedPtr,
        go img h fuel context lsda ex (steps + 1) p found selector adjustedPtr
          = afterRecord img h fuel context lsda ex steps (r.next p) found selector adjustedPtr
            (BitVec.ofInt 32 r.filter.value) v := by
  rcases hr with ⟨hfilter, hfits, hdisplacement⟩
  rcases hv with ⟨c, hclause, hv⟩
  rcases Mem.holds_append.1 hbytes with ⟨hfilterBytes, hdisplacementBytes⟩
  rw [Sleb.bytes, Util.Leb128.length_bytes] at hdisplacementBytes
  have hreadFilter := hfilter.1.read hfilterBytes
  rw [hfilter.decodeSigned_eq] at hreadFilter
  refine ⟨c.size, ?_⟩
  intro fuel hfuel steps found selector adjustedPtr
  rw [go_cons steps found selector adjustedPtr hp hreadFilter (hfits.read hdisplacementBytes)
    (by rwa [Sleb.setWidth_ofInt]) hv hfuel, hclause.filter_eq]
  cases hdecides : v.decides with
  | false =>
    rw [(hdisplacement hdecides).decodeSigned_eq, ActionRecord.next_eq (hdisplacement hdecides)]
    rfl
  | true =>
    cases v with
    | pass => contradiction
    | cleanup => contradiction
    | permit adjustedPtr' => contradiction
    | handle adjustedPtr' => rfl
    | violate => rfl

-- the induction is on the search, a record that decides ends it whatever comes after the record
theorem checkActionRecord.go_laidOut {p : Addr} (hlaid : LaidOut img.mem p rs)
    (hreaches : Reaches img h context lsda ex rs vs) (hreadable : ReachedReadable rs vs)
    : ∃ n, ∀ fuel, n ≤ fuel → ∀ steps, vs.length ≤ steps → ∀ found selector adjustedPtr,
        go img h fuel context lsda ex steps p found selector adjustedPtr
          = .ok (resolve (judged rs vs) found selector adjustedPtr) := by
  induction hreaches generalizing p with
  | nil =>
    cases hlaid
    refine ⟨0, ?_⟩
    intro fuel _ steps _ found selector adjustedPtr
    unfold go
    rfl
  | @decides r rs v hv hdecides =>
    cases hlaid with
    | cons hp hbytes _ =>
      rcases go_record hp hbytes hv (List.forall₂_cons.1 hreadable).1 with ⟨n, hrecord⟩
      refine ⟨n, ?_⟩
      intro fuel hfuel steps hsteps found selector adjustedPtr
      cases steps with
      | zero => simp at hsteps
      | succ steps =>
        rw [hrecord fuel hfuel]
        cases v with
        | pass => contradiction
        | cleanup => contradiction
        | permit adjustedPtr' => contradiction
        | handle adjustedPtr' => rfl
        | violate => rfl
  | @cons r rs v vs hv hdecides hrest ih =>
    cases hlaid with
    | cons hp hbytes hlaid =>
      rcases List.forall₂_cons.1 hreadable with ⟨hr, hreadable⟩
      rcases go_record hp hbytes hv hr with ⟨n, hrecord⟩
      rcases ih hlaid hreadable with ⟨n', ih⟩
      refine ⟨max n n', ?_⟩
      intro fuel hfuel steps hsteps found selector adjustedPtr
      cases steps with
      | zero => simp at hsteps
      | succ steps =>
        rw [hrecord fuel (by omega)]
        specialize ih fuel (by omega) steps (by simpa using hsteps)
        cases v with
        | pass => exact ih ..
        | cleanup => exact ih ..
        | permit adjustedPtr' => exact ih ..
        | handle adjustedPtr' => contradiction
        | violate => contradiction

/--
The first record that matches or is violated makes the frame a handler. The records after it are only
known to be somewhere in memory.
-/
theorem checkActionRecord_of_reachedReadable {p : Addr} (hlaid : LaidOut img.mem p rs)
    (hreaches : Reaches img h context lsda ex rs vs) (hreadable : ReachedReadable rs vs)
    (selector : BitVec 64) (adjustedPtr : Addr)
    : ∃ n, ∀ fuel, n ≤ fuel → ∃ found selector',
        checkActionRecord img h fuel context lsda p ex selector adjustedPtr
            = .ok (found, selector', (vs.filterMap Verdict.adjusted).getLast?.getD adjustedPtr)
          ∧ match firstDeciding rs vs with
            | some r => found = .handlerCatch ∧ selector' = BitVec.ofInt 64 r.filter.value
            | none =>
              found
                = if rs = [] ∨ ∃ r ∈ rs, r.filter.value = 0 then
                    .handlerCleanup
                  else
                    .handlerNone := by
  cases hlaid with
  | nil =>
    cases hreaches
    refine ⟨0, ?_⟩
    intro fuel _
    refine ⟨.handlerCleanup, selector, checkActionRecord_zero .., ?_⟩
    simp [firstDeciding]
  | @cons p r rs hp hbytes hrest =>
    rcases checkActionRecord.go_laidOut (.cons hp hbytes hrest) hreaches hreadable with ⟨n, hgo⟩
    refine ⟨max n vs.length, ?_⟩
    intro fuel hfuel
    have hfound := resolve_of_reaches hreaches hreadable .handlerNone selector adjustedPtr
    have hadjusted := resolve_adjustedPtr_of_reaches hreaches .handlerNone selector adjustedPtr
    rw [checkActionRecord, if_neg hp, hgo fuel (by omega) fuel (by omega), ← hadjusted]
    refine ⟨_, _, rfl, ?_⟩
    simpa using hfound

end

namespace Sample

def zero : Sleb := ⟨0, [0], by simp, by decide, by decide⟩

def one : Sleb := ⟨1, [1], by simp, by decide, by decide⟩

theorem zero_readable : zero.Readable := by
  unfold Sleb.Readable Sleb.Fits SlebReadable
  decide

theorem one_readable : one.Readable := by
  unfold Sleb.Readable Sleb.Fits SlebReadable
  decide

-- a record that makes a cleanup, and one that catches an `int`
theorem reaches_int {img : Image} (displacement : Sleb)
    (htype : getTypeInfoEntry img.mem (context 0) lsda 1 = .ok 0x2000)
    (hmatch : matchType img heap ⟨0, 0⟩ 0x2000 = .ok (some 0x10080))
    : Reaches img heap (context 0) lsda (some ⟨0, 0⟩) [⟨zero, displacement⟩, ⟨one, zero⟩]
        [.cleanup, .handle (some 0x10080)] := by
  refine .cons ⟨.cleanup, .cleanup, rfl⟩ rfl (.decides ⟨.handler 1 0x2000, ?_, ?_⟩ rfl)
  . exact .handler (by decide) htype
  . rw [Clause.verdict, hmatch]
    rfl

end Sample

theorem checkActionRecord_of_reachedReadable_int
    : ∃ n, ∀ fuel, n ≤ fuel → ∃ found selector',
        checkActionRecord Sample.img Sample.heap fuel (Sample.context 0) Sample.lsda 0x1017
              (some ⟨0, 0⟩) 0 0
            = .ok (found, selector', 0x10080)
          ∧ found = .handlerCatch ∧ selector' = 1 := by
  have hlaid : LaidOut Sample.img.mem 0x1017
      [⟨Sample.zero, Sample.one⟩, ⟨Sample.one, Sample.zero⟩] := by
    refine .cons (by decide) ?_ (.cons (by decide) ?_ .nil)
    . unfold Mem.Holds
      decide
    . unfold Mem.Holds
      decide
  have hreadable : ReachedReadable [⟨Sample.zero, Sample.one⟩, ⟨Sample.one, Sample.zero⟩]
      [.cleanup, .handle (some 0x10080)] := by
    refine .cons ⟨Sample.zero_readable, Sample.one_readable.1, fun _ => Sample.one_readable⟩ ?_
    exact .cons ⟨Sample.one_readable, Sample.zero_readable.1, fun _ => Sample.zero_readable⟩ .nil
  exact checkActionRecord_of_reachedReadable hlaid (Sample.reaches_int _ rfl rfl) hreadable 0 0

namespace Sample

-- -1016 with four digits more than it needs
def back : Sleb := ⟨-1016, [0x08, 0x78, 0x7f, 0x7f, 0x7f, 0x7f], by simp, by decide, by decide⟩

def backImg : Image where
  mem a := (mem a).or (Mem.ofList 0x140c [0x00, 0x88, 0xf8, 0xff, 0xff, 0xff, 0x7f] a)
  types := img.types
  voidName := img.voidName
  blockBase := img.blockBase
  types_self := img.types_self

end Sample

-- the displacement is read as 0, the record that catches the exception is lost
theorem checkActionRecord_of_back
    : LaidOut Sample.backImg.mem 0x140c [⟨Sample.zero, Sample.back⟩, ⟨Sample.one, Sample.zero⟩]
        ∧ Reaches Sample.backImg Sample.heap (Sample.context 0) Sample.lsda (some ⟨0, 0⟩)
          [⟨Sample.zero, Sample.back⟩, ⟨Sample.one, Sample.zero⟩]
          [.cleanup, .handle (some 0x10080)]
        ∧ firstDeciding [⟨Sample.zero, Sample.back⟩, ⟨Sample.one, Sample.zero⟩]
            [.cleanup, .handle (some 0x10080)]
          = some ⟨Sample.one, Sample.zero⟩
        ∧ ∀ fuel, checkActionRecord Sample.backImg Sample.heap (fuel + 1) (Sample.context 0)
            Sample.lsda 0x140c (some ⟨0, 0⟩) 0 0
          = .ok (.handlerCleanup, 0, 0) := by
  refine ⟨?_, Sample.reaches_int _ rfl rfl, rfl, ?_⟩
  . refine .cons (by decide) ?_ (.cons (by decide) ?_ .nil)
    . unfold Mem.Holds
      decide
    . unfold Mem.Holds
      decide
  . intro fuel
    have hfilter : readSleb128 Sample.backImg.mem 0x140c = .ok (0, 0x140d) := by
      decide +kernel
    have hdisplacement : readSleb128 Sample.backImg.mem 0x140d = .ok (0, 0x1413) := by
      decide +kernel
    rw [checkActionRecord, if_neg (by decide)]
    refine (checkActionRecord.go_cons fuel .handlerNone 0 0 (by decide) hfilter hdisplacement
      .cleanup rfl (Nat.zero_le _)).trans ?_
    unfold checkActionRecord.afterRecord checkActionRecord.go
    rfl

end LibCxxRt
