import LibCxxRt.DwarfEh.Overrun
import LibCxxRt.Exception.Cleanup

/-!
This module contains the description of a frame by the records of its call-site table, next to the one
by what the lookup answers. The two agree for a frame whose records are read as they were stored and
behind whose table no further record is found.
-/

namespace LibCxxRt

structure CallsiteTable where
  lsda : DwarfEhLsda
  records : List Callsite
  describes : lsda.Describes lsda.callsiteEncoding records
  storable : ∀ r ∈ records, r.Storable lsda.callsiteEncoding
  inOrder : Callsite.InOrder records
  -- what is read behind the table ends before the address space does
  room : lsda.actionTable.toNat + 44 < 2 ^ 64

namespace CallsiteTable

def Lacks (t : CallsiteTable) (ip : BitVec 64) : Prop :=
  ∀ r ∈ t.records, ¬ r.Covers ip

structure Stored (m : Mem) (context : UnwindContext) (t : CallsiteTable) : Prop where
  languageSpecificData : context.languageSpecificData ≠ 0
  parse : parseLsda m context context.languageSpecificData = .ok t.lsda
  holds : m.Holds t.lsda.callSiteTable (writeCallsites t.lsda.callsiteEncoding t.records)

-- the fields that the lookup uses are read as they were stored
structure ReadsBack (t : CallsiteTable) (ip : BitVec 64) : Prop where
  starts : dwarfEhFindCallsite.ReadsStarts t.lsda.callsiteEncoding t.records ip
  landingPad : ∀ r ∈ t.records, r.Covers ip → Readable t.lsda.callsiteEncoding r.landingPad
  action : ∀ r ∈ t.records, r.Covers ip → r.action.toNat < 2 ^ 31

-- the scan for `ip` ends, at a record of the table or at what is read as one behind it
inductive EndsScan (m : Mem) (t : CallsiteTable) (ip : BitVec 64) : Prop where
  | record {r : Callsite} (hr : r ∈ t.records) (hlt : ip < r.start)
  | behindBefore {start : BitVec 64}
      (hreads : ReadsStart m t.lsda.callsiteEncoding t.lsda.actionTable start) (hlt : ip < start)
  | behindElsewhere {r : Callsite} {next : Addr}
      (hreads : ReadsRecord m t.lsda.callsiteEncoding t.lsda.actionTable r next)
      (hcovers : ¬ r.Covers ip)

variable {m : Mem} {context : UnwindContext} {t : CallsiteTable} {ip : BitVec 64} {r r' : Callsite}

theorem eq_of_covers (hr : r ∈ t.records) (hr' : r' ∈ t.records) (hcovers : r.Covers ip)
    (hcovers' : r'.Covers ip) : r = r' := by
  rcases Callsite.exists_first_stops ⟨r, hr, .inr hcovers⟩ with ⟨pre, first, post, ht, hfirst, hpre⟩
  have horder := t.inOrder
  rw [ht] at horder hr hr'
  rw [Callsite.eq_of_covers horder hpre hfirst hr hcovers,
    Callsite.eq_of_covers horder hpre hfirst hr' hcovers']

theorem not_lacks_of_covers (hr : r ∈ t.records) (hcovers : r.Covers ip) : ¬ t.Lacks ip := by
  intro hlacks
  exact hlacks r hr hcovers

namespace Stored

theorem find_of_covers (hstored : t.Stored m context)
    (hip : context.ip - context.regionStart = ip) (hread : t.ReadsBack ip) (hr : r ∈ t.records)
    (hcovers : r.Covers ip)
    : dwarfEhFindCallsite m context t.lsda = .ok (true, r.decoded t.lsda) := by
  apply dwarfEhFindCallsite.eq_of_covers_of_mem hip t.describes t.storable hread.starts t.inOrder
    hstored.holds hr hcovers
  . exact hread.landingPad r hr hcovers
  . exact hread.action r hr hcovers

-- the lookup decides at the record behind the table if it gets there
theorem find_eq_go (hstored : t.Stored m context)
    (hip : context.ip - context.regionStart = ip) (hread : t.ReadsBack ip) (hlacks : t.Lacks ip)
    (hnone : ∀ r ∈ t.records, ¬ ip < r.start)
    : ∃ fuel, dwarfEhFindCallsite m context t.lsda
        =
      dwarfEhFindCallsite.go m context t.lsda (fuel + 2) t.lsda.actionTable := by
  apply dwarfEhFindCallsite.eq_go_actionTable hip t.describes t.storable hread.starts hstored.holds
  intro r hr hstops
  cases hstops with
  | inl hlt => exact hnone r hr hlt
  | inr hcovers => exact hlacks r hr hcovers

theorem find_of_lacks (hstored : t.Stored m context)
    (hip : context.ip - context.regionStart = ip) (hread : t.ReadsBack ip) (hlacks : t.Lacks ip)
    (hends : t.EndsScan m ip)
    : dwarfEhFindCallsite m context t.lsda = .ok (false, ⟨0, 0⟩) := by
  by_cases hsome : ∃ r ∈ t.records, ip < r.start
  . rcases hsome with ⟨r, hr, hlt⟩
    exact dwarfEhFindCallsite.eq_of_lt_of_mem hip t.describes t.storable hread.starts hstored.holds
      hlacks hr hlt
  . have hnone : ∀ r ∈ t.records, ¬ ip < r.start := fun r hr hlt => hsome ⟨r, hr, hlt⟩
    rcases hstored.find_eq_go hip hread hlacks hnone with ⟨fuel, hgo⟩
    rw [hgo]
    cases hends with
    | record hr hlt => exact absurd hlt (hnone _ hr)
    | behindBefore hreads hlt =>
      exact dwarfEhFindCallsite.go_of_readsStart hip (BitVec.le_refl _) hreads hlt
    | @behindElsewhere r next hreads hcovers =>
      by_cases hlt : ip < r.start
      . exact dwarfEhFindCallsite.go_of_readsStart hip (BitVec.le_refl _) hreads.readsStart hlt
      . rw [dwarfEhFindCallsite.go_of_readsRecord hip (BitVec.le_refl _) hreads hlt, if_neg hcovers]
        exact dwarfEhFindCallsite.go_of_not_le (hreads.advances.not_le t.room)

theorem find_of_behind (hstored : t.Stored m context)
    (hip : context.ip - context.regionStart = ip) (hread : t.ReadsBack ip) (hlacks : t.Lacks ip)
    (hends : ¬ t.EndsScan m ip) {next : Addr}
    (hreads : ReadsRecord m t.lsda.callsiteEncoding t.lsda.actionTable r next)
    : r.Covers ip ∧ dwarfEhFindCallsite m context t.lsda = .ok (true, r.decoded t.lsda) := by
  have hnone : ∀ r ∈ t.records, ¬ ip < r.start := fun r hr hlt => hends (.record hr hlt)
  have hlt : ¬ ip < r.start := fun hlt => hends (.behindBefore hreads.readsStart hlt)
  have hcovers : r.Covers ip := by
    by_contra hcovers
    exact hends (.behindElsewhere hreads hcovers)
  rcases hstored.find_eq_go hip hread hlacks hnone with ⟨fuel, hgo⟩
  refine ⟨hcovers, ?_⟩
  rw [hgo, dwarfEhFindCallsite.go_of_readsRecord hip (BitVec.le_refl _) hreads hlt, if_pos hcovers]

-- a lookup that returns has ended its scan, or it has found a record behind the table
theorem exists_behind (hstored : t.Stored m context)
    (hip : context.ip - context.regionStart = ip) (hread : t.ReadsBack ip) (hlacks : t.Lacks ip)
    (hends : ¬ t.EndsScan m ip) {answer : Bool × DwarfEhAction}
    (hfind : dwarfEhFindCallsite m context t.lsda = .ok answer)
    : ∃ r next, ReadsRecord m t.lsda.callsiteEncoding t.lsda.actionTable r next := by
  have hnone : ∀ r ∈ t.records, ¬ ip < r.start := fun r hr hlt => hends (.record hr hlt)
  rcases hstored.find_eq_go hip hread hlacks hnone with ⟨fuel, hgo⟩
  rw [hgo] at hfind
  rcases dwarfEhFindCallsite.reads_of_go hip (BitVec.le_refl _) hfind with
    ⟨start, hreads, hlt⟩ | ⟨r, next, hreads, _⟩
  . exact absurd (.behindBefore hreads hlt) hends
  . exact ⟨r, next, hreads⟩

end Stored

end CallsiteTable

-- a frame with the call-site table of its LSDA, if it has one
structure DecodedFrame where
  context : UnwindContext
  table : Option CallsiteTable

-- `check_action_record` returns `handler_catch` for an action
def CatchesAction (img : Image) (fuel : Nat) (h : Heap) (real : Option Ptr)
    (context : UnwindContext) (lsda : DwarfEhLsda) (action : DwarfEhAction)
    (selector : BitVec 64) : Prop :=
  ∀ adjustedPtr, ∃ adjustedPtr',
    checkActionRecord img h fuel context lsda action.actionRecord real 0 adjustedPtr
      = .ok (.handlerCatch, selector, adjustedPtr')

namespace DecodedFrame

def ip (f : DecodedFrame) : BitVec 64 :=
  f.context.ip - f.context.regionStart

def Stored (m : Mem) (f : DecodedFrame) : Prop :=
  match f.table with
  | none => f.context.languageSpecificData = 0
  | some t => t.Stored m f.context

-- the table of the frame does not have a call-site record for its instruction pointer
def LacksRecord (f : DecodedFrame) : Prop :=
  ∃ t, f.table = some t ∧ t.Lacks f.ip

-- the table of the frame has one, and its chain of actions catches the exception
def Catches (img : Image) (fuel : Nat) (h : Heap) (real : Option Ptr) (f : DecodedFrame)
    (action : DwarfEhAction) (selector : BitVec 64) : Prop :=
  ∃ t r, f.table = some t ∧ r ∈ t.records ∧ r.Covers f.ip ∧ action = r.decoded t.lsda
    ∧ CatchesAction img fuel h real f.context t.lsda action selector

def Stops (img : Image) (fuel : Nat) (h : Heap) (real : Option Ptr) (f : DecodedFrame) : Prop :=
  f.LacksRecord ∨ ∃ action selector, f.Catches img fuel h real action selector

inductive Shows (m : Mem) (f : DecodedFrame) : FrameView Clause → Prop where
  | noLsda (htable : f.table = none) : Shows m f .noLsda
  | noCallsite (hlacks : f.LacksRecord) : Shows m f .noCallsite
  | site {t : CallsiteTable} {r : Callsite} {chain : Option (List Clause)}
      (htable : f.table = some t) (hr : r ∈ t.records) (hcovers : r.Covers f.ip)
      (hsite : ReadsSite m f.context t.lsda (r.decoded t.lsda) chain) :
      Shows m f (.site (r.decoded t.lsda) chain)

structure Known (img : Image) (h : Heap) (real : Option Ptr) (fuel : Nat) (f : DecodedFrame)
    (j : FrameView Judged) : Prop where
  stored : f.Stored img.mem
  shows : ∃ v, f.Shows img.mem v ∧ JudgesFrame img h real v j ∧ v.size ≤ fuel

def WellFormed (img : Image) (h : Heap) (real : Option Ptr) (fuel : Nat) (f : DecodedFrame) :
    Prop :=
  ∃ j, f.Known img h real fuel j ∧ j.HasLandingPads

def ReadsBack (f : DecodedFrame) : Prop :=
  ∀ t, f.table = some t → t.ReadsBack f.ip

-- if there is no record for the instruction pointer, then none is found behind the table
def EndsScan (m : Mem) (f : DecodedFrame) : Prop :=
  ∀ t, f.table = some t → t.Lacks f.ip → t.EndsScan m f.ip

variable {img : Image} {m : Mem} {h : Heap} {real : Option Ptr} {fuel : Nat} {f : DecodedFrame}
variable {t : CallsiteTable} {r : Callsite}

theorem Stored.of_table (hstored : f.Stored m) (htable : f.table = some t)
    : t.Stored m f.context := by
  unfold Stored at hstored
  rwa [htable] at hstored

theorem not_lacksRecord_of_covers (htable : f.table = some t) (hr : r ∈ t.records)
    (hcovers : r.Covers f.ip) : ¬ f.LacksRecord := by
  rintro ⟨t', htable', hlacks⟩
  rw [htable, Option.some.injEq] at htable'
  subst htable'
  exact t.not_lacks_of_covers hr hcovers hlacks

theorem exists_of_not_endsScan (f : DecodedFrame) (hends : ¬ f.EndsScan m)
    : ∃ t, f.table = some t ∧ t.Lacks f.ip ∧ ¬ t.EndsScan m f.ip := by
  simpa only [EndsScan, not_forall, exists_prop] using hends

theorem ReadsBack.find_of_lacks (hread : f.ReadsBack) (hstored : f.Stored m) (hends : f.EndsScan m)
    (htable : f.table = some t) (hlacks : t.Lacks f.ip)
    : dwarfEhFindCallsite m f.context t.lsda = .ok (false, ⟨0, 0⟩) := by
  apply (hstored.of_table htable).find_of_lacks rfl (hread t htable) hlacks
  exact hends t htable hlacks

theorem ReadsBack.find_of_covers (hread : f.ReadsBack) (hstored : f.Stored m)
    (htable : f.table = some t) (hr : r ∈ t.records) (hcovers : r.Covers f.ip)
    : dwarfEhFindCallsite m f.context t.lsda = .ok (true, r.decoded t.lsda) := by
  exact (hstored.of_table htable).find_of_covers rfl (hread t htable) hr hcovers

/--
What a frame is by the records of its table it is by what the lookup answers. So every result about
frames that are described by the lookup is one about the records.
-/
theorem shows_iff (hstored : f.Stored m) (hread : f.ReadsBack) (hends : f.EndsScan m)
    (v : FrameView Clause) : f.Shows m v ↔ ReadsFrame m f.context v := by
  constructor
  . intro hshows
    cases hshows with
    | noLsda htable =>
      unfold Stored at hstored
      rw [htable] at hstored
      exact .noLsda hstored
    | noCallsite hlacks =>
      rcases hlacks with ⟨t, htable, hlacks⟩
      have ht := hstored.of_table htable
      exact .noCallsite ht.languageSpecificData ht.parse
        (hread.find_of_lacks hstored hends htable hlacks)
    | site htable hr hcovers hsite =>
      have ht := hstored.of_table htable
      exact .site ht.languageSpecificData ht.parse
        (hread.find_of_covers hstored htable hr hcovers) hsite
  . intro hreads
    cases htable : f.table with
    | none =>
      unfold Stored at hstored
      rw [htable] at hstored
      cases hreads with
      | noLsda _ => exact .noLsda htable
      | noCallsite hlsda => exact absurd hstored hlsda
      | site hlsda => exact absurd hstored hlsda
    | some t =>
      have ht := hstored.of_table htable
      by_cases hlacks : t.Lacks f.ip
      . have hlookup := hread.find_of_lacks hstored hends htable hlacks
        cases hreads with
        | noLsda hlsda => exact absurd hlsda ht.languageSpecificData
        | noCallsite _ _ _ => exact .noCallsite ⟨t, htable, hlacks⟩
        | site _ hparse hfind _ =>
          rw [ht.parse, Except.ok.injEq] at hparse
          subst hparse
          rw [hlookup] at hfind
          cases hfind
      . simp only [CallsiteTable.Lacks, not_forall, not_not, exists_prop] at hlacks
        rcases hlacks with ⟨r, hr, hcovers⟩
        have hlookup := hread.find_of_covers hstored htable hr hcovers
        cases hreads with
        | noLsda hlsda => exact absurd hlsda ht.languageSpecificData
        | noCallsite _ hparse hfind =>
          rw [ht.parse, Except.ok.injEq] at hparse
          subst hparse
          rw [hlookup] at hfind
          cases hfind
        | site _ hparse hfind hsite =>
          rw [ht.parse, Except.ok.injEq] at hparse
          subst hparse
          rw [hlookup] at hfind
          cases hfind
          exact .site htable hr hcovers hsite

theorem known_iff (hstored : f.Stored img.mem) (hread : f.ReadsBack) (hends : f.EndsScan img.mem)
    {j : FrameView Judged}
    : f.Known img h real fuel j ↔ LibCxxRt.Known img h real fuel f.context j := by
  constructor
  . rintro ⟨_, v, hshows, hjudges, hfuel⟩
    exact ⟨v, (shows_iff hstored hread hends v).mp hshows, hjudges, hfuel⟩
  . rintro ⟨v, hreads, hjudges, hfuel⟩
    exact ⟨hstored, v, (shows_iff hstored hread hends v).mpr hreads, hjudges, hfuel⟩

namespace Known

variable {j : FrameView Judged}

theorem lacksRecord_iff (hknown : f.Known img h real fuel j)
    : f.LacksRecord ↔ j = .noCallsite := by
  rcases hknown with ⟨_, v, hshows, hjudges, _⟩
  cases hshows with
  | noLsda htable =>
    cases hjudges
    simp [LacksRecord, htable]
  | noCallsite hlacks =>
    cases hjudges
    simp [hlacks]
  | site htable hr hcovers =>
    cases hjudges
    simp [not_lacksRecord_of_covers htable hr hcovers]

theorem catches_iff (hknown : f.Known img h real fuel j) {action : DwarfEhAction}
    {selector : BitVec 64}
    : f.Catches img fuel h real action selector
        ↔
      ∃ chain, j = .site action chain ∧ (resolveSite chain 0).1 = .handlerCatch
        ∧ (resolveSite chain 0).2.1 = selector := by
  rcases hknown with ⟨_, v, hshows, hjudges, hfuel⟩
  cases hshows with
  | noLsda htable =>
    cases hjudges
    simp [Catches, htable]
  | noCallsite hlacks =>
    cases hjudges
    simp only [reduceCtorEq, false_and, exists_false, iff_false]
    rintro ⟨t, r, htable, hr, hcovers, _⟩
    exact not_lacksRecord_of_covers htable hr hcovers hlacks
  | @site t r chain htable hr hcovers hsite =>
    cases hjudges with
    | @site _ _ jchain hchain =>
      have hcheck := checkActionRecord_site hsite hchain hfuel
      constructor
      . rintro ⟨t', r', htable', hr', hcovers', haction, hcatches⟩
        rw [htable, Option.some.injEq] at htable'
        subst htable'
        have hsame := t.eq_of_covers hr hr' hcovers hcovers'
        subst hsame haction
        rcases hcatches 0 with ⟨adjustedPtr', hcheck'⟩
        simp only [hcheck, Except.ok.injEq, Prod.mk.injEq] at hcheck'
        exact ⟨jchain, rfl, hcheck'.1, hcheck'.2.1⟩
      . rintro ⟨chain', heq, hcatch, hselector⟩
        simp only [FrameView.site.injEq] at heq
        rcases heq with ⟨haction, hchain'⟩
        subst haction hchain'
        refine ⟨t, r, htable, hr, hcovers, rfl, ?_⟩
        intro adjustedPtr
        rw [hcheck, hcatch, hselector]
        exact ⟨_, rfl⟩

theorem stops_iff (hknown : f.Known img h real fuel j)
    : f.Stops img fuel h real ↔ j.stops := by
  unfold Stops
  rw [hknown.lacksRecord_iff]
  simp only [hknown.catches_iff]
  cases j with
  | noLsda => simp [FrameView.stops]
  | noCallsite => simp [FrameView.stops]
  | site action chain => simp [FrameView.stops]

theorem endsScan_of_not_stops (hknown : f.Known img h real fuel j) (hj : j.stops = false)
    : f.EndsScan m := by
  intro t htable hlacks
  have hstops := hknown.stops_iff.mp (.inl ⟨t, htable, hlacks⟩)
  rw [hj] at hstops
  contradiction

end Known

end DecodedFrame

namespace Sample

def table : CallsiteTable where
  lsda := lsda
  records := [⟨0, 0x10, 0x20, 1⟩, ⟨0x10, 0x10, 0x30, 5⟩, ⟨0x20, 0x10, 0x40, 7⟩]
  describes := ⟨rfl, by decide, by decide⟩
  storable := fun _ _ => ⟨trivial, trivial, trivial⟩
  inOrder := by simp [Callsite.InOrder]
  room := by decide

def frame (ip : Addr) : DecodedFrame :=
  ⟨context ip, some table⟩

theorem frame_ip (ip : Addr) : (frame ip).ip = ip := by
  unfold DecodedFrame.ip
  exact (congrArg (· - 0x4000) (BitVec.add_comm 0x4000 ip)).trans (BitVec.add_sub_cancel ip 0x4000)

theorem stored (ip : Addr) : (frame ip).Stored mem := by
  have hlsda : (0x1000 : Addr) ≠ 0 := by decide
  refine ⟨hlsda, parse_eq ip, ?_⟩
  have hholds : ∀ i, i < 12 → mem (0x1005 + BitVec.ofNat 64 i)
      = (writeCallsites 1 table.records)[i]? := by
    decide
  exact hholds

theorem readsBack (ip : Addr) : (frame ip).ReadsBack := by
  intro t htable
  cases htable
  have hreadable : ∀ r ∈ table.records, Readable 1 r.start ∧ Readable 1 r.size
      ∧ Readable 1 r.landingPad ∧ r.action.toNat < 2 ^ 31 := by
    simp [table, Readable, getEncoding]
  refine ⟨?_, fun r hr _ => (hreadable r hr).2.2.1, fun r hr _ => (hreadable r hr).2.2.2⟩
  intro pre r post heq _
  have hr : r ∈ table.records := by
    rw [heq]
    exact List.mem_append_right _ List.mem_cons_self
  exact ⟨(hreadable r hr).1, (hreadable r hr).2.1⟩

theorem endsScan_of_covers {ip : Addr} (r : Callsite) (hr : r ∈ table.records)
    (hcovers : r.Covers ip) : (frame ip).EndsScan mem := by
  intro t htable hlacks
  cases htable
  rw [frame_ip] at hlacks
  exact absurd hcovers (hlacks r hr)

-- the actions `cleanup, throw(int)` behind the table are read as a record from 0 to 1
theorem endsScan_noCallsite : (frame 0x35).EndsScan mem := by
  intro t htable _
  cases htable
  have hreads : ReadsRecord mem 1 0x1011 ⟨0, 1, 0x7f, 0⟩ 0x1015 := ⟨_, _, _, rfl, rfl, rfl, rfl⟩
  exact .behindElsewhere hreads (by decide)

theorem endsScan {f : DecodedFrame} (hf : f ∈ [frame 5, frame 0x15, frame 0x35])
    : f.EndsScan mem := by
  simp only [List.mem_cons, List.not_mem_nil, or_false] at hf
  rcases hf with hf | hf | hf
  . subst hf
    exact endsScan_of_covers ⟨0, 0x10, 0x20, 1⟩ (by decide) (by decide)
  . subst hf
    exact endsScan_of_covers ⟨0x10, 0x10, 0x30, 5⟩ (by decide) (by decide)
  . subst hf
    exact endsScan_noCallsite

theorem known_frame {ip : Addr} (hip : frame ip ∈ [frame 5, frame 0x15, frame 0x35])
    {j : FrameView Judged} (hknown : Known img heap (some ⟨0, 0⟩) 4 (context ip) j)
    : (frame ip).Known img heap (some ⟨0, 0⟩) 4 j := by
  exact (DecodedFrame.known_iff (stored ip) (readsBack ip) (endsScan hip)).mpr hknown

theorem wellFormed {f : DecodedFrame} (hf : f ∈ [frame 5, frame 0x15, frame 0x35])
    : f.WellFormed img heap (some ⟨0, 0⟩) 4 := by
  simp only [List.mem_cons, List.not_mem_nil, or_false] at hf
  rcases hf with hf | hf | hf
  . subst hf
    exact ⟨_, known_frame (by simp) known_cleanupThrowInt, fun _ => by decide⟩
  . subst hf
    exact ⟨_, known_frame (by simp) known_catchInt, fun _ => by decide⟩
  . subst hf
    exact ⟨_, known_frame (by simp) known_noCallsite, trivial⟩

end Sample

end LibCxxRt
