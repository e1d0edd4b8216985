import LibCxxRt.Demangle.Impl

/-!
This module determines the sequences of calls in which `__cxa_demangle` keeps to its contract. A buffer
may not be passed without its length.
-/

namespace LibCxxRt

namespace Demangle

variable {Name : Type}

-- a length that the caller has got is one that the buffer has room for
def State.Valid (s : State) : Prop :=
  ∀ a b k, s.buffers a = some b → b.length = some k → k ≤ b.capacity

/--
The caller passes null or a buffer that it owns, with the length that it has got for it. `realloc`
returns the same buffer or memory that is not in use.
-/
structure Allows (s : State) (c : Call Name) : Prop where
  buf : ∀ p, c.buf = some p → ∃ b, s.buffers p = some b ∧ ∀ k, c.n = some k → b.length = some k
  realloc : ∀ a, c.realloc = some a → c.buf = some a ∨ s.buffers a = none

structure Succeeds (s : State) (c : Call Name) (demangled : CString) (r : Return) (s' : State)
    : Prop where
  buf : ∃ a b, r.buf = some a ∧ s'.buffers a = some b ∧ demangled.StoredIn b.byte
    ∧ demangled.strlen < b.capacity ∧ ∀ k, r.n = some k → k ≤ b.capacity
  n : r.n.isSome = c.n.isSome
  status : r.status = if c.status then some 0 else none
  -- the buffer is the one that was passed, or new
  fresh : ∀ a, r.buf = some a → c.buf = some a ∨ s.buffers a = none
  others : ∀ x, r.buf ≠ some x → c.buf ≠ some x → s'.buffers x = s.buffers x

def Documented (demangle : Name → Option CString) (c : Call Name) (code : Int) : Prop :=
  (code = -1 ∧ c.realloc = none)
    ∨ (code = -2 ∧ demangle c.mangledName = none)
    ∨ (code = -3 ∧ c.buf ≠ none ∧ c.n = none)

structure Fails (demangle : Name → Option CString) (s : State) (c : Call Name) (r : Return)
    (s' : State) : Prop where
  buf : r.buf = none
  n : r.n = c.n
  status : ∃ code, Documented demangle c code ∧ r.status = if c.status then some code else none
  state : s' = s

def Contract (demangle : Name → Option CString) (s : State) (c : Call Name)
    (result : Res (Return × State)) : Prop :=
  ∃ r s', result = .ok (r, s')
    ∧ ((∃ demangled, demangle c.mangledName = some demangled ∧ Succeeds s c demangled r s')
      ∨ Fails demangle s c r s')

-- each of the calls is made as the caller may make it in the state that the calls before lead to
def Proper (demangle : Name → Option CString) (s : State) : List (Call Name) → Prop
  | [] => True
  | c :: calls => Allows s c ∧ ∀ r s', cxaDemangle demangle s c = .ok (r, s')
    → Proper demangle s' calls

def Keeps (demangle : Name → Option CString) (s : State) : List (Call Name) → Prop
  | [] => True
  | c :: calls => Contract demangle s c (cxaDemangle demangle s c)
    ∧ ∀ r s', cxaDemangle demangle s c = .ok (r, s') → Keeps demangle s' calls

-- a buffer without a length, and a string to put in it
def LacksLength (demangle : Name → Option CString) (c : Call Name) : Prop :=
  c.buf ≠ none ∧ c.n = none ∧ demangle c.mangledName ≠ none

variable {demangle : Name → Option CString} {s s' : State} {c : Call Name} {demangled : CString}

theorem cxaDemangle_of_lacksLength (h : LacksLength demangle c)
    : cxaDemangle demangle s c = .error .fault := by
  rcases Option.ne_none_iff_exists'.1 h.1 with ⟨p, hbuf⟩
  rcases Option.ne_none_iff_exists'.1 h.2.2 with ⟨demangled, hname⟩
  simp [cxaDemangle, ensureRoom, isTooSmall, hname, hbuf, h.2.1]

-- there is room for the string in a buffer, and the other buffers are not affected
structure Room (s : State) (c : Call Name) (len a : Nat) (b : Buffer) (s' : State) : Prop where
  buffer : s'.buffers a = some b
  capacity : len < b.capacity
  fresh : c.buf = some a ∨ s.buffers a = none
  others : ∀ x, x ≠ a → c.buf ≠ some x → s'.buffers x = s.buffers x
  moved : ∀ x, x ≠ a → c.buf = some x → s'.buffers x = none

theorem realloc_cases (hallows : Allows s c) (len : Nat)
    : (s.realloc c.buf (len + 1) c.realloc c.garbage = .ok (none, s) ∧ c.realloc = none)
        ∨ ∃ a b s', s.realloc c.buf (len + 1) c.realloc c.garbage = .ok (some a, s')
          ∧ Room s c len a b s' := by
  unfold State.realloc
  cases hrealloc : c.realloc with
  | none => exact .inl ⟨rfl, rfl⟩
  | some a =>
    right
    have hfresh := hallows.realloc a hrealloc
    cases hbuf : c.buf with
    | none =>
      refine ⟨a, ⟨len + 1, c.garbage, none⟩, _, rfl, ?_, Nat.lt_succ_self len, hfresh, ?_, ?_⟩
      . exact Function.update_self a _ _
      . intro x hx _
        exact Function.update_of_ne hx _ _
      . simp [hbuf]
    | some p =>
      rcases hallows.buf p hbuf with ⟨b, hb, _⟩
      simp only [hb]
      refine ⟨a, { b with capacity := len + 1 }, _, rfl, ?_, Nat.lt_succ_self len, hfresh, ?_, ?_⟩
      . exact Function.update_self a _ _
      . intro x hx hxp
        have hne : x ≠ p := fun heq => hxp (by rw [hbuf, heq])
        dsimp only
        rw [Function.update_of_ne hx, Function.update_of_ne hne]
      . intro x hx hxp
        rw [hbuf, Option.some.injEq] at hxp
        dsimp only
        rw [Function.update_of_ne hx, ← hxp, Function.update_self]

theorem ensureRoom_cases (hs : s.Valid) (hallows : Allows s c) (len : Nat)
    (hlength : c.buf = none ∨ c.n ≠ none)
    : (ensureRoom s c len = .ok (none, s) ∧ c.realloc = none)
        ∨ ∃ a b s', ensureRoom s c len = .ok (some a, s') ∧ Room s c len a b s' := by
  have hrealloc := realloc_cases hallows len
  unfold ensureRoom isTooSmall
  cases hbuf : c.buf with
  | none =>
    rw [hbuf] at hrealloc
    exact hrealloc
  | some p =>
    rw [hbuf] at hrealloc
    rcases Option.ne_none_iff_exists'.1 (hlength.resolve_left (by simp [hbuf])) with ⟨n, hn⟩
    rcases hallows.buf p hbuf with ⟨b, hb, hlen⟩
    simp only [hn, Res.ok_bind, decide_eq_true_eq]
    by_cases hsmall : n < len + 1
    . rw [if_pos hsmall]
      exact hrealloc
    . rw [if_neg hsmall]
      have hroom := hs p b n hb (hlen n hn)
      refine .inr ⟨p, b, s, rfl, hb, by omega, .inl hbuf, fun _ _ _ => rfl, ?_⟩
      intro x hx hxp
      rw [hbuf, Option.some.injEq] at hxp
      exact absurd hxp.symm hx

-- the contents or the length of the buffer change
theorem Room.update {len a : Nat} {b b' : Buffer} (h : Room s c len a b s')
    (hcapacity : b'.capacity = b.capacity)
    : Room s c len a b' ⟨Function.update s'.buffers a (some b')⟩ := by
  refine ⟨Function.update_self a _ _, ?_, h.fresh, ?_, ?_⟩
  . rw [hcapacity]
    exact h.capacity
  . intro x hx hxp
    exact (Function.update_of_ne hx _ _).trans (h.others x hx hxp)
  . intro x hx hxp
    exact (Function.update_of_ne hx _ _).trans (h.moved x hx hxp)

theorem Room.store {a : Nat} {b : Buffer} (hroom : Room s c demangled.strlen a b s')
    : ∃ b' s₁, s'.store a demangled = .ok s₁ ∧ Room s c demangled.strlen a b' s₁
        ∧ demangled.StoredIn b'.byte := by
  have hfits : demangled.strlen + 1 ≤ b.capacity := hroom.capacity
  unfold State.store
  rw [hroom.buffer]
  dsimp only
  rw [if_pos hfits]
  refine ⟨_, _, rfl, hroom.update rfl, ?_, ?_⟩
  . intro i hi
    exact dif_pos hi
  . simp

theorem Room.setLength {len a : Nat} {b : Buffer} (h : Room s c len a b s') (length : Option Nat)
    : Room s c len a { b with length } (s'.setLength a length) := by
  unfold State.setLength
  rw [h.buffer]
  exact h.update rfl

theorem Room.valid {len a : Nat} {b : Buffer} (h : Room s c len a b s') (hs : s.Valid)
    (hlength : ∀ k, b.length = some k → k ≤ b.capacity) : s'.Valid := by
  intro x b' k hb' hk
  by_cases hx : x = a
  . rw [hx, h.buffer] at hb'
    cases hb'
    exact hlength k hk
  . by_cases hxp : c.buf = some x
    . rw [h.moved x hx hxp] at hb'
      contradiction
    . rw [h.others x hx hxp] at hb'
      exact hs x b' k hb' hk

theorem cxaDemangle_of_room (hs : s.Valid) (hname : demangle c.mangledName = some demangled)
    {a : Nat} {b : Buffer} (hensure : ensureRoom s c demangled.strlen = .ok (some a, s'))
    (h : Room s c demangled.strlen a b s')
    : ∃ r s₁, cxaDemangle demangle s c = .ok (r, s₁) ∧ Succeeds s c demangled r s₁ ∧ s₁.Valid := by
  rcases h.store with ⟨b', s₁, hstore, h', hstored⟩
  have hlast := h'.setLength (c.n.map fun _ => demangled.strlen)
  have hle : ∀ k, (c.n.map fun _ => demangled.strlen) = some k → k ≤ b'.capacity := by
    intro k hk
    rcases Option.map_eq_some_iff.1 hk with ⟨_, _, rfl⟩
    exact Nat.le_of_lt h'.capacity
  refine ⟨⟨some a, c.n.map fun _ => demangled.strlen, if c.status then some 0 else none⟩, _, ?_,
    ⟨⟨a, _, rfl, hlast.buffer, hstored, h'.capacity, hle⟩, ?_, rfl, ?_, ?_⟩, hlast.valid hs hle⟩
  . simp [cxaDemangle, hname, hensure, hstore]
  . exact Option.isSome_map
  . rintro x ⟨⟩
    exact h'.fresh
  . intro x hx hxp
    have hne : x ≠ a := fun heq => hx (by rw [heq])
    exact hlast.others x hne hxp

-- one call
theorem contract_of_allows (hs : s.Valid) (hallows : Allows s c) (h : ¬ LacksLength demangle c)
    : ∃ r s', cxaDemangle demangle s c = .ok (r, s') ∧ s'.Valid
        ∧ Contract demangle s c (cxaDemangle demangle s c) := by
  cases hname : demangle c.mangledName with
  | none =>
    have hresult : cxaDemangle demangle s c
          =
        .ok (⟨none, c.n, if c.status then some (-2) else none⟩, s) := by
      simp [cxaDemangle, hname]
    refine ⟨_, s, hresult, hs, _, s, hresult, .inr ⟨rfl, rfl, ?_, rfl⟩⟩
    exact ⟨-2, .inr (.inl ⟨rfl, hname⟩), rfl⟩
  | some demangled =>
    have hlength : c.buf = none ∨ c.n ≠ none := by
      by_contra hlacks
      rw [not_or, not_not] at hlacks
      exact h ⟨hlacks.1, hlacks.2, by simp [hname]⟩
    rcases ensureRoom_cases hs hallows demangled.strlen hlength with
      ⟨hensure, hrealloc⟩ | ⟨a, b, s', hensure, hroom⟩
    . have hresult : cxaDemangle demangle s c
            =
          .ok (⟨none, c.n, if c.status then some (-1) else none⟩, s) := by
        simp [cxaDemangle, hname, hensure]
      refine ⟨_, s, hresult, hs, _, s, hresult, .inr ⟨rfl, rfl, ?_, rfl⟩⟩
      exact ⟨-1, .inl ⟨rfl, hrealloc⟩, rfl⟩
    . rcases cxaDemangle_of_room hs hname hensure hroom with ⟨r, s₁, hresult, hsucceeds, hvalid⟩
      exact ⟨r, s₁, hresult, hvalid, r, s₁, hresult, .inl ⟨demangled, hname, hsucceeds⟩⟩

theorem not_contract_of_lacksLength (h : LacksLength demangle c)
    : ¬ Contract demangle s c (cxaDemangle demangle s c) := by
  rw [cxaDemangle_of_lacksLength h]
  rintro ⟨r, s', hresult, _⟩
  contradiction

theorem keeps_iff (hs : s.Valid) {calls : List (Call Name)} (hproper : Proper demangle s calls)
    : Keeps demangle s calls ↔ ∀ c ∈ calls, ¬ LacksLength demangle c := by
  induction calls generalizing s with
  | nil => simp [Keeps]
  | cons c calls ih =>
    rw [List.forall_mem_cons]
    by_cases h : LacksLength demangle c
    . exact iff_of_false (fun hkeeps => not_contract_of_lacksLength h hkeeps.1) fun hnone => hnone.1 h
    . rcases contract_of_allows hs hproper.1 h with ⟨r, s', hresult, hvalid, hcontract⟩
      rw [and_iff_right h, ← ih hvalid (hproper.2 r s' hresult)]
      constructor
      . intro hkeeps
        exact hkeeps.2 r s' hresult
      . intro hkeeps
        refine ⟨hcontract, ?_⟩
        intro r' s'' hresult'
        rw [hresult] at hresult'
        cases hresult'
        exact hkeeps

namespace Sample

def int : CString where
  bytes := [0x69, 0x6e, 0x74]
  nonzero := by decide

-- the one name that is valid is 'i'
def demangler (name : Char) : Option CString :=
  if name = 'i' then some int else none

def nothing : State :=
  ⟨fun _ => none⟩

-- the caller has allocated 8 bytes at 0x40
def allocated : State :=
  ⟨fun a => if a = 0x40 then some ⟨8, fun _ => 0, some 8⟩ else none⟩

def first : Call Char :=
  ⟨'i', none, some 0, true, some 0x40, fun _ => 0⟩

-- the buffer that the first call returned has room for the string, but the length is that of the string
def second : Call Char :=
  ⟨'i', some 0x40, some 3, false, none, fun _ => 0⟩

def withoutLength : Call Char :=
  ⟨'i', some 0x40, none, true, none, fun _ => 0⟩

end Sample

open Demangle.Sample

theorem keeps_iff_two
    : Keeps demangler nothing [first, second] := by
  have hvalid : nothing.Valid := by
    rintro a b k ⟨⟩
  have hproper : Proper demangler nothing [first, second] := by
    refine ⟨⟨by rintro p ⟨⟩, fun a _ => .inr rfl⟩, ?_⟩
    rintro r s' ⟨⟩
    refine ⟨⟨?_, by rintro a ⟨⟩⟩, fun _ _ _ => trivial⟩
    rintro p ⟨⟩
    exact ⟨_, rfl, fun _ hk => hk⟩
  refine (keeps_iff hvalid hproper).2 ?_
  simp [LacksLength, first, second]

theorem not_keeps
    : allocated.Valid ∧ Proper demangler allocated [withoutLength]
        ∧ cxaDemangle demangler allocated withoutLength = .error .fault
        ∧ ¬ Keeps demangler allocated [withoutLength] := by
  refine ⟨?_, ⟨⟨?_, by rintro a ⟨⟩⟩, fun _ _ _ => trivial⟩, rfl, ?_⟩
  . intro a b k hb hk
    rcases Option.ite_none_right_eq_some.1 hb with ⟨_, hb⟩
    cases hb
    cases hk
    exact Nat.le_refl 8
  . rintro p ⟨⟩
    exact ⟨_, rfl, by rintro k ⟨⟩⟩
  . rintro ⟨⟨r, s', hresult, _⟩, _⟩
    contradiction

end Demangle

end LibCxxRt
