import LibCxxRt.Demangle.Gnu3.Impl.Data
import Mathlib.Data.List.TakeWhile

/-!
This module contains lemmas about the vectors of strings of the demangler: what an operation that succeeds
makes of the list of strings.
-/

namespace LibCxxRt

namespace Demangle

theorem CString.ext {s t : CString} (h : s.bytes = t.bytes) : s = t := by
  cases s
  cases t
  cases h
  rfl

@[simp]
theorem CString.bytes_concat (strs : List CString)
    : (CString.concat strs).bytes = strs.flatMap CString.bytes := by
  rfl

namespace Gnu3

variable {α : Type} {d d' : CppDemangleData} {v w : VectorStr}

theorem lt_bufferGrow {x : Nat} (hx : 0 < x) : x < bufferGrow x := by
  unfold bufferGrow
  omega

theorem bytes_copyString (src : List Byte) (len : Nat)
    : (copyString src len).bytes = (src.take len).takeWhile (· != 0) := by
  rfl

theorem takeWhile_nonzero {s : List Byte} (h : ∀ b ∈ s, b ≠ 0) : s.takeWhile (· != 0) = s := by
  apply List.takeWhile_eq_self_iff.2
  intro b hb
  simpa using h b hb

theorem bytes_copyString_of_nonzero {s : List Byte} (h : ∀ b ∈ s, b ≠ 0)
    : (copyString s s.length).bytes = s := by
  rw [bytes_copyString, List.take_length, takeWhile_nonzero h]

@[simp]
theorem copyString_self (s : CString) : copyString s.bytes s.strlen = s := by
  apply CString.ext
  exact bytes_copyString_of_nonzero s.nonzero

@[simp]
theorem copyString_length_self (s : CString) : copyString s.bytes s.bytes.length = s := by
  exact copyString_self s

theorem strncmpEq_self_iff {s o : CString} : strncmpEq s o o.strlen = true ↔ o.bytes <+: s.bytes := by
  rw [strncmpEq, beq_iff_eq, CString.strlen, List.take_length, List.prefix_iff_eq_take, eq_comm]

theorem vectorStrFind_iff {o : CString}
    : vectorStrFind v o o.strlen = true ↔ ∃ s ∈ texts v, o.bytes <+: s.bytes := by
  simp [vectorStrFind, texts, strncmpEq_self_iff]

-- only `malloc` has been called
def Mallocs (d d' : CppDemangleData) (n : Nat) : Prop :=
  d' = { d with mallocs := d.mallocs + n }

theorem Mallocs.refl (d : CppDemangleData) : Mallocs d d 0 := by
  rfl

theorem Mallocs.trans {d'' : CppDemangleData} {m n : Nat} (h : Mallocs d d' m) (h' : Mallocs d' d'' n)
    : Mallocs d d'' (m + n) := by
  unfold Mallocs at *
  subst h
  subst h'
  simp [Nat.add_assoc]

@[simp]
theorem fail_apply (d : CppDemangleData) : (fail : P α) d = .error .zero := by
  rfl

@[simp]
theorem stop_apply (s : Stop) (d : CppDemangleData) : (stop s : P α) d = .error (.stop s) := by
  rfl

@[simp]
theorem failIf_eq_ok {c : Prop} [Decidable c] {u : Unit} : failIf c d = .ok (u, d') ↔ ¬ c ∧ d' = d := by
  unfold failIf
  split <;> simp_all [eq_comm]

@[simp]
theorem failIfNone_eq_ok {o : Option α} {a : α}
    : failIfNone o d = .ok (a, d') ↔ o = some a ∧ d' = d := by
  cases o <;> simp [failIfNone, eq_comm]

@[simp]
theorem faultIfNone_eq_ok {o : Option α} {a : α}
    : faultIfNone o d = .ok (a, d') ↔ o = some a ∧ d' = d := by
  cases o <;> simp [faultIfNone, eq_comm]

theorem tryMalloc_apply (d : CppDemangleData)
    : tryMalloc d
        =
      .ok (if d.env.malloc d.mallocs then some d.mallocs else none, { d with mallocs := d.mallocs + 1 }) := by
  rfl

theorem tryMalloc_eq_ok {addr : Nat} (h : tryMalloc d = .ok (some addr, d'))
    : addr = d.mallocs ∧ Mallocs d d' 1 := by
  rw [tryMalloc_apply, Except.ok.injEq, Prod.mk.injEq] at h
  obtain ⟨haddr, rfl⟩ := h
  split at haddr
  . exact ⟨(Option.some.inj haddr).symm, rfl⟩
  . cases haddr

theorem malloc_eq_ok {addr : Nat} (h : malloc d = .ok (addr, d'))
    : addr = d.mallocs ∧ Mallocs d d' 1 := by
  rcases Util.Prog.bind_eq_ok.1 h with ⟨o, d₁, h₁, h₂⟩
  obtain ⟨rfl, rfl⟩ := failIfNone_eq_ok.1 h₂
  exact tryMalloc_eq_ok h₁

theorem map_eq_ok {β : Type} {m : P α} {g : α → β} {b : β}
    : (g <$> m) d = .ok (b, d') ↔ ∃ a, m d = .ok (a, d') ∧ g a = b := by
  rw [map_eq_pure_bind, Util.Prog.bind_eq_ok]
  constructor
  . rintro ⟨a, d₁, h₁, h₂⟩
    cases h₂
    exact ⟨a, h₁, rfl⟩
  . rintro ⟨a, h₁, rfl⟩
    exact ⟨a, d', h₁, rfl⟩

theorem vectorStrGrow_eq_ok (h : vectorStrGrow v d = .ok (some w, d'))
    : w.items = v.items ∧ Mallocs d d' 1 := by
  unfold vectorStrGrow at h
  split at h
  . cases h
  . rcases Util.Prog.bind_eq_ok.1 h with ⟨addr, d₁, h₁, h₂⟩
    cases addr with
    | none => cases h₂
    | some addr =>
      rcases map_eq_ok.1 h₂ with ⟨w', hw, hsome⟩
      cases hsome
      obtain ⟨hresize, rfl⟩ := faultIfNone_eq_ok.1 hw
      exact ⟨(Util.Growable.resize_eq_some.1 hresize).1, (tryMalloc_eq_ok h₁).2⟩

theorem ensureCapacity_eq_ok (h : ensureCapacity v d = .ok (some w, d'))
    : ∃ n, w.items = v.items ∧ Mallocs d d' n := by
  unfold ensureCapacity at h
  split at h
  . exact ⟨1, vectorStrGrow_eq_ok h⟩
  . cases h
    exact ⟨0, rfl, .refl _⟩

theorem vectorStrPush_eq_ok {str : List Byte} {len : Nat}
    (h : vectorStrPush v str len d = .ok ((w, true), d'))
    : ∃ n, w.items = v.items ++ [⟨d.mallocs + n, copyString str len⟩] ∧ Mallocs d d' (n + 1) := by
  unfold vectorStrPush at h
  rcases Util.Prog.bind_eq_ok.1 h with ⟨o, d₁, h₁, h₂⟩
  cases o with
  | none => cases h₂
  | some u =>
    rcases ensureCapacity_eq_ok h₁ with ⟨n, hu, hn⟩
    rcases Util.Prog.bind_eq_ok.1 h₂ with ⟨addr, d₂, h₃, h₄⟩
    cases addr with
    | none => cases h₄
    | some addr =>
      obtain ⟨rfl, haddr⟩ := tryMalloc_eq_ok h₃
      rcases map_eq_ok.1 h₄ with ⟨w', hpush, hw⟩
      cases hw
      obtain ⟨hitems, rfl⟩ := faultIfNone_eq_ok.1 hpush
      refine ⟨n, ?_, hn.trans haddr⟩
      rw [(Util.Growable.push_eq_some.1 hitems).1, hu, hn]

theorem vecPush_eq_ok {str : List Byte} {len : Nat} (h : vecPush v str len d = .ok (w, d'))
    : ∃ n, w.items = v.items ++ [⟨d.mallocs + n, copyString str len⟩] ∧ Mallocs d d' (n + 1) := by
  unfold vecPush at h
  rcases Util.Prog.bind_eq_ok.1 h with ⟨⟨u, ok⟩, d₁, h₁, h₂⟩
  cases ok with
  | false => cases h₂
  | true =>
    cases h₂
    exact vectorStrPush_eq_ok h₁

theorem addUnfound_eq_ok {table : CppDemangleData → VectorStr}
    {update : VectorStr → CppDemangleData → CppDemangleData} {s : CString} {u : Unit}
    (h : addUnfound table update s s.strlen d = .ok (u, d'))
    : (vectorStrFind (table d) s s.strlen = true ∧ d' = d)
        ∨
      (vectorStrFind (table d) s s.strlen = false ∧ ∃ n w,
        w.items = (table d).items ++ [⟨d.mallocs + n, s⟩]
          ∧ d' = update w { d with mallocs := d.mallocs + (n + 1) }) := by
  unfold addUnfound at h
  rcases Util.Prog.bind_eq_ok.1 h with ⟨e, d₁, hget, h⟩
  cases hget
  split at h
  . next hs =>
    cases h
    exact .inl ⟨hs, rfl⟩
  . next hs =>
    rcases Util.Prog.bind_eq_ok.1 h with ⟨e, d₁, hget, h⟩
    cases hget
    rcases Util.Prog.bind_eq_ok.1 h with ⟨w, d₂, hpush, hset⟩
    rcases vecPush_eq_ok hpush with ⟨n, hw, hn⟩
    rw [copyString_self] at hw
    cases hset
    refine .inr ⟨Bool.eq_false_iff.2 hs, n, w, hw, ?_⟩
    rw [hn]

end Gnu3

end Demangle

end LibCxxRt
