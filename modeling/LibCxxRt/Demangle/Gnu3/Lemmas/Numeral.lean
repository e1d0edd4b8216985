import LibCxxRt.Demangle.Gnu3.Lemmas.View

/-!
This module determines that the demangler reads the numbers, the identifiers and the numbers of substitutions
that a compiler writes.
-/

namespace LibCxxRt

namespace Demangle

namespace Gnu3

variable {v : View} {s : List Byte} {base n : Nat}

theorem digitValue_digitByte (hn : n < 36) : digitValue (digitByte n) = some n := by
  revert n
  decide

theorem isDigitOf_digitByte (hn : n < base) (hbase : base ≤ 36) : isDigitOf base (digitByte n) = true := by
  rw [isDigitOf, digitValue_digitByte (Nat.lt_of_lt_of_le hn hbase)]
  simpa using hn

theorem isDigitOf_ten (b : Byte) : isDigitOf 10 b = isDigit b := by
  revert b
  decide

theorem isSpace_of_isDigitOf {b : Byte} (h : isDigitOf base b = true) : isSpace b = false := by
  have hspace : ∀ b : Byte, isSpace b = true → digitValue b = none := by
    decide
  cases hb : isSpace b with
  | false => rfl
  | true =>
    rw [isDigitOf, hspace b hb] at h
    cases h

theorem isSign_of_isDigitOf {b : Byte} (h : isDigitOf base b = true) : b ≠ chr '-' ∧ b ≠ chr '+' := by
  constructor <;> rintro rfl <;> cases h

theorem exists_of_mem_numeral {b : Byte} (hbase : 1 < base) (h : b ∈ numeral base n)
    : ∃ d, d < base ∧ b = digitByte d := by
  unfold numeral at h
  split at h
  . cases List.mem_singleton.1 h
    exact ⟨0, by omega, rfl⟩
  . rcases List.mem_map.1 h with ⟨d, hd, rfl⟩
    exact ⟨d, Nat.digits_lt_base hbase (List.mem_reverse.1 hd), rfl⟩

theorem isDigitOf_of_mem_numeral {b : Byte} (hbase : 1 < base) (hle : base ≤ 36) (h : b ∈ numeral base n)
    : isDigitOf base b = true := by
  rcases exists_of_mem_numeral hbase h with ⟨d, hd, rfl⟩
  exact isDigitOf_digitByte hd hle

theorem valueOf_numeral (hbase : 1 < base) (hle : base ≤ 36) (n : Nat) : valueOf base (numeral base n) = n := by
  have hfold (digits : List Nat) (hdigits : ∀ d ∈ digits, d < base)
      : valueOf base (digits.reverse.map digitByte) = Nat.ofDigits base digits := by
    induction digits with
    | nil => rfl
    | cons d digits ih =>
      have hd : d < 36 := Nat.lt_of_lt_of_le (hdigits d List.mem_cons_self) hle
      have htail := ih fun d hd => hdigits d (List.mem_cons_of_mem _ hd)
      unfold valueOf at htail ⊢
      rw [List.reverse_cons, List.map_append, List.foldl_append, htail]
      simp [digitValue_digitByte hd, Nat.ofDigits_cons, Nat.mul_comm, Nat.add_comm]
  unfold numeral
  split
  . next hn =>
    show 0 * base + 0 = n
    omega
  . rw [hfold _ fun d hd => Nat.digits_lt_base hbase hd, Nat.ofDigits_digits]

-- a numeral ends where no other digit follows
structure Ends (base : Nat) (s : List Byte) : Prop where
  head : ∀ b, s.head? = some b → isDigitOf base b = false

theorem takeWhile_append_stop {q : Byte → Bool} {a b : List Byte} (ha : ∀ x ∈ a, q x = true)
    (hb : ∀ x, b.head? = some x → q x = false) : (a ++ b).takeWhile q = a ∧ (a ++ b).dropWhile q = b := by
  rw [List.takeWhile_append_of_pos ha, List.dropWhile_append_of_pos ha]
  cases b with
  | nil => simp
  | cons x b => simp [hb x rfl]

theorem takeWhile_numeral (hbase : 1 < base) (hle : base ≤ 36) (n : Nat) (hs : Ends base s)
    : (numeral base n ++ s).takeWhile (isDigitOf base) = numeral base n :=
  (takeWhile_append_stop (fun _ hb => isDigitOf_of_mem_numeral hbase hle hb) hs.head).1

theorem dropWhile_numeral (hbase : 1 < base) (hle : base ≤ 36) (n : Nat) (hs : Ends base s)
    : (numeral base n ++ s).dropWhile (isDigitOf base) = s :=
  (takeWhile_append_stop (fun _ hb => isDigitOf_of_mem_numeral hbase hle hb) hs.head).2

theorem strtol_numeral (hbase : 1 < base) (hle : base ≤ 36) (hn : (n : Int) ≤ LONG_MAX) (hs : Ends base s)
    : strtol (numeral base n ++ s) base = ((n : Int), false) := by
  rcases List.exists_cons_of_ne_nil (numeral_ne_nil base n) with ⟨b, digits, hcons⟩
  have hb : isDigitOf base b = true := by
    apply isDigitOf_of_mem_numeral hbase hle (n := n)
    rw [hcons]
    exact List.mem_cons_self
  have hspace : (numeral base n ++ s).dropWhile isSpace = numeral base n ++ s := by
    rw [hcons, List.cons_append, List.dropWhile_cons, isSpace_of_isDigitOf hb]
    rfl
  have hhead : (numeral base n ++ s).head? = some b := by
    rw [hcons]
    rfl
  have hminus : ((numeral base n ++ s).head? == some (chr '-')) = false := by
    rw [hhead]
    simpa using (isSign_of_isDigitOf hb).1
  have hplus : ((numeral base n ++ s).head? == some (chr '+')) = false := by
    rw [hhead]
    simpa using (isSign_of_isDigitOf hb).2
  unfold strtol
  rw [hspace]
  dsimp only
  rw [hminus, hplus, Bool.or_self, if_neg (by simp), if_neg (by simp), takeWhile_numeral hbase hle n hs,
    valueOf_numeral hbase hle, hcons, Int.min_eq_left hn]
  rfl

theorem isDigitOf_eq_isDigit : isDigitOf 10 = isDigit := by
  funext b
  exact isDigitOf_ten b

theorem peekLong_gives (hbase : 1 < base) (hle : base ≤ 36) (hn : (n : Int) ≤ LONG_MAX) (hs : Ends base s)
    : Gives (peekLong base) (v.setInput (numeral base n ++ s)) n (v.setInput (numeral base n ++ s)) := by
  apply Util.Yields.bind rest_gives
  rw [strtol_numeral hbase hle hn hs]
  apply Util.Evaluates.get_bind
  intro d hd
  apply Util.Yields.bind (failIf_gives (by simp))
  exact Util.Yields.pure _ _

theorem skipIf_gives_false {c : Char} (hs : s.headD 0 ≠ chr c)
    : Gives (skipIf c) (v.setInput s) false (v.setInput s) := by
  apply Util.Yields.bind peek_gives
  rw [if_neg hs]
  exact Util.Yields.pure _ _

theorem headD_numeral (hbase : 1 < base) (hle : base ≤ 36) (n : Nat) (s : List Byte)
    : isDigitOf base ((numeral base n ++ s).headD 0) = true := by
  rcases List.exists_cons_of_ne_nil (numeral_ne_nil base n) with ⟨b, digits, hcons⟩
  apply isDigitOf_of_mem_numeral hbase hle (n := n)
  rw [hcons]
  exact List.mem_cons_self

theorem isDigit_numeral (n : Nat) (s : List Byte) : isDigit ((numeral 10 n ++ s).headD 0) = true := by
  rw [← isDigitOf_ten]
  exact headD_numeral (by decide) (by decide) n s

theorem ne_of_isDigit {b : Byte} {c : Char} (hb : isDigit b = true) (hc : isDigit (chr c) = false)
    : b ≠ chr c := by
  rintro rfl
  rw [hb] at hc
  cases hc

theorem readNumber_gives (hn : (n : Int) ≤ LONG_MAX) (hs : Ends 10 s)
    : Gives readNumber (v.setInput (numeral 10 n ++ s)) n (v.setInput s) := by
  have hdigit := isDigit_numeral n s
  apply Util.Yields.bind (skipIf_gives_false (ne_of_isDigit hdigit rfl))
  apply Util.Yields.bind peek_gives
  apply Util.Yields.bind (failIf_gives (by rw [hdigit]; simp))
  apply Util.Yields.bind (peekLong_gives (by decide) (by decide) hn hs)
  have hskip := skipWhile_gives (v := v) (s := numeral 10 n ++ s) isDigit
  rw [← isDigitOf_eq_isDigit, dropWhile_numeral (by decide) (by decide) n hs] at hskip
  rw [← isDigitOf_eq_isDigit]
  apply Util.Yields.bind hskip
  apply Util.Yields.bind (stopIf_gives (by omega))
  exact Util.Yields.pure _ _

namespace Identifier

variable (id : Identifier)

theorem ends (s : List Byte) : Ends 10 (id.text.bytes ++ s) where
  head b hb := by
    have hhead := id.head
    rw [Option.any_eq_true] at hhead
    rcases hhead with ⟨c, hc, hdigit⟩
    rw [List.head?_append, hc] at hb
    cases hb
    rw [isDigitOf_ten]
    simpa using hdigit

end Identifier

theorem isAnonymousNamespace_gives (hs : 12 ≤ s.length + 1)
    : Gives isAnonymousNamespace (v.setInput s) (s.take 12 == ascii "_GLOBAL__N_1") (v.setInput s) := by
  apply Util.Yields.bind rest_gives
  apply Util.Yields.bind (stopIf_gives (by omega))
  exact Util.Yields.pure _ _

theorem pushSname_gives (id : Identifier) (s : List Byte)
    : Gives (pushSname id.text.strlen) (v.setInput (id.text.bytes ++ s)) ()
        ((v.push id.shown).setInput (id.text.bytes ++ s)) := by
  have htext : copyString (id.text.bytes ++ s) id.text.strlen = id.text := by
    apply CString.ext
    rw [bytes_copyString, CString.strlen, List.take_left, takeWhile_nonzero id.text.nonzero]
  have hpush : Gives (do pushStr (← rest) id.text.strlen) (v.setInput (id.text.bytes ++ s)) ()
      ((v.push id.text).setInput (id.text.bytes ++ s)) := by
    apply Util.Yields.bind rest_gives
    have h : Gives (pushStr (id.text.bytes ++ s) id.text.strlen) (v.setInput (id.text.bytes ++ s)) ()
        ((v.push (copyString (id.text.bytes ++ s) id.text.strlen)).setInput (id.text.bytes ++ s)) :=
      pushStr_gives (Nat.ne_of_gt id.strlen_pos)
    rw [htext] at h
    exact h
  have hlength : id.text.strlen = id.text.bytes.length := rfl
  unfold pushSname
  split
  . next hlen =>
    have hle : 12 ≤ (id.text.bytes ++ s).length + 1 := by
      rw [List.length_append]
      omega
    have htake : (id.text.bytes ++ s).take 12 = id.text.bytes := by
      rw [← hlen, hlength, List.take_left]
    apply Util.Yields.bind (isAnonymousNamespace_gives hle)
    rw [htake]
    split
    . next hanon =>
      rw [Identifier.shown, if_pos (by simpa using hanon)]
      exact demPushStr_gives (by decide)
    . next hanon =>
      rw [Identifier.shown, if_neg (by simpa using hanon)]
      exact hpush
  . next hlen =>
    have hanon : id.text.bytes ≠ ascii "_GLOBAL__N_1" := by
      intro h
      rw [hlength, h] at hlen
      exact hlen rfl
    rw [Identifier.shown, if_neg hanon]
    exact hpush

theorem readSname_gives (id : Identifier) (s : List Byte)
    : Gives readSname (v.setInput (numeral 10 id.text.strlen ++ (id.text.bytes ++ s))) ()
        ((v.setPage (v.page.pushIdentifier id)).setInput s) := by
  have hpos := id.strlen_pos
  apply Util.Yields.bind (readNumber_gives id.length (id.ends s))
  apply Util.Yields.bind (failIf_gives (by omega))
  rw [Int.toNat_natCast]
  apply Util.Yields.bind (pushSname_gives id s)
  have hlast : (v.page.push id.shown).output.getLast? = some id.shown := by
    simp [Page.push]
  have hupdate := updateLastSname_gives (v := v.setInput (id.text.bytes ++ s)) id.strlen_shown hlast
  apply Util.Yields.bind hupdate
  exact advance_append (v := v.setPage (v.page.pushIdentifier id)) id.text.bytes s

-- what follows the number of a substitution
theorem ends_underscore (s : List Byte) : Ends 36 (chr '_' :: s) where
  head b hb := by
    cases hb
    rfl

theorem readSeqId_gives {i : Nat} (hi : (i : Int) < LONG_MAX) (s : List Byte)
    : Gives readSeqId (v.setInput (numeral 36 i ++ chr '_' :: s)) (i + 1) (v.setInput (chr '_' :: s)) := by
  have hdigits : ∀ b ∈ numeral 36 i, b ≠ chr '_' := by
    rintro b hb rfl
    exact absurd (isDigitOf_of_mem_numeral (by decide) (by decide) hb) (by decide)
  have hnext : incrementLong i = (i : Int) + 1 := by
    rw [incrementLong, if_neg (by omega)]
  apply Util.Yields.bind (peekLong_gives (by decide) (by decide) (Int.le_of_lt hi) (ends_underscore s))
  apply Util.Yields.bind (skipTo_gives hdigits)
  rw [hnext]
  apply Util.Yields.bind (stopIf_gives (by omega))
  have hcast : ((i : Int) + 1).toNat = i + 1 := by omega
  rw [hcast]
  exact Util.Yields.pure _ _

-- of the number of a substitution
def isSeqStart (b : Byte) : Bool :=
  isDigit b || isUpper b || b == chr '_'

theorem isSeqStart_digitByte (hn : n < 36)
    : isSeqStart (digitByte n) = true ∧ digitByte n ≠ chr '_' := by
  revert n
  decide

theorem headD_seqId_succ (i : Nat) (s : List Byte)
    : isSeqStart ((seqId (i + 1) ++ s).headD 0) = true ∧ (seqId (i + 1) ++ s).headD 0 ≠ chr '_' := by
  rcases List.exists_cons_of_ne_nil (numeral_ne_nil 36 i) with ⟨b, digits, hcons⟩
  have hmem : b ∈ numeral 36 i := by
    rw [hcons]
    exact List.mem_cons_self
  rcases exists_of_mem_numeral (by decide) hmem with ⟨d, hd, rfl⟩
  rw [seqId, hcons]
  exact isSeqStart_digitByte hd

theorem isSeqStart_headD (i : Nat) (s : List Byte) : isSeqStart ((seqId i ++ s).headD 0) = true := by
  cases i with
  | zero => rfl
  | succ i => exact (headD_seqId_succ i s).1

end Gnu3

end Demangle

end LibCxxRt
