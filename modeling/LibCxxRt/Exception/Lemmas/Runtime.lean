import LibCxxRt.Exception.Lemmas.Owner
import LibCxxRt.Exception.Lemmas.View

/-!
This module contains the proofs that the functions of the runtime return under their preconditions,
and what they do to the view of the process.
-/

namespace LibCxxRt

variable {img : Image} {w : Process} {i b d p n : Nat} {e : CxaException}

theorem cxaAllocateException_of_none (hb : w.heap b = none)
    : cxaAllocateException b w
        =
      .ok (⟨b, 128⟩, { w with heap := w.heap.set b (.cxx .zero) }) := by
  unfold cxaAllocateException
  rw [hb]

theorem cxaAllocateException_view (hb : w.heap b = none)
    : ∃ w', cxaAllocateException b w = .ok (⟨b, 128⟩, w') ∧ w'.heap b = some (.cxx .zero)
      ∧ w'.view = (w.view.setLink b (some (.cxx 0 none))).setKind b (some .other) := by
  rw [cxaAllocateException_of_none hb]
  refine ⟨_, rfl, Heap.set_self .., ?_⟩
  rw [Process.view_set]
  rfl

theorem throwException_view (hb : w.heap b = some (.cxx e)) (i : Nat)
    : ∃ w', throwException i ⟨b, 0⟩ w = .ok (⟨b, 96⟩, w')
      ∧ w'.view = w.view.setThread i {
        w.threads i with uncaughtExceptions := (w.threads i).uncaughtExceptions + 1
      } := by
  unfold throwException
  rw [Heap.tail_of_cxx hb]
  refine ⟨_, rfl, ?_⟩
  rw [Process.view_setThread, Process.view_setTail hb (by rfl), View.setLink_eq_self]
  exact Heap.link_of_cxx hb

theorem cxaInitPrimaryException_view (hb : w.heap b = some (.cxx e)) (tinfo dest : Addr)
    : ∃ e' w', cxaInitPrimaryException ⟨b, 128⟩ tinfo dest w = .ok (⟨b, 0⟩, w')
      ∧ w'.heap b = some (.cxx e') ∧ e'.unwindHeader = ⟨exceptionClass, some .exceptionCleanup⟩
      ∧ w'.view = w.view.setKind b (some (.primary 0)) := by
  have hcxa : w.heap.cxa (Ptr.add ⟨b, 128⟩ (-128)) = .ok e := by
    exact Heap.cxa_of_cxx hb
  unfold cxaInitPrimaryException
  dsimp only
  rw [hcxa]
  refine ⟨_, _, rfl, Heap.set_self .., rfl, ?_⟩
  exact Process.view_setCxa_kind hb (CxaException.kind_eq_primary.mpr ⟨rfl, rfl⟩) rfl rfl

theorem cxaThrow_view (hb : w.heap b = some (.cxx e)) (i : Nat) (tinfo dest : Addr)
    : ∃ w', cxaThrow i ⟨b, 128⟩ tinfo dest w = .ok (⟨b, 96⟩, w')
      ∧ w'.view = (w.view.setKind b (some (.primary 1))).setThread i {
        w.threads i with uncaughtExceptions := (w.threads i).uncaughtExceptions + 1
      } := by
  rcases cxaInitPrimaryException_view hb tinfo dest with ⟨e', w₁, hinit, he', hheader, hview₁⟩
  have hthreads : w₁.threads = w.threads := congrArg View.threads hview₁
  have hset : (w₁.setCxa ⟨b, 0⟩ { e' with countWord := .referenceCount 1 }).heap b
      = some (.cxx { e' with countWord := .referenceCount 1 }) := Heap.set_self ..
  rcases throwException_view hset i with ⟨w₂, hthrow, hview₂⟩
  refine ⟨w₂, ?_, ?_⟩
  . unfold cxaThrow
    rw [hinit, Res.ok_bind]
    dsimp only
    rw [Heap.cxa_of_cxx he', Res.ok_bind]
    exact hthrow
  . have hkind : ({ e' with countWord := .referenceCount 1 } : CxaException).kind = .primary 1 :=
      CxaException.kind_eq_primary.mpr ⟨hheader, rfl⟩
    rw [hview₂, Process.view_setCxa_kind he' hkind rfl rfl, hview₁, View.setKind_setKind]
    simp only [Process.setCxa, hthreads]

theorem addReference_view (hb : w.heap.kind b = some (.primary n))
    : ∃ w', addReference ⟨b, 0⟩ w = .ok w'
      ∧ w'.view = w.view.setKind b (some (.primary (n + 1))) := by
  rcases Heap.primary_of_kind hb with ⟨e, he, hheader, hcount⟩
  unfold addReference
  rw [Heap.cxa_of_cxx he, Res.ok_bind, hcount]
  refine ⟨_, rfl, ?_⟩
  exact Process.view_setCxa_kind he (CxaException.kind_eq_primary.mpr ⟨hheader, rfl⟩) rfl rfl

theorem subReference_view (hb : w.heap b = some (.cxx e))
    (hkind : e.kind = .primary (n + 1))
    : ∃ w', subReference ⟨b, 0⟩ w = .ok (n, w')
      ∧ w'.heap b = some (.cxx { e with countWord := .referenceCount n })
      ∧ w'.view = w.view.setKind b (some (.primary n)) := by
  rcases CxaException.kind_eq_primary.mp hkind with ⟨hheader, hcount⟩
  unfold subReference
  rw [Heap.cxa_of_cxx hb, Res.ok_bind]
  dsimp only
  rw [hcount]
  have hdecrement : decrement 64 (n + 1) = n := by
    unfold decrement
    rw [if_neg (by omega)]
    omega
  dsimp only
  rw [hdecrement]
  refine ⟨_, rfl, Heap.set_self .., ?_⟩
  exact Process.view_setCxa_kind hb (CxaException.kind_eq_primary.mpr ⟨hheader, rfl⟩) rfl rfl

theorem freeException_view (hb : w.heap b = some (.cxx e))
    : ∃ w', freeException ⟨b, 0⟩ w = .ok w' ∧ w'.view = (w.view.free b).append [.freed ⟨b, 0⟩] := by
  unfold freeException
  rw [Heap.cxa_of_cxx hb]
  refine ⟨_, rfl, ?_⟩
  rw [Process.view_record, Process.view_free]

-- what happens to an exception that nothing refers to any more
def finalEvents (e : CxaException) (b : Nat) : List Event :=
  (if e.exceptionDestructor ≠ 0 then [.destroyed ⟨b, 0⟩] else []) ++ [.freed ⟨b, 0⟩]

theorem cxaFreeException_view (hb : w.heap b = some (.cxx e))
    : ∃ w', cxaFreeException ⟨b, 128⟩ w = .ok w'
      ∧ w'.view = (w.view.free b).append (finalEvents e b) := by
  have hcxa : w.heap.cxa (Ptr.add ⟨b, 128⟩ (-128)) = .ok e := by
    exact Heap.cxa_of_cxx hb
  unfold cxaFreeException finalEvents
  dsimp only
  rw [hcxa, Res.ok_bind]
  by_cases hdest : e.exceptionDestructor = 0
  . rw [if_neg (by simpa using hdest), if_neg (by simpa using hdest)]
    exact freeException_view hb
  . rw [if_pos hdest, if_pos hdest]
    have hb' : (w.record (.destroyed ⟨b, 0⟩)).heap b = some (.cxx e) := hb
    rcases freeException_view hb' with ⟨w', hfree, hview⟩
    refine ⟨w', hfree, ?_⟩
    rw [hview, Process.view_record, View.append_free, View.append_append]

namespace View

def dropReference (v : View) (e : CxaException) (p n : Nat) : View :=
  if n = 1 then
    (v.free p).append (finalEvents e p)
  else
    v.setKind p (some (.primary (n - 1)))

variable {v : View}

@[simp]
theorem dropReference_kind : (v.dropReference e p n).kind = dropKind v.kind p n := by
  unfold dropReference dropKind
  split <;> simp [free]

@[simp]
theorem dropReference_link
    : (v.dropReference e p n).link = if n = 1 then Function.update v.link p none else v.link := by
  unfold dropReference
  split <;> simp [free]

@[simp]
theorem dropReference_threads : (v.dropReference e p n).threads = v.threads := by
  unfold dropReference
  split <;> simp [free]

@[simp]
theorem dropReference_log
    : (v.dropReference e p n).log = v.log ++ if n = 1 then finalEvents e p else [] := by
  unfold dropReference
  split <;> simp [free]

theorem dropReference_link_of_ne (hb : b ≠ p)
    : (v.dropReference e p n).link b = v.link b := by
  rw [dropReference_link]
  split
  . rw [Function.update_of_ne hb]
  . rfl

end View

theorem releaseException_primary (hb : w.heap b = some (.cxx e)) (hkind : e.kind = .primary n)
    (hn : n ≠ 0) (depth : Nat)
    : ∃ w', releaseException (depth + 1) ⟨b, 0⟩ w = .ok w'
      ∧ w'.view = (w.view.append [.released ⟨b, 0⟩]).dropReference e b n := by
  rcases Nat.exists_eq_succ_of_ne_zero hn with ⟨m, rfl⟩
  have hcls : isDependentException e.unwindHeader.exceptionClass = false := by
    rw [(CxaException.kind_eq_primary.mp hkind).1]
    rfl
  have hb' : (w.record (.released ⟨b, 0⟩)).heap b = some (.cxx e) := hb
  rcases subReference_view hb' hkind with ⟨w₁, hsub, hb₁, hview₁⟩
  rw [Process.view_record] at hview₁
  unfold releaseException
  rw [Heap.tail_of_cxx hb, Res.ok_bind]
  dsimp only
  rw [if_neg (by simp [hcls]), hsub, Res.ok_bind]
  dsimp only
  unfold View.dropReference
  by_cases hm : m = 0
  . subst hm
    rw [if_pos rfl, if_pos rfl]
    rcases cxaFreeException_view hb₁ with ⟨w₂, hfree, hview₂⟩
    refine ⟨w₂, hfree, ?_⟩
    rw [hview₂, hview₁, View.setKind_free]
    rfl
  . rw [if_neg hm, if_neg (by omega)]
    exact ⟨w₁, rfl, hview₁⟩

theorem realExceptionFromException_primary {h : Heap} (hb : h b = some (.cxx e))
    (hkind : e.kind = .primary n) : realExceptionFromException h ⟨b, 0⟩ = .ok ⟨b, 0⟩ := by
  unfold realExceptionFromException
  rw [Heap.tail_of_cxx hb, Res.ok_bind, (CxaException.kind_eq_primary.mp hkind).1]
  rfl

theorem realExceptionFromException_dependent {h : Heap} (hd : h d = some (.cxx e))
    (hkind : e.kind = .dependent p) : realExceptionFromException h ⟨d, 0⟩ = .ok ⟨p, 0⟩ := by
  rcases CxaException.kind_eq_dependent.mp hkind with ⟨hheader, hcount⟩
  unfold realExceptionFromException
  rw [Heap.tail_of_cxx hd, Res.ok_bind, hheader, Heap.cxa_of_cxx hd, Res.ok_bind, hcount]
  rfl

theorem cxaFreeDependentException_view {e' : CxaException} (hd : w.heap d = some (.cxx e))
    (hkind : e.kind = .dependent p) (hp : w.heap p = some (.cxx e')) (hkind' : e'.kind = .primary n)
    (hn : n ≠ 0) (depth : Nat)
    : ∃ w', cxaFreeDependentException (depth + 2) ⟨d, 128⟩ w = .ok w'
      ∧ w'.view
          = (((w.view.append [.released ⟨p, 0⟩]).dropReference e' p n).free d).append
            [.freed ⟨d, 0⟩] := by
  rcases CxaException.kind_eq_dependent.mp hkind with ⟨hheader, hcount⟩
  have hne : d ≠ p := by
    rintro rfl
    rw [hp] at hd
    cases hd
    rw [hkind] at hkind'
    contradiction
  have hcxa : w.heap.cxa (Ptr.add ⟨d, 128⟩ (-128)) = .ok e := by
    exact Heap.cxa_of_cxx hd
  rcases releaseException_primary hp hkind' hn depth with ⟨w₁, hrelease, hview₁⟩
  have hlink : w₁.heap.link d = w.heap.link d := by
    rw [← Process.view_link, hview₁, View.dropReference_link_of_ne hne]
    rfl
  rw [Heap.link_of_cxx hd] at hlink
  rcases Heap.cxx_of_link hlink with ⟨e₁, hd₁, _⟩
  rcases freeException_view hd₁ with ⟨w₂, hfree, hview₂⟩
  refine ⟨w₂, ?_, ?_⟩
  . unfold cxaFreeDependentException
    dsimp only
    rw [hcxa, Res.ok_bind, hheader, hcount, if_neg (by simp [isDependentException]),
      if_pos (by simp), Ptr.add_mk]
    erw [realExceptionFromException_dependent hd hkind]
    rw [Res.ok_bind, hrelease, Res.ok_bind]
    exact hfree
  . rw [hview₂, hview₁]

theorem releaseException_dependent {e' : CxaException} (hd : w.heap d = some (.cxx e))
    (hkind : e.kind = .dependent p) (hp : w.heap p = some (.cxx e')) (hkind' : e'.kind = .primary n)
    (hn : n ≠ 0) (depth : Nat)
    : ∃ w', releaseException (depth + 3) ⟨d, 0⟩ w = .ok w'
      ∧ w'.view
          = (((w.view.append [.released ⟨d, 0⟩, .released ⟨p, 0⟩]).dropReference e' p n).free
            d).append [.freed ⟨d, 0⟩] := by
  have hd' : (w.record (.released ⟨d, 0⟩)).heap d = some (.cxx e) := hd
  have hp' : (w.record (.released ⟨d, 0⟩)).heap p = some (.cxx e') := hp
  rcases cxaFreeDependentException_view hd' hkind hp' hkind' hn depth with ⟨w', hfree, hview⟩
  refine ⟨w', ?_, ?_⟩
  . unfold releaseException
    rw [Heap.tail_of_cxx hd, Res.ok_bind]
    dsimp only
    rw [(CxaException.kind_eq_dependent.mp hkind).1, if_pos (by rfl)]
    exact hfree
  . rw [hview, Process.view_record, View.append_append]
    rfl

theorem cxaIncrementExceptionRefcount_view (hb : w.heap.kind b = some (.primary n))
    : ∃ w', cxaIncrementExceptionRefcount (some ⟨b, 128⟩) w = .ok w'
      ∧ w'.view = w.view.setKind b (some (.primary (n + 1))) := by
  rcases Heap.primary_of_kind hb with ⟨e, he, hheader, _⟩
  have hcxa : w.heap.cxa (Ptr.add ⟨b, 128⟩ (-128)) = .ok e := by
    exact Heap.cxa_of_cxx he
  rcases addReference_view hb with ⟨w', hadd, hview⟩
  refine ⟨w', ?_, hview⟩
  unfold cxaIncrementExceptionRefcount
  dsimp only
  rw [hcxa, Res.ok_bind, hheader, if_neg (by simp [isDependentException, exceptionClass,
    dependentExceptionClass])]
  exact hadd

theorem exceptionTypeAt_thrownObject (img : Image) {h : Heap} (hb : h b = some (.cxx e))
    : h.exceptionTypeAt img (exceptionFromPointer ⟨b, 128⟩)
        =
      .ok ((e.nextException.map img.addr).getD 0) := by
  unfold Heap.exceptionTypeAt exceptionFromPointer
  rw [Ptr.add_mk, if_pos (by rfl), Ptr.add_mk]
  erw [Heap.tail_of_cxx hb]
  rfl

theorem cxaRethrowPrimaryException_view (img : Image) (i : Nat) (hb : w.heap.kind b = some (.primary n))
    (hd : w.heap d = none)
    : ∃ w', cxaRethrowPrimaryException img i d (some ⟨b, 128⟩) w = .ok (some ⟨d, 96⟩, w')
      ∧ w'.view = (((w.view.setKind b (some (.primary (n + 1)))).setLink d
          (some (.cxx 0 none))).setKind d (some (.dependent b))).setThread i {
        w.threads i with uncaughtExceptions := (w.threads i).uncaughtExceptions + 1
      } := by
  have hne : b ≠ d := by
    rintro rfl
    simp [Heap.kind, hd] at hb
  let e₁ : CxaException := { CxaException.zero with countWord := .primaryException (some ⟨b, 128⟩) }
  let w₁ : Process :=
    ({ w with heap := w.heap.set d (.cxx .zero) } : Process).setCxa ⟨d, 0⟩ e₁
  have hview₁ : w₁.view = (w.view.setLink d (some (.cxx 0 none))).setKind d (some e₁.kind) := by
    rw [Process.view_setCxa, Process.view_set, View.setKind_setLink, View.setLink_setLink,
      View.setKind_setKind]
    rfl
  have hb₁ : w₁.heap.kind b = some (.primary n) := by
    rw [← Process.view_kind, hview₁, View.setKind_kind, Function.update_of_ne hne]
    exact hb
  rcases cxaIncrementExceptionRefcount_view hb₁ with ⟨w₂, hincrement, hview₂⟩
  have hb₂ : w₂.heap.kind b = some (.primary (n + 1)) := by
    rw [← Process.view_kind, hview₂, View.setKind_kind, Function.update_self]
  rcases Heap.primary_of_kind hb₂ with ⟨e₂, he₂, _⟩
  have htype := exceptionTypeAt_thrownObject img he₂
  generalize (e₂.nextException.map img.addr).getD 0 = type at htype
  let e₃ : CxaException := {
    e₁ with
    exceptionType := type
    unwindHeader := ⟨dependentExceptionClass, some .dependentExceptionCleanup⟩
  }
  have hkind₃ : e₃.kind = .dependent b := by
    exact CxaException.kind_eq_dependent.mpr ⟨rfl, rfl⟩
  have hset : (w₂.setCxa ⟨d, 0⟩ e₃).heap d = some (.cxx e₃) := Heap.set_self ..
  rcases throwException_view hset i with ⟨w₃, hthrow, hview₃⟩
  refine ⟨w₃, ?_, ?_⟩
  . unfold cxaRethrowPrimaryException
    dsimp only
    rw [cxaAllocateException_of_none hd, Res.ok_bind]
    dsimp only
    have hcxa : (w.heap.set d (.cxx .zero)).cxa (Ptr.add ⟨d, 128⟩ (-128)) = .ok .zero := by
      exact Heap.cxa_of_cxx (Heap.set_self ..)
    rw [hcxa, Res.ok_bind]
    erw [hincrement]
    rw [Res.ok_bind, htype, Res.ok_bind]
    erw [hthrow]
    rfl
  . have hthreads : (w₂.setCxa ⟨d, 0⟩ e₃).threads = w.threads := congrArg View.threads hview₂
    rw [hview₃, hthreads, Process.view_setCxa, hkind₃, hview₂, hview₁]
    congr 1
    rw [View.setKind_comm hne.symm, View.setKind_setLink, View.setKind_setKind,
      View.setKind_setLink, View.setLink_setLink]
    rfl

theorem cxaCurrentPrimaryException_none (hcaught : (w.threads i).caughtExceptions = none)
    : cxaCurrentPrimaryException i w = .ok (none, w) := by
  unfold cxaCurrentPrimaryException
  rw [hcaught]

theorem cxaCurrentPrimaryException_foreign {header : UnwindException} {beyond : CxaTail}
    (hcaught : (w.threads i).caughtExceptions = some ⟨b, 0⟩)
    (hb : w.heap b = some (.foreign header beyond))
    : cxaCurrentPrimaryException i w = .error .fault := by
  have htail : w.heap.tail ⟨b, 0⟩ = .ok beyond := by
    simp [Heap.tail, hb]
  have hcxa : w.heap.cxa ⟨b, 0⟩ = .error .fault := by
    simp [Heap.cxa, hb]
  unfold cxaCurrentPrimaryException realExceptionFromException addReference
  rw [hcaught]
  dsimp only
  rw [htail, Res.ok_bind]
  split
  . rw [Res.pure_eq_ok, Res.ok_bind, hcxa]
    rfl
  . rw [hcxa]
    rfl

theorem cxaCurrentPrimaryException_view (hcaught : (w.threads i).caughtExceptions = some ⟨b, 0⟩)
    (hreal : realExceptionFromException w.heap ⟨b, 0⟩ = .ok ⟨p, 0⟩)
    (hp : w.heap.kind p = some (.primary n))
    : ∃ w', cxaCurrentPrimaryException i w = .ok (some ⟨p, 128⟩, w')
      ∧ w'.view = w.view.setKind p (some (.primary (n + 1))) := by
  rcases addReference_view hp with ⟨w', hadd, hview⟩
  refine ⟨w', ?_, hview⟩
  unfold cxaCurrentPrimaryException
  rw [hcaught]
  dsimp only
  rw [hreal, Res.ok_bind, hadd]
  rfl

theorem cxaRethrow_cxx (hcaught : (w.threads i).caughtExceptions = some ⟨b, 0⟩)
    (htag : (w.threads i).foreignExceptionState = .none) (hb : w.heap b = some (.cxx e))
    (hpos : 0 < e.handlerCount)
    : ∃ w', cxaRethrow i w = .ok (⟨b, 96⟩, w')
      ∧ w'.view = (w.view.setLink b (some (.cxx (-e.handlerCount) e.nextException))).setThread i {
        w.threads i with uncaughtExceptions := (w.threads i).uncaughtExceptions + 1
      } := by
  unfold cxaRethrow
  dsimp only
  rw [hcaught]
  dsimp only
  rw [if_neg (by simpa using htag), Heap.tail_of_cxx hb, Res.ok_bind, if_pos hpos]
  refine ⟨_, rfl, ?_⟩
  have hb' (ti : CxaThreadInfo) : (w.setThread i ti).heap b = some (.cxx e) := hb
  rw [Process.view_setTail (hb' _) (by rfl), Process.view_setThread]
  rfl

theorem cxaRethrow_assertion (hcaught : (w.threads i).caughtExceptions = some ⟨b, 0⟩)
    (htag : (w.threads i).foreignExceptionState = .none) (hb : w.heap b = some (.cxx e))
    (hpos : ¬ 0 < e.handlerCount) : cxaRethrow i w = .error .assertion := by
  unfold cxaRethrow
  dsimp only
  rw [hcaught]
  dsimp only
  rw [if_neg (by simpa using htag), Heap.tail_of_cxx hb, Res.ok_bind, if_neg hpos]

theorem cxaRethrow_foreign (hcaught : (w.threads i).caughtExceptions = some ⟨b, 0⟩)
    (htag : (w.threads i).foreignExceptionState ≠ .none)
    : cxaRethrow i w
        =
      .ok (⟨b, 0⟩, w.setThread i { w.threads i with foreignExceptionState := .rethrown }) := by
  unfold cxaRethrow
  dsimp only
  rw [hcaught]
  dsimp only
  rw [if_pos htag]

theorem caughtTail_handlerCount (ti : CxaThreadInfo) (t : CxaTail)
    : (caughtTail ti t).handlerCount
        =
      if t.handlerCount < 0 then -t.handlerCount + 1 else t.handlerCount + 1 := by
  by_cases hzero : t.handlerCount = 0
  . simp [caughtTail, hzero]
  . by_cases hneg : t.handlerCount < 0 <;> simp [caughtTail, hzero, hneg]

theorem caughtTail_nextException (ti : CxaThreadInfo) (t : CxaTail)
    : (caughtTail ti t).nextException
        =
      if t.handlerCount = 0 then ti.caughtExceptions else t.nextException := by
  by_cases hzero : t.handlerCount = 0
  . simp [caughtTail, hzero]
  . by_cases hneg : t.handlerCount < 0 <;> simp [caughtTail, hzero, hneg]

theorem caughtTail_unwindHeader (ti : CxaThreadInfo) (t : CxaTail)
    : (caughtTail ti t).unwindHeader = t.unwindHeader := by
  by_cases hzero : t.handlerCount = 0
  . simp [caughtTail, hzero]
  . by_cases hneg : t.handlerCount < 0 <;> simp [caughtTail, hzero, hneg]

theorem unwindException_of_cxx {h : Heap} (hb : h b = some (.cxx e))
    : h.unwindException ⟨b, 96⟩ = .ok e.unwindHeader := by
  simp [Heap.unwindException, hb]

theorem unwindException_of_foreign {h : Heap} {header : UnwindException} {beyond : CxaTail}
    (hb : h b = some (.foreign header beyond)) : h.unwindException ⟨b, 0⟩ = .ok header := by
  simp [Heap.unwindException, hb]

theorem cxaBeginCatch_cxx (img : Image) (i : Nat) (hb : w.heap b = some (.cxx e))
    (hcls : isCxxException e.unwindHeader.exceptionClass)
    : ∃ e' w', cxaBeginCatch img i ⟨b, 96⟩ w = .ok (e.adjustedPtr, w')
      ∧ w'.heap b = some (.cxx e') ∧ e'.unwindHeader = e.unwindHeader
      ∧ w'.view = (w.view.setLink b (some (.cxx
          (if e.handlerCount < 0 then -e.handlerCount + 1 else e.handlerCount + 1)
          (if e.handlerCount = 0 then (w.threads i).caughtExceptions else e.nextException)))).setThread
        i {
          w.threads i with
          uncaughtExceptions := decrement 32 (w.threads i).uncaughtExceptions
          caughtExceptions :=
            if e.handlerCount = 0 then some ⟨b, 0⟩ else (w.threads i).caughtExceptions
          foreignExceptionState := .none
        } := by
  have htail := caughtTail_unwindHeader (w.threads i) e.toCxaTail
  unfold cxaBeginCatch
  dsimp only
  rw [unwindException_of_cxx hb, Res.ok_bind, if_pos hcls]
  simp only [exceptionFromPointer, Ptr.add_mk, Int.reduceAdd]
  rw [Heap.tail_of_cxx hb, Res.ok_bind]
  refine ⟨{ e with toCxaTail := caughtTail (w.threads i) e.toCxaTail }, _, rfl, ?_, htail, ?_⟩
  . simp only [Process.setThread, Process.setTail]
    rw [Heap.setTail_of_cxx hb, Heap.set_self]
  . rw [Process.view_setThread, Process.view_setTail hb htail, caughtTail_handlerCount,
      caughtTail_nextException]

theorem cxaBeginCatch_foreign {header : UnwindException} {beyond : CxaTail}
    (hb : w.heap b = some (.foreign header beyond))
    (hcls : isCxxException header.exceptionClass = false)
    (hcaught : (w.threads i).caughtExceptions = none)
    : cxaBeginCatch img i ⟨b, 0⟩ w
        =
      .ok (img.addr ⟨b, 32⟩, w.setThread i {
        w.threads i with
        caughtExceptions := some ⟨b, 0⟩
        foreignExceptionState := .caught
      }) := by
  unfold cxaBeginCatch
  dsimp only
  rw [unwindException_of_foreign hb, Res.ok_bind, if_neg (by simp [hcls]), if_neg (by simp [hcaught])]
  rfl

theorem cxaBeginCatch_foreign_terminate {header : UnwindException} {beyond : CxaTail}
    (hb : w.heap b = some (.foreign header beyond))
    (hcls : isCxxException header.exceptionClass = false)
    (hcaught : (w.threads i).caughtExceptions ≠ none)
    : cxaBeginCatch img i ⟨b, 0⟩ w = .error .terminate := by
  unfold cxaBeginCatch
  dsimp only
  rw [unwindException_of_foreign hb, Res.ok_bind, if_neg (by simp [hcls]), if_pos hcaught]

-- apart from the function that it calls, this is `__cxa_begin_catch`
theorem cxaCallUnexpected_view {exception : Ptr} {v : View}
    (hcatch : ∃ a w', cxaBeginCatch img i exception w = .ok (a, w') ∧ w'.view = v
      ∧ ∃ header, w'.heap.unwindException exception = .ok header
        ∧ (header.exceptionClass = exceptionClass
          → ∃ t, w'.heap.tail (exceptionFromPointer exception) = .ok t))
    : ∃ call w', cxaCallUnexpected img i exception w = .ok (call, w') ∧ w'.view = v := by
  rcases hcatch with ⟨a, w', hcatch, hview, header, hheader, htail⟩
  unfold cxaCallUnexpected
  rw [hcatch, Res.ok_bind]
  dsimp only
  rw [hheader, Res.ok_bind]
  split
  . next hcls =>
    rcases htail hcls with ⟨t, ht⟩
    rw [ht]
    exact ⟨_, w', rfl, hview⟩
  . exact ⟨_, w', rfl, hview⟩

-- what `__cxa_end_catch` does to the header before it releases the exception
def endCatchCount (n : Int) : Int :=
  if n < 0 then n + 1 else n - 1

theorem cxaEndCatch_keep (hcaught : (w.threads i).caughtExceptions = some ⟨b, 0⟩)
    (htag : (w.threads i).foreignExceptionState = .none) (hb : w.heap b = some (.cxx e))
    (hkeep : e.handlerCount ≠ 1)
    : ∃ w', cxaEndCatch i w = .ok w'
      ∧ w'.view = (w.view.setLink b (some (.cxx (endCatchCount e.handlerCount)
          e.nextException))).setThread i {
        w.threads i with
        caughtExceptions :=
          if endCatchCount e.handlerCount = 0 then e.nextException
          else (w.threads i).caughtExceptions
      } := by
  unfold cxaEndCatch endCatchCount
  dsimp only
  rw [hcaught]
  dsimp only
  rw [if_neg (by simpa using htag), Heap.tail_of_cxx hb, Res.ok_bind]
  by_cases hzero : (if e.handlerCount < 0 then e.handlerCount + 1 else e.handlerCount - 1) = 0
  . have hneg : e.handlerCount < 0 := by
      split at hzero <;> omega
    rw [if_pos hzero, if_pos hzero, if_neg (by simpa using hneg)]
    refine ⟨_, rfl, ?_⟩
    rw [Process.view_setThread, Process.view_setTail hb (by rfl)]
  . rw [if_neg hzero, if_neg hzero]
    refine ⟨_, rfl, ?_⟩
    rw [Process.view_setTail hb (by rfl), View.setThread_eq_self]
    rw [← hcaught]
    rfl

theorem cxaEndCatch_delete (hcaught : (w.threads i).caughtExceptions = some ⟨b, 0⟩)
    (htag : (w.threads i).foreignExceptionState = .none) (hb : w.heap b = some (.cxx e))
    (hdelete : e.handlerCount = 1)
    : ∃ w₁, cxaEndCatch i w = releaseException 4 ⟨b, 0⟩ w₁
      ∧ w₁.heap = w.heap.set b (.cxx { e with handlerCount := 0 })
      ∧ w₁.view = (w.view.setLink b (some (.cxx 0 e.nextException))).setThread i {
        w.threads i with caughtExceptions := e.nextException
      } := by
  unfold cxaEndCatch
  dsimp only
  rw [hcaught]
  dsimp only
  rw [if_neg (by simpa using htag), Heap.tail_of_cxx hb, Res.ok_bind]
  rw [if_pos (by simp [hdelete]), if_pos (by simp [hdelete])]
  refine ⟨_, rfl, ?_, ?_⟩
  . simp only [hdelete, Process.setThread, Process.setTail]
    rw [Heap.setTail_of_cxx hb]
    rfl
  . rw [Process.view_setThread, Process.view_setTail hb (by rfl)]
    simp [hdelete]

theorem cxaEndCatch_foreign_caught {header : UnwindException} {beyond : CxaTail}
    (hcaught : (w.threads i).caughtExceptions = some ⟨b, 0⟩)
    (htag : (w.threads i).foreignExceptionState = .caught)
    (hb : w.heap b = some (.foreign header beyond))
    (hcleanup : header.exceptionCleanup = none ∨ ∃ fn, header.exceptionCleanup = some (.foreign fn))
    : ∃ w', cxaEndCatch i w = .ok w'
      ∧ (header.exceptionCleanup = none ∧ w'.view = w.view.setThread i {
          w.threads i with caughtExceptions := none, foreignExceptionState := .none
        }
        ∨ header.exceptionCleanup ≠ none ∧ w'.view = ((w.view.free b).setThread i {
          w.threads i with caughtExceptions := none, foreignExceptionState := .none
        }).append [.cleanedUp ⟨b, 0⟩]) := by
  unfold cxaEndCatch
  dsimp only
  rw [hcaught]
  dsimp only
  rw [if_pos (by simp [htag])]
  unfold endCatchForeign callExceptionCleanup
  dsimp only
  rw [if_pos (by simp [htag]), unwindException_of_foreign hb, Res.ok_bind]
  rcases hcleanup with hnone | ⟨fn, hfn⟩
  . rw [hnone]
    exact ⟨_, rfl, .inl ⟨rfl, Process.view_setThread ..⟩⟩
  . rw [hfn]
    refine ⟨_, rfl, .inr ⟨by simp, ?_⟩⟩
    rw [Process.view_setThread, Process.view_record, Process.view_free]
    rfl

theorem cxaEndCatch_foreign_rethrown (hcaught : (w.threads i).caughtExceptions = some ⟨b, 0⟩)
    (htag : (w.threads i).foreignExceptionState = .rethrown)
    : cxaEndCatch i w
        =
      .ok (w.setThread i {
        w.threads i with caughtExceptions := none, foreignExceptionState := .none
      }) := by
  unfold cxaEndCatch
  dsimp only
  rw [hcaught]
  dsimp only
  rw [if_pos (by simp [htag])]
  unfold endCatchForeign
  dsimp only
  rw [if_neg (by simp [htag])]

end LibCxxRt
