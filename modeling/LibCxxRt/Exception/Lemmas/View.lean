import LibCxxRt.Exception.Invariant
import LibCxxRt.Exception.Lemmas.Heap

/-!
This module contains the lemmas about what a write to the heap or to a thread does to the view of the
process, and about what the view tells of the heap.
-/

namespace LibCxxRt

namespace CxaException

variable {e : CxaException} {n p : Nat}

theorem kind_eq_primary : e.kind = .primary n
    ↔ e.unwindHeader = ⟨exceptionClass, some .exceptionCleanup⟩
      ∧ e.countWord = .referenceCount n := by
  unfold kind
  split
  . next hheader =>
    split
    . next m hcount => simp [hheader, hcount]
    . next hcount => simp [hcount]
  . next hheader =>
    split
    . split <;> simp [hheader]
    . simp [hheader]

theorem kind_eq_dependent : e.kind = .dependent p
    ↔ e.unwindHeader = ⟨dependentExceptionClass, some .dependentExceptionCleanup⟩
      ∧ e.countWord = .primaryException (some ⟨p, 128⟩) := by
  unfold kind
  split
  . next hheader =>
    have hne : e.unwindHeader ≠ ⟨dependentExceptionClass, some .dependentExceptionCleanup⟩ := by
      simp [hheader]
    split <;> simp [hne]
  . split
    . next hheader =>
      split
      . next q hcount => simp [hheader, hcount]
      . next hnot =>
        simp only [reduceCtorEq, false_iff, not_and]
        intro _ hcount
        exact hnot p hcount
    . next hheader => simp [hheader]

theorem kind_ne_foreign : e.kind ≠ .foreign := by
  unfold kind
  split
  . split <;> simp
  . split
    . split <;> simp
    . simp

end CxaException

namespace Obj

-- an exception that another runtime raises
theorem kind_foreign {cls : BitVec 64} {cleanup : Option Addr} {beyond : CxaTail}
    (hcls : ¬ isCxxException cls) : (foreign ⟨cls, cleanup.map .foreign⟩ beyond).kind = .foreign := by
  unfold kind
  dsimp only
  rw [if_neg hcls]
  cases cleanup <;> rfl

end Obj

namespace Heap

variable {h : Heap} {b : Nat} {o : Obj} {e : CxaException}

@[simp]
theorem link_set : (h.set b o).link = Function.update h.link b (some o.link) := by
  funext b'
  by_cases hb : b' = b
  . simp [link, hb]
  . simp [link, hb, set_of_ne]

@[simp]
theorem kind_set : (h.set b o).kind = Function.update h.kind b (some o.kind) := by
  funext b'
  by_cases hb : b' = b
  . simp [kind, hb]
  . simp [kind, hb, set_of_ne]

@[simp]
theorem link_free : (h.free b).link = Function.update h.link b none := by
  funext b'
  by_cases hb : b' = b
  . simp [link, hb]
  . simp [link, hb, free_of_ne]

@[simp]
theorem kind_free : (h.free b).kind = Function.update h.kind b none := by
  funext b'
  by_cases hb : b' = b
  . simp [kind, hb]
  . simp [kind, hb, free_of_ne]

theorem link_of_cxx (hb : h b = some (.cxx e))
    : h.link b = some (.cxx e.handlerCount e.nextException) := by
  unfold link
  rw [hb]
  rfl

theorem kind_of_cxx (hb : h b = some (.cxx e)) : h.kind b = some e.kind := by
  unfold kind
  rw [hb]
  rfl

theorem link_eq_none_iff : h.link b = none ↔ h b = none := by
  simp [link]

theorem kind_eq_none_iff : h.kind b = none ↔ h b = none := by
  simp [kind]

theorem cxx_of_link {n : Int} {next : Option Ptr} (hb : h.link b = some (.cxx n next))
    : ∃ e, h b = some (.cxx e) ∧ e.handlerCount = n ∧ e.nextException = next := by
  unfold link at hb
  rcases Option.map_eq_some_iff.mp hb with ⟨o, ho, hlink⟩
  cases o with
  | cxx e =>
    simp only [Obj.link, Link.cxx.injEq] at hlink
    exact ⟨e, ho, hlink⟩
  | foreign header beyond => simp [Obj.link] at hlink

theorem foreign_of_link (hb : h.link b = some .foreign)
    : ∃ header beyond, h b = some (.foreign header beyond) := by
  unfold link at hb
  rcases Option.map_eq_some_iff.mp hb with ⟨o, ho, hlink⟩
  cases o with
  | cxx e => simp [Obj.link] at hlink
  | foreign header beyond => exact ⟨header, beyond, ho⟩

theorem isForeign_of_cxx {n : Int} {next : Option Ptr} (hb : h.link b = some (.cxx n next))
    : h.isForeign b = false := by
  rcases cxx_of_link hb with ⟨e, he, _⟩
  unfold isForeign
  rw [he]

theorem isForeign_of_foreign (hb : h.link b = some .foreign) : h.isForeign b := by
  rcases foreign_of_link hb with ⟨header, beyond, hobj⟩
  unfold isForeign
  rw [hobj]

theorem primary_of_kind {n : Nat} (hb : h.kind b = some (.primary n))
    : ∃ e, h b = some (.cxx e) ∧ e.unwindHeader = ⟨exceptionClass, some .exceptionCleanup⟩
      ∧ e.countWord = .referenceCount n := by
  unfold kind at hb
  rcases Option.map_eq_some_iff.mp hb with ⟨o, ho, hkind⟩
  cases o with
  | cxx e => exact ⟨e, ho, CxaException.kind_eq_primary.mp hkind⟩
  | foreign header beyond =>
    unfold Obj.kind at hkind
    dsimp only at hkind
    split at hkind
    . contradiction
    . split at hkind <;> contradiction

theorem dependent_of_kind {p : Nat} (hb : h.kind b = some (.dependent p))
    : ∃ e, h b = some (.cxx e)
      ∧ e.unwindHeader = ⟨dependentExceptionClass, some .dependentExceptionCleanup⟩
      ∧ e.countWord = .primaryException (some ⟨p, 128⟩) := by
  unfold kind at hb
  rcases Option.map_eq_some_iff.mp hb with ⟨o, ho, hkind⟩
  cases o with
  | cxx e => exact ⟨e, ho, CxaException.kind_eq_dependent.mp hkind⟩
  | foreign header beyond =>
    unfold Obj.kind at hkind
    dsimp only at hkind
    split at hkind
    . contradiction
    . split at hkind <;> contradiction

-- an object that is ready to be thrown is of the kind that its link suggests
theorem ready_of_cxx (hready : h.kind b ≠ some .other) (hb : h b = some (.cxx e))
    : (∃ n, h.kind b = some (.primary n)) ∨ ∃ p, h.kind b = some (.dependent p) := by
  rw [kind_of_cxx hb] at hready ⊢
  cases hkind : e.kind with
  | primary n => exact .inl ⟨n, rfl⟩
  | dependent p => exact .inr ⟨p, rfl⟩
  | foreign => exact absurd hkind CxaException.kind_ne_foreign
  | other => simp [hkind] at hready

theorem foreign_of_kind (hb : h.kind b = some .foreign)
    : ∃ header beyond, h b = some (.foreign header beyond)
      ∧ isCxxException header.exceptionClass = false
      ∧ (header.exceptionCleanup = none
        ∨ ∃ fn, header.exceptionCleanup = some (.foreign fn)) := by
  unfold kind at hb
  rcases Option.map_eq_some_iff.mp hb with ⟨o, ho, hkind⟩
  cases o with
  | cxx e => exact absurd hkind CxaException.kind_ne_foreign
  | foreign header beyond =>
    refine ⟨header, beyond, ho, ?_⟩
    unfold Obj.kind at hkind
    dsimp only at hkind
    split at hkind
    . contradiction
    . next hcls =>
      refine ⟨by simpa using hcls, ?_⟩
      split at hkind
      . next heq => exact .inl heq
      . next fn heq => exact .inr ⟨fn, heq⟩
      . contradiction

theorem ready_of_foreign {header : UnwindException} {beyond : CxaTail}
    (hready : h.kind b ≠ some .other) (hb : h b = some (.foreign header beyond))
    : h.kind b = some .foreign := by
  unfold kind at hready ⊢
  rw [hb] at hready ⊢
  simp only [Option.map_some, Obj.kind] at hready ⊢
  split at hready
  . contradiction
  . next hcls =>
    rw [if_neg hcls]
    split at hready
    . rfl
    . rfl
    . contradiction

end Heap

namespace View

variable {v : View} {b : Nat}

theorem setLink_eq_self {o : Option Link} (hb : v.link b = o) : v.setLink b o = v := by
  subst hb
  simp [setLink]

theorem setKind_eq_self {o : Option Kind} (hb : v.kind b = o) : v.setKind b o = v := by
  subst hb
  simp [setKind]

@[simp]
theorem setKind_setKind {o o' : Option Kind} : (v.setKind b o).setKind b o' = v.setKind b o' := by
  simp [setKind]

@[simp]
theorem setLink_setLink {o o' : Option Link} : (v.setLink b o).setLink b o' = v.setLink b o' := by
  simp [setLink]

theorem setThread_eq_self {i : Nat} {ti : CxaThreadInfo} (hi : v.threads i = ti)
    : v.setThread i ti = v := by
  subst hi
  simp [setThread]

theorem setKind_comm {b' : Nat} {o o' : Option Kind} (hb : b ≠ b')
    : (v.setKind b o).setKind b' o' = (v.setKind b' o').setKind b o := by
  simp [setKind, Function.update_comm hb]

-- links and kinds are independent of each other
theorem setKind_setLink {b' : Nat} {o : Option Kind} {o' : Option Link}
    : (v.setKind b o).setLink b' o' = (v.setLink b' o').setKind b o := by
  rfl

@[simp]
theorem append_append {events events' : List Event}
    : (v.append events).append events' = v.append (events ++ events') := by
  simp [append]

@[simp]
theorem append_setThread {events : List Event} {i : Nat} {ti : CxaThreadInfo}
    : (v.append events).setThread i ti = (v.setThread i ti).append events := by
  rfl

@[simp]
theorem append_setLink {events : List Event} {o : Option Link}
    : (v.append events).setLink b o = (v.setLink b o).append events := by
  rfl

@[simp]
theorem append_setKind {events : List Event} {o : Option Kind}
    : (v.append events).setKind b o = (v.setKind b o).append events := by
  rfl

@[simp]
theorem append_free {events : List Event} : (v.append events).free b = (v.free b).append events := by
  rfl

@[simp]
theorem setKind_free {o : Option Kind} : (v.setKind b o).free b = v.free b := by
  apply View.ext <;> simp [free]

end View

namespace Process

variable {w : Process} {i b : Nat} {e : CxaException}

@[simp]
theorem view_setThread (w : Process) (i : Nat) (ti : CxaThreadInfo)
    : (w.setThread i ti).view = w.view.setThread i ti := by
  apply View.ext
  . rfl
  . rfl
  . funext j
    simp [setThread, Function.update_apply]
  . rfl

@[simp]
theorem view_record (w : Process) (ev : Event) : (w.record ev).view = w.view.append [ev] := by
  rfl

theorem view_set (w : Process) (b : Nat) (o : Obj)
    : ({ w with heap := w.heap.set b o } : Process).view
        =
      (w.view.setLink b (some o.link)).setKind b (some o.kind) := by
  apply View.ext <;> simp

theorem view_free (w : Process) (b : Nat)
    : ({ w with heap := w.heap.free b } : Process).view = w.view.free b := by
  apply View.ext <;> simp [View.free]

theorem view_setCxa (w : Process) (b : Nat) (o : Int) (e : CxaException)
    : (w.setCxa ⟨b, o⟩ e).view
        =
      (w.view.setLink b (some (.cxx e.handlerCount e.nextException))).setKind b (some e.kind) := by
  exact w.view_set b (.cxx e)

theorem view_setCxa_kind (hb : w.heap b = some (.cxx e)) {e' : CxaException} {k : Kind}
    (hkind : e'.kind = k) (hcount : e'.handlerCount = e.handlerCount)
    (hnext : e'.nextException = e.nextException) : (w.setCxa ⟨b, 0⟩ e').view = w.view.setKind b (some k) := by
  rw [view_setCxa, hcount, hnext, hkind, View.setLink_eq_self]
  exact Heap.link_of_cxx hb

-- the header that the unwinder knows stays the same
theorem view_setTail (hb : w.heap b = some (.cxx e)) {t : CxaTail}
    (ht : t.unwindHeader = e.unwindHeader)
    : (w.setTail ⟨b, 0⟩ t).view
        =
      w.view.setLink b (some (.cxx t.handlerCount t.nextException)) := by
  have hkind : ({ e with toCxaTail := t } : CxaException).kind = e.kind := by
    simp [CxaException.kind, ht]
  have hset : w.setTail ⟨b, 0⟩ t = w.setCxa ⟨b, 0⟩ { e with toCxaTail := t } := by
    unfold setTail
    rw [Heap.setTail_of_cxx hb]
    rfl
  rw [hset, view_setCxa, hkind]
  apply View.setKind_eq_self
  exact Heap.kind_of_cxx hb

end Process

end LibCxxRt
