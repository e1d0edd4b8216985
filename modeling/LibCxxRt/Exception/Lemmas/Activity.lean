import LibCxxRt.Exception.Invariant

/-!
This module contains the lemmas about the activities of a thread: what each of the operations does to
their nesting, to the handler counts and to the stack of caught exceptions.
-/

namespace LibCxxRt

open Util

section

variable {x y : Exc} {c : List Activity}

@[simp]
theorem handlers_nil : handlers [] = [] := by
  rfl

@[simp]
theorem handlers_handler : handlers (.handler x :: c) = x :: handlers c := by
  rfl

@[simp]
theorem handlers_unwinding : handlers (.unwinding x :: c) = handlers c := by
  rfl

@[simp]
theorem inFlight_nil : inFlight [] = [] := by
  rfl

@[simp]
theorem inFlight_handler : inFlight (.handler x :: c) = inFlight c := by
  rfl

@[simp]
theorem inFlight_unwinding : inFlight (.unwinding x :: c) = x :: inFlight c := by
  rfl

@[simp]
theorem excs_nil : excs [] = [] := by
  rfl

@[simp]
theorem excs_handler : excs (.handler x :: c) = x :: excs c := by
  rfl

@[simp]
theorem excs_unwinding : excs (.unwinding x :: c) = x :: excs c := by
  rfl

theorem mem_excs_iff : x ∈ excs c ↔ x ∈ handlers c ∨ x ∈ inFlight c := by
  induction c with
  | nil => simp
  | cons a c ih =>
    cases a with
    | handler y => simp [ih, or_assoc]
    | unwinding y => simp [ih, or_left_comm]

theorem mem_excs_of_head (hhead : (handlers c).head? = some x) : x ∈ excs c := by
  rw [mem_excs_iff]
  exact .inl (List.mem_of_mem_head? hhead)

theorem Nested.grouped (hc : Nested c) : Grouped (handlers c) := by
  induction c with
  | nil => trivial
  | cons a c ih =>
    rcases hc with ⟨hc, htop⟩
    cases a with
    | handler x => exact ⟨ih hc, htop.innermost⟩
    | unwinding x => exact ih hc

theorem Nested.head?_caughtStack (hc : Nested c) : (caughtStack c).head? = (handlers c).head? := by
  exact hc.grouped.head?_dedup

@[simp]
theorem caughtStack_unwinding : caughtStack (.unwinding x :: c) = caughtStack c := by
  rfl

theorem caughtStack_of_mem (hx : x ∈ handlers c) : caughtStack (.handler x :: c) = caughtStack c := by
  exact List.dedup_cons_of_mem hx

theorem caughtStack_of_not_mem (hx : x ∉ handlers c)
    : caughtStack (.handler x :: c) = x :: caughtStack c := by
  exact List.dedup_cons_of_notMem hx

theorem mem_caughtStack : x ∈ caughtStack c ↔ x ∈ handlers c := by
  exact List.mem_dedup

theorem caughtStack_eq_nil : caughtStack c = [] ↔ handlers c = [] := by
  simp [caughtStack]

theorem uncaught_handler : uncaught (.handler x :: c) = uncaught c := by
  rfl

theorem uncaught_unwinding
    : uncaught (.unwinding x :: c) = uncaught c + if x.isForeign then 0 else 1 := by
  unfold uncaught
  rw [inFlight_unwinding, List.countP_cons]
  cases x.isForeign <;> rfl

theorem handlerCount_unwinding_self
    : handlerCount (.unwinding x :: c) x = -((handlers c).count x : Int) := by
  simp [handlerCount]

theorem handlerCount_unwinding_of_ne (hy : y ≠ x)
    : handlerCount (.unwinding x :: c) y = handlerCount c y := by
  simp [handlerCount, hy]

theorem handlerCount_handler_of_ne (hy : y ≠ x)
    : handlerCount (.handler x :: c) y = handlerCount c y := by
  simp [handlerCount, hy.symm]

theorem handlerCount_handler_self (hx : x ∉ inFlight c)
    : handlerCount (.handler x :: c) x = (handlers c).count x + 1 := by
  simp [handlerCount, hx]

theorem handlerCount_of_not_mem (hx : x ∉ inFlight c)
    : handlerCount c x = (handlers c).count x := by
  simp [handlerCount, hx]

theorem handlerCount_of_mem (hx : x ∈ inFlight c)
    : handlerCount c x = -((handlers c).count x : Int) := by
  simp [handlerCount, hx]

theorem OnTop.not_mem_inFlight {a : Activity} (ha : OnTop a c) (hcxx : a.exc.isForeign = false)
    : a.exc ∉ inFlight c := by
  intro hmem
  have hforeign := (ha.raisedAgain hmem).2.1
  rw [hcxx] at hforeign
  contradiction

theorem OnTop.not_mem_inFlight_of_handler (hx : OnTop (.handler x) c) : x ∉ inFlight c := by
  intro hmem
  have hunwinding := (hx.raisedAgain hmem).1
  contradiction

-- a new exception fits on top
theorem OnTop.of_not_mem {a : Activity} (ha : a.exc ∉ excs c)
    (hforeign : ∀ x, a = .handler x → x.isForeign → handlers c = []) : OnTop a c := by
  rw [mem_excs_iff, not_or] at ha
  constructor
  . intro hmem
    exact absurd hmem ha.1
  . intro hmem
    exact absurd hmem ha.2
  . exact hforeign

theorem Nested.beginCatch (hc : Nested (.unwinding x :: c))
    (hforeign : x.isForeign → handlers c = []) : Nested (.handler x :: c) := by
  rcases hc with ⟨hc, htop⟩
  refine ⟨hc, htop.innermost, ?_, ?_⟩
  . intro hmem
    have hx := htop.raisedAgain hmem
    have hnil := hforeign hx.2.1
    have hhandlers : x ∈ handlers c := hx.2.2
    rw [hnil] at hhandlers
    simp at hhandlers
  . intro y hy hyforeign
    cases hy
    exact hforeign hyforeign

theorem Nested.endCatchUnwinding (hc : Nested (.unwinding x :: .handler y :: c))
    : Nested (.unwinding x :: c) := by
  rcases hc with ⟨⟨hc, hy⟩, hx⟩
  have hinnermost : x ∈ handlers c → x = y := by
    intro hmem
    have hhead := hx.innermost (List.mem_cons_of_mem y hmem)
    simpa [Activity.exc, eq_comm] using hhead
  refine ⟨hc, ?_, ?_, by simp⟩
  . intro hmem
    have heq := hinnermost hmem
    subst heq
    exact hy.innermost hmem
  . intro hmem
    have hforeign := hx.raisedAgain hmem
    refine ⟨rfl, hforeign.2.1, ?_⟩
    have hhandlers : x ∈ y :: handlers c := hforeign.2.2
    cases List.mem_cons.mp hhandlers with
    | inr hmem' => exact hmem'
    | inl heq =>
      subst heq
      exact absurd hmem hy.not_mem_inFlight_of_handler

theorem Nested.rethrow (hc : Nested c) (hx : (handlers c).head? = some x)
    (hflight : x ∈ inFlight c → x.isForeign) : Nested (.unwinding x :: c) := by
  refine ⟨hc, ?_, ?_, by simp⟩
  . intro _
    exact hx
  . intro hmem
    refine ⟨rfl, hflight hmem, ?_⟩
    exact List.mem_of_mem_head? hx

end

namespace Leaves

variable {c c' : List Activity} {action : Action} {x : Exc}

theorem handlers_eq (hl : Leaves c action x c') : handlers c = x :: handlers c' := by
  cases hl <;> rfl

theorem head_eq (hl : Leaves c action x c') : (handlers c).head? = some x := by
  rw [hl.handlers_eq]
  rfl

theorem mem_excs (hl : Leaves c action x c') : x ∈ excs c :=
  mem_excs_of_head hl.head_eq

theorem inFlight_eq (hl : Leaves c action x c') : inFlight c = inFlight c' := by
  cases hl <;> rfl

theorem action_eq (hl : Leaves c action x c') : action = .endCatch ∨ action = .endCatchUnwinding := by
  cases hl with
  | finish => exact .inl rfl
  | unwinding => exact .inr rfl

theorem nested (hl : Leaves c action x c') (hc : Nested c) : Nested c' := by
  cases hl with
  | finish => exact hc.1
  | unwinding => exact hc.endCatchUnwinding

end Leaves

end LibCxxRt
