import LibCxxRt.Exception.Impl.Terminate
import LibCxxRt.Exception.Cleanup
import LibCxxRt.Exception.Lemmas.Access
import LibCxxRt.TypeInfo.DynamicCast

/-!
This module contains the result about the default handler for `std::terminate`: for which exceptions it
calls `what`.
-/

namespace LibCxxRt

open Util
open ClassTypeInfo (hierarchy)

-- The innermost exception that thread `i` has caught is one of class `T`, its primary one is `real`.
structure CaughtClass (img : Image) (i : Nat) (w : Process) (real : Ptr) (T : ClassTypeInfo) : Prop where
  caught : ∃ ex, (w.threads i).caughtExceptions = some ex
    ∧ realExceptionFromException w.heap ex = .ok real
  type : ∃ e, w.heap.cxa real = .ok e ∧ img.typeInfo e.exceptionType = .ok (.class T)

section

variable {img : Image} {i : Nat} {w : Process} {real : Ptr} {T : ClassTypeInfo} {self name : Addr}

theorem record_diagnoseClass (m : Mem) (T : ClassTypeInfo) {obj : Addr} (hobj : obj ≠ 0)
    : diagnoseClass m (.classType self name) T obj
        =
      ⟨if self = T.self then [.what obj] else [], .ok ()⟩ := by
  unfold diagnoseClass
  rw [ClassTypeInfo.castTo, Traced.liftM_ok_bind]
  by_cases hself : self = T.self
  . rw [if_pos hself, if_pos hself, if_pos hobj]
    rfl
  . rw [if_neg hself, if_neg hself, if_neg (not_not.2 rfl)]
    rfl

-- the calls of `what` for an object of a type
def whatCalls (self obj : Addr) : TypeInfo → List Diagnostic
  | .class T => if self = T.self then [.what obj] else []
  | _ => []

-- the handler ends with `abort`, whatever the type of the exception is
theorem terminateWithDiagnostics_of_caught {ex : Ptr} {e : CxaException} {type : TypeInfo}
    (hex : (w.threads i).caughtExceptions = some ex)
    (hreal : realExceptionFromException w.heap ex = .ok real) (he : w.heap.cxa real = .ok e)
    (htype : img.typeInfo e.exceptionType = .ok type) (demangle : Addr → Option String)
    (hobj : img.addr (thrownObject real) ≠ 0)
    : terminateWithDiagnostics img (.classType self name) demangle i w
        =
      ⟨.terminating ex
          :: (whatCalls self (img.addr (thrownObject real)) type
            ++ [.ofType (typeName demangle type.name), .backtrace]),
        .error .abort⟩ := by
  unfold terminateWithDiagnostics
  simp only [hex, hreal, he, htype, Traced.liftM_ok_bind, Traced.note_bind]
  cases type with
  | «class» T =>
    dsimp only
    rw [record_diagnoseClass _ _ hobj]
    rfl
  | _ => rfl

theorem terminateWithDiagnostics_of_none (h : (w.threads i).caughtExceptions = none)
    (stdException : ClassTypeInfo) (demangle : Addr → Option String)
    : terminateWithDiagnostics img stdException demangle i w = ⟨[], .error .abort⟩ := by
  unfold terminateWithDiagnostics
  rw [h]
  rfl

theorem what_mem_iff (hcaught : CaughtClass img i w real T) (demangle : Addr → Option String)
    (hobj : img.addr (thrownObject real) ≠ 0) (a : Addr)
    : .what a ∈ (terminateWithDiagnostics img (.classType self name) demangle i w).record
        ↔
      self = T.self ∧ a = img.addr (thrownObject real) := by
  rcases hcaught with ⟨⟨ex, hex, hreal⟩, e, he, htype⟩
  rw [terminateWithDiagnostics_of_caught hex hreal he htype demangle hobj]
  by_cases hself : self = T.self
  . simp [whatCalls, hself]
  . simp [whatCalls, hself]

theorem result_diagnoseClass (m : Mem) (T : ClassTypeInfo) (obj : Addr)
    : (diagnoseClass m (.classType self name) T obj).result = .ok () := by
  unfold diagnoseClass
  rw [ClassTypeInfo.castTo, Traced.liftM_ok_bind]
  split <;> split <;> rfl

-- the record of the accesses is one for the same function, if the type is in a header of this runtime
theorem Access.terminateWithDiagnostics_result (private1 : Nat → Addr)
    (hreal : ∀ ex real u beyond, (w.threads i).caughtExceptions = some ex
      → LibCxxRt.realExceptionFromException w.heap ex = .ok real
      → w.heap real.block ≠ some (.foreign u beyond)) (demangle : Addr → Option String)
    : (Access.terminateWithDiagnostics img private1 self i w).result
        =
      (LibCxxRt.terminateWithDiagnostics img (.classType self name) demangle i w).result := by
  unfold Access.terminateWithDiagnostics LibCxxRt.terminateWithDiagnostics
  cases hex : (w.threads i).caughtExceptions with
  | none => rfl
  | some ex =>
    simp only [Traced.result_bind, Access.realExceptionFromException_result, Traced.result_liftM,
      Traced.result_note, Res.ok_bind]
    cases hx : LibCxxRt.realExceptionFromException w.heap ex with
    | error e => rfl
    | ok real =>
      have htype : (Access.exceptionTypeOf private1 w.heap real).result
          = (w.heap.cxa real).map (·.exceptionType) := by
        have hblock := fun u beyond => hreal ex real u beyond hex hx
        unfold Access.exceptionTypeOf
        -- the block holds no foreign exception, so the second branch is taken
        simp only [Traced.result_bind, Access.result_read, Res.ok_bind, Traced.result_liftM]
        cases w.heap.cxa real <;> rfl
      simp only [Res.ok_bind, htype]
      cases w.heap.cxa real with
      | error e => rfl
      | ok e =>
        simp only [Except.map, Res.ok_bind]
        cases img.typeInfo e.exceptionType with
        | error e => rfl
        | ok type =>
          simp only [Res.ok_bind]
          trans Except.error Stop.abort
          . split <;> rfl
          . cases type with
            | «class» T =>
              simp only [Traced.result_bind, result_diagnoseClass, Res.ok_bind]
              rfl
            | _ => rfl

/--
`std::exception` is asked whether it derives from the thrown class. So a class that derives from
`std::exception` is not recognised.
-/
theorem terminateWithDiagnostics_what_iff (hcaught : CaughtClass img i w real T)
    (layout : Layout img.mem T (img.addr (thrownObject real)))
    (hobj : img.addr (thrownObject real) ≠ 0) (demangle : Addr → Option String)
    : (((∃ a, .what a ∈ (terminateWithDiagnostics img (.classType self name) demangle i w).record)
            ↔ ∃ a, T.doUpcast img.mem (.classType self name) (img.addr (thrownObject real))
              = .ok (true, a))
          ∧ ∀ a, .what a ∈ (terminateWithDiagnostics img (.classType self name) demangle i w).record →
            ∃ k, hierarchy.Has false T .whole self k ∧ a = layout.address k)
        ↔
      T.self = self ∨ ∀ k, ¬ hierarchy.Has false T .whole self k := by
  simp only [what_mem_iff hcaught demangle hobj, doUpcast_eq_true_iff layout]
  constructor
  . rintro ⟨hwhat, _⟩
    by_cases hbase : ∃ k, hierarchy.Has false T .whole self k
    . rcases hwhat.2 hbase with ⟨_, hself, _⟩
      exact .inl hself.symm
    . exact .inr fun k hk => hbase ⟨k, hk⟩
  . rintro (hself | hnone)
    . have hwhole : hierarchy.Has false T .whole self .whole := ⟨T, .refl .., hself⟩
      refine ⟨iff_of_true ⟨_, hself.symm, rfl⟩ ⟨.whole, hwhole⟩, ?_⟩
      rintro a ⟨_, ha⟩
      exact ⟨.whole, hwhole, ha.trans layout.whole.symm⟩
    . have hself : self ≠ T.self := by
        rintro rfl
        exact hnone .whole ⟨T, .refl .., rfl⟩
      refine ⟨iff_of_false ?_ ?_, ?_⟩
      . rintro ⟨_, heq, _⟩
        exact hself heq
      . rintro ⟨k, hk⟩
        exact hnone k hk
      . rintro a ⟨heq, _⟩
        exact absurd heq hself

end

namespace Sample

def stdException : ClassTypeInfo := .classType 0x2500 0x2d00

def runtimeError : ClassTypeInfo := .siClassType 0x2600 0x2e00 stdException

def stdImg : Image where
  mem _ := none
  types a := [TypeInfo.class stdException, .class runtimeError].find? fun t => t.self == a
  voidName := 0x2900
  blockBase := img.blockBase
  types_self := by
    intro a t ht
    simpa using List.find?_some ht

-- thread 0 has caught a dependent exception
def stdProcess (T : ClassTypeInfo) : Process where
  heap := (Heap.set (fun _ => none) 0 (.cxx { thrown with exceptionType := T.self })).set 1 (.cxx {
    thrown with
    exceptionType := T.self
    countWord := .primaryException (some ⟨0, 128⟩)
    unwindHeader := ⟨dependentExceptionClass, some .dependentExceptionCleanup⟩
  })
  threads _ := { CxaThreadInfo.zero with caughtExceptions := some ⟨1, 0⟩ }
  terminateHandler := 0
  unexpectedHandler := 0
  log := []

theorem caughtClass {T : ClassTypeInfo} (htype : stdImg.typeInfo T.self = .ok (.class T))
    : CaughtClass stdImg 0 (stdProcess T) ⟨0, 0⟩ T where
  caught := ⟨⟨1, 0⟩, rfl, rfl⟩
  type := ⟨_, rfl, htype⟩

def stdLayout : Layout stdImg.mem stdException 0x10080 :=
  .ofVisit (fun _ => 0x10080) (by decide)

end Sample

open Sample in
theorem terminateWithDiagnostics_what_iff_stdException
    : ∃ a, .what a ∈ (terminateWithDiagnostics stdImg stdException (fun _ => none) 0
        (stdProcess stdException)).record := by
  have hcaught : CaughtClass stdImg 0 (stdProcess stdException) ⟨0, 0⟩ stdException :=
    caughtClass (by rfl)
  have hobj : stdImg.addr (thrownObject ⟨0, 0⟩) ≠ 0 := by
    show (0x10080 : Addr) ≠ 0
    decide
  have hwhat : ∃ a, stdException.doUpcast stdImg.mem stdException 0x10080 = .ok (true, a) :=
    ⟨0x10080, by rfl⟩
  exact ((terminateWithDiagnostics_what_iff hcaught stdLayout hobj fun _ => none).2
    (.inl rfl)).1.2 hwhat

open Sample in
-- `std::exception` is a base of the thrown class, but it is not asked what it is
theorem terminateWithDiagnostics_runtimeError
    : CaughtClass stdImg 0 (stdProcess runtimeError) ⟨0, 0⟩ runtimeError
        ∧ runtimeError.doUpcast stdImg.mem stdException 0x10080 = .ok (true, 0x10080)
        ∧ (terminateWithDiagnostics stdImg stdException (fun _ => none) 0
            (stdProcess runtimeError)).record
          = [.terminating ⟨1, 0⟩, .ofType (.mangled 0x2e00), .backtrace] := by
  exact ⟨caughtClass (by rfl), by rfl, by rfl⟩

end LibCxxRt
