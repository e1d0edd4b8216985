import LibCxxRt.Exception.Impl.PointerReads
import LibCxxRt.TypeInfo.Upcast

/-!
This module contains the facts about the functions that record the reads through a thrown pointer:
they compute what the functions without the record compute, and when they do not read anything.
-/

namespace LibCxxRt

open Util
open ClassTypeInfo (hierarchy)

namespace PointerReads

theorem cast_result (m : Mem) (info : Base) (obj : Addr)
    : (cast m info obj).result = info.cast m obj := by
  unfold cast BaseClassTypeInfo.cast
  split
  . simp only [Traced.result_bind, Traced.result_liftM, Traced.result_note, Traced.result_pure,
      Res.ok_bind, Res.pure_eq_ok]
  . rfl

mutual

theorem doUpcast_result (m : Mem) (C : ClassTypeInfo)
    : ∀ (c : ClassTypeInfo) (obj : Addr), (doUpcast m c C obj).result = c.doUpcast m C obj
  | .classType self name, obj => rfl
  | .siClassType self name baseType, obj => by
    unfold doUpcast ClassTypeInfo.doUpcast
    split
    . rfl
    . exact doUpcast_result m C baseType obj
  | .vmiClassType self name flags baseInfo, obj => by
    unfold doUpcast ClassTypeInfo.doUpcast
    split
    . rfl
    . exact upcastBases_result m C baseInfo obj

theorem upcastBases_result (m : Mem) (C : ClassTypeInfo)
    : ∀ (bs : List Base) (obj : Addr),
        (upcastBases m bs C obj).result = LibCxxRt.upcastBases m bs C obj
  | [], obj => rfl
  | ⟨baseType, offsetFlags⟩ :: rest, obj => by
    unfold upcastBases LibCxxRt.upcastBases
    rw [Traced.result_bind, cast_result]
    congr
    funext obj'
    split
    . rfl
    . rw [Traced.result_bind, doUpcast_result m C baseType obj']
      congr
      funext r
      rcases r with ⟨found, obj''⟩
      cases found with
      | true => rfl
      | false => exact upcastBases_result m C rest obj

end

theorem typeDoUpcast_result (m : Mem) (type : TypeInfo) (C : ClassTypeInfo) (obj : Addr)
    : (typeDoUpcast m type C obj).result = type.doUpcast m C obj := by
  cases type with
  | «class» c => exact doUpcast_result m C c obj
  | _ => rfl

theorem pbaseDoCatch_result {voidName self : Addr} {flags : BitVec 32} {pointee exType : TypeInfo}
    {obj : Addr} {outer : BitVec 32} {traced : TypeInfo → Addr → BitVec 32 → Run (Bool × Addr)}
    {plain : TypeInfo → Addr → BitVec 32 → Res (Bool × Addr)}
    (h : ∀ exType obj outer, (traced exType obj outer).result = plain exType obj outer)
    : (pbaseDoCatch voidName self flags pointee exType obj outer traced).result
        =
      TypeInfo.pbaseDoCatch voidName self flags pointee exType obj outer plain := by
  unfold pbaseDoCatch TypeInfo.pbaseDoCatch
  split
  . rfl
  . cases exType with
    | pointerType self' name' exFlags exPointee =>
      dsimp only
      split
      . rfl
      . split
        . rfl
        . split
          . rfl
          . exact h ..
    | _ => rfl

theorem doCatch_result (m : Mem) (voidName : Addr) (type exType : TypeInfo) (obj : Addr)
    (outer : BitVec 32)
    : (doCatch m voidName type exType obj outer).result
        =
      type.doCatch m voidName exType obj outer := by
  induction type generalizing exType obj outer with
  | pointerType self name flags pointee ih => exact pbaseDoCatch_result ih
  | pointerToMemberType self name flags pointee context ih => exact pbaseDoCatch_result ih
  | «class» c =>
    unfold doCatch TypeInfo.doCatch
    split
    . rfl
    . exact typeDoUpcast_result ..
  | _ => rfl

theorem checkTypeSignature_result (img : Image) (h : Heap) (ex : Option Ptr) (type : Addr)
    (adjustedPtr : Addr)
    : (checkTypeSignature img h ex type adjustedPtr).result
        =
      LibCxxRt.checkTypeSignature img h ex type adjustedPtr := by
  unfold checkTypeSignature LibCxxRt.checkTypeSignature
  cases ex with
  | none => rfl
  | some ex =>
    simp only [Traced.result_bind, Traced.result_liftM]
    congr
    funext cxa
    congr
    funext exType
    congr
    funext obj
    split
    . rfl
    . simp only [Traced.result_bind, Traced.result_liftM]
      congr
      funext type
      split
      . rfl
      . rw [Traced.result_bind, doCatch_result]
        congr
        funext r
        split <;> rfl

-- the offset of a class in the object, unless a virtual base is on the way to the class
def staticOffset (o : Option Addr) (_ : Nat) (b : Base) : Option Addr :=
  if b.isVirtual then none else o.map (· + b.offset)

-- what a search that visits the classes from the address `obj` on returns if it does not read
def outcome (C : ClassTypeInfo) (obj : Addr) :
    List (ClassTypeInfo × Option Addr) → Option (Bool × Addr)
  | [] => some (false, obj)
  | (_, none) :: _ => none
  | (c, some a) :: rest => if c.self = C.self then some (true, a) else outcome C obj rest

theorem outcome_append (C : ClassTypeInfo) (obj obj' : Addr)
    (visited rest : List (ClassTypeInfo × Option Addr))
    : outcome C obj (visited ++ rest)
        =
      (outcome C obj' visited).bind fun r => if r.1 then some r else outcome C obj rest := by
  induction visited with
  | nil => rfl
  | cons e visited ih =>
    rcases e with ⟨c, o⟩
    cases o with
    | none => rfl
    | some a =>
      simp only [List.cons_append, outcome]
      split
      . rfl
      . exact ih

def Agrees (run : Run (Bool × Addr)) : Option (Bool × Addr) → Prop
  | some r => run = ⟨[], .ok r⟩
  | none => run.record ≠ []

theorem cast_of_virtual {m : Mem} {b : Base} (hb : b.isVirtual = true) (obj : Addr)
    : (cast m b obj).record ≠ [] := by
  unfold cast
  simp [hb]

theorem cast_of_not_virtual {m : Mem} {b : Base} (hb : b.isVirtual = false) (obj : Addr)
    : cast m b obj = pure (obj + b.offset) := by
  unfold cast
  simp [hb]

mutual

theorem doUpcast_agrees (m : Mem) (C : ClassTypeInfo)
    : ∀ (c : ClassTypeInfo) (obj : Addr),
        Agrees (doUpcast m c C obj) (outcome C obj (c.visit staticOffset (some obj)))
  | .classType self name, obj => by
    unfold doUpcast ClassTypeInfo.visit outcome
    split
    . next hself => exact congrArg (fun b => pure (b, obj)) (beq_iff_eq.2 hself)
    . next hself => exact congrArg (fun b => pure (b, obj)) (beq_eq_false_iff_ne.2 hself)
  | .siClassType self name baseType, obj => by
    unfold doUpcast ClassTypeInfo.visit outcome
    split
    . next hself =>
      rw [if_pos (by exact hself)]
      rfl
    . next hself =>
      rw [if_neg (by exact hself)]
      have hbase := doUpcast_agrees m C baseType obj
      have hoffset : staticOffset (some obj) 0 ⟨baseType, 0x2⟩ = some obj := by
        simp [staticOffset, BaseClassTypeInfo.isVirtual, BaseClassTypeInfo.flags,
          BaseClassTypeInfo.offset]
      rwa [hoffset]
  | .vmiClassType self name flags baseInfo, obj => by
    unfold doUpcast ClassTypeInfo.visit outcome
    split
    . next hself =>
      rw [if_pos (by exact hself)]
      rfl
    . next hself =>
      rw [if_neg (by exact hself)]
      exact upcastBases_agrees m C baseInfo 0 obj

theorem upcastBases_agrees (m : Mem) (C : ClassTypeInfo)
    : ∀ (bs : List Base) (i : Nat) (obj : Addr),
        Agrees (upcastBases m bs C obj) (outcome C obj (visitBases staticOffset bs i (some obj)))
  | [], i, obj => rfl
  | ⟨baseType, offsetFlags⟩ :: rest, i, obj => by
    unfold upcastBases visitBases
    cases hvirtual : (BaseClassTypeInfo.mk baseType offsetFlags).isVirtual with
    | true =>
      -- the vtable pointer of the object is read
      have hoffset : staticOffset (some obj) i ⟨baseType, offsetFlags⟩ = none := by
        simp [staticOffset, hvirtual]
      rw [hoffset, ClassTypeInfo.visit_eq]
      exact Traced.record_bind_ne_nil (cast_of_virtual hvirtual obj) _
    | false =>
      have hoffset : staticOffset (some obj) i ⟨baseType, offsetFlags⟩
          = some (obj + (BaseClassTypeInfo.mk baseType offsetFlags).offset) := by
        simp [staticOffset, hvirtual]
      rw [hoffset, cast_of_not_virtual hvirtual, Traced.pure_bind]
      generalize obj + (BaseClassTypeInfo.mk baseType offsetFlags).offset = obj'
      have hbase := doUpcast_agrees m C baseType obj'
      have hrest := upcastBases_agrees m C rest (i + 1) obj
      rw [outcome_append C obj obj']
      split
      . next hself =>
        rw [ClassTypeInfo.visit_eq, outcome, if_pos hself]
        rfl
      . cases hout : outcome C obj' (baseType.visit staticOffset (some obj')) with
        | none =>
          rw [hout] at hbase
          exact Traced.record_bind_ne_nil hbase _
        | some r =>
          rw [hout] at hbase
          have heq : doUpcast m baseType C obj' = pure r := hbase
          rw [heq, Traced.pure_bind]
          rcases r with ⟨found, obj''⟩
          cases found with
          | true => rfl
          | false => exact hrest

end

theorem outcome_eq_found_iff {C : ClassTypeInfo} {obj a : Addr}
    {visited : List (ClassTypeInfo × Option Addr)}
    : outcome C obj visited = some (true, a)
        ↔
      ∃ pre c post, visited = pre ++ (c, some a) :: post ∧ c.self = C.self
        ∧ ∀ e ∈ pre, e.1.self ≠ C.self ∧ e.2 ≠ none := by
  induction visited with
  | nil => simp [outcome]
  | cons e visited ih =>
    rcases e with ⟨c, o⟩
    constructor
    . intro hout
      cases o with
      | none => contradiction
      | some a' =>
        unfold outcome at hout
        split at hout
        . next hself =>
          cases hout
          exact ⟨[], c, visited, rfl, hself, by simp⟩
        . next hself =>
          rcases ih.1 hout with ⟨pre, c', post, rfl, hself', hpre⟩
          exact ⟨(c, some a') :: pre, c', post, rfl, hself', by simpa [hself] using hpre⟩
    . rintro ⟨pre, c', post, heq, hself, hpre⟩
      cases pre with
      | nil =>
        cases heq
        exact if_pos hself
      | cons e pre =>
        cases heq
        rw [List.forall_mem_cons] at hpre
        cases o with
        | none => exact absurd rfl hpre.1.2
        | some a' =>
          rw [outcome, if_neg hpre.1.1]
          exact ih.2 ⟨pre, c', post, rfl, hself, hpre.2⟩

theorem doUpcast_self {m : Mem} {c C : ClassTypeInfo} (hself : c.self = C.self) (obj : Addr)
    : doUpcast m c C obj = pure (true, obj) := by
  have hagrees := doUpcast_agrees m C c obj
  rwa [ClassTypeInfo.visit_eq, outcome, if_pos hself] at hagrees

end PointerReads

end LibCxxRt
