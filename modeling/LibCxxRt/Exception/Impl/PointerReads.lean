import LibCxxRt.Exception.Impl.ActionRecord
import LibCxxRt.Util.Traced

/-!
This module contains the functions that match a thrown object against the type of a handler once
more, with a record of the addresses that they read in the object and through its vtables.
-/

namespace LibCxxRt

open Util

namespace PointerReads

abbrev Run := Traced Addr Stop

def cast (m : Mem) (info : BaseClassTypeInfo ClassTypeInfo) (obj : Addr) : Run Addr := do
  if info.isVirtual then
    .note obj
    let off ← m.loadPtr obj
    .note (off + info.offset)
    let offset ← m.load (off + info.offset) 8
    return obj + offset
  else
    return obj + info.offset

mutual

def doUpcast (m : Mem) :
    (type target : ClassTypeInfo) → (thrownObject : Addr) → Run (Bool × Addr)
  | .classType self _, target, thrownObject => pure (self == target.self, thrownObject)
  | .siClassType self _ baseType, target, thrownObject =>
    if self = target.self then
      pure (true, thrownObject)
    else
      doUpcast m baseType target thrownObject
  | .vmiClassType self _ _ baseInfo, target, thrownObject =>
    if self = target.self then
      pure (true, thrownObject)
    else
      upcastBases m baseInfo target thrownObject

def upcastBases (m : Mem) :
    (baseInfo : List (BaseClassTypeInfo ClassTypeInfo)) → (target : ClassTypeInfo) →
      (thrownObject : Addr) → Run (Bool × Addr)
  | [], _, thrownObject => pure (false, thrownObject)
  | ⟨baseType, offsetFlags⟩ :: rest, target, thrownObject => do
    let obj ← cast m ⟨baseType, offsetFlags⟩ thrownObject
    if baseType.self = target.self then
      return (true, obj)
    else
      let (upcast, obj) ← doUpcast m baseType target obj
      if upcast then
        return (true, obj)
      else
        upcastBases m rest target thrownObject

end

def typeDoUpcast (m : Mem) (type : TypeInfo) (target : ClassTypeInfo) (thrownObject : Addr) :
    Run (Bool × Addr) :=
  match type with
  | .class c => doUpcast m c target thrownObject
  | _ => pure (false, thrownObject)

def pbaseDoCatch (voidName self : Addr) (flags : BitVec 32) (pointee exType : TypeInfo)
    (exceptionObject : Addr) (outer : BitVec 32)
    (catchPointee : TypeInfo → Addr → BitVec 32 → Run (Bool × Addr)) : Run (Bool × Addr) :=
  if exType.self = self then
    pure (true, exceptionObject)
  else
    match exType with
    | .pointerType _ _ exFlags exPointee =>
      if outer &&& 1 = 0 then
        pure (false, exceptionObject)
      else
        let outer := if flags &&& 1 = 0 then outer &&& ~~~1 else outer
        if exFlags &&& ~~~flags ≠ 0 then
          pure (false, exceptionObject)
        else if pointee.name = voidName then
          pure (true, exceptionObject)
        else
          catchPointee exPointee exceptionObject outer
    | _ => pure (false, exceptionObject)

def doCatch (m : Mem) (voidName : Addr) :
    (type exType : TypeInfo) → (exceptionObject : Addr) → (outer : BitVec 32) → Run (Bool × Addr)
  | .pointerType self _ flags pointee, exType, exceptionObject, outer =>
    pbaseDoCatch voidName self flags pointee exType exceptionObject outer
      (doCatch m voidName pointee)
  | .pointerToMemberType self _ flags pointee _, exType, exceptionObject, outer =>
    pbaseDoCatch voidName self flags pointee exType exceptionObject outer
      (doCatch m voidName pointee)
  | .class c, exType, exceptionObject, _ =>
    if c.self = exType.self then
      pure (true, exceptionObject)
    else
      typeDoUpcast m exType c exceptionObject
  | .fundamentalType self _, exType, exceptionObject, _
  | .arrayType self _, exType, exceptionObject, _
  | .functionType self _, exType, exceptionObject, _
  | .enumType self _, exType, exceptionObject, _ =>
    pure (self == exType.self, exceptionObject)

-- the pointer itself is read from the memory of the exception, not through the pointer
def checkTypeSignature (img : Image) (h : Heap) (ex : Option Ptr) (type : Addr)
    (adjustedPtr : Addr) : Run (Bool × Addr) :=
  match ex with
  | none => pure (type == 0, adjustedPtr)
  | some ex => do
    let exType ← img.typeInfo (← h.cxa ex).exceptionType
    let exceptionPtr ← exceptionPtr img exType ex
    if type = 0 then
      return (true, exceptionPtr)
    else
      let type ← img.typeInfo type
      if type.eq exType then
        return (true, exceptionPtr)
      else
        let (caught, exceptionPtr) ← doCatch img.mem img.voidName type exType exceptionPtr 1
        if caught then
          return (true, exceptionPtr)
        else
          return (false, adjustedPtr)

end PointerReads

end LibCxxRt
