import LibCxxRt.Basic

/-!
This module contains the `type_info` objects of `typeinfo.h` and the virtual functions that decide
whether a handler catches a thrown type, `__do_upcast` and `__do_catch` of `dynamic_cast.cc`.

A `type_info` object is a tree: it contains the objects that it points to. Two occurrences of one
object have the same `self` address, which is what the source compares when it compares pointers.
`name` is the pointer `__type_name`, which is what `type_info::operator==` compares.

`doUpcast` and `doCatch` return what they leave in `*thrown_object` next to their result.
-/

namespace LibCxxRt

structure BaseClassTypeInfo (α : Type) where
  baseType : α
  offsetFlags : BitVec 64

namespace BaseClassTypeInfo

variable {α : Type} (info : BaseClassTypeInfo α)

def offset : BitVec 64 :=
  info.offsetFlags.sshiftRight 8

def flags : BitVec 64 :=
  info.offsetFlags &&& 0xff

def isPublic : Bool :=
  info.flags &&& 0x2 != 0

def isVirtual : Bool :=
  info.flags &&& 0x1 != 0

end BaseClassTypeInfo

-- `__class_type_info` and the two types that derive from it
inductive ClassTypeInfo where
  | classType (self name : Addr)
  | siClassType (self name : Addr) (baseType : ClassTypeInfo)
  | vmiClassType (self name : Addr) (flags : BitVec 32)
      (baseInfo : List (BaseClassTypeInfo ClassTypeInfo))

namespace ClassTypeInfo

def self : ClassTypeInfo → Addr
  | .classType self _ | .siClassType self _ _ | .vmiClassType self _ _ _ => self

def name : ClassTypeInfo → Addr
  | .classType _ name | .siClassType _ name _ | .vmiClassType _ name _ _ => name

end ClassTypeInfo

-- The address of the base in the object at `obj`, the offset of a virtual base is in the vtable.
def BaseClassTypeInfo.cast {α : Type} (m : Mem) (info : BaseClassTypeInfo α) (obj : Addr) :
    Res Addr := do
  if info.isVirtual then
    let off ← m.loadPtr obj
    let offset ← m.load (off + info.offset) 8
    return obj + offset
  else
    return obj + info.offset

mutual

def ClassTypeInfo.doUpcast (m : Mem) :
    (type target : ClassTypeInfo) → (thrownObject : Addr) → Res (Bool × Addr)
  | .classType self _, target, thrownObject => .ok (self == target.self, thrownObject)
  | .siClassType self _ baseType, target, thrownObject =>
    if self = target.self then
      .ok (true, thrownObject)
    else
      baseType.doUpcast m target thrownObject
  | .vmiClassType self _ _ baseInfo, target, thrownObject =>
    if self = target.self then
      .ok (true, thrownObject)
    else
      upcastBases m baseInfo target thrownObject

-- the loop of `__vmi_class_type_info::__do_upcast`
def upcastBases (m : Mem) :
    (baseInfo : List (BaseClassTypeInfo ClassTypeInfo)) → (target : ClassTypeInfo) →
      (thrownObject : Addr) → Res (Bool × Addr)
  | [], _, thrownObject => .ok (false, thrownObject)
  | ⟨baseType, offsetFlags⟩ :: rest, target, thrownObject => do
    let cast ← (BaseClassTypeInfo.mk baseType offsetFlags).cast m thrownObject
    if baseType.self = target.self then
      return (true, cast)
    else
      let (upcast, cast) ← baseType.doUpcast m target cast
      if upcast then
        return (true, cast)
      else
        upcastBases m rest target thrownObject

end

inductive TypeInfo where
  | fundamentalType (self name : Addr)
  | arrayType (self name : Addr)
  | functionType (self name : Addr)
  | enumType (self name : Addr)
  | class (c : ClassTypeInfo)
  | pointerType (self name : Addr) (flags : BitVec 32) (pointee : TypeInfo)
  | pointerToMemberType (self name : Addr) (flags : BitVec 32) (pointee : TypeInfo)
      (context : ClassTypeInfo)

namespace TypeInfo

def self : TypeInfo → Addr
  | .fundamentalType self _ | .arrayType self _ | .functionType self _ | .enumType self _ => self
  | .class c => c.self
  | .pointerType self _ _ _ | .pointerToMemberType self _ _ _ _ => self

def name : TypeInfo → Addr
  | .fundamentalType _ name | .arrayType _ name | .functionType _ name | .enumType _ name => name
  | .class c => c.name
  | .pointerType _ name _ _ | .pointerToMemberType _ name _ _ _ => name

def eq (type other : TypeInfo) : Bool :=
  type.name == other.name

def isPointerP : TypeInfo → Bool
  | .pointerType .. => true
  | _ => false

def doUpcast (m : Mem) (type : TypeInfo) (target : ClassTypeInfo) (thrownObject : Addr) :
    Res (Bool × Addr) :=
  match type with
  | .class c => c.doUpcast m target thrownObject
  | _ => .ok (false, thrownObject)

-- `__pbase_type_info::__do_catch`, `catchPointee` is the call `__pointee->__do_catch`.
def pbaseDoCatch (voidName self : Addr) (flags : BitVec 32) (pointee exType : TypeInfo)
    (exceptionObject : Addr) (outer : BitVec 32)
    (catchPointee : TypeInfo → Addr → BitVec 32 → Res (Bool × Addr)) : Res (Bool × Addr) :=
  if exType.self = self then
    .ok (true, exceptionObject)
  else
    match exType with
    | .pointerType _ _ exFlags exPointee =>
      if outer &&& 1 = 0 then
        .ok (false, exceptionObject)
      else
        let outer := if flags &&& 1 = 0 then outer &&& ~~~1 else outer
        if exFlags &&& ~~~flags ≠ 0 then
          .ok (false, exceptionObject)
        else if pointee.name = voidName then
          .ok (true, exceptionObject)
        else
          catchPointee exPointee exceptionObject outer
    | _ => .ok (false, exceptionObject)

def doCatch (m : Mem) (voidName : Addr) :
    (type exType : TypeInfo) → (exceptionObject : Addr) → (outer : BitVec 32) → Res (Bool × Addr)
  | .pointerType self _ flags pointee, exType, exceptionObject, outer =>
    pbaseDoCatch voidName self flags pointee exType exceptionObject outer
      (pointee.doCatch m voidName)
  | .pointerToMemberType self _ flags pointee _, exType, exceptionObject, outer =>
    pbaseDoCatch voidName self flags pointee exType exceptionObject outer
      (pointee.doCatch m voidName)
  | .class c, exType, exceptionObject, _ =>
    if c.self = exType.self then
      .ok (true, exceptionObject)
    else
      exType.doUpcast m c exceptionObject
  | .fundamentalType self _, exType, exceptionObject, _
  | .arrayType self _, exType, exceptionObject, _
  | .functionType self _, exType, exceptionObject, _
  | .enumType self _, exType, exceptionObject, _ =>
    .ok (self == exType.self, exceptionObject)

end TypeInfo

end LibCxxRt
