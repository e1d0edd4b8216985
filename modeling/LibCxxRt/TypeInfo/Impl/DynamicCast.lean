import LibCxxRt.TypeInfo.Impl

/-!
This module contains `__dynamic_cast` of `dynamic_cast.cc` and the virtual function `cast_to`. A null
pointer is the address 0. The objects behind the pointers to `__class_type_info` are in `types`.
-/

namespace LibCxxRt

def ClassTypeInfo.castTo (m : Mem) : (type : ClassTypeInfo) → (obj : Addr) →
    (other : ClassTypeInfo) → Res Addr
  | .classType self _, obj, other => .ok (if self = other.self then obj else 0)
  | .siClassType self _ baseType, obj, other =>
    if self = other.self then
      .ok obj
    else
      baseType.castTo m obj other
  | .vmiClassType self name flags baseInfo, obj, other => do
    let (upcast, obj) ← (ClassTypeInfo.vmiClassType self name flags baseInfo).doUpcast m other obj
    if upcast then
      return obj
    else
      return 0

-- The header of a vtable, the offset of the leaf object and its type, is in front of the vtable.
def dynamicCast (m : Mem) (types : Addr → Option ClassTypeInfo) (sub : Addr)
    (_src dst : ClassTypeInfo) (_src2dstOffset : BitVec 64) : Res Addr := do
  let vtableLocation ← m.loadPtr sub
  let header := vtableLocation - 16
  let leafOffset ← m.load header 8
  let leaf := sub + leafOffset
  let type ← m.loadPtr (header + 8)
  match types type with
  | some type => type.castTo m leaf dst
  | none => .error .fault

end LibCxxRt
