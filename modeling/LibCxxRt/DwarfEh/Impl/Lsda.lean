import LibCxxRt.DwarfEh.Impl.Value

/-!
This module contains the parser for the header of the language-specific data area and the lookup in
its call-site table, `parse_lsda` and `dwarf_eh_find_callsite` of `dwarf_eh.h`. The latter returns
what it leaves in `*result` next to its own result.
-/

namespace LibCxxRt

structure DwarfEhLsda where
  regionStart : Addr
  landingPads : Addr
  typeTable : Addr
  typeTableEncoding : BitVec 8
  callSiteTable : Addr
  actionTable : Addr
  callsiteEncoding : BitVec 8
  deriving DecidableEq, Repr

structure DwarfEhAction where
  landingPad : Addr
  actionRecord : Addr
  deriving DecidableEq, Repr

def readTypeTable (m : Mem) (typeTableEncoding : BitVec 8) (data : Addr) : Res (Addr × Addr) :=
  if typeTableEncoding ≠ dwEhPeOmit then do
    let (v, data) ← readUleb128 m data
    return (data + v, data)
  else
    .ok (0, data)

def parseLsda (m : Mem) (context : UnwindContext) (data : Addr) : Res DwarfEhLsda := do
  let regionStart := context.regionStart
  let (landingPads, data) ← readValueWithEncoding m context data regionStart
  let typeTableEncoding ← m.byte data
  let data := data + 1
  let (typeTable, data) ← readTypeTable m typeTableEncoding data
  let callsiteEncoding ← m.byte data
  let data := data + 1
  let (callsiteSize, data) ← readUleb128 m data
  return {
    regionStart
    landingPads
    typeTable
    typeTableEncoding
    callSiteTable := data
    actionTable := data + callsiteSize
    callsiteEncoding
  }

def dwarfEhFindCallsite (m : Mem) (context : UnwindContext) (lsda : DwarfEhLsda) :
    Res (Bool × DwarfEhAction) :=
  -- every record is at least one byte long, and one more is read behind the last one
  go ((lsda.actionTable - lsda.callSiteTable).toNat + 2) lsda.callSiteTable
where
  go (fuel : Nat) (callsiteTable : Addr) : Res (Bool × DwarfEhAction) :=
    match fuel with
    | 0 => .error .outOfFuel
    | fuel + 1 =>
      let ip := context.ip - context.regionStart
      if callsiteTable ≤ lsda.actionTable then do
        let (callSiteStart, callsiteTable) ← readValue m lsda.callsiteEncoding callsiteTable
        let (callSiteSize, callsiteTable) ← readValue m lsda.callsiteEncoding callsiteTable
        if callSiteStart > ip then
          return (false, ⟨0, 0⟩)
        else
          let (landingPad, callsiteTable) ← readValue m lsda.callsiteEncoding callsiteTable
          let (action, callsiteTable) ← readUleb128 m callsiteTable
          if callSiteStart < ip ∧ ip ≤ callSiteStart + callSiteSize then
            return (true, {
              landingPad := if landingPad ≠ 0 then lsda.landingPads + landingPad else 0
              actionRecord := if action ≠ 0 then lsda.actionTable + action - 1 else 0
            })
          else
            go fuel callsiteTable
      else
        return (false, ⟨0, 0⟩)

end LibCxxRt
