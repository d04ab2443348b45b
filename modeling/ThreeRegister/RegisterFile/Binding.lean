import ThreeRegister.RegisterFile.Basic

namespace ThreeRegister

inductive Fault where
  | outOfRange (e : OutOfRange)
  | slotTaken (v : Variable) (r : Register) (holder : Variable)
  | alreadyResident (v : Variable) (r home : Register)
  | notResident (v : Variable)
  | noVictim (slots : Bank Slot) (pinned : RegisterSet)
  deriving DecidableEq

def Fault.message : Fault → Text
  | .outOfRange e => e.message
  | .slotTaken v r holder =>
    utf8 "BUG: binding " ++ v ++ utf8 " to " ++ r.text ++ utf8 " which holds " ++ holder
  | .alreadyResident v r home =>
    utf8 "BUG: binding " ++ v ++ utf8 " to " ++ r.text ++ utf8 " while it is resident in " ++ home.text
  | .notResident v => utf8 "BUG: unbinding " ++ v ++ utf8 " which is not resident"
  | .noVictim slots pinned =>
    utf8 "BUG: no evictable register: " ++ RegisterFile.describe slots pinned

namespace RegisterFile

def bind (f : RegisterFile) (v : Variable) (r : Register) : Except Fault RegisterFile := do
  let i ← r.index.mapError .outOfRange
  match f.slots.get i, f.residency[v]? with
  | .held w, _ => throw (.slotTaken v r w)
  | .free _, some home => throw (.alreadyResident v r home)
  | .free _, none => return (f.setSlot i (.held v)).setResidency v r

def unbind (f : RegisterFile) (v : Variable) : Except Fault (Register × RegisterFile) :=
  match f.residency[v]? with
  | none => .error (.notResident v)
  | some r => do
    let i ← r.index.mapError .outOfRange
    let freed := f.setSlot i (.free [])
    return (r, { freed with residency := freed.residency.erase v })

end RegisterFile

end ThreeRegister
