import ThreeRegister.Machine.Run

/-!
The register file records which variable each register holds. The slots say so register by register, the residency
variable by variable; beside them stand when each variable was last accessed, the memory slot of each variable that was
ever evicted, and the registers that must not be evicted now.
-/

namespace ThreeRegister

/-- One register: free, with whatever label it still carries, or held by a variable. -/
inductive Slot where
  | free (label : Variable)
  | held (v : Variable)
  deriving DecidableEq

namespace Slot

def isHeld : Slot → Bool
  | .held _ => true
  | .free _ => false

def label : Slot → Variable
  | .held v => v
  | .free v => v

def text : Slot → Text
  | .held v => v
  | .free _ => utf8 "-"

end Slot

structure RegisterFile where
  slots : Bank Slot
  residency : Residents
  clock : UInt64
  recency : Std.TreeMap Variable UInt64
  spillSlots : Std.TreeMap Variable Nat
  pinned : RegisterSet

namespace RegisterFile

def fresh : RegisterFile where
  slots := .fill (.free [])
  residency := ∅
  clock := 0
  recency := ∅
  spillSlots := ∅
  pinned := .empty

def free (f : RegisterFile) : List Register :=
  ((List.finRange 3).filter fun i => !(f.slots.get i).isHeld).map Register.ofIndex

def firstFree? (f : RegisterFile) : Option Register :=
  f.free.head?

def occupant (f : RegisterFile) (r : Register) : Except OutOfRange Slot := do
  let i ← r.index
  return f.slots.get i

def isSpilled (f : RegisterFile) (v : Variable) : Bool :=
  f.spillSlots.contains v && !f.residency.contains v

def touch (f : RegisterFile) (v : Variable) : RegisterFile :=
  { f with clock := f.clock + 1, recency := f.recency.insert v (f.clock + 1) }

def pin (f : RegisterFile) (r : Register) : RegisterFile :=
  { f with pinned := f.pinned.insert r }

def unpin (f : RegisterFile) : RegisterFile :=
  { f with pinned := .empty }

def assignSpillSlot (f : RegisterFile) (v : Variable) : RegisterFile :=
  { f with spillSlots := f.spillSlots.insertIfNew v f.spillSlots.size }

def setSlot (f : RegisterFile) (i : Fin 3) (s : Slot) : RegisterFile :=
  { f with slots := f.slots.update i s }

def setResidency (f : RegisterFile) (v : Variable) (r : Register) : RegisterFile :=
  { f with residency := f.residency.insert v r }

def describe (slots : Bank Slot) (pinned : RegisterSet) : Text :=
  let cell (i : Fin 3) := (Register.ofIndex i).text ++ utf8 "=" ++ (slots.get i).text
  utf8 "regs=[" ++ Text.join ", " ((List.finRange 3).map cell) ++ utf8 "], pinned=" ++ pinned.text

def text (f : RegisterFile) : Text :=
  describe f.slots f.pinned

end RegisterFile

end ThreeRegister
