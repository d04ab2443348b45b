import ThreeRegister.Machine.Bank
import ThreeRegister.OutOfRange

namespace ThreeRegister

structure Register where
  number : UInt8
  deriving DecidableEq

namespace Register

def r1 : Register := ⟨1⟩

def r2 : Register := ⟨2⟩

def r3 : Register := ⟨3⟩

def absent : Register := ⟨0⟩

def all : List Register := [r1, r2, r3]

def index? (r : Register) : Option (Fin 3) :=
  if h : 1 ≤ r.number.toNat ∧ r.number.toNat ≤ 3 then some ⟨r.number.toNat - 1, by omega⟩ else none

def ofIndex (i : Fin 3) : Register :=
  ⟨(i.val + 1).toUInt8⟩

def isValid (r : Register) : Bool :=
  r.index?.isSome

def offset (r : Register) : Int :=
  (r.number.toNat : Int) - 1

def index (r : Register) : Except OutOfRange (Fin 3) :=
  match r.index? with
  | some i => .ok i
  | none => .error ⟨r.offset, 3⟩

def text (r : Register) : Text :=
  if r.isValid then utf8 "R" ++ Decimal.ofNat r.number.toNat else utf8 "nil"

end Register

structure RegisterSet where
  members : Bank Bool
  deriving DecidableEq

namespace RegisterSet

def empty : RegisterSet := ⟨.fill false⟩

def contains (s : RegisterSet) (i : Fin 3) : Bool :=
  s.members.get i

def insert (s : RegisterSet) (r : Register) : RegisterSet :=
  match r.index? with
  | some i => ⟨s.members.update i true⟩
  | none => s

def ofList (rs : List Register) : RegisterSet :=
  rs.foldl insert empty

def toList (s : RegisterSet) : List Register :=
  ((List.finRange 3).filter s.contains).map Register.ofIndex

def text (s : RegisterSet) : Text :=
  utf8 "[" ++ Text.join ", " (s.toList.map Register.text) ++ utf8 "]"

end RegisterSet

end ThreeRegister
