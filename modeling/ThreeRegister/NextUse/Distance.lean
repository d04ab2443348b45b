import ThreeRegister.Text.Decimal

/-!
How many instructions away the next read of a variable is, or that it is never read again. Distances are 32-bit numbers
and stay at the largest once they reach it; every finite distance is nearer than an unbounded one.
-/

namespace ThreeRegister

namespace NextUse

inductive Distance where
  | finite (n : UInt32)
  | unbounded
  deriving DecidableEq

namespace Distance

def largest : UInt32 := 0xffffffff

def saturatingSucc (n : UInt32) : UInt32 :=
  if n = largest then n else n + 1

def succ : Distance → Distance
  | .finite n => .finite (saturatingSucc n)
  | .unbounded => .unbounded

def value? : Distance → Option UInt32
  | .finite n => some n
  | .unbounded => none

def isUnbounded (d : Distance) : Bool :=
  d = .unbounded

instance : Ord Distance where
  compare
    | .finite m, .finite n => compare m n
    | .finite _, .unbounded => .lt
    | .unbounded, .finite _ => .gt
    | .unbounded, .unbounded => .eq

def text : Distance → Text
  | .finite n => Decimal.ofNat n.toNat
  | .unbounded => utf8 "inf"

end Distance

end NextUse

end ThreeRegister
