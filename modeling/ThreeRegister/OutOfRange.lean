import ThreeRegister.Text.Decimal

namespace ThreeRegister

structure OutOfRange where
  index : Int
  length : Nat
  deriving DecidableEq

namespace OutOfRange

def message (e : OutOfRange) : Text :=
  utf8 "runtime error: index out of range [" ++ Decimal.ofInt e.index ++ utf8 "]"
    ++ if e.index < 0 then [] else utf8 " with length " ++ Decimal.ofNat e.length

end OutOfRange

end ThreeRegister
