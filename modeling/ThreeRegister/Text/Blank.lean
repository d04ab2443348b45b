import ThreeRegister.Text.Scalar

namespace ThreeRegister

def blankRanges : List (Nat × Nat) :=
  [(0x09, 0x0d), (0x20, 0x20), (0x85, 0x85), (0xa0, 0xa0), (0x1680, 0x1680), (0x2000, 0x200a),
    (0x2028, 0x2029), (0x202f, 0x202f), (0x205f, 0x205f), (0x3000, 0x3000)]

namespace Scalar

def isBlank : Scalar → Bool
  | .char c => blankRanges.any fun range => range.1 ≤ c.toNat && c.toNat ≤ range.2
  | .stray _ => false

end Scalar

namespace Text

def fields (s : Text) : List Text :=
  ((s.scalars.splitOnP Scalar.isBlank).filter (· ≠ [])).map ofScalars

end Text

end ThreeRegister
