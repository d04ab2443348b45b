import ThreeRegister.Text

namespace ThreeRegister

namespace Hex

def digit (n : Nat) : UInt8 :=
  if n < 10 then (0x30 + n).toUInt8 else (0x57 + n).toUInt8

def ofNat : Nat → Nat → Text
  | 0, _ => []
  | width + 1, n => ofNat width (n / 16) ++ [digit (n % 16)]

def ofByte (b : UInt8) : Text :=
  ofNat 2 b.toNat

def visible (b : UInt8) : UInt8 :=
  if 0x20 ≤ b && b ≤ 0x7e then b else 0x2e

def column (row : List UInt8) (i : Nat) : Text :=
  let cell := match row[i]? with
    | some b => ofByte b
    | none => utf8 "  "
  cell ++ utf8 (if i = 7 then "  " else " ")

def dumpRow (offset : Nat) (row : List UInt8) : Text :=
  ofNat 8 offset ++ utf8 "  " ++ (List.range 16).flatMap (column row)
    ++ utf8 " |" ++ row.map visible ++ utf8 "|\n"

def dump (bytes : Array UInt8) : Text :=
  (List.range ((bytes.size + 15) / 16)).flatMap fun i =>
    dumpRow (i * 16) (bytes.extract (i * 16) (i * 16 + 16)).toList

end Hex

end ThreeRegister
