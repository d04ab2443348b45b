import ThreeRegister.Text.Hex
import ThreeRegister.Text.Printable

namespace ThreeRegister

namespace Scalar

def shortEscape? : Nat → Option Char
  | 0x07 => some 'a'
  | 0x08 => some 'b'
  | 0x09 => some 't'
  | 0x0a => some 'n'
  | 0x0b => some 'v'
  | 0x0c => some 'f'
  | 0x0d => some 'r'
  | _ => none

def quoted : Scalar → Text
  | .stray b => utf8 "\\x" ++ Hex.ofByte b
  | .char c =>
    let n := c.toNat
    if c = '"' then utf8 "\\\""
    else if c = '\\' then utf8 "\\\\"
    else if isPrintable (.char c) then String.utf8EncodeChar c
    else match shortEscape? n with
      | some e => utf8 "\\" ++ String.utf8EncodeChar e
      | none =>
        if n < 0x20 || n = 0x7f then utf8 "\\x" ++ Hex.ofNat 2 n
        else if n < 0x10000 then utf8 "\\u" ++ Hex.ofNat 4 n
        else utf8 "\\U" ++ Hex.ofNat 8 n

end Scalar

namespace Text

def quoted (s : Text) : Text :=
  utf8 "\"" ++ s.scalars.flatMap Scalar.quoted ++ utf8 "\""

end Text

end ThreeRegister
