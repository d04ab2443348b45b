/-!
Texts are sequences of bytes. Most are valid UTF-8, but nothing here relies on it: names, operators and whole
sources may hold any bytes.
-/

namespace ThreeRegister

abbrev Text := List UInt8

def utf8 (s : String) : Text :=
  s.toList.flatMap String.utf8EncodeChar

namespace Text

def newline : UInt8 := 0x0a

def carriageReturn : UInt8 := 0x0d

def space : UInt8 := 0x20

def join (separator : String) (parts : List Text) : Text :=
  (utf8 separator).intercalate parts

def unlines (parts : List Text) : Text :=
  parts.flatMap (· ++ [newline])

def cut? (b : UInt8) : Text → Option (Text × Text)
  | [] => none
  | c :: rest => if c = b then some ([], rest) else (cut? b rest).map fun p => (c :: p.1, p.2)

def startsWith (b : UInt8) (s : Text) : Bool :=
  s.head? = some b

end Text

end ThreeRegister
