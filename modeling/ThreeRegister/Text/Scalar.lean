import ThreeRegister.Text

/-!
The scalars of a text: the characters that UTF-8 decoding finds, and the bytes that are part of none. A byte that does
not start a well-formed character stands for itself, and decoding goes on with the byte after it.
-/

namespace ThreeRegister

inductive Scalar where
  | char (c : Char)
  | stray (b : UInt8)
  deriving DecidableEq, Repr

namespace Scalar

def bytes : Scalar → Text
  | .char c => String.utf8EncodeChar c
  | .stray b => [b]

end Scalar

namespace Text

def codePoint (lead : Nat) (continuation : Text) : Char :=
  Char.ofNat (continuation.foldl (fun n b => n * 64 + b.toNat % 64) lead)

def candidate (lead : UInt8) (rest : Text) : Char :=
  if lead < 0x80 then codePoint lead.toNat []
  else if lead < 0xe0 then codePoint (lead.toNat % 32) (rest.take 1)
  else if lead < 0xf0 then codePoint (lead.toNat % 16) (rest.take 2)
  else codePoint (lead.toNat % 8) (rest.take 3)

/-- The character that starts a text. Overlong forms, surrogates and truncated forms are not the encoding of their
candidate, so they are refused. -/
def leading? : Text → Option Char
  | [] => none
  | b :: rest =>
    let c := candidate b rest
    if (String.utf8EncodeChar c).isPrefixOf (b :: rest) then some c else none

def collectScalars (found : List Scalar) : Nat → Text → List Scalar
  | _, [] => found.reverse
  | skip + 1, _ :: rest => collectScalars found skip rest
  | 0, b :: rest =>
    match leading? (b :: rest) with
    | some c => collectScalars (.char c :: found) (c.utf8Size - 1) rest
    | none => collectScalars (.stray b :: found) 0 rest

def scalars (s : Text) : List Scalar :=
  collectScalars [] 0 s

def ofScalars (cs : List Scalar) : Text :=
  cs.flatMap Scalar.bytes

def padTo (width : Nat) (s : Text) : Text :=
  s ++ List.replicate (width - s.scalars.length) space

end Text

end ThreeRegister
