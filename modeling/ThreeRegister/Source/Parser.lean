import ThreeRegister.Source.Instruction
import ThreeRegister.Text.Blank
import ThreeRegister.Text.Line
import ThreeRegister.Text.Quoted

/-!
Reading a block from text. A line holds one instruction, `dst = src` or `dst = left op right`, with blanks between the
fields; blank lines and lines whose first field starts with `#` hold none. Lines are numbered from one.
-/

namespace ThreeRegister

namespace Source

def isNameStart (b : UInt8) : Bool :=
  b = 0x5f || (0x61 ≤ b && b ≤ 0x7a) || (0x41 ≤ b && b ≤ 0x5a)

def isDigit (b : UInt8) : Bool :=
  0x30 ≤ b && b ≤ 0x39

def isVariableName : Text → Bool
  | [] => false
  | b :: rest => isNameStart b && rest.all fun c => isNameStart c || isDigit c

inductive LineError where
  | notAssignment (fields : List Text)
  | badName (name : Text)
  | fieldCount (count : Nat)
  deriving DecidableEq

def LineError.message : LineError → Text
  | .notAssignment fields => utf8 "expected `dst = ...` but got " ++ (Text.join " " fields).quoted
  | .badName name => utf8 "invalid variable name " ++ name.quoted
  | .fieldCount count => utf8 "expected 3 or 5 tokens but got " ++ Decimal.ofNat count

inductive ParseError where
  | malformed (line : Nat) (cause : LineError)
  | lineTooLong
  deriving DecidableEq

def ParseError.message : ParseError → Text
  | .malformed line cause => Decimal.ofNat line ++ utf8 ": " ++ cause.message
  | .lineTooLong => utf8 "bufio.Scanner: token too long"

/-- The length at which a line is too long, its newline not counted. -/
def lineLimit : Nat := 65536

def requireName (name : Text) : Except LineError Unit :=
  if isVariableName name then .ok () else .error (.badName name)

def Instruction.ofFields (fields : List Text) : Except LineError Instruction :=
  match fields with
  | dst :: equals :: src :: rest => do
    if equals ≠ utf8 "=" then throw (.notAssignment fields)
    requireName dst
    requireName src
    match rest with
    | [] => pure (.move dst src)
    | [op, right] =>
      requireName right
      pure (.binary dst src op right)
    | _ => throw (.fieldCount fields.length)
  | _ => .error (.notAssignment fields)

def Instruction.ofLine? (line : Text) : Except LineError (Option Instruction) :=
  match line.lineContent.fields with
  | [] => .ok none
  | first :: rest =>
    if first.startsWith 0x23 then .ok none else some <$> Instruction.ofFields (first :: rest)

def Instruction.ofNumberedLine? (line : Text × Nat) : Except ParseError (Option Instruction) :=
  if lineLimit ≤ line.1.length then .error .lineTooLong
  else (Instruction.ofLine? line.1).mapError (.malformed line.2)

def Block.parse (source : Text) : Except ParseError Block := do
  let lines ← (source.rawLines.zipIdx 1).mapM Instruction.ofNumberedLine?
  return lines.filterMap id

end Source

end ThreeRegister
