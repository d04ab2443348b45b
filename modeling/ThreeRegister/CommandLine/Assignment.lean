import ThreeRegister.Memory
import ThreeRegister.Text.Quoted

namespace ThreeRegister

namespace CommandLine

inductive AssignmentError where
  | noValue (assignment : Text)
  | badValue (name value : Text) (cause : Decimal.ReadError)
  deriving DecidableEq

def readErrorText : Decimal.ReadError → Text
  | .malformed => utf8 "invalid syntax"
  | .outOfRange => utf8 "value out of range"

def AssignmentError.message : AssignmentError → Text
  | .noValue assignment =>
    utf8 "invalid variable assignment " ++ assignment.quoted ++ utf8 ": must be name=value"
  | .badValue name value cause =>
    utf8 "invalid value for " ++ name ++ utf8 ": strconv.ParseInt: parsing " ++ value.quoted ++ utf8 ": "
      ++ readErrorText cause

def assign (m : Memory) (assignment : Text) : Except AssignmentError Memory :=
  match assignment.cut? 0x3d with
  | none => .error (.noValue assignment)
  | some (name, value) =>
    match Decimal.readInt64 value with
    | .ok x => .ok (m.insert name x)
    | .error cause => .error (.badValue name value cause)

def assignAll (assignments : List Text) : Except AssignmentError Memory :=
  assignments.foldlM assign ∅

end CommandLine

end ThreeRegister
