import Std.Data.TreeMap
import ThreeRegister.Text.Quoted

/-!
Flags of a command line, given before its operands. A switch takes a value only after an equals sign; the other flags
take theirs there or from the argument that follows. One dash is as good as two, two alone end the flags, and a single
dash is an operand.
-/

namespace ThreeRegister

namespace CommandLine

inductive FlagKind (σ : Type) where
  | switch (initial : Bool) (set : Bool → σ → σ)
  | text (initial : Text) (set : Text → σ → σ)
  | repeated (add : Text → σ → σ)

structure Flag (σ : Type) where
  usage : String
  kind : FlagKind σ

abbrev FlagSet (σ : Type) := Std.TreeMap Text (Flag σ)

inductive FlagError where
  | help
  | undefined (name : Text)
  | missingValue (name : Text)
  | badBoolean (value name : Text)
  | badForm (argument : Text)
  deriving DecidableEq

def FlagError.message? : FlagError → Option Text
  | .help => none
  | .undefined name => some (utf8 "flag provided but not defined: -" ++ name)
  | .missingValue name => some (utf8 "flag needs an argument: -" ++ name)
  | .badBoolean value name =>
    some (utf8 "invalid boolean value " ++ value.quoted ++ utf8 " for -" ++ name ++ utf8 ": parse error")
  | .badForm argument => some (utf8 "bad flag syntax: " ++ argument)

inductive Argument where
  | operand
  | terminator
  | malformed
  | flag (name : Text) (value : Option Text)
  deriving DecidableEq

namespace Argument

def dash : UInt8 := 0x2d

def equals : UInt8 := 0x3d

def ofFlagText (s : Text) : Argument :=
  if s.startsWith dash || s.startsWith equals || s.isEmpty then .malformed
  else match s.cut? equals with
    | some (name, value) => .flag name (some value)
    | none => .flag s none

def ofText (argument : Text) : Argument :=
  match argument with
  | first :: second :: rest =>
    if first ≠ dash then .operand
    else if second ≠ dash then ofFlagText (second :: rest)
    else if rest.isEmpty then .terminator
    else ofFlagText rest
  | _ => .operand

end Argument

def boolean? (value : Text) : Option Bool :=
  if ["1", "t", "T", "TRUE", "true", "True"].any fun s => utf8 s = value then some true
  else if ["0", "f", "F", "FALSE", "false", "False"].any fun s => utf8 s = value then some false
  else none

namespace Flag

variable {σ : Type}

def valueName (f : Flag σ) : Text :=
  match f.kind with
  | .switch .. => []
  | .text .. => utf8 " string"
  | .repeated _ => utf8 " value"

def initialNote (f : Flag σ) : Text :=
  match f.kind with
  | .switch true _ => utf8 " (default true)"
  | .switch false _ => []
  | .text initial _ => if initial.isEmpty then [] else utf8 " (default " ++ initial.quoted ++ utf8 ")"
  | .repeated _ => []

def describe (name : Text) (f : Flag σ) : Text :=
  let head := utf8 "  -" ++ name ++ f.valueName
  let gap := if head.length ≤ 4 then "\t" else "\n    \t"
  head ++ utf8 gap ++ utf8 f.usage ++ f.initialNote ++ utf8 "\n"

end Flag

namespace FlagSet

variable {σ : Type}

def ofList (flags : List (String × Flag σ)) : FlagSet σ :=
  flags.foldl (fun set f => set.insert (utf8 f.1) f.2) ∅

def describe (flags : FlagSet σ) : Text :=
  flags.toList.flatMap fun f => f.2.describe f.1

def kind? (flags : FlagSet σ) (name : Text) : Option (FlagKind σ) :=
  (flags.get? name).map Flag.kind

def parse (flags : FlagSet σ) (options : σ) : List Text → Except FlagError (σ × List Text)
  | [] => .ok (options, [])
  | argument :: rest =>
    match Argument.ofText argument with
    | .operand => .ok (options, argument :: rest)
    | .terminator => .ok (options, rest)
    | .malformed => .error (.badForm argument)
    | .flag name value =>
      match flags.kind? name with
      | none => .error (if name = utf8 "help" || name = utf8 "h" then .help else .undefined name)
      | some (.switch _ set) =>
        match value with
        | none => parse flags (set true options) rest
        | some v =>
          match boolean? v with
          | some b => parse flags (set b options) rest
          | none => .error (.badBoolean v name)
      | some (.text _ set) | some (.repeated set) =>
        match value, rest with
        | some v, rest => parse flags (set v options) rest
        | none, v :: rest => parse flags (set v options) rest
        | none, [] => .error (.missingValue name)

end FlagSet

end CommandLine

end ThreeRegister
