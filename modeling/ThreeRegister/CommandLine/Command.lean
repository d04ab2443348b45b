import ThreeRegister.CommandLine.Assignment
import ThreeRegister.CommandLine.Directory
import ThreeRegister.CommandLine.Environment
import ThreeRegister.CommandLine.Flags
import ThreeRegister.Program

namespace ThreeRegister

namespace CommandLine

structure Outcome where
  exit : UInt8
  stdout : Text
  stderr : Text
  deriving DecidableEq

inductive Command where
  | listing | nextUse | run | asm
  deriving DecidableEq

namespace Command

def name : Command → String
  | .listing => "rewrite"
  | .nextUse => "nextuse"
  | .run => "run"
  | .asm => "asm"

def ofName? (name : Text) : Option Command :=
  [Command.listing, .nextUse, .run, .asm].find? fun c => utf8 c.name = name

end Command

structure Options where
  help : Bool
  allocator : Text
  validate : Bool
  trace : Bool
  residents : Bool
  assignments : List Text
  verify : Bool
  raw : Bool
  deriving DecidableEq

structure Defaults where
  allocator : Text
  validate : Bool

def Defaults.ofEnvironment (env : Environment) : Defaults where
  allocator := (env.value? "TAC3_ALLOCATOR").getD Policy.nextUse.text
  validate := (env.value? "TAC3_VALIDATE").elim true Environment.isAffirmative

def Options.initial (defaults : Defaults) : Options where
  help := false
  allocator := defaults.allocator
  validate := defaults.validate
  trace := false
  residents := false
  assignments := []
  verify := false
  raw := false

def sharedFlags (defaults : Defaults) : List (String × Flag Options) :=
  [("h", ⟨"print usage", .switch false fun b o => { o with help := b }⟩),
    ("allocator",
      ⟨"register allocation policy: nextuse or fixed. Defaults to $TAC3_ALLOCATOR if set.",
        .text defaults.allocator fun s o => { o with allocator := s }⟩),
    ("validate",
      ⟨"check the register file invariants after every instruction. Defaults to $TAC3_VALIDATE if set.",
        .switch defaults.validate fun b o => { o with validate := b }⟩),
    ("trace", ⟨"print allocation decisions to stderr", .switch false fun b o => { o with trace := b }⟩)]

def ownFlags : Command → List (String × Flag Options)
  | .listing =>
    [("residents",
      ⟨"print the register of each variable resident at the end",
        .switch false fun b o => { o with residents := b }⟩)]
  | .nextUse => []
  | .run =>
    [("set",
      ⟨"name=value pair of the initial value of a variable. " ++
          "Can be specified multiple times. Variables not set start at zero.",
        .repeated fun s o => { o with assignments := o.assignments ++ [s] }⟩),
      ("verify",
        ⟨"also run the source directly and fail if any variable differs",
          .switch false fun b o => { o with verify := b }⟩)]
  | .asm =>
    [("raw",
      ⟨"write the machine code as is instead of a hex dump",
        .switch false fun b o => { o with raw := b }⟩)]

def Command.flags (c : Command) (defaults : Defaults) : FlagSet Options :=
  .ofList (sharedFlags defaults ++ ownFlags c)

def overview : Text :=
  utf8 ("tac3 CLI\n\nUsage:\n  tac3 <command>\n\nCommands:\n" ++
    "  rewrite\tRewrites three-address code for the three register machine\n" ++
    "  nextuse\tPrints the next-use table of three-address code\n" ++
    "  run\t\tRuns rewritten three-address code on the simulated machine\n" ++
    "  asm\t\tAssembles rewritten three-address code for amd64\n")

def Command.usage (c : Command) (flags : FlagSet Options) : Text :=
  utf8 "tac3 CLI\n\nUsage:\n  tac3 " ++ utf8 c.name ++ utf8 " <options> <path to source file>\n\nOptions:\n"
    ++ flags.describe

namespace Outcome

def success (stdout : Text) : Outcome :=
  ⟨0, stdout, []⟩

def complaint (exit : UInt8) (message : Text) : Outcome :=
  ⟨exit, [], message ++ [Text.newline]⟩

def prepend (s : Text) (o : Outcome) : Outcome :=
  { o with stderr := s ++ o.stderr }

def append (o : Outcome) (s : Text) : Outcome :=
  { o with stderr := o.stderr ++ s }

def ofFlagError {σ : Type} (name : String) (flags : FlagSet σ) (e : FlagError) : Outcome :=
  let description := utf8 "Usage of " ++ utf8 name ++ utf8 ":\n" ++ flags.describe
  match e.message? with
  | none => ⟨0, [], description⟩
  | some message => (complaint 2 message).append description

end Outcome

structure Request where
  command : Command
  options : Options
  initial : Memory
  path : Text

inductive Plan where
  | settled (o : Outcome)
  | read (r : Request)

def standardInput : Text :=
  utf8 "-"

def Command.plan (c : Command) (defaults : Defaults) (arguments : List Text) : Plan :=
  let flags := c.flags defaults
  match flags.parse (.initial defaults) arguments with
  | .error e => .settled (.ofFlagError c.name flags e)
  | .ok (options, operands) =>
    if options.help then .settled ⟨0, [], c.usage flags⟩
    else match assignAll options.assignments with
      | .error e => .settled (.complaint 1 e.message)
      | .ok memory =>
        match operands with
        | [] => .settled ((Outcome.complaint 1 (utf8 "missing path to source file")).append (c.usage flags))
        | path :: _ => .read ⟨c, options, memory, path⟩

def topFlags : FlagSet Bool :=
  .ofList [("h", ⟨"print usage", .switch false fun b _ => b⟩)]

def plan (defaults : Defaults) (arguments : List Text) : Plan :=
  match topFlags.parse false arguments with
  | .error e => .settled (.ofFlagError "tac3" topFlags e)
  | .ok (true, _) | .ok (_, []) => .settled ⟨0, [], overview⟩
  | .ok (false, name :: rest) =>
    match Command.ofName? name with
    | none => .settled ((Outcome.complaint 1 (utf8 "invalid command")).append overview)
    | some c => c.plan defaults rest

def residentLines (p : Program) : Text :=
  p.vars.flatMap fun v =>
    match p.output.residents[v]? with
    | some r => utf8 "# " ++ v ++ utf8 " in " ++ r.text ++ utf8 "\n"
    | none => []

def runProgram (p : Program) (initial : Memory) : Outcome :=
  match p.run initial with
  | .error e => .complaint 1 (utf8 "error running: " ++ e.message)
  | .ok final => .success (final.text ++ utf8 "\n")

def Request.execute (r : Request) (p : Program) : Outcome :=
  match r.command with
  | .listing => .success (p.text ++ if r.options.residents then residentLines p else [])
  | .nextUse => .success p.output.nextUse.format
  | .run =>
    match if r.options.verify then p.verify r.initial else .ok () with
    | .error e => .complaint 1 (utf8 "error verifying: " ++ e.message)
    | .ok () => runProgram p r.initial
  | .asm =>
    match p.assemble with
    | .error e => .complaint 1 (utf8 "error assembling: " ++ e.message)
    | .ok bytes => .success (if r.options.raw then bytes else Hex.dump bytes.toArray)

def compileComplaint (path : Text) : CompileError → Text
  | .parse (.malformed line cause) =>
    utf8 "error parsing " ++ path ++ utf8 ":" ++ (Source.ParseError.malformed line cause).message
  | e => utf8 "error compiling: " ++ e.message

def Request.complete (r : Request) (source : Except ReadError Text) : Outcome :=
  match source with
  | .error e => .complaint 1 (utf8 "error reading source: " ++ e.message r.path)
  | .ok source =>
    match Policy.ofName r.options.allocator with
    | .error e => .complaint 1 (utf8 "error configuring: " ++ e.message)
    | .ok policy =>
      let compilation := compile source ⟨policy, ⟨r.options.validate, r.options.trace⟩⟩
      .prepend compilation.journal <|
        match compilation.result with
        | .error e => .complaint 1 (compileComplaint r.path e)
        | .ok p => r.execute p

def run (env : Environment) (files : Directory) (stdin : Text) (arguments : List Text) : Outcome :=
  match plan (.ofEnvironment env) arguments with
  | .settled o => o
  | .read r => r.complete (if r.path = standardInput then .ok stdin else files.read r.path)

end CommandLine

end ThreeRegister
