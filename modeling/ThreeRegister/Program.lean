import ThreeRegister.Generation
import ThreeRegister.Native.Assembly
import ThreeRegister.Policy
import ThreeRegister.Source.Parser
import ThreeRegister.Source.Run

namespace ThreeRegister

structure Config where
  policy : Policy := .nextUse
  options : Generation.Options := {}
  deriving DecidableEq

structure Program where
  block : Source.Block
  output : Generation.Output

inductive CompileError where
  | parse (e : Source.ParseError)
  | policy (policy : Policy)
  | generation (e : Generation.Error)
  deriving DecidableEq

def CompileError.message : CompileError → Text
  | .parse e => e.message
  | .policy p => utf8 "invalid allocator " ++ p.text
  | .generation e => e.message

structure Compilation where
  journal : Text
  result : Except CompileError Program

def compile (source : Text) (config : Config) : Compilation :=
  match Source.Block.parse source with
  | .error e => ⟨[], .error (.parse e)⟩
  | .ok block =>
    match config.policy.strategy? with
    | none => ⟨[], .error (.policy config.policy)⟩
    | some strategy =>
      let (session, outcome) := Generation.generate strategy config.options .fresh block
      ⟨session.journalText, (outcome.mapError .generation).map (⟨block, ·⟩)⟩

namespace Program

def source (p : Program) : Text :=
  p.block.format

def lines (p : Program) : List Text :=
  p.output.code.map Machine.Instruction.text

def text (p : Program) : Text :=
  Machine.format p.output.code

def vars (p : Program) : List Variable :=
  p.block.vars

def assemble (p : Program) : Except Native.AssemblyError (List UInt8) :=
  Native.assemble (.ofBlock p.block) p.output.code

inductive RunError where
  | stopped (e : Machine.RunError)
  | misplaced (e : OutOfRange)
  deriving DecidableEq

def RunError.message : RunError → Text
  | .stopped e => e.message
  | .misplaced e => e.message

def run (p : Program) (m : Memory) : Except RunError Memory :=
  match (Machine.ofMemory m).run p.output.code with
  | (_, some e) => .error (.stopped e)
  | (machine, none) => (machine.final p.output.residents).mapError .misplaced

inductive VerifyError where
  | source (e : Source.RunError)
  | code (e : RunError)
  | mismatch (v : Variable) (expected actual : Int64)
  deriving DecidableEq

def VerifyError.message : VerifyError → Text
  | .source e => e.message
  | .code e => e.message
  | .mismatch v expected actual =>
    utf8 "variable " ++ v ++ utf8 ": expected " ++ Decimal.ofInt expected.toInt ++ utf8 ", but got "
      ++ Decimal.ofInt actual.toInt

def verify (p : Program) (m : Memory) : Except VerifyError Unit := do
  let expected ← (p.block.run m).mapError .source
  let actual ← (p.run m).mapError .code
  match p.vars.find? fun v => expected.read v ≠ actual.read v with
  | some v => throw (.mismatch v (expected.read v) (actual.read v))
  | none => return

end Program

end ThreeRegister
