import ThreeRegister.Memory
import ThreeRegister.Operation

namespace ThreeRegister

namespace Source

inductive RunError where
  | failed (position : Nat) (instruction : Instruction) (cause : EvalError)
  | unsupported (e : Unsupported)
  deriving DecidableEq

def RunError.message : RunError → Text
  | .failed position instruction cause =>
    utf8 "instruction " ++ Decimal.ofNat position ++ utf8 " (" ++ instruction.text ++ utf8 "): "
      ++ cause.message
  | .unsupported e => e.message

def Instruction.run (position : Nat) (i : Instruction) (m : Memory) : Except RunError Memory :=
  match i with
  | .move dst src => .ok (m.insert dst (m.read src))
  | .binary dst left op right =>
    match eval op (m.read left) (m.read right) with
    | .ok x => .ok (m.insert dst x)
    | .error cause => .error (.failed position i cause)
  | .foreign f => .error (.unsupported ⟨position, f.typeName⟩)

namespace Block

def runFrom (position : Nat) : Block → Memory → Except RunError Memory
  | [], m => .ok m
  | i :: rest, m =>
    match i.run position m with
    | .ok next => runFrom (position + 1) rest next
    | .error e => .error e

def run (block : Block) (m : Memory) : Except RunError Memory :=
  runFrom 0 block m

end Block

end Source

end ThreeRegister
