import ThreeRegister.Text.Decimal

/-!
Straight-line three-address code: a block is a sequence of moves and binary operations on named variables. A block
may also hold foreign instructions, which say what they read and write but which nothing here can run or compile.
-/

namespace ThreeRegister

abbrev Variable := Text

namespace Source

/-- An instruction of another kind, known by the name of its type, its printed form and the tag it claims. -/
structure Foreign where
  typeName : Text
  text : Text
  tag : UInt8
  target : Variable
  operands : List Variable
  deriving DecidableEq

inductive Instruction where
  | move (dst src : Variable)
  | binary (dst left : Variable) (op : Text) (right : Variable)
  | foreign (f : Foreign)
  deriving DecidableEq

abbrev Block := List Instruction

def kindName (tag : UInt8) : Text :=
  if tag = 1 then utf8 "Move" else if tag = 2 then utf8 "BinOp" else utf8 "invalid"

structure Unsupported where
  position : Nat
  typeName : Text
  deriving DecidableEq

def Unsupported.message (e : Unsupported) : Text :=
  utf8 "instruction " ++ Decimal.ofNat e.position ++ utf8 " (" ++ e.typeName
    ++ utf8 "): unsupported instruction kind"

namespace Instruction

def tag : Instruction → UInt8
  | .move .. => 1
  | .binary .. => 2
  | .foreign f => f.tag

def target : Instruction → Variable
  | .move dst _ => dst
  | .binary dst .. => dst
  | .foreign f => f.target

def operands : Instruction → List Variable
  | .move _ src => [src]
  | .binary _ left _ right => [left, right]
  | .foreign f => f.operands

def text : Instruction → Text
  | .move dst src => dst ++ utf8 " = " ++ src
  | .binary dst left op right => dst ++ utf8 " = " ++ left ++ utf8 " " ++ op ++ utf8 " " ++ right
  | .foreign f => f.text

def check (position : Nat) : Instruction → Except Unsupported Unit
  | .foreign f => .error ⟨position, f.typeName⟩
  | _ => .ok ()

end Instruction

namespace Block

def format (block : Block) : Text :=
  Text.unlines (block.map Instruction.text)

def vars (block : Block) : List Variable :=
  (block.flatMap fun i => i.operands ++ [i.target]).eraseDups

end Block

end Source

end ThreeRegister
