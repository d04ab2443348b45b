import ThreeRegister.Machine.Register
import ThreeRegister.Source.Instruction
import ThreeRegister.Text.Casing

namespace ThreeRegister

namespace Machine

inductive Instruction where
  | load (dst : Register) (v : Variable)
  | store (v : Variable) (src : Register)
  | operate (op : Text) (dst left right : Register)
  | undefined (kind : UInt8) (dst : Register)
  deriving DecidableEq

def kindName (kind : UInt8) : Text :=
  if kind = 1 then utf8 "LD" else if kind = 2 then utf8 "ST" else if kind = 3 then utf8 "OP"
  else utf8 "invalid"

namespace Instruction

def ofFields (kind : UInt8) (v : Variable) (op : Text) (dst left right : Register) : Instruction :=
  if kind = 1 then .load dst v else if kind = 2 then .store v dst
  else if kind = 3 then .operate op dst left right else .undefined kind dst

def kind : Instruction → UInt8
  | .load .. => 1
  | .store .. => 2
  | .operate .. => 3
  | .undefined kind _ => kind

def mnemonic : Instruction → Text
  | .operate op .. => op.toUpper
  | i => kindName i.kind

def text (i : Instruction) : Text :=
  let line (operands : List Text) := i.mnemonic.padTo 3 ++ utf8 " " ++ Text.join ", " operands
  match i with
  | .load dst v => line [dst.text, v]
  | .store v src => line [v, src.text]
  | .operate _ dst left right => line [dst.text, left.text, right.text]
  | .undefined .. => utf8 "invalid"

end Instruction

def format (code : List Instruction) : Text :=
  Text.unlines (code.map Instruction.text)

end Machine

end ThreeRegister
