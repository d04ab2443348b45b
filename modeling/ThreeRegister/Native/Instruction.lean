import ThreeRegister.Text

namespace ThreeRegister

namespace Native

inductive Gpr where
  | ax | cx | dx | r11
  deriving DecidableEq

namespace Gpr

def code : Gpr → UInt8
  | .ax => 0
  | .cx => 1
  | .dx => 2
  | .r11 => 11

def low (g : Gpr) : UInt8 :=
  g.code % 8

def high (g : Gpr) : UInt8 :=
  g.code / 8

end Gpr

inductive Arith where
  | add | sub | imul | and | or | xor
  deriving DecidableEq

inductive Instruction where
  | load (offset : Int) (dst : Gpr)
  | store (src : Gpr) (offset : Int)
  | move (src dst : Gpr)
  | arith (op : Arith) (src dst : Gpr)
  | nop
  | ret
  deriving DecidableEq

def rex (reg rm : Gpr) : UInt8 :=
  0x48 + 4 * reg.high + rm.high

def registers (reg rm : Gpr) : UInt8 :=
  0xc0 + 8 * reg.low + rm.low

def baseCode : UInt8 := 7

def byteOf (n : Int) : UInt8 :=
  (n % 256).toNat.toUInt8

def displaced (reg : Gpr) (offset : Int) : List UInt8 :=
  let operand (mode : UInt8) := mode + 8 * reg.low + baseCode
  if offset = 0 then [operand 0x00]
  else if -128 ≤ offset && offset ≤ 127 then [operand 0x40, byteOf offset]
  else [operand 0x80, byteOf offset, byteOf (offset / 0x100), byteOf (offset / 0x10000),
    byteOf (offset / 0x1000000)]

def Arith.opcode : Arith → UInt8
  | .add => 0x01
  | .sub => 0x29
  | .and => 0x21
  | .or => 0x09
  | .xor => 0x31
  | .imul => 0xaf

def Instruction.encode : Instruction → List UInt8
  | .load offset dst => [rex dst .ax, 0x8b] ++ displaced dst offset
  | .store src offset => [rex src .ax, 0x89] ++ displaced src offset
  | .move src dst => [rex src dst, 0x89, registers src dst]
  | .arith .imul src dst => [rex dst src, 0x0f, Arith.imul.opcode, registers dst src]
  | .arith op src dst => [rex src dst, op.opcode, registers src dst]
  | .nop => [0x90]
  | .ret => [0xc3]

end Native

end ThreeRegister
