import Mathlib.Logic.Function.Basic
import Mathlib.Logic.Relation
import ThreeRegister.Native.Instruction

/-!
The meaning of amd64 code: a processor that reads its instructions from bytes. Of the instruction set it has the moves
and the arithmetic on 64-bit words, between registers or a register and memory, and the return. The flags are left out,
since none of these instructions reads them, and the bytes being run are not part of the memory.
-/

namespace ThreeRegister

namespace Native

abbrev Storage := BitVec 64 → BitVec 8

namespace Storage

def read (s : Storage) (a : BitVec 64) : BitVec 64 :=
  s (a + 7) ++ s (a + 6) ++ s (a + 5) ++ s (a + 4) ++ s (a + 3) ++ s (a + 2) ++ s (a + 1) ++ s a

def write (s : Storage) (a x : BitVec 64) : Storage :=
  fun b => if (b - a).toNat < 8 then x.extractLsb' (8 * (b - a).toNat) 8 else s b

end Storage

inductive Place where
  | register (r : Fin 16)
  | memory (base : Fin 16) (displacement : BitVec 64)
  deriving DecidableEq

inductive Command where
  | move (src dst : Place)
  | arith (a : Arith) (src dst : Place)
  | nop
  | ret
  deriving DecidableEq

def registerNumber (code : UInt8) : Fin 16 :=
  Fin.ofNat 16 code.toNat

def decodeDisplacement (mode : UInt8) (bytes : List UInt8) : Option (BitVec 64 × Nat) :=
  if mode = 0 then some (0, 0)
  else if mode = 1 then bytes.head?.map fun b => (b.toBitVec.signExtend 64, 1)
  else
    match bytes with
    | b₀ :: b₁ :: b₂ :: b₃ :: _ =>
      some ((b₃.toBitVec ++ b₂.toBitVec ++ b₁.toBitVec ++ b₀.toBitVec).signExtend 64, 4)
    | _ => none

def decodeOperands (prefixed : UInt8) : List UInt8 → Option (Fin 16 × Place × Nat)
  | [] => none
  | b :: bytes =>
    -- The fourth bit of a register's number stands in the prefix.
    let reg := registerNumber (8 * (prefixed / 4 % 2) + b / 8 % 8)
    let rm := registerNumber (8 * (prefixed % 2) + b % 8)
    let mode := b / 64
    if mode = 3 then some (reg, .register rm, 1)
    -- Operands with an index, and those relative to the instruction, are not known.
    else if b % 8 = 4 || (mode = 0 && b % 8 = 5) then none
    else (decodeDisplacement mode bytes).map fun d => (reg, .memory rm d.1, d.2 + 1)

def Arith.ofOpcode? (opcode : UInt8) : Option Arith :=
  if opcode = 0x01 then some .add
  else if opcode = 0x09 then some .or
  else if opcode = 0x21 then some .and
  else if opcode = 0x29 then some .sub
  else if opcode = 0x31 then some .xor
  else none

def decodeWide (prefixed : UInt8) : List UInt8 → Option (Command × Nat)
  | [] => none
  | opcode :: bytes =>
    if opcode = 0x8b then
      (decodeOperands prefixed bytes).map fun (reg, rm, n) => (.move rm (.register reg), n + 1)
    else if opcode = 0x89 then
      (decodeOperands prefixed bytes).map fun (reg, rm, n) => (.move (.register reg) rm, n + 1)
    else if opcode = 0x0f && bytes.head? = some 0xaf then
      (decodeOperands prefixed bytes.tail).map fun (reg, rm, n) => (.arith .imul rm (.register reg), n + 2)
    else do
      let a ← Arith.ofOpcode? opcode
      (decodeOperands prefixed bytes).map fun (reg, rm, n) => (.arith a (.register reg) rm, n + 1)

def decode : List UInt8 → Option (Command × Nat)
  | [] => none
  | b :: bytes =>
    if b = 0x90 then some (.nop, 1)
    else if b = 0xc3 then some (.ret, 1)
    else if b / 8 = 9 then (decodeWide b bytes).map fun (c, n) => (c, n + 1)
    else none

def Arith.apply : Arith → BitVec 64 → BitVec 64 → BitVec 64
  | .add, x, y => x + y
  | .sub, x, y => x - y
  | .imul, x, y => x * y
  | .and, x, y => x &&& y
  | .or, x, y => x ||| y
  | .xor, x, y => x ^^^ y

structure Processor where
  pc : Nat
  registers : Fin 16 → BitVec 64
  storage : Storage

namespace Processor

def get (p : Processor) : Place → BitVec 64
  | .register r => p.registers r
  | .memory base displacement => p.storage.read (p.registers base + displacement)

def set (p : Processor) (x : BitVec 64) : Place → Processor
  | .register r => { p with registers := Function.update p.registers r x }
  | .memory base displacement => { p with storage := p.storage.write (p.registers base + displacement) x }

def perform (p : Processor) : Command → Processor
  | .move src dst => p.set (p.get src) dst
  | .arith a src dst => p.set (a.apply (p.get dst) (p.get src)) dst
  | .nop => p
  | .ret => p

/-- One instruction. The processor stops at a return and at bytes that are no instruction. -/
def step? (code : List UInt8) (p : Processor) : Option Processor :=
  match decode (code.drop p.pc) with
  | none => none
  | some (.ret, _) => none
  | some (c, n) => some { p.perform c with pc := p.pc + n }

def Reaches (code : List UInt8) : Processor → Processor → Prop :=
  Relation.ReflTransGen fun p q => p.step? code = some q

def AtReturn (code : List UInt8) (p : Processor) : Prop :=
  p.pc + 1 = code.length ∧ decode (code.drop p.pc) = some (.ret, 1)

end Processor

end Native

end ThreeRegister
