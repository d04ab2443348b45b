import Std.Data.TreeMap
import ThreeRegister.Machine.Instruction
import ThreeRegister.Native.Instruction
import ThreeRegister.Text.Quoted

/-!
Lowering machine code to amd64. Each register of the machine has one of its own, and an operation that would overwrite
its second operand too early goes through R11 unless its operands may be exchanged.
-/

namespace ThreeRegister

/-- The slot of each variable in memory, eight bytes apart. -/
abbrev Layout := Std.TreeMap Variable Int

namespace Layout

def ofPairs (pairs : List (Variable × Int)) : Layout :=
  pairs.foldl (fun l p => l.insert p.1 p.2) ∅

def ofBlock (block : Source.Block) : Layout :=
  ofPairs (block.vars.zipIdx.map fun p => (p.1, (p.2 : Int)))

end Layout

namespace Native

inductive LoweringError where
  | invalidKind (kind : UInt8)
  | invalidRegister (r : Register)
  | noSlot (v : Variable)
  | unsupportedOperator (op : Text)
  deriving DecidableEq

def LoweringError.message : LoweringError → Text
  | .invalidKind kind => utf8 "invalid instruction kind " ++ Decimal.ofNat kind.toNat
  | .invalidRegister r => utf8 "invalid register " ++ Decimal.ofNat r.number.toNat
  | .noSlot v => utf8 "variable " ++ v ++ utf8 " has no slot"
  | .unsupportedOperator op => utf8 "unsupported operator " ++ op.quoted

def home : Fin 3 → Gpr
  | 0 => .ax
  | 1 => .dx
  | 2 => .cx

def Gpr.ofRegister (r : Register) : Except LoweringError Gpr :=
  match r.index? with
  | some i => .ok (home i)
  | none => .error (.invalidRegister r)

def operators : List (String × Arith) :=
  [("+", .add), ("-", .sub), ("*", .imul), ("&", .and), ("|", .or), ("^", .xor)]

def Arith.ofOperator (op : Text) : Except LoweringError Arith :=
  match operators.find? fun o => utf8 o.1 = op with
  | some o => .ok o.2
  | none => .error (.unsupportedOperator op)

def Arith.isCommutative (a : Arith) : Bool :=
  a ≠ .sub

def offset (layout : Layout) (v : Variable) : Except LoweringError Int :=
  match layout[v]? with
  | some slot => .ok (slot * 8)
  | none => .error (.noSlot v)

def arithmetic (a : Arith) (dst left right : Gpr) : List Instruction :=
  if dst = left then [.arith a right dst]
  else if dst = right then
    if a.isCommutative then [.arith a left dst]
    else [.move left .r11, .arith a right .r11, .move .r11 dst]
  else [.move left dst, .arith a right dst]

def lower (layout : Layout) : Machine.Instruction → Except LoweringError (List Instruction)
  | .load dst v => do
    let d ← Gpr.ofRegister dst
    let o ← offset layout v
    return [.load o d]
  | .store v src => do
    let s ← Gpr.ofRegister src
    let o ← offset layout v
    return [.store s o]
  | .operate op dst left right => do
    let a ← Arith.ofOperator op
    let d ← Gpr.ofRegister dst
    let l ← Gpr.ofRegister left
    let r ← Gpr.ofRegister right
    return arithmetic a d l r
  | .undefined kind _ => .error (.invalidKind kind)

structure AssemblyError where
  position : Nat
  instruction : Machine.Instruction
  cause : LoweringError
  deriving DecidableEq

def AssemblyError.message (e : AssemblyError) : Text :=
  utf8 "failed to assemble instruction " ++ Decimal.ofNat e.position ++ utf8 " (" ++ e.instruction.text
    ++ utf8 "): " ++ e.cause.message

def body (layout : Layout) (code : List Machine.Instruction) : Except AssemblyError (List Instruction) := do
  let parts ← code.zipIdx.mapM fun i => (lower layout i.1).mapError (⟨i.2, i.1, ·⟩)
  return parts.flatten

/-- The return after a body of so many bytes. Its byte must not be the last before a multiple of 32, so a no-op moves
it on where it would be. -/
def epilogue (length : Nat) : List Instruction :=
  if (length + 1) % 32 = 0 then [.nop, .ret] else [.ret]

def encode (instructions : List Instruction) : List UInt8 :=
  instructions.flatMap Instruction.encode

/-- The bytes of some instructions and the return after them. It is an assumption that an assembler writes these: it is
free to encode an instruction in another way, and to pad the code elsewhere. -/
def assumedEncoding (natives : List Instruction) : List UInt8 :=
  let bytes := encode natives
  bytes ++ encode (epilogue bytes.length)

def assemble (layout : Layout) (code : List Machine.Instruction) : Except AssemblyError (List UInt8) := do
  return assumedEncoding (← body layout code)

end Native

end ThreeRegister
