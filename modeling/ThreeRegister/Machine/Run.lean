import ThreeRegister.Machine.Instruction
import ThreeRegister.Memory
import ThreeRegister.Operation

namespace ThreeRegister

structure Machine where
  registers : Bank Int64
  memory : Memory

namespace Machine

def ofMemory (m : Memory) : Machine :=
  ⟨.fill 0, m⟩

inductive StepError where
  | invalidRegister (r : Register)
  | invalidKind (kind : UInt8)
  | failed (cause : EvalError)
  deriving DecidableEq

def StepError.message : StepError → Text
  | .invalidRegister r => utf8 "invalid register " ++ Decimal.ofNat r.number.toNat
  | .invalidKind kind => utf8 "invalid instruction kind " ++ Decimal.ofNat kind.toNat
  | .failed cause => cause.message

/-- A change to the machine in place: what was changed before an error stays so. -/
abbrev Action := EStateM StepError Machine

def requireRegister (r : Register) : Action (Fin 3) :=
  match r.index? with
  | some i => pure i
  | none => throw (.invalidRegister r)

def setRegister (d : Fin 3) (x : Int64) : Action Unit :=
  modify fun m => { m with registers := m.registers.update d x }

def evaluate (op : Text) (l r : Fin 3) : Action Int64 := do
  let m ← get
  match eval op (m.registers.get l) (m.registers.get r) with
  | .ok x => return x
  | .error cause => throw (.failed cause)

-- The registers that an instruction names are looked at before anything else.
def step : Instruction → Action Unit
  | .load dst v => do
    let d ← requireRegister dst
    setRegister d ((← get).memory.read v)
  | .store v src => do
    let s ← requireRegister src
    modify fun m => { m with memory := m.memory.insert v (m.registers.get s) }
  | .operate op dst left right => do
    let d ← requireRegister dst
    let l ← requireRegister left
    let r ← requireRegister right
    let x ← evaluate op l r
    setRegister d x
  | .undefined kind dst => do
    let _ ← requireRegister dst
    throw (.invalidKind kind)

structure RunError where
  position : Nat
  instruction : Instruction
  cause : StepError
  deriving DecidableEq

def RunError.message (e : RunError) : Text :=
  utf8 "instruction " ++ Decimal.ofNat e.position ++ utf8 " (" ++ e.instruction.text ++ utf8 "): "
    ++ e.cause.message

def runFrom (position : Nat) : List Instruction → EStateM RunError Machine Unit
  | [] => return
  | i :: rest => do
    EStateM.adaptExcept (⟨position, i, ·⟩) (step i)
    runFrom (position + 1) rest

def run (m : Machine) (code : List Instruction) : Machine × Option RunError :=
  match (runFrom 0 code).run m with
  | .ok () n => (n, none)
  | .error e n => (n, some e)

end Machine

abbrev Residents := Std.TreeMap Variable Register

namespace Machine

def final (m : Machine) (residents : Residents) : Except OutOfRange Memory :=
  residents.toList.foldlM
    (fun memory p => do
      let i ← p.2.index
      return memory.insert p.1 (m.registers.get i))
    m.memory

end Machine

end ThreeRegister
