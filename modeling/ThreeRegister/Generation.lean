import ThreeRegister.Allocation.Operations
import ThreeRegister.NextUse.Table
import ThreeRegister.RegisterFile.Validity

namespace ThreeRegister

namespace Generation

inductive Error where
  | analysis (e : Source.Unsupported)
  | foreign (e : Source.Unsupported)
  | violation (position : Nat) (i : Source.Instruction) (found : RegisterFile.Violation)
  | fault (cause : Fault)
  deriving DecidableEq

def Error.message : Error → Text
  | .analysis e => utf8 "failed to analyze next uses: " ++ e.message
  | .foreign e =>
    utf8 "failed to generate instruction " ++ Decimal.ofNat e.position ++ utf8 ": " ++ e.message
  | .violation position i found =>
    utf8 "BUG: after instruction " ++ Decimal.ofNat position ++ utf8 " (" ++ i.text ++ utf8 "): "
      ++ found.message
  | .fault cause => cause.message

structure Output where
  code : List Machine.Instruction
  residents : Residents
  nextUse : NextUse.Table

structure Options where
  validate : Bool := true
  trace : Bool := false
  deriving DecidableEq

def writeMove (strategy : Strategy) (dst src : Variable) (e : NextUse.Entry) : Alloc Unit := do
  let r ← Alloc.ensureResident strategy src e
  Alloc.emit (.store dst r)
  -- The target is up to date only in memory now.
  if dst ≠ src then Alloc.invalidate dst

def reuseOperand? (strategy : Strategy) (left right : Variable) (e : NextUse.Entry) :
    Alloc (Option Register) := do
  match ← Alloc.reuseDead? strategy left e with
  | some r => return some r
  | none => Alloc.reuseDead? strategy right e

def loadOperand (strategy : Strategy) (v : Variable) (e : NextUse.Entry) : Alloc Register := do
  let r ← Alloc.ensureResident strategy v e
  Alloc.pin r
  return r

def writeOperation (strategy : Strategy) (dst left : Variable) (op : Text) (right : Variable)
    (e : NextUse.Entry) : Alloc Unit := do
  let reused ← reuseOperand? strategy left right e
  if let some r := reused then Alloc.pin r
  let l ← loadOperand strategy left e
  let r ← loadOperand strategy right e
  let d ← match reused with
    | some d => pure d
    | none => Alloc.acquireDestination strategy e
  Alloc.emit (.operate op d l r)
  Alloc.define dst d

-- The pins are taken off after a fault too.
def writeBinary (strategy : Strategy) (dst left : Variable) (op : Text) (right : Variable)
    (e : NextUse.Entry) : Alloc Unit :=
  tryFinally (writeOperation strategy dst left op right e) Alloc.unpin

abbrev Step := EStateM Error Session

def Step.ofAlloc {α : Type} (x : Alloc α) : Step α :=
  EStateM.adaptExcept .fault x

def writeInstruction (strategy : Strategy) (position : Nat) (i : Source.Instruction) (e : NextUse.Entry) :
    Step Unit := do
  Step.ofAlloc (Alloc.record (.instruction position i e))
  match i with
  | .move dst src => Step.ofAlloc (writeMove strategy dst src e)
  | .binary dst left op right => Step.ofAlloc (writeBinary strategy dst left op right e)
  | .foreign f => throw (.foreign ⟨position, f.typeName⟩)

def requireValid (position : Nat) (i : Source.Instruction) : Step Unit := do
  match (← get).file.validate with
  | .ok () => return
  | .error found => throw (.violation position i found)

def writeFrom (strategy : Strategy) (validate : Bool) (position : Nat) :
    List (Source.Instruction × NextUse.Entry) → Step Unit
  | [] => return
  | (i, e) :: rest => do
    writeInstruction strategy position i e
    if validate then requireValid position i
    writeFrom strategy validate (position + 1) rest

def generate (strategy : Strategy) (options : Options) (file : RegisterFile) (block : Source.Block) :
    Session × Except Error Output :=
  let session := Session.start file options.trace
  match NextUse.Table.ofBlock block with
  | .error e => (session, .error (.analysis e))
  | .ok table =>
    match (writeFrom strategy options.validate 0 (block.zip table)).run session with
    | .ok () reached => (reached, .ok ⟨reached.code.toList, reached.file.residency, table⟩)
    | .error e reached => (reached, .error e)

end Generation

end ThreeRegister
