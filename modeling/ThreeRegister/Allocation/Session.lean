import ThreeRegister.NextUse.Entry
import ThreeRegister.RegisterFile.Binding

/-!
A session of code generation: the register file, the code written so far, and, when decisions are being recorded, a
journal of them. Whatever an operation has changed, written or recorded before a fault stays so after it.
-/

namespace ThreeRegister

namespace Allocation

inductive Event where
  | instruction (position : Nat) (i : Source.Instruction) (e : NextUse.Entry)
  | load (v : Variable) (r : Register)
  | evictToLoad (victim : Variable) (r : Register) (v : Variable)
  | evictForDestination (victim : Variable) (r : Register)
  | reuse (r : Register) (v : Variable)
  | overwrite (dead : Variable) (r : Register)
  | define (v : Variable) (r : Register)
  | invalidate (v : Variable) (r : Register)

def Event.text : Event → Text
  | .instruction position i e => Decimal.ofNat position ++ utf8 ": " ++ i.text ++ utf8 " " ++ e.text
  | .load v r => utf8 "load " ++ v ++ utf8 " into " ++ r.text
  | .evictToLoad victim r v =>
    utf8 "evict " ++ victim ++ utf8 " from " ++ r.text ++ utf8 " to load " ++ v
  | .evictForDestination victim r =>
    utf8 "evict " ++ victim ++ utf8 " from " ++ r.text ++ utf8 " for a destination"
  | .reuse r v => utf8 "reuse " ++ r.text ++ utf8 " of dead " ++ v
  | .overwrite dead r => utf8 "overwrite dead " ++ dead ++ utf8 " in " ++ r.text
  | .define v r => utf8 "define " ++ v ++ utf8 " in " ++ r.text
  | .invalidate v r => utf8 "invalidate " ++ v ++ utf8 " in " ++ r.text

end Allocation

open Allocation (Event)

structure Session where
  file : RegisterFile
  code : Array Machine.Instruction
  journal : Option (Array Event)

namespace Session

def start (file : RegisterFile) (recording : Bool) : Session :=
  ⟨file, #[], if recording then some #[] else none⟩

def journalText (s : Session) : Text :=
  Text.unlines ((s.journal.getD #[]).toList.map Event.text)

end Session

abbrev Alloc := EStateM Fault Session

namespace Alloc

def file : Alloc RegisterFile := do
  return (← get).file

def modifyFile (change : RegisterFile → RegisterFile) : Alloc Unit :=
  modify fun s => { s with file := change s.file }

def emit (i : Machine.Instruction) : Alloc Unit :=
  modify fun s => { s with code := s.code.push i }

def record (e : Event) : Alloc Unit :=
  modify fun s => { s with journal := s.journal.map (·.push e) }

def ofExcept {α : Type} : Except Fault α → Alloc α
  | .ok a => pure a
  | .error fault => throw fault

end Alloc

end ThreeRegister
