import ThreeRegister.NextUse.Entry
import ThreeRegister.OutOfRange

namespace ThreeRegister

namespace NextUse

abbrev Table := List Entry

namespace Table

/-- The table of the instructions from a position on. Of several foreign instructions the last one is reported. -/
def ofBlockFrom (position : Nat) (block : Source.Block) : Except Source.Unsupported Table :=
  (block.zipIdx position).foldr
    (fun i later => do
      let table ← later
      i.1.check i.2
      return Entry.before i.1 (table.headD ∅) :: table)
    (.ok [])

def ofBlock (block : Source.Block) : Except Source.Unsupported Table :=
  ofBlockFrom 0 block

def after (t : Table) (position : Int64) : Except OutOfRange Entry :=
  let next := position + 1
  if next < 0 then .error ⟨next.toInt, t.length⟩ else .ok (t[next.toInt.toNat]?.getD ∅)

def format (t : Table) : Text :=
  Text.unlines (t.mapIdx fun i e => Decimal.ofNat i ++ utf8 ": " ++ e.text)

end Table

end NextUse

end ThreeRegister
