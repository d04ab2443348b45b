import Std.Data.TreeMap
import ThreeRegister.NextUse.Distance
import ThreeRegister.Source.Instruction

namespace ThreeRegister

namespace NextUse

abbrev Entry := Std.TreeMap Variable Distance

namespace Entry

def distance (e : Entry) (v : Variable) : Distance :=
  e.getD v .unbounded

def set (e : Entry) (v : Variable) (d : Distance) : Entry :=
  if d.isUnbounded then e.erase v else e.insert v d

-- A later pair overrides an earlier one of the same variable.
def ofPairs (pairs : List (Variable × Distance)) : Entry :=
  pairs.foldl (fun e p => e.set p.1 p.2) ∅

def succ (e : Entry) : Entry :=
  e.filterMap fun _ d => if d.succ.isUnbounded then none else some d.succ

/-- The entry before an instruction, from the entry after it: what it reads is one away, what it writes is dead. -/
def before (i : Source.Instruction) (after : Entry) : Entry :=
  (i.operands.foldl (fun e u => e.set u (.finite 1)) after.succ).set i.target .unbounded

def text (e : Entry) : Text :=
  utf8 "\x7b" ++ Text.join ", " (e.toList.map fun p => p.1 ++ utf8 ":" ++ p.2.text) ++ utf8 "\x7d"

end Entry

end NextUse

end ThreeRegister
