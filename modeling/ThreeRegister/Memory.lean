import Std.Data.TreeMap
import ThreeRegister.Source.Instruction

namespace ThreeRegister

abbrev Memory := Std.TreeMap Variable Int64

namespace Memory

def read (m : Memory) (v : Variable) : Int64 :=
  m.getD v 0

def ofPairs (pairs : List (Variable × Int64)) : Memory :=
  pairs.foldl (fun m p => m.insert p.1 p.2) ∅

def text (m : Memory) : Text :=
  Text.join " " (m.toList.map fun p => p.1 ++ utf8 "=" ++ Decimal.ofInt p.2.toInt)

end Memory

end ThreeRegister
