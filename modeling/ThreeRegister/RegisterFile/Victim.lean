import ThreeRegister.NextUse.Entry
import ThreeRegister.RegisterFile.Basic

/-!
Which register to evict. Only held registers that are not pinned are candidates. The next-use strategy takes the
variable that is needed farthest in the future, and of those the one accessed least recently; the fixed-slot strategy
takes the first candidate.
-/

namespace ThreeRegister

inductive Strategy where
  | nextUse
  | fixedSlot
  deriving DecidableEq

namespace RegisterFile

def evictable (f : RegisterFile) : List (Register × Variable) :=
  (List.finRange 3).filterMap fun i =>
    match f.slots.get i with
    | .held v => if f.pinned.contains i then none else some (.ofIndex i, v)
    | .free _ => none

def age (f : RegisterFile) (v : Variable) : UInt64 :=
  f.recency.getD v 0

/-- The candidate is needed later than the current choice, or just as late and was accessed longer ago. -/
def prefers (f : RegisterFile) (e : NextUse.Entry) (current candidate : Variable) : Bool :=
  match compare (e.distance candidate) (e.distance current) with
  | .gt => true
  | .eq => f.age candidate < f.age current
  | .lt => false

def farther (f : RegisterFile) (e : NextUse.Entry) (current candidate : Register × Variable) :
    Register × Variable :=
  if f.prefers e current.2 candidate.2 then candidate else current

def victim? (f : RegisterFile) (strategy : Strategy) (e : NextUse.Entry) : Option (Register × Variable) :=
  match f.evictable with
  | [] => none
  | first :: others =>
    match strategy with
    | .nextUse => some (others.foldl (f.farther e) first)
    | .fixedSlot => some first

end RegisterFile

end ThreeRegister
