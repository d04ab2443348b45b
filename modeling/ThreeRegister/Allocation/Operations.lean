import ThreeRegister.Allocation.Session
import ThreeRegister.RegisterFile.Victim

namespace ThreeRegister

namespace Alloc

def touch (v : Variable) : Alloc Unit :=
  modifyFile (·.touch v)

def pin (r : Register) : Alloc Unit :=
  modifyFile (·.pin r)

def unpin : Alloc Unit :=
  modifyFile (·.unpin)

def bind (v : Variable) (r : Register) : Alloc Unit := do
  let bound ← ofExcept ((← file).bind v r)
  modifyFile fun _ => bound

def unbind (v : Variable) : Alloc Register := do
  let (r, freed) ← ofExcept ((← file).unbind v)
  modifyFile fun _ => freed
  return r

def selectVictim (strategy : Strategy) (e : NextUse.Entry) : Alloc (Register × Variable) := do
  let f ← file
  match f.victim? strategy e with
  | some victim => return victim
  | none => throw (.noVictim f.slots f.pinned)

def spill (v : Variable) (r : Register) : Alloc Unit := do
  emit (.store v r)
  modifyFile (·.assignSpillSlot v)
  discard (unbind v)

def vacate (strategy : Strategy) (e : NextUse.Entry) (event : Variable → Register → Allocation.Event) :
    Alloc Register := do
  match (← file).firstFree? with
  | some r => return r
  | none =>
    let (r, victim) ← selectVictim strategy e
    record (event victim r)
    spill victim r
    return r

def ensureResident (strategy : Strategy) (v : Variable) (e : NextUse.Entry) : Alloc Register := do
  match (← file).residency[v]? with
  | some r =>
    touch v
    return r
  | none =>
    let r ← vacate strategy e (.evictToLoad · · v)
    bind v r
    emit (.load r v)
    record (.load v r)
    touch v
    return r

def acquireDestination (strategy : Strategy) (e : NextUse.Entry) : Alloc Register :=
  vacate strategy e .evictForDestination

def reuseDead? (strategy : Strategy) (v : Variable) (e : NextUse.Entry) : Alloc (Option Register) := do
  match strategy, (← file).residency[v]? with
  | .nextUse, some r =>
    if (e.distance v).isUnbounded then
      record (.reuse r v)
      return some r
    else
      return none
  | _, _ => return none

def releaseElsewhere (v : Variable) (r : Register) : Alloc Unit := do
  match (← file).residency[v]? with
  | some home => if home ≠ r then discard (unbind v)
  | none => return

def overwrite (v : Variable) (r : Register) : Alloc Unit := do
  let slot ← ofExcept (((← file).occupant r).mapError .outOfRange)
  match slot with
  | .held w =>
    if w ≠ v then
      record (.overwrite w r)
      discard (unbind w)
  | .free _ => return

def define (v : Variable) (r : Register) : Alloc Unit := do
  releaseElsewhere v r
  overwrite v r
  if !(← file).residency.contains v then bind v r
  record (.define v r)
  touch v

def invalidate (v : Variable) : Alloc Unit := do
  match (← file).residency[v]? with
  | some r =>
    record (.invalidate v r)
    discard (unbind v)
  | none => return

end Alloc

end ThreeRegister
