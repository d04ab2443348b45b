import ThreeRegister.RegisterFile.Basic

namespace ThreeRegister

namespace RegisterFile

inductive Violation where
  | mismatch (r : Register) (v : Variable) (home : Option Register)
  | count (occupied residents : Nat)
  | invalidHome (v : Variable) (r : Register)
  | notHeld (v : Variable) (r : Register)
  deriving DecidableEq

def Violation.message (violation : Violation) : Text :=
  utf8 "register file invariant violated: " ++ match violation with
  | .mismatch r v home =>
    r.text ++ utf8 " holds " ++ v ++ utf8 " but " ++ v ++ utf8 " is mapped to "
      ++ (home.getD .absent).text
  | .count occupied residents =>
    Decimal.ofNat occupied ++ utf8 " occupied registers but " ++ Decimal.ofNat residents
      ++ utf8 " resident variables"
  | .invalidHome v r => v ++ utf8 " is mapped to invalid register " ++ Decimal.ofNat r.number.toNat
  | .notHeld v r => v ++ utf8 " is mapped to " ++ r.text ++ utf8 " which is not occupied by it"

def slotViolation? (f : RegisterFile) (i : Fin 3) : Option Violation :=
  match f.slots.get i with
  | .free _ => none
  | .held v =>
    let home := f.residency[v]?
    if home = some (.ofIndex i) then none else some (.mismatch (.ofIndex i) v home)

def occupied (f : RegisterFile) : Nat :=
  (List.finRange 3).countP fun i => (f.slots.get i).isHeld

def countViolation? (f : RegisterFile) : Option Violation :=
  if f.occupied = f.residency.size then none else some (.count f.occupied f.residency.size)

def homeViolation? (f : RegisterFile) (home : Variable × Register) : Option Violation :=
  match home.2.index? with
  | none => some (.invalidHome home.1 home.2)
  | some i => if f.slots.get i = .held home.1 then none else some (.notHeld home.1 home.2)

def violation? (f : RegisterFile) : Option Violation :=
  (List.finRange 3).findSome? f.slotViolation?
    <|> f.countViolation?
    <|> f.residency.toList.findSome? f.homeViolation?

def validate (f : RegisterFile) : Except Violation Unit :=
  match f.violation? with
  | some violation => .error violation
  | none => .ok ()

end RegisterFile

end ThreeRegister
