import ThreeRegister.RegisterFile.Victim
import ThreeRegister.Text.Quoted

namespace ThreeRegister

inductive Policy where
  | nextUse
  | fixed
  | other (code : UInt8)
  deriving DecidableEq

namespace Policy

def ofCode (code : UInt8) : Policy :=
  if code = 0 then .nextUse else if code = 1 then .fixed else .other code

def text : Policy → Text
  | .nextUse => utf8 "nextuse"
  | .fixed => utf8 "fixed"
  | .other code => utf8 "Policy(" ++ Decimal.ofNat code.toNat ++ utf8 ")"

structure UnknownName where
  name : Text
  deriving DecidableEq

def UnknownName.message (e : UnknownName) : Text :=
  utf8 "invalid allocator " ++ e.name.quoted ++ utf8 ": must be nextuse or fixed"

def ofName (name : Text) : Except UnknownName Policy :=
  if name = utf8 "nextuse" then .ok .nextUse
  else if name = utf8 "fixed" then .ok .fixed
  else .error ⟨name⟩

def strategy? : Policy → Option Strategy
  | .nextUse => some .nextUse
  | .fixed => some .fixedSlot
  | .other _ => none

end Policy

end ThreeRegister
