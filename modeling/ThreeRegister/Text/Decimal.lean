import ThreeRegister.Text

namespace ThreeRegister

namespace Decimal

def ofNat (n : Nat) : Text :=
  (Nat.toDigits 10 n).map fun c => c.toNat.toUInt8

def ofInt : Int → Text
  | .ofNat n => ofNat n
  | .negSucc n => 0x2d :: ofNat (n + 1)

inductive ReadError where
  | malformed
  | outOfRange
  deriving DecidableEq, Repr

def digit? (b : UInt8) : Option Nat :=
  if 0x30 ≤ b && b ≤ 0x39 then some (b.toNat - 0x30) else none

def wordSize : Nat := 0x10000000000000000

def readDigits (n : Nat) : Text → Except ReadError Nat
  | [] => .ok n
  | b :: rest =>
    match digit? b with
    | none => .error .malformed
    -- A number that has grown too large is out of range whatever follows.
    | some d => if wordSize ≤ n * 10 + d then .error .outOfRange else readDigits (n * 10 + d) rest

def readMagnitude : Text → Except ReadError Nat
  | [] => .error .malformed
  | digits => readDigits 0 digits

def readInt64 (s : Text) : Except ReadError Int64 := do
  let (negative, digits) := match s with
    | 0x2b :: rest => (false, rest)
    | 0x2d :: rest => (true, rest)
    | _ => (false, s)
  let n ← readMagnitude digits
  if negative then
    if n ≤ wordSize / 2 then .ok (Int64.ofInt (-n)) else .error .outOfRange
  else
    if n < wordSize / 2 then .ok (Int64.ofNat n) else .error .outOfRange

end Decimal

end ThreeRegister
