import ThreeRegister.Text.Casing
import ThreeRegister.Text.Quoted

/-!
Arithmetic on 64-bit words. Results wrap around, division truncates toward zero, and a shift takes its count modulo the
word size. An operation is named by a sign or a word, in any case.
-/

namespace ThreeRegister

inductive Operation where
  | add | sub | mul | div | rem | and | or | xor | shl | shr
  deriving DecidableEq

inductive EvalError where
  | divisionByZero
  | unknownOperator (op : Text)
  deriving DecidableEq

def EvalError.message : EvalError → Text
  | .divisionByZero => utf8 "integer divide by zero"
  | .unknownOperator op => utf8 "unknown operator " ++ op.quoted

namespace Operation

def spellings : List (String × Operation) :=
  [("+", add), ("add", add), ("-", sub), ("sub", sub), ("*", mul), ("mul", mul), ("/", div), ("div", div),
    ("%", rem), ("rem", rem), ("mod", rem), ("&", and), ("and", and), ("|", or), ("or", or), ("^", xor),
    ("xor", xor), ("<<", shl), ("shl", shl), (">>", shr), ("shr", shr)]

def ofText? (op : Text) : Option Operation :=
  let lowered := op.toLower
  (spellings.find? fun s => utf8 s.1 = lowered).map (·.2)

def result? : Operation → Int64 → Int64 → Option Int64
  | .add, x, y => some (x + y)
  | .sub, x, y => some (x - y)
  | .mul, x, y => some (x * y)
  | .div, x, y => if y = 0 then none else some (x / y)
  | .rem, x, y => if y = 0 then none else some (x % y)
  | .and, x, y => some (x &&& y)
  | .or, x, y => some (x ||| y)
  | .xor, x, y => some (x ^^^ y)
  | .shl, x, y => some (x <<< y)
  | .shr, x, y => some (x >>> y)

end Operation

def eval (op : Text) (x y : Int64) : Except EvalError Int64 :=
  match Operation.ofText? op with
  | none => .error (.unknownOperator op)
  | some operation =>
    match operation.result? x y with
    | none => .error .divisionByZero
    | some z => .ok z

end ThreeRegister
