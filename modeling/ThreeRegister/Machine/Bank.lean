namespace ThreeRegister

abbrev Bank (α : Type) := Vector α 3

namespace Bank

variable {α : Type}

def fill (x : α) : Bank α :=
  Vector.replicate 3 x

def update (b : Bank α) (i : Fin 3) (x : α) : Bank α :=
  b.set i.val x i.isLt

end Bank

end ThreeRegister
