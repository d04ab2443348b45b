import Mathlib.Data.Int.ModEq
import ThreeRegister.Proofs.Operation

namespace ThreeRegister

def IsWord (z : Int) : Prop :=
  -2 ^ 63 ≤ z ∧ z < 2 ^ 63

def Represents (z exact : Int) : Prop :=
  ∀ w, IsWord w ∧ w ≡ exact [ZMOD 2 ^ 64] ↔ w = z

def complement (z : Int) : Nat :=
  (z % 2 ^ 64).toNat

def Bitwise (f : Bool → Bool → Bool) (x y z : Int) : Prop :=
  IsWord z ∧ ∀ k < 64, (complement z).testBit k = f ((complement x).testBit k) ((complement y).testBit k)

def shiftCount (y : Int) : Nat :=
  (y % 64).toNat

structure IsDivision (x y q r : Int) : Prop where
  congruent : x ≡ q * y + r [ZMOD 2 ^ 64]
  remainder_lt : r.natAbs < y.natAbs
  remainder_sign : r = 0 ∨ r.sign = x.sign
  quotient : q = if x = -2 ^ 63 ∧ y = -1 then -2 ^ 63 else x.tdiv y
  remainder_of_overflow : x = -2 ^ 63 → y = -1 → r = 0

namespace Operation

def names : Operation → List String
  | .add => ["+", "add"]
  | .sub => ["-", "sub"]
  | .mul => ["*", "mul"]
  | .div => ["/", "div"]
  | .rem => ["%", "rem", "mod"]
  | .and => ["&", "and"]
  | .or => ["|", "or"]
  | .xor => ["^", "xor"]
  | .shl => ["<<", "shl"]
  | .shr => [">>", "shr"]

def IsNamed (o : Operation) (op : Text) : Prop :=
  ∃ w ∈ o.names, op.toLower = utf8 w

def Computes (x y z : Int) : Operation → Prop
  | .add => Represents z (x + y)
  | .sub => Represents z (x - y)
  | .mul => Represents z (x * y)
  | .div => ∃ r, IsDivision x y z r
  | .rem => ∃ q, IsDivision x y q z
  | .and => Bitwise Bool.and x y z
  | .or => Bitwise Bool.or x y z
  | .xor => Bitwise Bool.xor x y z
  | .shl => Represents z (x * 2 ^ shiftCount y)
  | .shr => z = x.fdiv (2 ^ shiftCount y)

end Operation

theorem isWord_toInt (x : Int64) : IsWord x.toInt :=
  ⟨x.le_toInt, x.toInt_lt⟩

theorem represents_bmod (exact : Int) : Represents (exact.bmod (2 ^ 64)) exact := by
  intro w
  rw [Int.bmod_def]
  unfold IsWord Int.ModEq
  omega

theorem Represents.of_modEq {z exact exact' : Int} (h : Represents z exact) (hmod : exact ≡ exact' [ZMOD 2 ^ 64]) :
    Represents z exact' := by
  intro w
  rw [← h w]
  exact and_congr_right fun _ => ⟨fun hw => hw.trans hmod.symm, fun hw => hw.trans hmod⟩

theorem complement_toInt (x : Int64) : complement x.toInt = x.toBitVec.toNat := by
  have hlt := x.toBitVec.isLt
  have hx : x.toInt = if 2 * x.toBitVec.toNat < 2 ^ 64 then (x.toBitVec.toNat : Int) else x.toBitVec.toNat - (2 ^ 64 : Nat) :=
    x.toBitVec.toInt_eq_toNat_cond
  unfold complement
  omega

theorem toNat_smod (y : Int64) : (y.toBitVec.smod 64).toNat = shiftCount y.toInt := by
  have hlt := (y.toBitVec.smod 64).isLt
  have hcond := (y.toBitVec.smod 64).toInt_eq_toNat_cond
  have hfmod : (y.toBitVec.smod 64).toInt = y.toInt.fmod 64 := BitVec.toInt_smod
  rw [Int.fmod_eq_emod_of_nonneg _ (by decide)] at hfmod
  unfold shiftCount
  omega

theorem isDivision {x y : Int64} (hy : y.toInt ≠ 0) : IsDivision x.toInt y.toInt (x / y).toInt (x % y).toInt where
  congruent := by
    rw [Int64.toInt_div, Int64.toInt_mod]
    have hquotient : (x.toInt.tdiv y.toInt).bmod (2 ^ 64) ≡ x.toInt.tdiv y.toInt [ZMOD 2 ^ 64] := Int.bmod_emod
    have hexact := (hquotient.mul_right y.toInt).add_right (x.toInt.tmod y.toInt)
    rw [Int.tdiv_mul_add_tmod] at hexact
    exact hexact.symm
  remainder_lt := by
    rw [Int64.toInt_mod, Int.natAbs_tmod]
    exact Nat.mod_lt _ (Int.natAbs_pos.mpr hy)
  remainder_sign := by
    rw [Int64.toInt_mod, ← Int.sign_eq_zero_iff_zero, Int.sign_tmod]
    split
    · exact .inl rfl
    · exact .inr rfl
  quotient := by
    split
    · next h =>
      rw [Int64.toInt_div, h.1, h.2]
      decide
    · next h =>
      rw [not_and_or] at h
      rcases h with hx | hy
      · apply Int64.toInt_div_of_ne_left
        rintro rfl
        exact hx rfl
      · apply Int64.toInt_div_of_ne_right
        rintro rfl
        exact hy rfl
  remainder_of_overflow := by
    intro hx hy
    rw [Int64.toInt_mod, hx, hy]
    decide

theorem bitwise_of_toNat {f : Bool → Bool → Bool} {x y z : Int64}
    (h : ∀ k, z.toBitVec.toNat.testBit k = f (x.toBitVec.toNat.testBit k) (y.toBitVec.toNat.testBit k)) :
    Bitwise f x.toInt y.toInt z.toInt := by
  refine ⟨isWord_toInt z, ?_⟩
  intro k _
  rw [complement_toInt, complement_toInt, complement_toInt, h]

theorem represents_shiftLeft (x y : Int64) : Represents (x <<< y).toInt (x.toInt * 2 ^ shiftCount y.toInt) := by
  have hshift : (x <<< y).toBitVec = x.toBitVec <<< (y.toBitVec.smod 64) := Int64.toBitVec_shiftLeft ..
  have hx : (x.toBitVec.toNat : Int) ≡ x.toInt [ZMOD 2 ^ 64] := by
    have hcomplement := complement_toInt x
    unfold complement at hcomplement
    unfold Int.ModEq
    omega
  rw [← Int64.toInt_toBitVec (x <<< y), hshift, BitVec.shiftLeft_eq', BitVec.toInt_shiftLeft, toNat_smod,
    Nat.shiftLeft_eq, Int.natCast_mul, Int.natCast_pow]
  exact (represents_bmod _).of_modEq (hx.mul_right _)

theorem toInt_shiftRight (x y : Int64) : (x >>> y).toInt = x.toInt.fdiv (2 ^ shiftCount y.toInt) := by
  have hshift : (x >>> y).toBitVec = x.toBitVec.sshiftRight' (y.toBitVec.smod 64) := Int64.toBitVec_shiftRight ..
  rw [← Int64.toInt_toBitVec (x >>> y), hshift, BitVec.toInt_sshiftRight', toNat_smod, Int.shiftRight_eq_div_pow,
    Int.fdiv_eq_ediv_of_nonneg]
  · simp
  · exact Int.pow_nonneg (by decide)

namespace Operation

variable {o : Operation} {op : Text} {x y z : Int64}

theorem mem_spellings {w : String} : (w, o) ∈ spellings ↔ w ∈ o.names := by
  cases o <;> simp [spellings, names]

theorem isNamed_iff : o.IsNamed op ↔ ofText? op = some o := by
  simp only [ofText?_eq_some, NamedIn, IsNamed, mem_spellings]

theorem result?_division (hy : y.toInt ≠ 0) :
    div.result? x y = some (x / y) ∧ rem.result? x y = some (x % y) := by
  have hne : y ≠ 0 := by
    rintro rfl
    exact hy rfl
  exact ⟨if_neg hne, if_neg hne⟩

theorem result?_eq_none : o.result? x y = none ↔ y.toInt = 0 ∧ (o = .div ∨ o = .rem) := by
  have hzero : y.toInt = 0 ↔ y = 0 := by rw [← Int64.toInt_inj, Int64.toInt_zero]
  rw [hzero]
  cases o <;> simp [result?]

theorem computes_of_result? (h : o.result? x y = some z) : o.Computes x.toInt y.toInt z.toInt := by
  have hdivisor (ho : o = .div ∨ o = .rem) : y.toInt ≠ 0 := by
    intro hy
    rw [result?_eq_none.mpr ⟨hy, ho⟩] at h
    cases h
  cases o with
  | add =>
    cases h
    rw [Int64.toInt_add]
    exact represents_bmod _
  | sub =>
    cases h
    rw [Int64.toInt_sub]
    exact represents_bmod _
  | mul =>
    cases h
    rw [Int64.toInt_mul]
    exact represents_bmod _
  | div =>
    have hy := hdivisor (.inl rfl)
    rw [(result?_division hy).1] at h
    cases h
    exact ⟨_, isDivision hy⟩
  | rem =>
    have hy := hdivisor (.inr rfl)
    rw [(result?_division hy).2] at h
    cases h
    exact ⟨_, isDivision hy⟩
  | and =>
    cases h
    apply bitwise_of_toNat
    simp
  | or =>
    cases h
    apply bitwise_of_toNat
    simp
  | xor =>
    cases h
    apply bitwise_of_toNat
    simp
  | shl =>
    cases h
    exact represents_shiftLeft x y
  | shr =>
    cases h
    exact toInt_shiftRight x y

end Operation

open Operation (div rem ofText? isNamed_iff result?_division result?_eq_none computes_of_result?)

variable {op : Text} {o : Operation} {x y z : Int64}

theorem eval_eq_ok (ho : o.IsNamed op) (hz : o.result? x y = some z) : eval op x y = .ok z := by
  rw [eval_of_some (isNamed_iff.mp ho), hz, Option.elim_some]

theorem eval_eq_divisionByZero :
    eval op x y = .error .divisionByZero ↔ y.toInt = 0 ∧ (div.IsNamed op ∨ rem.IsNamed op) := by
  simp only [isNamed_iff]
  cases hop : ofText? op with
  | none => simp [eval_of_none hop]
  | some o =>
    rw [eval_of_some hop, Option.some.injEq, Option.some.injEq, ← result?_eq_none]
    cases o.result? x y <;> simp

theorem eval_eq_unknownOperator {op' : Text} :
    eval op x y = .error (.unknownOperator op') ↔ op' = op ∧ ∀ o : Operation, ¬o.IsNamed op := by
  simp only [isNamed_iff, ← Option.eq_none_iff_forall_ne_some]
  cases hop : ofText? op with
  | none => simp [eval_of_none hop, eq_comm]
  | some o =>
    rw [eval_of_some hop]
    cases o.result? x y <;> simp

theorem eval_twos_complement (x y : Int64) :
    (∀ (op : Text) (o : Operation), o.IsNamed op → ¬(y.toInt = 0 ∧ (o = .div ∨ o = .rem)) →
      ∃ z, eval op x y = .ok z ∧ o.Computes x.toInt y.toInt z.toInt) ∧
    (∀ op op', div.IsNamed op → rem.IsNamed op' → y.toInt ≠ 0 →
      ∃ q r, eval op x y = .ok q ∧ eval op' x y = .ok r ∧ IsDivision x.toInt y.toInt q.toInt r.toInt) ∧
    (∀ op, eval op x y = .error .divisionByZero ↔ y.toInt = 0 ∧ (div.IsNamed op ∨ rem.IsNamed op)) ∧
    ∀ op op', eval op x y = .error (.unknownOperator op') ↔ op' = op ∧ ∀ o : Operation, ¬o.IsNamed op := by
  refine ⟨?_, ?_, fun op => eval_eq_divisionByZero, fun op op' => eval_eq_unknownOperator⟩
  · intro op o ho hdivisor
    cases hz : o.result? x y with
    | none => exact absurd (result?_eq_none.mp hz) hdivisor
    | some z => exact ⟨z, eval_eq_ok ho hz, computes_of_result? hz⟩
  · intro op op' hop hop' hy
    obtain ⟨hdiv, hrem⟩ := result?_division hy
    exact ⟨x / y, x % y, eval_eq_ok hop hdiv, eval_eq_ok hop' hrem, isDivision hy⟩

theorem eval_twos_complement_overflow :
    ∃ q r, eval (utf8 "Div") Int64.minValue (-1) = .ok q ∧ eval (utf8 "%") Int64.minValue (-1) = .ok r ∧
      q.toInt = -2 ^ 63 ∧ r.toInt = 0 := by
  have hdiv : div.IsNamed (utf8 "Div") := ⟨"div", by decide, by decide +kernel⟩
  have hrem : rem.IsNamed (utf8 "%") := ⟨"%", by decide, by decide +kernel⟩
  have hx : Int64.minValue.toInt = -2 ^ 63 := by decide
  have hy : (-1 : Int64).toInt = -1 := by decide
  obtain ⟨q, r, hq, hr, hdivision⟩ := (eval_twos_complement Int64.minValue (-1)).2.1 _ _ hdiv hrem (by decide)
  refine ⟨q, r, hq, hr, ?_, hdivision.remainder_of_overflow hx hy⟩
  rw [hdivision.quotient, if_pos ⟨hx, hy⟩]

end ThreeRegister
