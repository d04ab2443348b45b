import ThreeRegister.Proofs.Native.Processor

namespace ThreeRegister

namespace Native

theorem toBitVec_byteOf (n : Int) : (byteOf n).toBitVec = BitVec.ofInt 8 n := by
  apply BitVec.eq_of_toNat_eq
  simp only [byteOf, BitVec.toNat_ofInt, UInt8.toNat_toBitVec, Nat.toUInt8_eq, UInt8.toNat_ofNat']
  omega

theorem toNat_append_byte {w : Nat} (x : BitVec w) (y : BitVec 8) : (x ++ y).toNat = x.toNat * 256 + y.toNat := by
  rw [BitVec.toNat_append, ← Nat.shiftLeft_add_eq_or_of_lt y.isLt, Nat.shiftLeft_eq]

theorem emod_mul_byte (n m : Int) : n % (m * 256) = n / 256 % m * 256 + n % 256 := by
  have hquotient : n / (m * 256) = n / 256 / m := by
    rw [Int.mul_comm m, Int.ediv_ediv_of_nonneg (by decide)]
  rw [Int.emod_def, Int.emod_def (n / 256) m, hquotient, Int.mul_right_comm]
  omega

theorem ofInt_append (w : Nat) (n : Int) :
    BitVec.ofInt w (n / 0x100) ++ BitVec.ofInt 8 n = BitVec.ofInt (w + 8) n := by
  have hpos : (0 : Int) < ((2 ^ w : Nat) : Int) := Int.natCast_pos.mpr (Nat.two_pow_pos w)
  have hhigh := Int.emod_nonneg (n / 256) (Int.ne_of_gt hpos)
  have hmod := emod_mul_byte n (2 ^ w : Nat)
  have hpow : ((2 ^ (w + 8) : Nat) : Int) = ((2 ^ w : Nat) : Int) * 256 := by rw [Nat.pow_add]; rfl
  apply BitVec.eq_of_toNat_eq
  rw [toNat_append_byte, BitVec.toNat_ofInt, BitVec.toNat_ofInt, BitVec.toNat_ofInt, hpow, hmod]
  omega

theorem ofInt_bytes (n : Int) :
    BitVec.ofInt 8 (n / 0x1000000) ++ BitVec.ofInt 8 (n / 0x10000) ++ BitVec.ofInt 8 (n / 0x100) ++ BitVec.ofInt 8 n
      = BitVec.ofInt 32 n := by
  have hfourth : n / 0x1000000 = n / 0x100 / 0x100 / 0x100 := by omega
  have hthird : n / 0x10000 = n / 0x100 / 0x100 := by omega
  rw [hfourth, hthird, ofInt_append, ofInt_append, ofInt_append]

def Gpr.number (g : Gpr) : Fin 16 :=
  registerNumber g.code

theorem Gpr.number_inj {g h : Gpr} : g.number = h.number ↔ g = h := by
  cases g <;> cases h <;> decide

def baseNumber : Fin 16 :=
  registerNumber baseCode

theorem Gpr.number_ne_base (g : Gpr) : g.number ≠ baseNumber := by
  cases g <;> decide

def InRange (offset : Int) : Prop :=
  -0x80000000 ≤ offset ∧ offset < 0x80000000

namespace Instruction

def command : Instruction → Command
  | .load offset dst => .move (.memory baseNumber (BitVec.ofInt 64 offset)) (.register dst.number)
  | .store src offset => .move (.register src.number) (.memory baseNumber (BitVec.ofInt 64 offset))
  | .move src dst => .move (.register src.number) (.register dst.number)
  | .arith op src dst => .arith op (.register src.number) (.register dst.number)
  | .nop => .nop
  | .ret => .ret

def Encodable : Instruction → Prop
  | .load offset _ => InRange offset
  | .store _ offset => InRange offset
  | _ => True

end Instruction

theorem decodeOperands_registers (reg rm : Gpr) (rest : List UInt8) :
    decodeOperands (rex reg rm) (registers reg rm :: rest) = some (reg.number, .register rm.number, 1) := by
  cases reg <;> cases rm <;> rfl

theorem decodeOperands_base (reg : Gpr) (mode : UInt8) (hmode : mode = 0 ∨ mode = 1 ∨ mode = 2) (bytes : List UInt8) :
    decodeOperands (rex reg .ax) ((64 * mode + 8 * reg.low + baseCode) :: bytes) =
      (decodeDisplacement mode bytes).map fun d => (reg.number, .memory baseNumber d.1, d.2 + 1) := by
  rcases hmode with rfl | rfl | rfl <;> cases reg <;> rfl

theorem decodeOperands_displaced (reg : Gpr) {offset : Int} (h : InRange offset) (rest : List UInt8) :
    decodeOperands (rex reg .ax) (displaced reg offset ++ rest) =
      some (reg.number, .memory baseNumber (BitVec.ofInt 64 offset), (displaced reg offset).length) := by
  unfold displaced
  split
  case isTrue hzero =>
    subst hzero
    exact decodeOperands_base reg 0 (by simp) rest
  case isFalse =>
    split
    case isTrue hbyte =>
      have hbounds : -128 ≤ offset ∧ offset ≤ 127 := by simpa using hbyte
      have hvalue : (byteOf offset).toBitVec.signExtend 64 = BitVec.ofInt 64 offset := by
        have hbyte : (BitVec.ofInt 8 offset).toInt = offset :=
          BitVec.toInt_ofInt_eq_self (by decide) hbounds.1 (by omega)
        rw [toBitVec_byteOf, BitVec.signExtend, hbyte]
      rw [← hvalue]
      exact decodeOperands_base reg 1 (by simp) (byteOf offset :: rest)
    case isFalse =>
      have hvalue : ((byteOf (offset / 0x1000000)).toBitVec ++ (byteOf (offset / 0x10000)).toBitVec ++
          (byteOf (offset / 0x100)).toBitVec ++ (byteOf offset).toBitVec).signExtend 64 = BitVec.ofInt 64 offset := by
        have hword : (BitVec.ofInt 32 offset).toInt = offset := BitVec.toInt_ofInt_eq_self (by decide) h.1 h.2
        simp only [toBitVec_byteOf, ofInt_bytes, BitVec.signExtend, hword]
      rw [← hvalue]
      exact decodeOperands_base reg 2 (by simp) (byteOf offset :: byteOf (offset / 0x100) ::
        byteOf (offset / 0x10000) :: byteOf (offset / 0x1000000) :: rest)

theorem decode_rex (reg rm : Gpr) (bytes : List UInt8) :
    decode (rex reg rm :: bytes) = (decodeWide (rex reg rm) bytes).map fun d => (d.1, d.2 + 1) := by
  cases reg <;> cases rm <;> rfl

theorem decodeWide_arith {op : Arith} (hop : op ≠ .imul) (prefixed : UInt8) (bytes : List UInt8) :
    decodeWide prefixed (op.opcode :: bytes) =
      (decodeOperands prefixed bytes).map fun d => (.arith op (.register d.1) d.2.1, d.2.2 + 1) := by
  cases op with
  | imul => contradiction
  | _ => rfl

theorem decode_encode {i : Instruction} (h : i.Encodable) (rest : List UInt8) :
    decode (i.encode ++ rest) = some (i.command, i.encode.length) := by
  cases i with
  | load offset dst =>
    have hoperands := decodeOperands_displaced dst h rest
    simp [Instruction.encode, decode_rex, decodeWide, hoperands, Instruction.command]
  | store src offset =>
    have hoperands := decodeOperands_displaced src h rest
    simp [Instruction.encode, decode_rex, decodeWide, hoperands, Instruction.command]
  | move src dst =>
    have hoperands := decodeOperands_registers src dst rest
    simp [Instruction.encode, decode_rex, decodeWide, hoperands, Instruction.command]
  | arith op src dst =>
    by_cases hop : op = .imul
    · subst hop
      have hoperands := decodeOperands_registers dst src rest
      simp [Instruction.encode, decode_rex, decodeWide, Arith.opcode, hoperands, Instruction.command]
    · have hoperands := decodeOperands_registers src dst rest
      simp [Instruction.encode, decode_rex, decodeWide_arith hop, hoperands, Instruction.command]
  | nop => rfl
  | ret => rfl

end Native

end ThreeRegister
