import ThreeRegister.Native.Assembly
import ThreeRegister.Proofs.Native.Decoding

namespace ThreeRegister

namespace Native

namespace Storage

variable {s : Storage} {a b : BitVec 64}

theorem write_at (s : Storage) (a x : BitVec 64) (k : BitVec 64) (hk : k.toNat < 8) :
    s.write a x (a + k) = x.extractLsb' (8 * k.toNat) 8 := by
  have hdistance : a + k - a = k := by rw [BitVec.add_comm, BitVec.add_sub_cancel]
  simp only [write, hdistance, if_pos hk]

theorem extract_append (x : BitVec 64) (k n : Nat) :
    x.extractLsb' (k + 8) n ++ x.extractLsb' k 8 = x.extractLsb' k (n + 8) := by
  apply BitVec.eq_of_getElem_eq
  intro i hi
  simp only [BitVec.getElem_append, BitVec.getElem_extractLsb']
  split
  · rfl
  · congr 1
    omega

theorem extract_bytes (x : BitVec 64) :
    x.extractLsb' 56 8 ++ x.extractLsb' 48 8 ++ x.extractLsb' 40 8 ++ x.extractLsb' 32 8 ++ x.extractLsb' 24 8 ++
      x.extractLsb' 16 8 ++ x.extractLsb' 8 8 ++ x.extractLsb' 0 8 = x := by
  rw [extract_append x 48, extract_append x 40, extract_append x 32, extract_append x 24, extract_append x 16,
    extract_append x 8, extract_append x 0]
  exact BitVec.extractLsb'_eq_self

theorem read_write_self (s : Storage) (a x : BitVec 64) : (s.write a x).read a = x := by
  have hfirst := write_at s a x 0#64 (by decide)
  rw [BitVec.add_zero] at hfirst
  rw [read, hfirst]
  simp only [write_at s a x 1 (by decide), write_at s a x 2 (by decide), write_at s a x 3 (by decide),
    write_at s a x 4 (by decide), write_at s a x 5 (by decide), write_at s a x 6 (by decide),
    write_at s a x 7 (by decide)]
  exact extract_bytes x

theorem write_away (x : BitVec 64) (h : 8 ≤ (b - a).toNat) : s.write a x b = s b := by
  apply if_neg
  omega

theorem away_add {k : BitVec 64} (hab : 8 ≤ (b - a).toNat) (hba : 8 ≤ (a - b).toNat) (hk : k.toNat < 8) :
    8 ≤ (b + k - a).toNat := by
  simp only [BitVec.toNat_sub, BitVec.toNat_add] at hab hba ⊢
  omega

theorem read_write_away (x : BitVec 64) (hab : 8 ≤ (b - a).toNat) (hba : 8 ≤ (a - b).toNat) :
    (s.write a x).read b = s.read b := by
  have hbyte (k : BitVec 64) (hk : k.toNat < 8) : s.write a x (b + k) = s (b + k) :=
    write_away x (away_add hab hba hk)
  simp only [read, write_away x hab, hbyte 1 (by decide), hbyte 2 (by decide), hbyte 3 (by decide),
    hbyte 4 (by decide), hbyte 5 (by decide), hbyte 6 (by decide), hbyte 7 (by decide)]

end Storage

theorem away_of_ne (base : BitVec 64) {i j : Int} (hne : i ≠ j) (hi : InRange (i * 8)) (hj : InRange (j * 8)) :
    8 ≤ (base + BitVec.ofInt 64 (i * 8) - (base + BitVec.ofInt 64 (j * 8))).toNat := by
  unfold InRange at hi hj
  simp only [BitVec.toNat_sub, BitVec.toNat_add, BitVec.toNat_ofInt]
  omega

namespace Processor

def execute (p : Processor) (i : Instruction) : Processor :=
  { p.perform i.command with pc := p.pc + i.encode.length }

def executeAll (p : Processor) (natives : List Instruction) : Processor :=
  natives.foldl execute p

variable {p : Processor} {code rest : List UInt8}

theorem step?_encode {i : Instruction} (hi : i.Encodable) (hret : i ≠ .ret)
    (hcode : code.drop p.pc = i.encode ++ rest) : p.step? code = some (p.execute i) := by
  rw [step?, hcode, decode_encode hi]
  cases i with
  | ret => contradiction
  | _ => rfl

theorem drop_execute {i : Instruction} (hcode : code.drop p.pc = i.encode ++ rest) :
    code.drop (p.execute i).pc = rest := by
  rw [execute, ← List.drop_drop, hcode, List.drop_left]

theorem reaches_executeAll {natives : List Instruction} (hall : ∀ i ∈ natives, i.Encodable ∧ i ≠ .ret)
    (hcode : code.drop p.pc = encode natives ++ rest) :
    Reaches code p (p.executeAll natives) ∧ code.drop (p.executeAll natives).pc = rest := by
  induction natives generalizing p with
  | nil => exact ⟨.refl, hcode⟩
  | cons i natives ih =>
    rw [encode, List.flatMap_cons, List.append_assoc] at hcode
    have hi := hall i List.mem_cons_self
    have hrest := ih (fun j hj => hall j (List.mem_cons_of_mem i hj)) (drop_execute hcode)
    exact ⟨.head (step?_encode hi.1 hi.2 hcode) hrest.1, hrest.2⟩

theorem atReturn_of_drop (hcode : code.drop p.pc = Instruction.ret.encode) : p.AtReturn code := by
  have hlength := congrArg List.length hcode
  rw [List.length_drop] at hlength
  constructor
  · change code.length - p.pc = 1 at hlength
    omega
  · rw [hcode]
    rfl

theorem reaches_return {length : Nat} (hcode : code.drop p.pc = encode (epilogue length)) :
    ∃ t, Reaches code p t ∧ t.AtReturn code ∧ t.registers = p.registers ∧ t.storage = p.storage := by
  unfold epilogue at hcode
  split at hcode
  · have hnop : code.drop p.pc = Instruction.nop.encode ++ Instruction.ret.encode := hcode
    refine ⟨p.execute .nop, .single (step?_encode trivial (by decide) hnop), ?_, rfl, rfl⟩
    exact atReturn_of_drop (drop_execute hnop)
  · exact ⟨p, .refl, atReturn_of_drop hcode, rfl, rfl⟩

end Processor

end Native

end ThreeRegister
