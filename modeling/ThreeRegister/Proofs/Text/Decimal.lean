import ThreeRegister.Text.Decimal

namespace ThreeRegister

namespace Decimal

theorem digit?_digitChar (d : Nat) (hd : d < 10) : digit? d.digitChar.toNat.toUInt8 = some d := by
  revert d
  decide

theorem ofNat_of_lt {n : Nat} (hn : n < 10) : ofNat n = [n.digitChar.toNat.toUInt8] := by
  rw [ofNat, Nat.toDigits_of_lt_base hn]
  rfl

theorem ofNat_of_le {n : Nat} (hn : 10 ≤ n) : ofNat n = ofNat (n / 10) ++ [(n % 10).digitChar.toNat.toUInt8] := by
  rw [ofNat, Nat.toDigits_of_base_le (by decide) hn, List.map_append]
  rfl

theorem readDigits_ofNat {n : Nat} (hn : n < wordSize) (rest : Text) :
    readDigits 0 (ofNat n ++ rest) = readDigits n rest := by
  induction n using Nat.strongRecOn generalizing rest with
  | ind n ih =>
    by_cases hlt : n < 10
    · rw [ofNat_of_lt hlt, List.singleton_append, readDigits, digit?_digitChar n hlt]
      simp only [Nat.zero_mul, Nat.zero_add, Nat.not_le.mpr hn, if_false]
    · have hdigit := digit?_digitChar (n % 10) (Nat.mod_lt n (by decide))
      have hvalue : n / 10 * 10 + n % 10 = n := Nat.div_add_mod' n 10
      rw [ofNat_of_le (Nat.not_lt.mp hlt), List.append_assoc, List.singleton_append, ih (n / 10) (by omega) (by omega),
        readDigits, hdigit]
      simp only [hvalue, Nat.not_le.mpr hn, if_false]

theorem ofNat_ne_nil (n : Nat) : ofNat n ≠ [] := by
  simp [ofNat, Nat.toDigits_ne_nil]

theorem readMagnitude_ofNat {n : Nat} (hn : n < wordSize) : readMagnitude (ofNat n) = .ok n := by
  have hread := readDigits_ofNat hn []
  rw [List.append_nil] at hread
  cases h : ofNat n with
  | nil => exact absurd h (ofNat_ne_nil n)
  | cons b rest =>
    rw [h] at hread
    exact hread

theorem mem_ofNat {n : Nat} {b : UInt8} (hb : b ∈ ofNat n) : 0x30 ≤ b.toNat ∧ b.toNat ≤ 0x39 := by
  obtain ⟨c, hc, rfl⟩ := List.mem_map.mp hb
  have hdigit := Nat.isDigit_of_mem_toDigits (by decide) (by decide) hc
  have hbounds : 0x30 ≤ c.toNat ∧ c.toNat ≤ 0x39 := Char.isDigit_iff_toNat.mp hdigit
  simp only [Nat.toUInt8, UInt8.toNat_ofNat']
  omega

theorem mem_ofInt {x : Int} {b : UInt8} (hb : b ∈ ofInt x) : b = 0x2d ∨ 0x30 ≤ b.toNat ∧ b.toNat ≤ 0x39 := by
  cases x with
  | ofNat n => exact .inr (mem_ofNat hb)
  | negSucc n => exact (List.mem_cons.mp hb).imp_right mem_ofNat

theorem readInt64_ofNat {n : Nat} (hn : n < wordSize / 2) : readInt64 (ofNat n) = .ok (.ofNat n) := by
  have hread := readMagnitude_ofNat (Nat.lt_of_lt_of_le hn (Nat.div_le_self _ _))
  -- The first byte is a digit and no sign.
  have hsign {b : UInt8} {rest : Text} (hb : b.toNat < 0x30) : ofNat n ≠ b :: rest := by
    intro h
    have hdigit := mem_ofNat (h ▸ List.mem_cons_self : b ∈ ofNat n)
    omega
  unfold readInt64
  split
  next negative digits hdigits =>
  split at hdigits
  · next h => exact absurd h (hsign (by decide))
  · next h => exact absurd h (hsign (by decide))
  · cases hdigits
    simp only [hread]
    exact if_pos hn

theorem readInt64_neg {n : Nat} (hn : n ≤ wordSize / 2) : readInt64 (0x2d :: ofNat n) = .ok (.ofInt (-n)) := by
  have hread := readMagnitude_ofNat (Nat.lt_of_le_of_lt hn (by decide))
  simp only [readInt64, hread, if_true]
  exact if_pos hn

theorem readInt64_ofInt (x : Int64) : readInt64 (ofInt x.toInt) = .ok x := by
  have hhalf : wordSize / 2 = 2 ^ 63 := rfl
  have hx := Int64.ofInt_toInt x
  cases h : x.toInt with
  | ofNat n =>
    have hhigh := x.toInt_lt
    rw [h, Int.ofNat_eq_natCast] at hhigh
    rw [ofInt, readInt64_ofNat (by omega), ← hx, h]
    rfl
  | negSucc n =>
    have hlow := x.le_toInt
    rw [h] at hlow
    rw [ofInt, readInt64_neg (by omega), ← hx, h]
    rfl

end Decimal

end ThreeRegister
