import Mathlib.Data.List.Infix
import ThreeRegister.Text.Scalar

namespace ThreeRegister

open String (utf8EncodeChar)

def IsContinuation (b : UInt8) : Prop :=
  128 ≤ b.toNat ∧ b.toNat < 192

theorem toNat_byte {n : Nat} (h : n < 256) : (UInt8.ofNat n).toNat = n := by
  rw [UInt8.toNat_ofNat']
  exact Nat.mod_eq_of_lt h

theorem isContinuation_of_mem (ns : List Nat) : ∀ b ∈ ns.map fun n => UInt8.ofNat (n % 64 + 128), IsContinuation b := by
  intro b hb
  obtain ⟨n, -, rfl⟩ := List.mem_map.mp hb
  unfold IsContinuation
  rw [toNat_byte (by omega)]
  omega

theorem utf8EncodeChar_eq_cons (c : Char) : ∃ lead rest, utf8EncodeChar c = lead :: rest ∧
    (c.toNat < 128 ∧ lead.toNat = c.toNat ∨ 192 ≤ lead.toNat) ∧ ∀ b ∈ rest, IsContinuation b := by
  have hlead {n : Nat} (hn : 192 ≤ n ∧ n < 256) : 192 ≤ (UInt8.ofNat n).toNat := by
    rw [toNat_byte (by omega)]
    omega
  unfold utf8EncodeChar
  extract_lets v
  split
  · have hv : v = c.toNat := rfl
    refine ⟨_, _, rfl, .inl ?_, isContinuation_of_mem []⟩
    rw [toNat_byte (by omega)]
    omega
  · split
    · exact ⟨_, _, rfl, .inr (hlead (by omega)), isContinuation_of_mem [v]⟩
    · split
      · exact ⟨_, _, rfl, .inr (hlead (by omega)), isContinuation_of_mem [v / 64, v]⟩
      · exact ⟨_, _, rfl, .inr (hlead (by omega)), isContinuation_of_mem [v / 4096, v / 64, v]⟩

theorem utf8EncodeChar_ne_nil (c : Char) : utf8EncodeChar c ≠ [] := by
  obtain ⟨lead, rest, h, -⟩ := utf8EncodeChar_eq_cons c
  simp [h]

namespace Text

theorem codePoint_cons (lead : Nat) (b : UInt8) (rest : Text) :
    codePoint lead (b :: rest) = codePoint (lead * 64 + b.toNat % 64) rest := rfl

-- One case for each length of an encoding; the bits of the character are put together again in each.
theorem candidate_eq (c : Char) {s rest : Text} {b : UInt8} (h : utf8EncodeChar c ++ s = b :: rest) :
    candidate b rest = c := by
  have hcodePoint {n : Nat} (hn : n = c.toNat) : codePoint n [] = c := by
    rw [hn]
    exact Char.ofNat_toNat c
  have hc : c.toNat < 1114112 := by
    have hvalid := c.valid
    unfold UInt32.isValidChar Nat.isValidChar at hvalid
    change c.val.toNat < 1114112
    omega
  unfold utf8EncodeChar at h
  extract_lets v at h
  have hv : v = c.toNat := rfl
  clear_value v
  unfold candidate
  simp only [UInt8.lt_iff_toNat_lt, UInt8.reduceToNat]
  simp only [apply_ite (· ++ s), List.cons_append, List.nil_append] at h
  split at h
  · obtain ⟨rfl, rfl⟩ := List.cons.inj h
    rw [toNat_byte (by omega), if_pos (by omega)]
    exact hcodePoint hv
  · split at h
    · obtain ⟨rfl, rfl⟩ := List.cons.inj h
      rw [toNat_byte (by omega), if_neg (by omega), if_pos (by omega)]
      simp only [List.take_succ_cons, List.take_zero, codePoint_cons]
      rw [toNat_byte (by omega)]
      exact hcodePoint (by omega)
    · split at h
      · obtain ⟨rfl, rfl⟩ := List.cons.inj h
        rw [toNat_byte (by omega), if_neg (by omega), if_neg (by omega), if_pos (by omega)]
        simp only [List.take_succ_cons, List.take_zero, codePoint_cons]
        rw [toNat_byte (by omega), toNat_byte (by omega)]
        exact hcodePoint (by omega)
      · obtain ⟨rfl, rfl⟩ := List.cons.inj h
        rw [toNat_byte (by omega), if_neg (by omega), if_neg (by omega), if_neg (by omega)]
        simp only [List.take_succ_cons, List.take_zero, codePoint_cons]
        rw [toNat_byte (by omega), toNat_byte (by omega), toNat_byte (by omega)]
        exact hcodePoint (by omega)

theorem leading?_eq_some {s : Text} {c : Char} : s.leading? = some c ↔ utf8EncodeChar c <+: s := by
  cases s with
  | nil => simp [leading?]
  | cons b rest =>
    have hleading : leading? (b :: rest) =
        if (utf8EncodeChar (candidate b rest)).isPrefixOf (b :: rest) then some (candidate b rest) else none := rfl
    rw [hleading]
    constructor
    · intro h
      split at h
      · next hstarts =>
        cases h
        exact List.isPrefixOf_iff_prefix.mp hstarts
      · cases h
    · intro h
      obtain ⟨t, ht⟩ := id h
      rw [candidate_eq c ht]
      exact if_pos (List.isPrefixOf_iff_prefix.mpr h)

theorem leading?_eq_none {s : Text} : s.leading? = none ↔ ∀ c, ¬utf8EncodeChar c <+: s := by
  simp only [Option.eq_none_iff_forall_ne_some, Ne, leading?_eq_some]

theorem collectScalars_eq (found : List Scalar) (skip : Nat) (s : Text) :
    collectScalars found skip s = found.reverse ++ scalars (s.drop skip) := by
  induction s generalizing found skip with
  | nil => simp [collectScalars, scalars]
  | cons b rest ih =>
    cases skip with
    | succ skip => rw [collectScalars, ih, List.drop_succ_cons]
    | zero =>
      simp only [scalars, List.drop_zero, collectScalars]
      cases leading? (b :: rest) with
      | none => simp [ih]
      | some c => simp [ih]

theorem scalars_char (c : Char) (s : Text) : scalars (utf8EncodeChar c ++ s) = .char c :: s.scalars := by
  have hleading : leading? (utf8EncodeChar c ++ s) = some c := leading?_eq_some.mpr (List.prefix_append _ _)
  obtain ⟨lead, rest, henc, -⟩ := utf8EncodeChar_eq_cons c
  have hlength : c.utf8Size - 1 = rest.length := by
    have h := String.length_utf8EncodeChar c
    rw [henc, List.length_cons] at h
    omega
  rw [henc, List.cons_append] at hleading ⊢
  rw [scalars, collectScalars, hleading]
  simp only [collectScalars_eq, hlength, List.drop_left]
  rfl

theorem scalars_stray {b : UInt8} {s : Text} (h : ∀ c, ¬utf8EncodeChar c <+: b :: s) :
    scalars (b :: s) = .stray b :: s.scalars := by
  rw [scalars, collectScalars, leading?_eq_none.mpr h]
  simp only [collectScalars_eq]
  rfl

@[elab_as_elim]
theorem decoding_induction {motive : Text → Prop} (nil : motive [])
    (char : ∀ c s, motive s → motive (utf8EncodeChar c ++ s))
    (stray : ∀ b s, (∀ c, ¬utf8EncodeChar c <+: b :: s) → motive s → motive (b :: s)) (s : Text) : motive s := by
  induction hn : s.length using Nat.strong_induction_on generalizing s with
  | _ n ih =>
    subst hn
    by_cases h : ∃ c, utf8EncodeChar c <+: s
    · obtain ⟨c, t, rfl⟩ := h
      refine char c t (ih t.length ?_ t rfl)
      have hpos := List.length_pos_of_ne_nil (utf8EncodeChar_ne_nil c)
      rw [List.length_append]
      omega
    · cases s with
      | nil => exact nil
      | cons b t =>
        rw [not_exists] at h
        exact stray b t h (ih t.length (by simp) t rfl)

theorem ofScalars_scalars (s : Text) : ofScalars s.scalars = s := by
  induction s using decoding_induction with
  | nil => rfl
  | char c s ih =>
    rw [scalars_char, ofScalars, List.flatMap_cons, Scalar.bytes]
    exact congrArg _ ih
  | stray b s h ih =>
    rw [scalars_stray h, ofScalars, List.flatMap_cons, Scalar.bytes]
    exact congrArg _ ih

/-- No character begins before the text and ends in it. -/
def AtBoundary (s : Text) : Prop :=
  ∀ b ∈ s.head?, ¬IsContinuation b

theorem atBoundary_char (c : Char) (s : Text) : AtBoundary (utf8EncodeChar c ++ s) := by
  obtain ⟨lead, rest, henc, hlead, -⟩ := utf8EncodeChar_eq_cons c
  simp only [AtBoundary, henc, List.cons_append, List.head?_cons, Option.mem_some_iff, forall_eq', IsContinuation]
  omega

theorem prefix_of_atBoundary {c : Char} {b : UInt8} {s t : Text} (ht : t.AtBoundary)
    (h : utf8EncodeChar c <+: b :: s ++ t) : utf8EncodeChar c <+: b :: s := by
  obtain ⟨lead, rest, henc, -, hrest⟩ := utf8EncodeChar_eq_cons c
  rw [henc, List.cons_append, List.cons_prefix_cons] at h
  obtain ⟨rfl, h⟩ := h
  rw [henc, List.cons_prefix_cons]
  refine ⟨rfl, ?_⟩
  obtain ⟨u, hu⟩ := h
  rcases List.append_eq_append_iff.mp hu with ⟨more, rfl, -⟩ | ⟨more, rfl, rfl⟩
  · exact List.prefix_append rest more
  · cases more with
    | nil => simp
    | cons d more =>
      -- The encoding would go on into the second part, which does not start with a continuation.
      exact absurd (hrest d (by simp)) (ht d (by simp))

theorem scalars_append (s : Text) {t : Text} (ht : t.AtBoundary) : scalars (s ++ t) = s.scalars ++ t.scalars := by
  induction s using decoding_induction with
  | nil => rfl
  | char c s ih => rw [List.append_assoc, scalars_char, scalars_char, ih, List.cons_append]
  | stray b s h ih =>
    have hstray : ∀ c, ¬utf8EncodeChar c <+: b :: (s ++ t) := fun c hc => h c (prefix_of_atBoundary ht hc)
    rw [List.cons_append, scalars_stray hstray, scalars_stray h, ih, List.cons_append]

end Text

end ThreeRegister
