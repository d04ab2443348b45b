import Mathlib.Data.List.ReduceOption
import ThreeRegister.Proofs.Lookup
import ThreeRegister.Proofs.Text.Blank
import ThreeRegister.Proofs.Text.Line
import ThreeRegister.Source.Parser

namespace ThreeRegister

namespace Source

open Text (Tokens Lines)

def letters : Text :=
  utf8 "ABCDEFGHIJKLMNOPQRSTUVWXYZabcdefghijklmnopqrstuvwxyz_"

def digits : Text :=
  utf8 "0123456789"

def IsName (name : Text) : Prop :=
  ∃ first rest, name = first :: rest ∧ first ∈ letters ∧ ∀ b ∈ rest, b ∈ letters ∨ b ∈ digits

inductive Spells : List Text → Instruction → Prop
  | move {dst src : Variable} (hdst : IsName dst) (hsrc : IsName src) :
      Spells [dst, utf8 "=", src] (.move dst src)
  | binary {dst left : Variable} {op : Text} {right : Variable} (hdst : IsName dst) (hleft : IsName left)
      (hright : IsName right) : Spells [dst, utf8 "=", left, op, right] (.binary dst left op right)

inductive Reads (content : Text) : Option Instruction → Prop
  | blank (h : Tokens content []) : Reads content none
  | comment {before rest : Text} (h : Tokens before []) (heq : content = before ++ utf8 "#" ++ rest) :
      Reads content none
  | instruction {tokens : List Text} {i : Instruction} (h : Tokens content tokens) (hi : Spells tokens i) :
      Reads content (some i)

def Accepts (line : Text) (read : Option Instruction) : Prop :=
  line.length ≤ 65535 ∧ Reads line.lineContent read

def IsGood (line : Text) : Prop :=
  ∃ read, Accepts line read

variable {name line : Text} {fields : List Text} {i : Instruction} {read : Option Instruction} {n : Nat}

theorem mem_map_byte {ns : List Nat} (hns : ∀ n ∈ ns, n < 256) {b : UInt8} : b ∈ ns.map UInt8.ofNat ↔ b.toNat ∈ ns := by
  rw [List.mem_map]
  constructor
  · rintro ⟨n, hn, rfl⟩
    rwa [toNat_byte (hns n hn)]
  · intro hb
    exact ⟨b.toNat, hb, UInt8.ofNat_toNat⟩

theorem mem_letters {b : UInt8} :
    b ∈ letters ↔ (65 ≤ b.toNat ∧ b.toNat ≤ 90) ∨ (97 ≤ b.toNat ∧ b.toNat ≤ 122) ∨ b.toNat = 95 := by
  have hletters : letters = (List.range' 65 26 ++ (List.range' 97 26 ++ [95])).map UInt8.ofNat := by decide +kernel
  rw [hletters, mem_map_byte (by decide)]
  simp only [List.mem_append, List.mem_range'_1, List.mem_singleton]
  omega

theorem mem_digits {b : UInt8} : b ∈ digits ↔ 48 ≤ b.toNat ∧ b.toNat ≤ 57 := by
  have hdigits : digits = (List.range' 48 10).map UInt8.ofNat := by decide +kernel
  rw [hdigits, mem_map_byte (by decide)]
  simp only [List.mem_range'_1]
  omega

theorem isNameStart_iff (b : UInt8) : isNameStart b = true ↔ b ∈ letters := by
  simp only [isNameStart, mem_letters, Bool.or_eq_true, Bool.and_eq_true, decide_eq_true_eq, UInt8.le_iff_toNat_le,
    ← UInt8.toNat_inj, UInt8.reduceToNat]
  omega

theorem isDigit_iff (b : UInt8) : isDigit b = true ↔ b ∈ digits := by
  simp only [isDigit, mem_digits, Bool.and_eq_true, decide_eq_true_eq, UInt8.le_iff_toNat_le, UInt8.reduceToNat]

theorem isVariableName_iff : isVariableName name = true ↔ IsName name := by
  cases name with
  | nil => simp [isVariableName, IsName]
  | cons b rest => simp [isVariableName, IsName, isNameStart_iff, isDigit_iff]

theorem isVisible_of_mem_letters {b : UInt8} (h : b ∈ letters ∨ b ∈ digits) : Text.IsVisible b := by
  rw [mem_letters, mem_digits] at h
  unfold Text.IsVisible
  omega

theorem IsName.isVisible (h : IsName name) : ∀ b ∈ name, Text.IsVisible b := by
  obtain ⟨first, rest, rfl, hfirst, hrest⟩ := h
  intro b hb
  rcases List.mem_cons.mp hb with rfl | hb
  · exact isVisible_of_mem_letters (.inl hfirst)
  · exact isVisible_of_mem_letters (hrest b hb)

theorem IsName.startsWith_number_sign (h : IsName name) : name.startsWith 0x23 = false := by
  obtain ⟨first, rest, rfl, hfirst, -⟩ := h
  simp only [Text.startsWith, List.head?_cons, Option.some.injEq, decide_eq_false_iff_not]
  rintro rfl
  simp [mem_letters] at hfirst

theorem requireName_of_isName (h : IsName name) : requireName name = .ok () := by
  simp [requireName, isVariableName_iff.mpr h]

theorem isName_of_requireName (h : requireName name = .ok ()) : IsName name := by
  unfold requireName at h
  split at h
  · next hname => exact isVariableName_iff.mp hname
  · cases h

theorem ofFields_of_spells (h : Spells fields i) : Instruction.ofFields fields = .ok i := by
  cases h with
  | move hdst hsrc =>
    simp [Instruction.ofFields, requireName_of_isName hdst, requireName_of_isName hsrc, Bind.bind, Except.bind, pure,
      Except.pure]
  | binary hdst hleft hright =>
    simp [Instruction.ofFields, requireName_of_isName hdst, requireName_of_isName hleft,
      requireName_of_isName hright, Bind.bind, Except.bind, pure, Except.pure]

theorem spells_of_ofFields (h : Instruction.ofFields fields = .ok i) : Spells fields i := by
  unfold Instruction.ofFields at h
  split at h
  · next dst equals src rest =>
    by_cases hequals : equals = utf8 "="
    · subst hequals
      simp only [ne_eq, not_true_eq_false, if_false] at h
      obtain ⟨⟨⟩, hdst, h⟩ := bind_eq_ok h
      obtain ⟨⟨⟩, hsrc, h⟩ := bind_eq_ok h
      split at h
      · cases h
        exact .move (isName_of_requireName hdst) (isName_of_requireName hsrc)
      · obtain ⟨⟨⟩, hright, h⟩ := bind_eq_ok h
        cases h
        exact .binary (isName_of_requireName hdst) (isName_of_requireName hsrc) (isName_of_requireName hright)
      · cases h
    · simp only [ne_eq, hequals, not_false_eq_true, if_true] at h
      cases h
  · cases h

theorem ofLine?_of_reads (h : Reads line.lineContent read) : Instruction.ofLine? line = .ok read := by
  unfold Instruction.ofLine?
  cases h with
  | blank h => rw [h.fields_eq]
  | @comment before rest h heq =>
    obtain ⟨token, tokens, hfields⟩ := @Text.fields_visible 0x23 (by simp [Text.IsVisible]) rest
    have hcomment : utf8 "#" ++ rest = 0x23 :: rest := rfl
    rw [heq, List.append_assoc, Text.fields_append_of_blanks h, hcomment, hfields]
    rfl
  | @instruction tokens i h hi =>
    have hfields := ofFields_of_spells hi
    obtain ⟨dst, rest, rfl, hdst⟩ : ∃ dst rest, tokens = dst :: rest ∧ IsName dst := by
      cases hi with
      | move hdst hsrc => exact ⟨_, _, rfl, hdst⟩
      | binary hdst hleft hright => exact ⟨_, _, rfl, hdst⟩
    rw [h.fields_eq]
    simp [hdst.startsWith_number_sign, hfields]

theorem reads_of_ofLine? (h : Instruction.ofLine? line = .ok read) : Reads line.lineContent read := by
  unfold Instruction.ofLine? at h
  cases hfields : line.lineContent.fields with
  | nil =>
    rw [hfields] at h
    cases h
    exact .blank (Text.fields_eq_iff.mp hfields)
  | cons first rest =>
    have htokens := Text.fields_eq_iff.mp hfields
    simp only [hfields] at h
    split at h
    · next hcomment =>
      cases h
      simp only [Text.startsWith, decide_eq_true_eq] at hcomment
      obtain ⟨tail, rfl⟩ := List.head?_eq_some_iff.mp hcomment
      obtain ⟨before, after, hbefore, heq⟩ := htokens.exists_blanks
      rw [List.append_assoc] at heq
      exact .comment hbefore (heq.trans (List.append_assoc before (utf8 "#") (tail ++ after)).symm)
    · cases hof : Instruction.ofFields (first :: rest) with
      | error e =>
        rw [hof] at h
        cases h
      | ok i =>
        rw [hof] at h
        cases h
        exact .instruction htokens (spells_of_ofFields hof)

theorem ofNumberedLine?_of_accepts (h : Accepts line read) (n : Nat) :
    Instruction.ofNumberedLine? (line, n) = .ok read := by
  have hshort : ¬lineLimit ≤ line.length := Nat.not_le.mpr (Nat.lt_succ_of_le h.1)
  rw [Instruction.ofNumberedLine?, if_neg hshort, ofLine?_of_reads h.2, mapError_ok]

theorem accepts_of_ofNumberedLine? (h : Instruction.ofNumberedLine? (line, n) = .ok read) : Accepts line read := by
  unfold Instruction.ofNumberedLine? at h
  split at h
  · cases h
  · next hshort => exact ⟨Nat.le_of_lt_succ (Nat.not_le.mp hshort), reads_of_ofLine? (mapError_eq_ok h)⟩

theorem ofNumberedLine?_of_long (h : 65535 < line.length) (n : Nat) :
    Instruction.ofNumberedLine? (line, n) = .error .lineTooLong :=
  if_pos h

theorem ofNumberedLine?_of_not_isGood (hlength : line.length ≤ 65535) (h : ¬IsGood line) (n : Nat) :
    ∃ cause, Instruction.ofNumberedLine? (line, n) = .error (.malformed n cause) := by
  have hshort : ¬lineLimit ≤ line.length := Nat.not_le.mpr (Nat.lt_succ_of_le hlength)
  simp only [Instruction.ofNumberedLine?, if_neg hshort]
  cases hline : Instruction.ofLine? line with
  | ok read => exact absurd ⟨read, hlength, reads_of_ofLine? hline⟩ h
  | error cause => exact ⟨cause, mapError_error _ _⟩

theorem parse_eq_ok_iff {source : Text} {lines : List Text} (hlines : Lines source lines) (block : Block) :
    Block.parse source = .ok block ↔ ∃ read, List.Forall₂ Accepts lines read ∧ block = read.reduceOption := by
  unfold Block.parse
  rw [hlines.rawLines_eq]
  constructor
  · intro h
    obtain ⟨read, hread, h⟩ := bind_eq_ok h
    cases h
    exact ⟨read, forall₂_of_mapM_zipIdx (fun _ _ _ => accepts_of_ofNumberedLine?) hread, rfl⟩
  · rintro ⟨read, hread, rfl⟩
    rw [mapM_zipIdx_of_forall₂ (fun _ n _ h => ofNumberedLine?_of_accepts h n) hread 1]
    rfl

theorem parse_error {source : Text} {before after : List Text} (hlines : Lines source (before ++ line :: after))
    (hbefore : ∀ line ∈ before, IsGood line) {e : ParseError}
    (h : Instruction.ofNumberedLine? (line, before.length + 1) = .error e) : Block.parse source = .error e := by
  have hgood : ∀ line ∈ before, ∀ n, ∃ read, Instruction.ofNumberedLine? (line, n) = .ok read := by
    intro line hline n
    obtain ⟨read, hread⟩ := hbefore line hline
    exact ⟨read, ofNumberedLine?_of_accepts hread n⟩
  rw [Nat.add_comm] at h
  rw [Block.parse, hlines.rawLines_eq, mapM_zipIdx_of_error hgood h]
  rfl

theorem exists_accepts_iff {lines : List Text} :
    (∃ read, List.Forall₂ Accepts lines read) ↔ ∀ line ∈ lines, IsGood line := by
  induction lines with
  | nil => simp
  | cons line lines ih =>
    rw [List.forall_mem_cons, ← ih]
    constructor
    · rintro ⟨_, hread⟩
      cases hread with
      | cons hline hlines => exact ⟨⟨_, hline⟩, _, hlines⟩
    · rintro ⟨⟨read, hline⟩, reads, hlines⟩
      exact ⟨read :: reads, .cons hline hlines⟩

/-- A source is cut into lines in exactly one way. It is read exactly if all its lines are good, and then into what its
lines hold, in order; otherwise the first line that is not good is at fault, as too long or else by its number. -/
theorem parse_grammar (source : Text) : ∃ lines, (∀ lines', Lines source lines' ↔ lines' = lines) ∧
    ((∃ block, Block.parse source = .ok block) ↔ ∀ line ∈ lines, IsGood line) ∧
    (∀ block, Block.parse source = .ok block ↔ ∃ read, List.Forall₂ Accepts lines read ∧ block = read.reduceOption) ∧
    ∀ before line after, lines = before ++ line :: after → (∀ line ∈ before, IsGood line) → ¬IsGood line →
      (65535 < line.length → Block.parse source = .error .lineTooLong) ∧
      (line.length ≤ 65535 → ∃ cause, Block.parse source = .error (.malformed (before.length + 1) cause)) := by
  obtain ⟨lines, hlines⟩ := Text.exists_lines source
  refine ⟨lines, ?_, ?_, parse_eq_ok_iff hlines, ?_⟩
  · intro lines'
    rw [← Text.rawLines_eq_iff, hlines.rawLines_eq, eq_comm]
  · simp only [parse_eq_ok_iff hlines, ← exists_accepts_iff]
    exact ⟨fun ⟨_, read, hread, _⟩ => ⟨read, hread⟩, fun ⟨read, hread⟩ => ⟨_, read, hread, rfl⟩⟩
  · rintro before line after rfl hbefore hline
    refine ⟨fun hlong => parse_error hlines hbefore (ofNumberedLine?_of_long hlong _), fun hshort => ?_⟩
    obtain ⟨cause, hcause⟩ := ofNumberedLine?_of_not_isGood hshort hline (before.length + 1)
    exact ⟨cause, parse_error hlines hbefore hcause⟩

end Source

end ThreeRegister
