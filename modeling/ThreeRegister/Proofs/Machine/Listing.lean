import ThreeRegister.Proofs.Generation.Vocabulary
import ThreeRegister.Proofs.Program
import ThreeRegister.Proofs.Source.RoundTrip
import ThreeRegister.Proofs.Text.Casing

namespace ThreeRegister

open String (utf8EncodeChar)

namespace Text

def punctuated : List Text → List Text
  | [] => []
  | [part] => [part]
  | part :: next :: parts => (part ++ utf8EncodeChar ',') :: punctuated (next :: parts)

def row (mnemonic : Text) (operands : List Text) : Text :=
  mnemonic.padTo 3 ++ utf8 " " ++ join ", " operands

variable {mnemonic mnemonic' : Text} {parts parts' operands operands' : List Text}

theorem exists_punctuated (part : Text) (parts : List Text) :
    ∃ first rest, punctuated (part :: parts) = first :: rest := by
  cases parts with
  | nil => exact ⟨part, [], rfl⟩
  | cons next parts => exact ⟨_, _, rfl⟩

theorem join_punctuated (parts : List Text) : join ", " parts = join " " (punctuated parts) := by
  induction parts with
  | nil => rfl
  | cons part parts ih =>
    cases parts with
    | nil => rfl
    | cons next parts =>
      obtain ⟨first, rest, hrest⟩ := exists_punctuated next parts
      have hcomma : utf8 ", " = utf8EncodeChar ',' ++ utf8EncodeChar ' ' := rfl
      rw [punctuated, hrest, join_cons_cons, ← hrest, ← ih]
      simp only [join, List.intercalate_cons_cons, hcomma, List.append_assoc]

theorem isToken_of_mem_punctuated (h : ∀ part ∈ parts, part.IsToken) : ∀ part ∈ punctuated parts, part.IsToken := by
  induction parts with
  | nil => exact h
  | cons part parts ih =>
    cases parts with
    | nil => exact h
    | cons next parts =>
      rw [List.forall_mem_cons] at h
      rw [punctuated, List.forall_mem_cons]
      exact ⟨h.1.append_char rfl, ih h.2⟩

theorem length_punctuated (parts : List Text) : (punctuated parts).length = parts.length := by
  induction parts with
  | nil => rfl
  | cons part parts ih =>
    cases parts with
    | nil => rfl
    | cons next parts => exact congrArg (· + 1) ih

-- The numbers of parts agree, so that the last part of one list, which has no comma, meets the last of the other.
theorem punctuated_inj (h : punctuated parts = punctuated parts') : parts = parts' := by
  have hlength : parts.length = parts'.length := by
    rw [← length_punctuated parts, h, length_punctuated]
  induction parts generalizing parts' with
  | nil => exact (List.length_eq_zero_iff.mp hlength.symm).symm
  | cons part parts ih =>
    cases parts' with
    | nil => cases hlength
    | cons part' parts' =>
      rw [List.length_cons, List.length_cons, Nat.add_right_cancel_iff] at hlength
      cases parts with
      | nil =>
        obtain rfl : parts' = [] := List.length_eq_zero_iff.mp hlength.symm
        exact h
      | cons next parts =>
        cases parts' with
        | nil => cases hlength
        | cons next' parts' =>
          rw [punctuated, punctuated, List.cons.injEq, List.append_left_inj] at h
          rw [h.1, ih h.2 hlength]

theorem row_eq (mnemonic : Text) (operands : List Text) : ∃ count, row mnemonic operands =
    mnemonic ++ (utf8EncodeChar ' ' ++ (List.replicate count space ++ join " " (punctuated operands))) := by
  refine ⟨3 - mnemonic.scalars.length, ?_⟩
  have hspace : utf8 " " = [space] := rfl
  have hspace' : utf8EncodeChar ' ' = [space] := rfl
  rw [row, padTo, join_punctuated, hspace, hspace', List.append_assoc, List.append_assoc]
  rw [← List.append_assoc (List.replicate _ _), ← List.replicate_succ', ← List.append_assoc [space]]
  rfl

structure IsRow (mnemonic : Text) (operands : List Text) : Prop where
  mnemonic : mnemonic.IsToken
  operands : ∀ operand ∈ operands, operand.IsToken

namespace IsRow

theorem tokens (h : IsRow mnemonic operands) : Tokens (row mnemonic operands) (mnemonic :: punctuated operands) := by
  obtain ⟨count, hrow⟩ := row_eq mnemonic operands
  rw [hrow]
  exact .token h.mnemonic rfl ((tokens_join (isToken_of_mem_punctuated h.operands)).spaces count)

theorem inj (h : IsRow mnemonic operands) (h' : IsRow mnemonic' operands')
    (heq : row mnemonic operands = row mnemonic' operands') : mnemonic = mnemonic' ∧ operands = operands' := by
  have htokens := h.tokens.fields_eq
  rw [heq, h'.tokens.fields_eq, List.cons.injEq] at htokens
  exact ⟨htokens.1.symm, (punctuated_inj htokens.2).symm⟩

theorem newline_notMem (h : IsRow mnemonic operands) : newline ∉ row mnemonic operands := by
  obtain ⟨count, hrow⟩ := row_eq mnemonic operands
  have hspace : newline ∉ utf8EncodeChar ' ' := by decide
  have hpadding : newline ∉ List.replicate count space := by
    intro hmem
    exact absurd (List.eq_of_mem_replicate hmem) (by decide)
  have hjoin : newline ∉ join " " (punctuated operands) := by
    apply newline_notMem_join
    intro token htoken
    exact (isToken_of_mem_punctuated h.operands token htoken).2.newline_notMem
  simp only [hrow, List.mem_append, not_or]
  exact ⟨h.mnemonic.2.newline_notMem, hspace, hpadding, hjoin⟩

end IsRow

end Text

namespace Register

theorem isToken_text {r : Register} (h : r.isValid = true) : r.text.IsToken := by
  obtain ⟨i, rfl⟩ := isValid_iff.mp h
  have htext : ∀ i : Fin 3, (ofIndex i).text ≠ [] ∧
      ((ofIndex i).text.all fun b => 32 < b.toNat && b.toNat < 128) = true := by
    decide
  exact Text.isToken_of_all (htext i).1 (htext i).2

theorem text_inj {r s : Register} (hr : r.isValid = true) (hs : s.isValid = true) (h : r.text = s.text) : r = s := by
  obtain ⟨i, rfl⟩ := isValid_iff.mp hr
  obtain ⟨j, rfl⟩ := isValid_iff.mp hs
  have hinj : ∀ i j : Fin 3, (ofIndex i).text = (ofIndex j).text → ofIndex i = ofIndex j := by decide
  exact hinj i j h

end Register

namespace Machine

namespace Instruction

inductive Renderable : Instruction → Prop
  | load {dst : Register} {v : Variable} (hdst : dst.isValid = true) (hv : Source.isVariableName v = true) :
      Renderable (.load dst v)
  | store {v : Variable} {src : Register} (hv : Source.isVariableName v = true) (hsrc : src.isValid = true) :
      Renderable (.store v src)
  | operate {op : Text} {dst left right : Register} (hop : op ≠ []) (hblankless : op.Blankless)
      (hdst : dst.isValid = true) (hleft : left.isValid = true) (hright : right.isValid = true) :
      Renderable (.operate op dst left right)

inductive EqUpToCase : Instruction → Instruction → Prop
  | load {dst : Register} {v : Variable} : EqUpToCase (.load dst v) (.load dst v)
  | store {v : Variable} {src : Register} : EqUpToCase (.store v src) (.store v src)
  | operate {op op' : Text} {dst left right : Register} (hop : op.toUpper = op'.toUpper) :
      EqUpToCase (.operate op dst left right) (.operate op' dst left right)

def operandTexts : Instruction → List Text
  | .load dst v => [dst.text, v]
  | .store v src => [v, src.text]
  | .operate _ dst left right => [dst.text, left.text, right.text]
  | .undefined .. => []

variable {i j : Instruction}

namespace Renderable

theorem text_eq (h : i.Renderable) : i.text = Text.row i.mnemonic i.operandTexts := by
  cases h <;> rfl

theorem isRow (h : i.Renderable) : Text.IsRow i.mnemonic i.operandTexts := by
  have hname {v : Variable} (hv : Source.isVariableName v = true) : v.IsToken :=
    (Source.isVariableName_iff.mp hv).isToken
  cases h with
  | load hdst hv =>
    refine ⟨@Text.isToken_of_all (utf8 "LD") (by decide) (by decide), ?_⟩
    simpa [operandTexts] using ⟨Register.isToken_text hdst, hname hv⟩
  | store hv hsrc =>
    refine ⟨@Text.isToken_of_all (utf8 "ST") (by decide) (by decide), ?_⟩
    simpa [operandTexts] using ⟨hname hv, Register.isToken_text hsrc⟩
  | @operate op dst left right hop hblankless hdst hleft hright =>
    have htoken : op.IsToken := ⟨hop, hblankless⟩
    refine ⟨htoken.toUpper, ?_⟩
    simpa [operandTexts] using ⟨Register.isToken_text hdst, Register.isToken_text hleft, Register.isToken_text hright⟩

theorem newline_notMem_text (h : i.Renderable) : Text.newline ∉ i.text := by
  rw [h.text_eq]
  exact h.isRow.newline_notMem

-- A load and a store have different mnemonics; an operation, whatever its operator, has one operand more than either.
theorem eqUpToCase_of_text_eq (hi : i.Renderable) (hj : j.Renderable) (h : i.text = j.text) : i.EqUpToCase j := by
  have hkinds : utf8 "LD" ≠ utf8 "ST" := by decide
  rw [hi.text_eq, hj.text_eq] at h
  obtain ⟨hmnemonic, hoperands⟩ := hi.isRow.inj hj.isRow h
  cases hi with
  | load hdst hv =>
    cases hj with
    | load hdst' hv' =>
      simp only [operandTexts, List.cons.injEq, and_true] at hoperands
      obtain ⟨hd, rfl⟩ := hoperands
      obtain rfl := Register.text_inj hdst hdst' hd
      exact .load
    | store hv' hsrc' => exact absurd hmnemonic hkinds
    | operate hop' hblankless' hdst' hleft' hright' => simp [operandTexts] at hoperands
  | store hv hsrc =>
    cases hj with
    | load hdst' hv' => exact absurd hmnemonic.symm hkinds
    | store hv' hsrc' =>
      simp only [operandTexts, List.cons.injEq, and_true] at hoperands
      obtain ⟨rfl, hs⟩ := hoperands
      obtain rfl := Register.text_inj hsrc hsrc' hs
      exact .store
    | operate hop' hblankless' hdst' hleft' hright' => simp [operandTexts] at hoperands
  | operate hop hblankless hdst hleft hright =>
    cases hj with
    | load hdst' hv' => simp [operandTexts] at hoperands
    | store hv' hsrc' => simp [operandTexts] at hoperands
    | operate hop' hblankless' hdst' hleft' hright' =>
      simp only [operandTexts, List.cons.injEq, and_true] at hoperands
      obtain ⟨hd, hl, hr⟩ := hoperands
      obtain rfl := Register.text_inj hdst hdst' hd
      obtain rfl := Register.text_inj hleft hleft' hl
      obtain rfl := Register.text_inj hright hright' hr
      exact .operate hmnemonic

theorem text_eq_iff (hi : i.Renderable) (hj : j.Renderable) : i.text = j.text ↔ i.EqUpToCase j := by
  constructor
  · exact hi.eqUpToCase_of_text_eq hj
  · intro h
    cases h with
    | load => rfl
    | store => rfl
    | operate hop => simp only [text, mnemonic, hop]

end Renderable

theorem Names.renderable (h : i.Names (Source.isVariableName · = true) Text.IsToken) : i.Renderable := by
  have hvalid := Register.isValid_ofIndex
  cases h with
  | load hv => exact .load (hvalid _) hv
  | store hv => exact .store hv (hvalid _)
  | operate hop => exact .operate hop.1 hop.2 (hvalid _) (hvalid _) (hvalid _)

end Instruction

open Instruction (Renderable EqUpToCase)

variable {p q : List Instruction}

theorem map_text_eq_iff (hp : ∀ i ∈ p, i.Renderable) (hq : ∀ i ∈ q, i.Renderable) :
    p.map Instruction.text = q.map Instruction.text ↔ List.Forall₂ EqUpToCase p q := by
  induction p generalizing q with
  | nil => cases q <;> simp
  | cons i p ih =>
    cases q with
    | nil => simp
    | cons j q =>
      rw [List.forall_mem_cons] at hp hq
      simp only [List.map_cons, List.cons.injEq, List.forall₂_cons, hp.1.text_eq_iff hq.1, ih hp.2 hq.2]

theorem rawLines_format (hp : ∀ i ∈ p, i.Renderable) : (format p).rawLines = p.map Instruction.text := by
  apply Text.Lines.rawLines_eq
  apply Text.lines_unlines
  intro line hline
  obtain ⟨i, hi, rfl⟩ := List.mem_map.mp hline
  exact (hp i hi).newline_notMem_text

end Machine

open Machine.Instruction (Renderable EqUpToCase)

theorem Source.Writable.isVariableName {i : Source.Instruction} (h : Writable i) {v : Variable} (hv : i.Mentions v) :
    Source.isVariableName v = true := by
  cases h with
  | move hdst hsrc hlength =>
    rcases hv with hoperand | rfl
    · rwa [List.mem_singleton.mp hoperand]
    · exact hdst
  | binary hdst hleft hright hop hblankless hlength =>
    rcases hv with hoperand | rfl
    · rcases List.mem_pair.mp hoperand with rfl | rfl
      · exact hleft
      · exact hright
    · exact hdst

theorem Source.Writable.isToken_operator {i : Source.Instruction} (h : Writable i) {op : Text}
    (hop : i.operator? = some op) : op.IsToken := by
  cases h with
  | move hdst hsrc hlength => cases hop
  | binary hdst hleft hright hne hblankless hlength =>
    cases hop
    exact ⟨hne, hblankless⟩

theorem compile_renderable {source : Text} {config : Config} {program : Program}
    (h : (compile source config).result = .ok program) : ∀ i ∈ program.output.code, i.Renderable := by
  have hwritable := Source.writable_of_parse (compile_parts h).1
  obtain ⟨strategy, -, hb, hcode, -⟩ := compile_session h
  have hnames := Generation.sessionAfter_names strategy config.options hb (Nat.le_refl _)
    (fun i hi _ => (hwritable i (List.mem_of_mem_take hi)).isVariableName)
    (fun i hi _ => (hwritable i (List.mem_of_mem_take hi)).isToken_operator)
  intro i hi
  rw [hcode] at hi
  exact (hnames.code i hi).renderable

theorem listing_unambiguous :
    (∀ p q : List Machine.Instruction, (∀ i ∈ p, i.Renderable) → (∀ i ∈ q, i.Renderable) →
      (Machine.format p = Machine.format q ↔ List.Forall₂ EqUpToCase p q)) ∧
    ∀ source config program, (compile source config).result = .ok program →
      ∀ i ∈ program.output.code, i.Renderable := by
  constructor
  · intro p q hp hq
    rw [← Machine.map_text_eq_iff hp hq]
    constructor
    · intro h
      rw [← Machine.rawLines_format hp, h, Machine.rawLines_format hq]
    · intro h
      rw [Machine.format, Machine.format, h]
  · intro source config program h
    exact compile_renderable h

-- The operator is spelled like the mnemonic of a load, and the variables like registers.
theorem listing_unambiguous_ld :
    let operation (op : Text) : List Machine.Instruction := [.operate op .r1 .r2 .r3]
    Machine.format (operation (utf8 "ld")) = Machine.format (operation (utf8 "LD")) ∧
      Machine.format (operation (utf8 "ld")) ≠ Machine.format [.load .r1 (utf8 "R2")] ∧
      ∃ program, (compile (utf8 "R1 = R2 ld R3\n") {}).result = .ok program ∧
        ∀ i ∈ program.output.code, i.Renderable := by
  intro operation
  have hoperation {op : Text} (hop : op.IsToken) : ∀ i ∈ operation op, i.Renderable := by
    rw [List.forall_mem_singleton]
    exact .operate hop.1 hop.2 rfl rfl rfl
  have hlower := hoperation (@Text.isToken_of_all (utf8 "ld") (by decide) (by decide))
  have hupper := hoperation (@Text.isToken_of_all (utf8 "LD") (by decide) (by decide))
  have hload : ∀ i ∈ [.load .r1 (utf8 "R2")], Renderable i := by
    rw [List.forall_mem_singleton]
    exact .load rfl rfl
  refine ⟨?_, ?_, ?_⟩
  · rw [listing_unambiguous.1 _ _ hlower hupper]
    exact .cons (.operate (by decide +kernel)) .nil
  · rw [Ne, listing_unambiguous.1 _ _ hlower hload]
    rintro (_ | ⟨⟨⟩, -⟩)
  · have hok : (compile (utf8 "R1 = R2 ld R3\n") {}).result.isOk = true := by decide +kernel
    cases hcompile : (compile (utf8 "R1 = R2 ld R3\n") {}).result with
    | error e =>
      rw [hcompile] at hok
      cases hok
    | ok program => exact ⟨program, rfl, listing_unambiguous.2 _ _ _ hcompile⟩

end ThreeRegister
