import ThreeRegister.Proofs.Source.Grammar

namespace ThreeRegister

namespace Source

open Text (Tokens Lines)

inductive Writable : Instruction → Prop
  | move {dst src : Variable} (hdst : isVariableName dst = true) (hsrc : isVariableName src = true)
      (hlength : (Instruction.move dst src).text.length ≤ 65535) : Writable (.move dst src)
  | binary {dst left : Variable} {op : Text} {right : Variable} (hdst : isVariableName dst = true)
      (hleft : isVariableName left = true) (hright : isVariableName right = true) (hop : op ≠ [])
      (hblankless : op.Blankless) (hlength : (Instruction.binary dst left op right).text.length ≤ 65535) :
      Writable (.binary dst left op right)

variable {name line : Text} {tokens : List Text} {i : Instruction} {block : Block}

theorem IsName.ne_nil (h : IsName name) : name ≠ [] := by
  obtain ⟨first, rest, rfl, -⟩ := h
  exact List.cons_ne_nil first rest

theorem IsName.isToken (h : IsName name) : name.IsToken :=
  ⟨h.ne_nil, Text.blankless_of_visible h.isVisible⟩

theorem isToken_equals : (utf8 "=").IsToken := by
  have hvisible : ∀ b ∈ utf8 "=", Text.IsVisible b := by
    intro b hb
    obtain rfl : b = 0x3d := List.mem_singleton.mp hb
    simp [Text.IsVisible]
  exact ⟨by decide, Text.blankless_of_visible hvisible⟩

theorem Writable.length_le (h : Writable i) : i.text.length ≤ 65535 := by
  cases h with
  | move hdst hsrc hlength => exact hlength
  | binary hdst hleft hright hop hblankless hlength => exact hlength

theorem Writable.exists_spells (h : Writable i) :
    ∃ tokens, Spells tokens i ∧ ∀ token ∈ tokens, token.IsToken := by
  cases h with
  | move hdst hsrc hlength =>
    rw [isVariableName_iff] at hdst hsrc
    exact ⟨_, .move hdst hsrc, by simpa using ⟨hdst.isToken, isToken_equals, hsrc.isToken⟩⟩
  | @binary dst left op right hdst hleft hright hop hblankless hlength =>
    rw [isVariableName_iff] at hdst hleft hright
    have htoken : op.IsToken := ⟨hop, hblankless⟩
    exact ⟨_, .binary hdst hleft hright,
      by simpa using ⟨hdst.isToken, isToken_equals, hleft.isToken, htoken, hright.isToken⟩⟩

theorem Spells.text_eq_join (h : Spells tokens i) : i.text = Text.join " " tokens := by
  have hequals : utf8 " = " = utf8 " " ++ (utf8 "=" ++ utf8 " ") := rfl
  cases h with
  | move hdst hsrc =>
    simp only [Instruction.text, Text.join, List.intercalate_cons_cons, List.intercalate_singleton, hequals,
      List.append_assoc]
  | binary hdst hleft hright =>
    simp only [Instruction.text, Text.join, List.intercalate_cons_cons, List.intercalate_singleton, hequals,
      List.append_assoc]

-- The last token is a name, so that a rendered line never ends with a carriage return.
theorem Spells.lineContent_text (h : Spells tokens i) : i.text.lineContent = i.text := by
  obtain ⟨before, name, htext, hname⟩ : ∃ before name, i.text = before ++ name ∧ IsName name := by
    cases h with
    | move hdst hsrc => exact ⟨_, _, rfl, hsrc⟩
    | binary hdst hleft hright => exact ⟨_, _, rfl, hright⟩
  have hlast : i.text.getLast? ≠ some Text.carriageReturn := by
    rw [htext, List.getLast?_append_of_ne_nil before hname.ne_nil]
    intro hreturn
    have hvisible := hname.isVisible _ (List.mem_of_getLast? hreturn)
    simp [Text.IsVisible, Text.carriageReturn] at hvisible
  exact if_neg hlast

theorem Writable.accepts_text (h : Writable i) : Accepts i.text (some i) := by
  obtain ⟨tokens, hspells, htokens⟩ := h.exists_spells
  refine ⟨h.length_le, .instruction ?_ hspells⟩
  rw [hspells.lineContent_text, hspells.text_eq_join]
  exact Text.tokens_join htokens

theorem Writable.newline_notMem_text (h : Writable i) : Text.newline ∉ i.text := by
  obtain ⟨tokens, hspells, htokens⟩ := h.exists_spells
  rw [hspells.text_eq_join]
  exact Text.newline_notMem_join fun token htoken => (htokens token htoken).2.newline_notMem

theorem length_lineContent_le (line : Text) : line.lineContent.length ≤ line.length := by
  unfold Text.lineContent
  split
  · simp
  · exact Nat.le_refl _

-- Between two tokens of a line there is at least the one byte that a rendered line has there.
theorem writable_of_accepts (h : Accepts line (some i)) : Writable i := by
  obtain ⟨hline, hreads⟩ := h
  cases hreads with
  | @instruction tokens _ htokens hspells =>
    have hlength : i.text.length ≤ 65535 := by
      have htext := htokens.length_join_le
      have hcontent := length_lineContent_le line
      rw [← hspells.text_eq_join] at htext
      omega
    cases hspells with
    | move hdst hsrc => exact .move (isVariableName_iff.mpr hdst) (isVariableName_iff.mpr hsrc) hlength
    | @binary dst left op right hdst hleft hright =>
      have hop : op.IsToken := htokens.isToken (by simp)
      exact .binary (isVariableName_iff.mpr hdst) (isVariableName_iff.mpr hleft) (isVariableName_iff.mpr hright) hop.1
        hop.2 hlength

theorem parse_format_of_writable (h : ∀ i ∈ block, Writable i) : Block.parse block.format = .ok block := by
  have hlines : Lines block.format (block.map Instruction.text) := by
    apply Text.lines_unlines
    intro line hline
    obtain ⟨i, hi, rfl⟩ := List.mem_map.mp hline
    exact (h i hi).newline_notMem_text
  rw [parse_eq_ok_iff hlines]
  refine ⟨block.map some, ?_, by simp [List.reduceOption]⟩
  rw [List.forall₂_map_left_iff, List.forall₂_map_right_iff, List.forall₂_same]
  exact fun i hi => (h i hi).accepts_text

theorem writable_of_mem {lines : List Text} {read : List (Option Instruction)} (h : List.Forall₂ Accepts lines read)
    (hi : some i ∈ read) : Writable i := by
  induction h with
  | nil => cases hi
  | cons hline h ih =>
    rcases List.mem_cons.mp hi with rfl | hi
    · exact writable_of_accepts hline
    · exact ih hi

theorem writable_of_parse {source : Text} (h : Block.parse source = .ok block) : ∀ i ∈ block, Writable i := by
  obtain ⟨lines, hlines⟩ := Text.exists_lines source
  obtain ⟨read, hread, rfl⟩ := (parse_eq_ok_iff hlines block).mp h
  intro i hi
  exact writable_of_mem hread (List.reduceOption_mem_iff.mp hi)

theorem parse_format (block : Block) : (Block.parse block.format = .ok block ↔ ∀ i ∈ block, Writable i) ∧
    ((∃ source, Block.parse source = .ok block) ↔ ∀ i ∈ block, Writable i) ∧
    ∀ source, Block.parse source = .ok block → Block.parse block.format = .ok block :=
  ⟨⟨writable_of_parse, parse_format_of_writable⟩,
    ⟨fun ⟨_, h⟩ => writable_of_parse h, fun h => ⟨_, parse_format_of_writable h⟩⟩,
    fun _ h => parse_format_of_writable (writable_of_parse h)⟩

end Source

end ThreeRegister
