import ThreeRegister.Text.Line

namespace ThreeRegister

namespace Text

inductive Lines : Text → List Text → Prop
  | nil : Lines [] []
  | last {line : Text} (hne : line ≠ []) (h : newline ∉ line) : Lines line [line]
  | line {line s : Text} {lines : List Text} (h : newline ∉ line) (hs : Lines s lines) :
      Lines (line ++ newline :: s) (line :: lines)

variable {s line : Text} {lines : List Text}

theorem rawLines_line (h : newline ∉ line) (s : Text) : rawLines (line ++ newline :: s) = line :: s.rawLines := by
  have hpieces : s.splitOn newline ≠ [] := List.splitOn_ne_nil newline s
  simp only [rawLines, List.splitOn_append_cons_self_of_not_mem h]
  rw [List.getLast?_cons_of_ne_nil hpieces, List.dropLast_cons_of_ne_nil hpieces]
  split <;> rfl

theorem rawLines_last (hne : line ≠ []) (h : newline ∉ line) : line.rawLines = [line] := by
  simp [rawLines, List.splitOn_eq_singleton h, hne]

theorem Lines.rawLines_eq (h : Lines s lines) : s.rawLines = lines := by
  induction h with
  | nil => rfl
  | last hne h => exact rawLines_last hne h
  | line h hs ih => rw [rawLines_line h, ih]

theorem exists_lines (s : Text) : ∃ lines, Lines s lines := by
  induction s with
  | nil => exact ⟨[], .nil⟩
  | cons b s ih =>
    obtain ⟨lines, h⟩ := ih
    by_cases hb : newline = b
    · subst hb
      exact ⟨_, @Lines.line [] s lines List.not_mem_nil h⟩
    · -- The byte joins the first line of the rest, or is the whole of the last line.
      cases h with
      | nil => exact ⟨_, @Lines.last [b] (by simp) (by simp [hb])⟩
      | last hne h => exact ⟨_, @Lines.last (b :: s) (by simp) (by simp [hb, h])⟩
      | @line line rest lines h hs => exact ⟨_, @Lines.line (b :: line) rest lines (by simp [hb, h]) hs⟩

theorem rawLines_eq_iff : s.rawLines = lines ↔ Lines s lines := by
  constructor
  · intro h
    obtain ⟨lines', h'⟩ := exists_lines s
    rw [← h, h'.rawLines_eq]
    exact h'
  · exact Lines.rawLines_eq

theorem lines_unlines (h : ∀ line ∈ lines, newline ∉ line) : Lines (unlines lines) lines := by
  induction lines with
  | nil => exact .nil
  | cons line lines ih =>
    rw [List.forall_mem_cons] at h
    rw [unlines, List.flatMap_cons, List.append_assoc]
    exact .line h.1 (ih h.2)

end Text

end ThreeRegister
