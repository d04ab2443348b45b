import Mathlib.Data.List.Basic
import ThreeRegister.Proofs.NextUse.Table

namespace ThreeRegister

open Source (Block)

def Source.Instruction.rename (σ : Variable → Variable) (τ : Text → Text) : Instruction → Instruction
  | .move dst src => .move (σ dst) (σ src)
  | .binary dst left op right => .binary (σ dst) (σ left) (τ op) (σ right)
  | .foreign f => .foreign { f with target := σ f.target, operands := f.operands.map σ }

def Source.Block.rename (σ : Variable → Variable) (τ : Text → Text) (block : Block) : Block :=
  block.map (Instruction.rename σ τ)

variable {σ : Variable → Variable} {τ : Text → Text}

theorem Source.Instruction.target_rename (i : Instruction) : (i.rename σ τ).target = σ i.target := by
  cases i <;> rfl

theorem Source.Instruction.operands_rename (i : Instruction) : (i.rename σ τ).operands = i.operands.map σ := by
  cases i <;> rfl

theorem Source.Block.rename_id (block : Block) : block.rename id id = block := by
  have hid : Instruction.rename id id = id := by
    funext i
    cases i with
    | foreign f => simp [Instruction.rename]
    | _ => rfl
  rw [rename, hid, List.map_id]

theorem Source.Instruction.rename_eq_foreign {i : Instruction} {f : Source.Foreign} (h : i.rename σ τ = .foreign f) :
    ∃ g, i = .foreign g := by
  cases i with
  | foreign g => exact ⟨g, rfl⟩
  | move dst src => cases h
  | binary dst left op right => cases h

theorem Source.Block.not_foreign_rename (σ : Variable → Variable) (τ : Text → Text) {block : Block}
    (hb : ∀ f, .foreign f ∉ block) (f : Source.Foreign) :
    .foreign f ∉ block.rename σ τ := by
  intro hf
  obtain ⟨i, hi, hrename⟩ := List.mem_map.mp hf
  obtain ⟨g, rfl⟩ := Source.Instruction.rename_eq_foreign hrename
  exact hb g hi

namespace NextUse

def Entry.Renamed (σ : Variable → Variable) (e e' : Entry) : Prop :=
  ∀ v : Variable, e'.distance (σ v) = e.distance v

theorem Entry.Renamed.before (hσ : Function.Injective σ) {e e' : Entry} (h : e.Renamed σ e') (i : Source.Instruction) :
    (Entry.before i e).Renamed σ (.before (i.rename σ τ) e') := by
  intro v
  rw [Entry.distance_before, Entry.distance_before, i.target_rename, i.operands_rename, h v]
  simp only [hσ.eq_iff, List.mem_map_of_injective hσ]

theorem Table.Describes.getElem?_zip {block : Block} {table : Table} (h : Describes block table) {n : Nat}
    {i : Source.Instruction} (hi : block[n]? = some i) :
    ∃ e, table[n]? = some e ∧ (block.zip table)[n]? = some (i, e) := by
  have hn : n < table.length := by
    rw [h.length_eq]
    exact (List.getElem?_eq_some_iff.mp hi).1
  refine ⟨table[n], List.getElem?_eq_getElem hn, ?_⟩
  rw [List.getElem?_zip_eq_some]
  exact ⟨hi, List.getElem?_eq_getElem hn⟩

theorem Table.Describes.renamed (hσ : Function.Injective σ) {block : Block} {table table' : Table}
    (h : Describes block table) (h' : Describes (block.rename σ τ) table') :
    ∀ n : Nat, (table[n]?.getD ∅).Renamed σ (table'[n]?.getD ∅) := by
  induction h generalizing table' with
  | nil =>
    cases h'
    intro n v
    rfl
  | @cons i block table h hi ih =>
    cases h' with
    | @cons _ _ table' h' hi' =>
      intro n
      cases n with
      | zero =>
        have hhead := ih h' 0
        simp only [← List.head?_eq_getElem?, ← List.headD_eq_head?_getD] at hhead
        exact hhead.before hσ i
      | succ n => exact ih h' n

end NextUse

end ThreeRegister
