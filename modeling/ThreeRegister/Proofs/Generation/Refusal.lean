import Mathlib.Data.Nat.Find
import Mathlib.Logic.ExistsUnique
import ThreeRegister.Generation
import ThreeRegister.Proofs.NextUse.Table
import ThreeRegister.Proofs.Source.Run

namespace ThreeRegister

open NextUse (Table)

namespace Source.Block

variable {block earlier later : Block} {position n : Nat} {f g : Foreign} {i : Instruction}

structure FirstForeign (block : Block) (position : Nat) (f : Foreign) : Prop where
  getElem? : block[position]? = some (.foreign f)
  first : ∀ k g, block[k]? = some (.foreign g) → position ≤ k

structure LastForeign (block : Block) (position : Nat) (f : Foreign) : Prop where
  getElem? : block[position]? = some (.foreign f)
  last : ∀ k g, block[k]? = some (.foreign g) → k ≤ position

theorem exists_firstForeign (h : .foreign f ∈ block) : ∃ position g, block.FirstForeign position g := by
  classical
  obtain ⟨n, hn⟩ := List.mem_iff_getElem?.mp h
  have hex : ∃ n g, block[n]? = some (Instruction.foreign g) := ⟨n, f, hn⟩
  obtain ⟨g, hg⟩ := Nat.find_spec hex
  exact ⟨Nat.find hex, g, hg, fun k g' hk => Nat.find_min' hex ⟨g', hk⟩⟩

theorem exists_lastForeign (h : .foreign f ∈ block) : ∃ position g, block.LastForeign position g := by
  classical
  obtain ⟨n, hn⟩ := List.mem_iff_getElem?.mp h
  have hlt {k : Nat} {g : Foreign} (hk : block[k]? = some (.foreign g)) : k ≤ block.length :=
    Nat.le_of_lt (List.getElem?_eq_some_iff.mp hk).1
  let P (k : Nat) : Prop := ∃ g, block[k]? = some (.foreign g)
  obtain ⟨g, hg⟩ : P (Nat.findGreatest P block.length) := Nat.findGreatest_spec (hlt hn) ⟨f, hn⟩
  exact ⟨_, g, hg, fun k g' hk => Nat.le_findGreatest (hlt hk) ⟨g', hk⟩⟩

theorem eq_take_append_cons (hi : block[n]? = some i) : block = block.take n ++ i :: block.drop (n + 1) := by
  obtain ⟨hn, rfl⟩ := List.getElem?_eq_some_iff.mp hi
  rw [← List.drop_eq_getElem_cons hn, List.take_append_drop]

theorem length_take (hi : block[n]? = some i) : (block.take n).length = n :=
  List.length_take_of_le (Nat.le_of_lt (List.getElem?_eq_some_iff.mp hi).1)

theorem LastForeign.notMem_drop (h : block.LastForeign position f) (g : Foreign) :
    .foreign g ∉ block.drop (position + 1) := by
  intro hg
  obtain ⟨k, hk⟩ := List.mem_iff_getElem?.mp hg
  rw [List.getElem?_drop] at hk
  have hle := h.last _ g hk
  omega

theorem run_of_foreign {m store : Memory} (hi : block[n]? = some (.foreign f))
    (hstore : run (block.take n) m = .ok store) : block.run m = .error (.unsupported ⟨n, f.typeName⟩) := by
  rw [eq_take_append_cons hi, run, runFrom_append, ← run, hstore, length_take hi, Nat.zero_add]
  rfl

end Source.Block

open Source (Block)

theorem NextUse.Table.ofBlockFrom_of_last {earlier later : Block} {f : Source.Foreign} (position : Nat)
    (hlater : ∀ g, .foreign g ∉ later) :
    ofBlockFrom position (earlier ++ .foreign f :: later) = .error ⟨position + earlier.length, f.typeName⟩ := by
  induction earlier generalizing position with
  | nil =>
    obtain ⟨table, htable, -⟩ := ofBlockFrom_ok (position + 1) hlater
    rw [List.nil_append, ofBlockFrom_cons, htable]
    rfl
  | cons i earlier ih =>
    rw [List.cons_append, ofBlockFrom_cons, ih, List.length_cons, Nat.add_assoc, Nat.add_comm 1]
    rfl

namespace Generation

variable {block : Block}

theorem generate_reports_last_foreign (strategy : Strategy) (options : Options) (file : RegisterFile)
    (h : ∃ f, .foreign f ∈ block) :
    ∃ first last f g, block.FirstForeign first f ∧ block.LastForeign last g ∧
      (generate strategy options file block).2 = .error (.analysis ⟨last, g.typeName⟩) ∧
      (last = first ↔ ∃! k : Nat, ∃ f, block[k]? = some (Source.Instruction.foreign f)) ∧
      ∀ m store, Block.run (block.take first) m = .ok store →
        block.run m = .error (.unsupported ⟨first, f.typeName⟩) := by
  obtain ⟨f, hf⟩ := h
  obtain ⟨first, f, hfirst⟩ := Block.exists_firstForeign hf
  obtain ⟨last, g, hlast⟩ := Block.exists_lastForeign hf
  refine ⟨first, last, f, g, hfirst, hlast, ?_, ?_, fun m store => Block.run_of_foreign hfirst.getElem?⟩
  · have htable : Table.ofBlock block = .error ⟨last, g.typeName⟩ := by
      have hcut := @Table.ofBlockFrom_of_last (block.take last) _ g 0 hlast.notMem_drop
      rwa [← Block.eq_take_append_cons hlast.getElem?, Block.length_take hlast.getElem?, Nat.zero_add] at hcut
    simp only [generate, htable]
  · constructor
    · rintro rfl
      refine ⟨last, ⟨g, hlast.getElem?⟩, ?_⟩
      rintro k ⟨f', hk⟩
      exact Nat.le_antisymm (hlast.last k f' hk) (hfirst.first k f' hk)
    · rintro ⟨k, -, hunique⟩
      rw [hunique last ⟨g, hlast.getElem?⟩, hunique first ⟨f, hfirst.getElem?⟩]

def jump (target operand : String) : Source.Foreign :=
  ⟨utf8 "jump", utf8 "jump", 0, utf8 target, [utf8 operand]⟩

theorem generate_reports_last_foreign_jump :
    let block : Block := [.move (utf8 "a") (utf8 "b"), .foreign (jump "a" "b"), .move (utf8 "b") (utf8 "a")]
    (∃ f, .foreign f ∈ block) ∧
      (generate .nextUse {} .fresh block).2 = .error (.analysis ⟨1, utf8 "jump"⟩) ∧
      block.run ∅ = .error (.unsupported ⟨1, utf8 "jump"⟩) := by
  intro block
  have hmem : ∃ f, .foreign f ∈ block := ⟨jump "a" "b", by decide⟩
  have honly (k : Nat) (f : Source.Foreign) (hk : block[k]? = some (.foreign f)) : k = 1 ∧ f = jump "a" "b" := by
    match k with
    | 0 => cases hk
    | 1 => exact ⟨rfl, (Source.Instruction.foreign.inj (Option.some.inj hk)).symm⟩
    | 2 => cases hk
    | k + 3 => cases hk
  obtain ⟨first, last, f, g, hfirst, hlast, hgenerate, -, hrun⟩ :=
    generate_reports_last_foreign .nextUse {} .fresh hmem
  obtain ⟨rfl, rfl⟩ := honly first f hfirst.getElem?
  obtain ⟨rfl, rfl⟩ := honly last g hlast.getElem?
  exact ⟨hmem, hgenerate, hrun ∅ _ rfl⟩

theorem first_foreign_not_reported :
    let block : Block := [.foreign (jump "a" "b"), .move (utf8 "b") (utf8 "a"), .foreign (jump "c" "b")]
    block.FirstForeign 0 (jump "a" "b") ∧
      (generate .nextUse {} .fresh block).2 = .error (.analysis ⟨2, utf8 "jump"⟩) ∧
      block.run ∅ = .error (.unsupported ⟨0, utf8 "jump"⟩) :=
  ⟨⟨rfl, fun k _ _ => Nat.zero_le k⟩, rfl, rfl⟩

end Generation

end ThreeRegister
