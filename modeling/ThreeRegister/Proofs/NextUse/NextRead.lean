import ThreeRegister.Proofs.NextUse.ClosedForm

namespace ThreeRegister

open Source (Block)

variable {block : Block} {v : Variable} {i : Source.Instruction} {found : Nat}

/-- The next read of a variable after a position is at another position, and no instruction between the two writes it. -/
structure Source.Block.NextRead (block : Block) (v : Variable) (position : Int) (found : Nat) (i : Instruction) :
    Prop where
  lt : position < found
  getElem? : block[found]? = some i
  reads : v ∈ i.operands
  first : ∀ (k : Nat) j, position < k → k < found → block[k]? = some j → v ∉ j.operands
  kept : ∀ (k : Nat) j, position < k → k < found → block[k]? = some j → v ≠ j.target

theorem Source.Block.NextRead.firstMention {position : Int} (h : block.NextRead v position found i)
    (hposition : -1 ≤ position) : block.FirstMention v (position + 1).toNat found i := by
  have hlt := h.lt
  refine ⟨by omega, h.getElem?, .inl h.reads, ?_⟩
  intro k j hle hk hj
  apply not_or.mpr
  constructor
  · apply h.first k j _ hk hj
    omega
  · apply h.kept k j _ hk hj
    omega

namespace NextUse

namespace Table

theorem toInt_next {position : Int64} (hlt : position.toInt < 0x7fffffffffffffff) :
    (position + 1).toInt = position.toInt + 1 := by
  have hlow := position.le_toInt
  rw [Int64.toInt_add, Int64.toInt_one]
  apply Int.bmod_eq_of_le
  · omega
  · omega

theorem after_eq (t : Table) {position : Int64} (hposition : -1 ≤ position.toInt)
    (hlt : position.toInt < 0x7fffffffffffffff) :
    t.after position = .ok ((t.drop (position.toInt + 1).toNat).headD ∅) := by
  have hnext := toInt_next hlt
  have hnonneg : ¬position + 1 < 0 := by
    rw [Int64.lt_iff_toInt_lt, hnext, Int64.toInt_zero]
    omega
  rw [after, if_neg hnonneg, hnext, List.headD_eq_head?_getD, List.head?_drop]

/-- After a position, the distance of a variable that is read again before any other instruction writes it is the number
of instructions up to that read, unless the instruction that reads it also overwrites it: then the variable is reported
to have no next use. Positions are machine words, and so is the length of a block. -/
theorem after_reports_next_read (hb : ∀ f, .foreign f ∉ block) (hlength : block.length < 0x8000000000000000) :
    ∃ table, ofBlock block = .ok table ∧
      ∀ (position : Int64) (v : Variable) (found : Nat) (i : Source.Instruction), -1 ≤ position.toInt →
        block.NextRead v position.toInt found i → ∃ e, table.after position = .ok e ∧
          e.distance v = if v = i.target then .unbounded else .capped (found - position.toInt).toNat := by
  obtain ⟨table, htable, hdescribes⟩ := ofBlockFrom_ok 0 hb
  refine ⟨table, htable, ?_⟩
  intro position v found i hposition hread
  have hlt := hread.lt
  have hfound := (List.getElem?_eq_some_iff.mp hread.getElem?).1
  refine ⟨_, after_eq table hposition (by omega), ?_⟩
  have hdistance := hdescribes.distance_of_firstMention (hread.firstMention hposition)
  have hcount : found - (position.toInt + 1).toNat + 1 = (found - position.toInt).toNat := by omega
  rw [hdistance, hcount]

def readTwice : Block :=
  [.binary (utf8 "x") (utf8 "a") (utf8 "+") (utf8 "b"), .move (utf8 "y") (utf8 "x"),
    .binary (utf8 "a") (utf8 "a") (utf8 "+") (utf8 "b")]

theorem nextRead_readTwice (hreads : v ∈ [utf8 "a", utf8 "b"]) :
    readTwice.NextRead v 0 2 (.binary (utf8 "a") (utf8 "a") (utf8 "+") (utf8 "b")) := by
  have hmove : ∀ v ∈ [utf8 "a", utf8 "b"], ¬(Source.Instruction.move (utf8 "y") (utf8 "x")).Mentions v := by decide
  have hbetween (k : Nat) (j : Source.Instruction) (hlow : (0 : Int) < k) (hhigh : k < 2)
      (hj : readTwice[k]? = some j) : ¬j.Mentions v := by
    obtain rfl : k = 1 := by omega
    cases hj
    exact hmove v hreads
  refine ⟨by decide, rfl, hreads, ?_, ?_⟩
  · intro k j hlow hhigh hj hoperand
    exact hbetween k j hlow hhigh hj (.inl hoperand)
  · intro k j hlow hhigh hj htarget
    exact hbetween k j hlow hhigh hj (.inr htarget)

theorem after_reports_next_read_readTwice :
    (∀ f, .foreign f ∉ readTwice) ∧ ∃ table e, ofBlock readTwice = .ok table ∧ table.after 0 = .ok e ∧
      e.distance (utf8 "b") = .finite 2 := by
  have hb : ∀ f, .foreign f ∉ readTwice := by simp [readTwice]
  obtain ⟨table, htable, hafter⟩ := after_reports_next_read hb (by decide)
  obtain ⟨e, he, hdistance⟩ := hafter 0 (utf8 "b") 2 _ (by decide) (nextRead_readTwice (by decide))
  exact ⟨hb, table, e, htable, he, hdistance⟩

theorem overwriting_read_not_reported :
    readTwice.NextRead (utf8 "a") 0 2 (.binary (utf8 "a") (utf8 "a") (utf8 "+") (utf8 "b")) ∧
      ∃ table e, ofBlock readTwice = .ok table ∧ table.after 0 = .ok e ∧
        e.distance (utf8 "a") = .unbounded ∧ e.distance (utf8 "a") ≠ .capped 2 := by
  refine ⟨nextRead_readTwice (by decide), ?_⟩
  have hb : ∀ f, .foreign f ∉ readTwice := by simp [readTwice]
  obtain ⟨table, htable, hdescribes⟩ := ofBlockFrom_ok 0 hb
  have hread := (nextRead_readTwice (by decide : utf8 "a" ∈ _)).firstMention (by decide)
  have hunbounded : ((table.drop 1).headD ∅).distance (utf8 "a") = .unbounded :=
    hdescribes.distance_of_firstMention hread
  refine ⟨table, _, htable, after_eq table (by decide) (by decide), hunbounded, ?_⟩
  intro hcapped
  cases hunbounded.symm.trans hcapped

end Table

end NextUse

end ThreeRegister
