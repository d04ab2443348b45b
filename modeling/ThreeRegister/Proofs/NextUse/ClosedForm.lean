import ThreeRegister.Proofs.Lookup
import ThreeRegister.Proofs.NextUse.Table

namespace ThreeRegister

open Source (Block)

def Source.Instruction.Mentions (i : Instruction) (v : Variable) : Prop :=
  v ∈ i.operands ∨ v = i.target

instance (i : Source.Instruction) (v : Variable) : Decidable (i.Mentions v) :=
  inferInstanceAs (Decidable (_ ∨ _))

structure Source.Block.FirstMention (block : Block) (v : Variable) (position found : Nat) (i : Instruction) :
    Prop where
  le : position ≤ found
  getElem? : block[found]? = some i
  mentions : i.Mentions v
  first : ∀ k j, position ≤ k → k < found → block[k]? = some j → ¬j.Mentions v

namespace NextUse

def Distance.capped (n : Nat) : Distance :=
  .finite (UInt32.ofNat (min n 4294967295))

theorem Distance.succ_capped (n : Nat) : (capped n).succ = capped (n + 1) := by
  have hvalue (k : Nat) : (UInt32.ofNat (min k 4294967295)).toNat = min k 4294967295 := by
    rw [UInt32.toNat_ofNat']
    omega
  rw [capped, capped, succ, saturatingSucc, finite.injEq, ← UInt32.toNat_inj]
  by_cases htop : UInt32.ofNat (min n 4294967295) = largest
  · have hn := congrArg UInt32.toNat htop
    rw [hvalue] at hn
    change _ = 4294967295 at hn
    rw [if_pos htop, hvalue, hvalue]
    omega
  · have hn : min n 4294967295 ≠ 4294967295 := by
      intro hn
      apply htop
      rw [hn]
      rfl
    rw [if_neg htop, UInt32.toNat_add, hvalue, hvalue]
    change (_ + 1) % 4294967296 = _
    omega

namespace Table

variable {block earlier later : Block} {table : Table} {i : Source.Instruction} {v : Variable}

theorem Describes.drop (h : Describes block table) (n : Nat) : Describes (block.drop n) (table.drop n) := by
  induction h generalizing n with
  | nil => simpa using Describes.nil
  | cons h hi ih =>
    cases n with
    | zero => exact h.cons hi
    | succ n => exact ih n

theorem Describes.distance_of_not_mentions (h : Describes block table) (hv : ∀ i ∈ block, ¬i.Mentions v) :
    (table.headD ∅).distance v = .unbounded := by
  induction h with
  | nil => rfl
  | @cons i block table h hi ih =>
    rw [List.forall_mem_cons] at hv
    obtain ⟨hi, hblock⟩ := hv
    simp only [Source.Instruction.Mentions, not_or] at hi
    rw [List.headD_cons, Entry.distance_before, if_neg hi.2, if_neg hi.1, ih hblock]
    rfl

-- Each instruction passed on the way to the mention makes the distance one longer.
theorem Describes.distance_of_mentions (h : Describes (earlier ++ i :: later) table)
    (hearlier : ∀ j ∈ earlier, ¬j.Mentions v) (hi : i.Mentions v) :
    (table.headD ∅).distance v = if v = i.target then .unbounded else .capped (earlier.length + 1) := by
  induction earlier generalizing table with
  | nil =>
    cases h with
    | cons h hforeign =>
      rw [List.headD_cons, Entry.distance_before]
      rcases hi with hoperand | htarget
      · rw [if_pos hoperand, List.length_nil]
        rfl
      · rw [if_pos htarget, if_pos htarget]
  | cons j earlier ih =>
    cases h with
    | cons h hforeign =>
      rw [List.forall_mem_cons] at hearlier
      obtain ⟨hj, hearlier⟩ := hearlier
      simp only [Source.Instruction.Mentions, not_or] at hj
      rw [List.headD_cons, Entry.distance_before, if_neg hj.2, if_neg hj.1, ih h hearlier, List.length_cons]
      split
      · rfl
      · exact Distance.succ_capped _

theorem Describes.distance_of_firstMention (h : Describes block table) {position found : Nat}
    (hv : block.FirstMention v position found i) :
    ((table.drop position).headD ∅).distance v =
      if v = i.target then .unbounded else .capped (found - position + 1) := by
  obtain ⟨hle, hi, hmentions, hfirst⟩ := hv
  let rest := block.drop position
  let gap := rest.take (found - position)
  have hget : rest[found - position]? = some i := by
    rw [List.getElem?_drop, ← hi]
    congr 1
    omega
  obtain ⟨hlt, hat⟩ := List.getElem?_eq_some_iff.mp hget
  have hsplit : rest = gap ++ i :: rest.drop (found - position + 1) := by
    rw [← hat, ← List.drop_eq_getElem_cons hlt, List.take_append_drop]
  have hlength : gap.length = found - position := List.length_take_of_le (Nat.le_of_lt hlt)
  have hgap : ∀ j ∈ gap, ¬j.Mentions v := by
    intro j hj
    obtain ⟨k, hk⟩ := List.mem_iff_getElem?.mp hj
    have hklt := (List.getElem?_eq_some_iff.mp hk).1
    rw [List.getElem?_take_of_lt (by omega), List.getElem?_drop] at hk
    apply hfirst (position + k) j _ _ hk
    · omega
    · omega
  have hdescribes := h.drop position
  change Describes rest _ at hdescribes
  rw [hsplit] at hdescribes
  rw [hdescribes.distance_of_mentions hgap hmentions, hlength]

/-- The table of a block has an entry for each position. There the distance of a variable is the number of instructions
up to the first one that mentions it, this one counted too, unless that one overwrites it or there is none; and the
entry lists the variables with such a distance and no others, once each, in the order of their bytes. -/
theorem table_closed_form (hb : ∀ f, .foreign f ∉ block) :
    ∃ table, ofBlock block = .ok table ∧ table.length = block.length ∧
      ∀ (position : Nat) (e : Entry), table[position]? = some e →
        (∀ v, (∀ later i, position ≤ later → block[later]? = some i → ¬i.Mentions v) → e.distance v = .unbounded) ∧
        (∀ v found i, block.FirstMention v position found i →
          e.distance v = if v = i.target then .unbounded else .capped (found - position + 1)) ∧
        (∀ v, v ∈ e.keys ↔ e.distance v ≠ .unbounded) ∧ e.keys.Nodup ∧ e.keys.Pairwise (· < ·) ∧
        e.size = e.keys.length := by
  obtain ⟨table, htable, hdescribes⟩ := ofBlockFrom_ok 0 hb
  refine ⟨table, htable, hdescribes.length_eq, ?_⟩
  intro position e he
  have hhead : (table.drop position).headD ∅ = e := by
    rw [List.headD_eq_head?_getD, List.head?_drop, he, Option.getD_some]
  refine ⟨?_, ?_, (hdescribes.bounded e (List.mem_of_getElem? he)).mem_keys_iff, Std.TreeMap.nodup_keys, pairwise_keys e, Std.TreeMap.length_keys.symm⟩
  · intro v hv
    rw [← hhead]
    apply (hdescribes.drop position).distance_of_not_mentions
    intro i hi
    obtain ⟨k, hk⟩ := List.mem_iff_getElem?.mp hi
    rw [List.getElem?_drop] at hk
    exact hv (position + k) i (Nat.le_add_right _ _) hk
  · intro v found i hv
    rw [← hhead]
    exact hdescribes.distance_of_firstMention hv

theorem table_closed_form_overwritten :
    let last : Source.Instruction := .binary (utf8 "a") (utf8 "a") (utf8 "*") (utf8 "b")
    let block : Block :=
      [.binary (utf8 "p") (utf8 "a") (utf8 "+") (utf8 "b"), .move (utf8 "q") (utf8 "p"), last]
    (∀ f, .foreign f ∉ block) ∧ ∃ table e, ofBlock block = .ok table ∧ table[1]? = some e ∧
      block.FirstMention (utf8 "b") 1 2 last ∧ e.distance (utf8 "b") = .finite 2 ∧
      block.FirstMention (utf8 "a") 1 2 last ∧ e.distance (utf8 "a") = .unbounded := by
  intro last block
  have hb : ∀ f, .foreign f ∉ block := by simp [block, last]
  obtain ⟨table, htable, hlength, hentries⟩ := table_closed_form hb
  have hposition : 1 < table.length := by
    rw [hlength]
    decide
  obtain ⟨e, he⟩ : ∃ e, table[1]? = some e := ⟨_, List.getElem?_eq_getElem hposition⟩
  obtain ⟨-, hfirst, -⟩ := hentries 1 e he
  have hmention (v : Variable) (hv : last.Mentions v)
      (hv' : ¬(Source.Instruction.move (utf8 "q") (utf8 "p")).Mentions v) : block.FirstMention v 1 2 last := by
    refine ⟨by decide, rfl, hv, ?_⟩
    intro k j hle hlt hj
    obtain rfl : k = 1 := by omega
    cases hj
    exact hv'
  have hmention_b := hmention (utf8 "b") (by decide) (by decide)
  have hmention_a := hmention (utf8 "a") (by decide) (by decide)
  exact ⟨hb, table, e, htable, he, hmention_b, hfirst _ _ _ hmention_b, hmention_a, hfirst _ _ _ hmention_a⟩

end Table

end NextUse

end ThreeRegister
