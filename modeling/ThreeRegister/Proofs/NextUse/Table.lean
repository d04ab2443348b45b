import ThreeRegister.NextUse.Table

namespace ThreeRegister

namespace NextUse

open Source (Block Unsupported)

namespace Entry

variable {e : Entry} {v : Variable} {d : Distance}

theorem distance_eq (e : Entry) (v : Variable) : e.distance v = e[v]?.getD .unbounded :=
  Std.TreeMap.getD_eq_getD_getElem?

theorem getElem?_set (e : Entry) (u : Variable) (d : Distance) (v : Variable) :
    (e.set u d)[v]? = if u = v then (if d.isUnbounded then none else some d) else e[v]? := by
  unfold set
  by_cases hd : d.isUnbounded
  · rw [if_pos hd, if_pos hd, Std.TreeMap.getElem?_erase]
    simp
  · rw [if_neg hd, if_neg hd, Std.TreeMap.getElem?_insert]
    simp

theorem getElem?_succ (e : Entry) (v : Variable) :
    e.succ[v]? = e[v]?.bind fun d => if d.succ.isUnbounded then none else some d.succ :=
  Std.TreeMap.getElem?_filterMap'

theorem getD_some_bounded (d : Distance) : (if d.isUnbounded then none else some d).getD .unbounded = d := by
  cases d <;> rfl

theorem distance_set (e : Entry) (u : Variable) (d : Distance) (v : Variable) :
    (e.set u d).distance v = if u = v then d else e.distance v := by
  rw [distance_eq, getElem?_set]
  split
  · exact getD_some_bounded d
  · exact (e.distance_eq v).symm

theorem distance_succ (e : Entry) (v : Variable) : e.succ.distance v = (e.distance v).succ := by
  rw [distance_eq, distance_eq, getElem?_succ]
  cases e[v]? with
  | none => rfl
  | some d => exact getD_some_bounded d.succ

theorem distance_foldl_set (operands : List Variable) (e : Entry) (v : Variable) :
    (operands.foldl (fun e u => e.set u (.finite 1)) e).distance v =
      if v ∈ operands then .finite 1 else e.distance v := by
  induction operands generalizing e with
  | nil => simp
  | cons u operands ih =>
    rw [List.foldl_cons, ih, distance_set]
    by_cases hv : v ∈ operands
    · simp [hv]
    · simp [hv, @eq_comm _ u v]

theorem distance_before (i : Source.Instruction) (after : Entry) (v : Variable) :
    (before i after).distance v =
      if v = i.target then .unbounded else if v ∈ i.operands then .finite 1 else (after.distance v).succ := by
  simp only [before, distance_set, distance_foldl_set, distance_succ, @eq_comm _ i.target v]

theorem before_operand {i : Source.Instruction} (after : Entry) (hv : v ∈ i.operands) (hne : v ≠ i.target) :
    ((before i after).distance v).isUnbounded = false := by
  rw [distance_before, if_neg hne, if_pos hv]
  rfl

theorem isUnbounded_before {i : Source.Instruction} (after : Entry) (hv : v ∈ i.operands) :
    ((before i after).distance v).isUnbounded = true ↔ v = i.target := by
  constructor
  · intro hdead
    refine Decidable.byContradiction fun hne => ?_
    rw [before_operand after hv hne] at hdead
    cases hdead
  · intro htarget
    rw [distance_before, if_pos htarget]
    rfl

def Bounded (e : Entry) : Prop :=
  ∀ v : Variable, e[v]? ≠ some .unbounded

theorem Bounded.set (h : e.Bounded) (u : Variable) (d : Distance) : (e.set u d).Bounded := by
  intro v
  rw [getElem?_set]
  split
  · cases d <;> simp [Distance.isUnbounded]
  · exact h v

theorem bounded_succ (e : Entry) : e.succ.Bounded := by
  intro v
  rw [getElem?_succ]
  cases e[v]? with
  | none => simp
  | some d => cases d <;> simp [Distance.succ, Distance.isUnbounded]

theorem Bounded.foldl_set (h : e.Bounded) (operands : List Variable) :
    (operands.foldl (fun e u => e.set u (.finite 1)) e).Bounded := by
  induction operands generalizing e with
  | nil => exact h
  | cons u operands ih => exact ih (h.set u (.finite 1))

theorem bounded_before (i : Source.Instruction) (after : Entry) : (before i after).Bounded :=
  (after.bounded_succ.foldl_set i.operands).set i.target .unbounded

theorem Bounded.mem_keys_iff (h : e.Bounded) (v : Variable) : v ∈ e.keys ↔ e.distance v ≠ .unbounded := by
  rw [Std.TreeMap.mem_keys, Std.TreeMap.mem_iff_isSome_getElem?, distance_eq]
  cases hv : e[v]? with
  | none => simp
  | some d =>
    have hd : d ≠ .unbounded := fun hd => h v (hd ▸ hv)
    simp [hd]

end Entry

namespace Table

theorem ofBlockFrom_cons (position : Nat) (i : Source.Instruction) (block : Block) :
    ofBlockFrom position (i :: block) = do
      let table ← ofBlockFrom (position + 1) block
      i.check position
      return Entry.before i (table.headD ∅) :: table := rfl

inductive Describes : Block → Table → Prop
  | nil : Describes [] []
  | cons {i : Source.Instruction} {block : Block} {table : Table} (h : Describes block table)
      (hi : ∀ f, i ≠ .foreign f) : Describes (i :: block) (Entry.before i (table.headD ∅) :: table)

theorem check_ok {i : Source.Instruction} (position : Nat) (hi : ∀ f, i ≠ .foreign f) : i.check position = .ok () := by
  cases i with
  | foreign f => exact absurd rfl (hi f)
  | move dst src => rfl
  | binary dst left op right => rfl

theorem ofBlockFrom_ok (position : Nat) {block : Block} (h : ∀ f, .foreign f ∉ block) :
    ∃ table, ofBlockFrom position block = .ok table ∧ Describes block table := by
  induction block generalizing position with
  | nil => exact ⟨[], rfl, .nil⟩
  | cons i block ih =>
    have hi : ∀ f, i ≠ .foreign f := by
      rintro f rfl
      exact h f List.mem_cons_self
    obtain ⟨table, htable, hdescribes⟩ := ih (position + 1) fun f hf => h f (List.mem_cons_of_mem _ hf)
    refine ⟨_, ?_, hdescribes.cons hi⟩
    rw [ofBlockFrom_cons, htable]
    simp only [Bind.bind, Except.bind, check_ok position hi]
    rfl

theorem ofBlockFrom_error (position : Nat) {block : Block} {f : Source.Foreign} (h : .foreign f ∈ block) :
    ∃ e, ofBlockFrom position block = .error e := by
  induction block generalizing position with
  | nil => cases h
  | cons i block ih =>
    rw [ofBlockFrom_cons]
    rcases List.mem_cons.mp h with rfl | hmem
    · cases ofBlockFrom (position + 1) block with
      | error e => exact ⟨e, rfl⟩
      | ok table => exact ⟨_, rfl⟩
    · obtain ⟨e, he⟩ := ih (position + 1) hmem
      rw [he]
      exact ⟨e, rfl⟩

theorem Describes.bounded {block : Block} {table : Table} (h : Describes block table) : ∀ e ∈ table, e.Bounded := by
  induction h with
  | nil => nofun
  | @cons i block table h hi ih =>
    rw [List.forall_mem_cons]
    exact ⟨Entry.bounded_before i _, ih⟩

theorem Describes.length_eq {block : Block} {table : Table} (h : Describes block table) :
    table.length = block.length := by
  induction h with
  | nil => rfl
  | cons h hi ih => simp [ih]

end Table

end NextUse

end ThreeRegister
