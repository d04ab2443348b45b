import ThreeRegister.Proofs.Generation.Simulation
import ThreeRegister.Proofs.Source.Run

namespace ThreeRegister

namespace Generation

open NextUse (Table)

/-- The session after the first instructions of a block, their next uses being those in the whole block. -/
def sessionAfter (strategy : Strategy) (options : Options) (block : Source.Block) (count : Nat) : Session :=
  let session := Session.start .fresh options.trace
  match Table.ofBlock block with
  | .error _ => session
  | .ok table =>
    match (writeFrom strategy options.validate 0 ((block.zip table).take count)).run session with
    | .ok () reached => reached
    | .error _ reached => reached

variable {s t : Session} {strategy : Strategy} {options : Options} {block : Source.Block} {table : Table}
  {i : Source.Instruction} {e : NextUse.Entry} {n : Nat}

theorem run_requireValid (position : Nat) (i : Source.Instruction) (hc : s.file.Consistent) :
    (requireValid position i).run s = .ok () s := by
  simp [requireValid, hc.validate_ok]

theorem writeFrom_append (strategy : Strategy) (validate : Bool) (position : Nat)
    (pairs rest : List (Source.Instruction × NextUse.Entry)) (s : Session) :
    (writeFrom strategy validate position (pairs ++ rest)).run s =
      match (writeFrom strategy validate position pairs).run s with
      | .ok () t => (writeFrom strategy validate (position + pairs.length) rest).run t
      | .error e t => .error e t := by
  induction pairs generalizing position s with
  | nil => rfl
  | cons p pairs ih =>
    obtain ⟨i, e⟩ := p
    have hlength : position + ((i, e) :: pairs).length = position + 1 + pairs.length := by
      rw [List.length_cons, Nat.add_assoc, Nat.add_comm 1]
    rw [hlength]
    simp only [List.cons_append, writeFrom, EStateM.run_bind]
    cases (writeInstruction strategy position i e).run s with
    | error fault t => rfl
    | ok _ t =>
      cases validate with
      | false => exact ih (position + 1) t
      | true =>
        simp only [if_true, EStateM.run_bind]
        cases (requireValid position i).run t with
        | error fault u => rfl
        | ok _ u => exact ih (position + 1) u

theorem writeFrom_one (strategy : Strategy) (position : Nat) (e : NextUse.Entry) (hs : s.Ready)
    (hi : ∀ f, i ≠ .foreign f) :
    ∃ t, (writeInstruction strategy position i e).run s = .ok () t ∧ Written strategy e s i t ∧
      ∀ validate, (writeFrom strategy validate position [(i, e)]).run s = .ok () t := by
  obtain ⟨t, hrun, ht⟩ := writeInstruction_ok strategy position e hs hi
  refine ⟨t, hrun, ht, ?_⟩
  intro validate
  cases validate with
  | false => simp [writeFrom, hrun]
  | true => simp [writeFrom, hrun, run_requireValid position i (ht.ready hs).consistent]

theorem getElem?_zip_describes (h : Table.Describes block table) (hi : block[n]? = some i) :
    ∃ after, (block.zip table)[n]? = some (i, .before i after) := by
  induction h generalizing n with
  | nil => cases hi
  | @cons j block table h hj ih =>
    cases n with
    | zero =>
      cases hi
      exact ⟨table.headD ∅, rfl⟩
    | succ n => exact ih hi

theorem ready_start (recording : Bool) : (Session.start .fresh recording).Ready :=
  ⟨.fresh, rfl⟩

-- The same session for either setting of the check, since the check passes after each instruction.
theorem writeFrom_take_ok (strategy : Strategy) (recording : Bool) (htable : Table.Describes block table)
    (hb : ∀ f, .foreign f ∉ block) (count : Nat) :
    ∃ t, t.Ready ∧ ∀ validate, (writeFrom strategy validate 0 ((block.zip table).take count)).run
      (Session.start .fresh recording) = .ok () t := by
  induction count with
  | zero => exact ⟨_, ready_start recording, fun validate => rfl⟩
  | succ count ih =>
    obtain ⟨s, hs, hrun⟩ := ih
    cases hi : block[count]? with
    | none =>
      have hzip : (block.zip table)[count]? = none := by
        rw [List.getElem?_eq_none_iff] at hi ⊢
        simp [htable.length_eq, hi]
      rw [List.take_add_one, hzip, Option.toList_none, List.append_nil]
      exact ⟨s, hs, hrun⟩
    | some i =>
      obtain ⟨after, hzip⟩ := getElem?_zip_describes htable hi
      have hforeign : ∀ f, i ≠ .foreign f := by
        rintro f rfl
        exact hb f (List.mem_of_getElem? hi)
      obtain ⟨t, -, ht, hone⟩ := writeFrom_one strategy (0 + ((block.zip table).take count).length) (.before i after) hs
        hforeign
      refine ⟨t, ht.ready hs, ?_⟩
      intro validate
      rw [List.take_add_one, hzip, Option.toList_some, writeFrom_append, hrun]
      exact hone validate

theorem not_foreign_of_generate {output : Output} (h : (generate strategy options .fresh block).2 = .ok output)
    (f : Source.Foreign) : .foreign f ∉ block := by
  intro hf
  obtain ⟨e, he⟩ := Table.ofBlockFrom_error 0 hf
  simp [generate, Table.ofBlock, he] at h

section NoForeign

variable (strategy options) (hb : ∀ f, .foreign f ∉ block)

include hb

theorem run_sessionAfter : ∃ table, Table.ofBlock block = .ok table ∧ Table.Describes block table ∧
    ∀ count, (writeFrom strategy options.validate 0 ((block.zip table).take count)).run
      (Session.start .fresh options.trace) = .ok () (sessionAfter strategy options block count) := by
  obtain ⟨table, htable, hdescribes⟩ := Table.ofBlockFrom_ok 0 hb
  refine ⟨table, htable, hdescribes, ?_⟩
  intro count
  obtain ⟨t, -, hrun⟩ := writeFrom_take_ok strategy options.trace hdescribes hb count
  have ht : sessionAfter strategy options block count = t := by
    unfold sessionAfter Table.ofBlock
    simp only [htable, hrun options.validate]
  rw [ht, hrun]

theorem sessionAfter_ready (count : Nat) : (sessionAfter strategy options block count).Ready := by
  obtain ⟨table, htable, hdescribes, hrun⟩ := run_sessionAfter strategy options hb
  obtain ⟨t, ht, hrun'⟩ := writeFrom_take_ok strategy options.trace hdescribes hb count
  have heq := (hrun' options.validate).symm.trans (hrun count)
  cases heq
  exact ht

theorem sessionAfter_zero : sessionAfter strategy options block 0 = Session.start .fresh options.trace := by
  obtain ⟨table, htable, hdescribes, hrun⟩ := run_sessionAfter strategy options hb
  have heq := hrun 0
  rw [List.take_zero] at heq
  exact (EStateM.Result.ok.inj heq).2.symm

theorem sessionAfter_step (htable : Table.ofBlock block = .ok table) (hi : (block.zip table)[n]? = some (i, e)) :
    (writeInstruction strategy n i e).run (sessionAfter strategy options block n) =
        .ok () (sessionAfter strategy options block (n + 1)) ∧
      Written strategy e (sessionAfter strategy options block n) i (sessionAfter strategy options block (n + 1)) := by
  obtain ⟨table', htable', hdescribes, hrun⟩ := run_sessionAfter strategy options hb
  rw [htable, Except.ok.injEq] at htable'
  subst htable'
  have hforeign : ∀ f, i ≠ .foreign f := by
    rintro f rfl
    exact hb f (List.of_mem_zip (List.mem_of_getElem? hi)).1
  have hlength : ((block.zip table).take n).length = n := by
    rw [List.length_take]
    exact Nat.min_eq_left (Nat.le_of_lt (List.getElem?_eq_some_iff.mp hi).1)
  obtain ⟨t, hwrite, ht, hone⟩ := writeFrom_one strategy n e (sessionAfter_ready strategy options hb n) hforeign
  have hnext := hrun (n + 1)
  rw [List.take_add_one, hi, Option.toList_some, writeFrom_append, hrun n, hlength, Nat.zero_add] at hnext
  simp only [hone options.validate, EStateM.Result.ok.injEq, true_and] at hnext
  subst hnext
  exact ⟨hwrite, ht⟩

theorem sessionAfter_written (htable : Table.ofBlock block = .ok table) (hi : (block.zip table)[n]? = some (i, e)) :
    Written strategy e (sessionAfter strategy options block n) i (sessionAfter strategy options block (n + 1)) :=
  (sessionAfter_step strategy options hb htable hi).2

theorem sessionAfter_succ (hi : block[n]? = some i) :
    ∃ after, Written strategy (.before i after) (sessionAfter strategy options block n) i
      (sessionAfter strategy options block (n + 1)) := by
  obtain ⟨table, htable, hdescribes⟩ := Table.ofBlockFrom_ok 0 hb
  obtain ⟨after, hzip⟩ := getElem?_zip_describes hdescribes hi
  exact ⟨after, sessionAfter_written strategy options hb htable hzip⟩

theorem generate_ok : ∃ table, Table.ofBlock block = .ok table ∧ Table.Describes block table ∧
    generate strategy options .fresh block = (sessionAfter strategy options block block.length,
      .ok ⟨(sessionAfter strategy options block block.length).code.toList,
        (sessionAfter strategy options block block.length).file.residency, table⟩) := by
  obtain ⟨table, htable, hdescribes, hrun⟩ := run_sessionAfter strategy options hb
  have hall : (block.zip table).take block.length = block.zip table := by
    apply List.take_of_length_le
    simp [hdescribes.length_eq]
  have hlast := hrun block.length
  rw [hall] at hlast
  refine ⟨table, htable, hdescribes, ?_⟩
  simp only [generate, htable, hlast]

theorem code_extends_of_le {m n : Nat} (hmn : m ≤ n) (hn : n ≤ block.length) :
    ∃ written, (sessionAfter strategy options block n).code.toList =
      (sessionAfter strategy options block m).code.toList ++ written := by
  induction hmn with
  | refl => exact ⟨[], by simp⟩
  | @step n hmn ih =>
    obtain ⟨written, hwritten⟩ := ih (Nat.le_of_succ_le hn)
    obtain ⟨after, hstep⟩ := sessionAfter_succ strategy options hb (List.getElem?_eq_getElem hn)
    obtain ⟨more, hmore⟩ := hstep.code_extends
    exact ⟨written ++ more, by rw [hmore, hwritten, List.append_assoc]⟩

theorem sessionAfter_realizes {start : Machine} {store : Memory} {count : Nat} (hcount : count ≤ block.length)
    (hrun : Source.Block.run (block.take count) start.memory = .ok store) :
    (sessionAfter strategy options block count).Realizes start store := by
  induction count generalizing store with
  | zero =>
    cases hrun
    rw [sessionAfter_zero strategy options hb]
    exact .begin options.trace start
  | succ count ih =>
    have hi := List.getElem?_eq_getElem hcount
    rw [Source.Block.run_take_succ hi] at hrun
    cases hbefore : Source.Block.run (block.take count) start.memory with
    | error e => simp [hbefore] at hrun
    | ok before =>
      rw [hbefore] at hrun
      obtain ⟨after, hstep⟩ := sessionAfter_succ strategy options hb hi
      exact hstep.realizes (sessionAfter_ready strategy options hb count) (ih (Nat.le_of_succ_le hcount) hbefore) hrun

end NoForeign

end Generation

end ThreeRegister
