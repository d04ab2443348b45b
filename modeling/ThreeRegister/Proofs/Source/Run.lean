import ThreeRegister.Source.Run

namespace ThreeRegister

namespace Source

variable {block rest : Block} {i : Instruction} {m store : Memory} {position n : Nat}

theorem Instruction.run_error {e : RunError} (hi : ∀ f, i ≠ .foreign f) (h : i.run position m = .error e) :
    ∃ cause, e = .failed position i cause := by
  cases i with
  | foreign f => exact absurd rfl (hi f)
  | move dst src => cases h
  | binary dst left op right =>
    simp only [Instruction.run] at h
    split at h
    · cases h
    · next cause hx => exact ⟨cause, by simpa using h.symm⟩

namespace Block

theorem runFrom_append (position : Nat) (block rest : Block) (m : Memory) :
    runFrom position (block ++ rest) m =
      match runFrom position block m with
      | .ok store => runFrom (position + block.length) rest store
      | .error e => .error e := by
  induction block generalizing position m with
  | nil => rfl
  | cons i block ih =>
    rw [List.cons_append, runFrom, runFrom]
    cases i.run position m with
    | error e => rfl
    | ok next =>
      rw [List.length_cons, ← Nat.add_assoc, Nat.add_right_comm]
      exact ih (position + 1) next

theorem run_take_succ (hi : block[n]? = some i) (m : Memory) :
    run (block.take (n + 1)) m =
      match run (block.take n) m with
      | .ok store => i.run n store
      | .error e => .error e := by
  obtain ⟨hn, rfl⟩ := List.getElem?_eq_some_iff.mp hi
  have hlength : (block.take n).length = n := List.length_take_of_le (Nat.le_of_lt hn)
  rw [run, run, List.take_add_one, hi, runFrom_append, hlength, Nat.zero_add]
  cases runFrom 0 (block.take n) m with
  | error e => rfl
  | ok store =>
    simp only [Option.toList_some, runFrom]
    cases block[n].run n store <;> rfl

theorem runFrom_error {e : RunError} (h : runFrom position block m = .error e) :
    ∃ n i store, block[n]? = some i ∧ runFrom position (block.take n) m = .ok store ∧
      i.run (position + n) store = .error e := by
  induction block generalizing position m with
  | nil => cases h
  | cons i block ih =>
    rw [runFrom] at h
    cases hi : i.run position m with
    | error e' =>
      rw [hi] at h
      cases h
      exact ⟨0, i, m, rfl, rfl, hi⟩
    | ok next =>
      rw [hi] at h
      obtain ⟨n, j, store, hj, hstore, herror⟩ := ih h
      refine ⟨n + 1, j, store, hj, ?_, ?_⟩
      · rw [List.take_succ_cons, runFrom, hi]
        exact hstore
      · rw [← herror, Nat.add_assoc, Nat.add_comm 1]

theorem run_take_ok (h : run block m = .ok store) (n : Nat) : ∃ before, run (block.take n) m = .ok before := by
  rw [run, ← List.take_append_drop n block, runFrom_append] at h
  cases hn : runFrom 0 (block.take n) m with
  | ok before => exact ⟨before, hn⟩
  | error e => simp [hn] at h

theorem not_foreign_of_run (h : run block m = .ok store) (f : Foreign) : .foreign f ∉ block := by
  intro hf
  obtain ⟨n, hn, hi⟩ := List.mem_iff_getElem.mp hf
  have hi' : block[n]? = some (.foreign f) := by rw [List.getElem?_eq_getElem hn, hi]
  obtain ⟨before, hbefore⟩ := run_take_ok h n
  obtain ⟨after, hafter⟩ := run_take_ok h (n + 1)
  rw [run_take_succ hi', hbefore] at hafter
  cases hafter

end Block

end Source

end ThreeRegister
