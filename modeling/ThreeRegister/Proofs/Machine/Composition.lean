import ThreeRegister.Proofs.Arithmetic
import ThreeRegister.Proofs.Machine.Run

namespace ThreeRegister

namespace Machine

inductive Refuses (m : Machine) : Instruction → StepError → Prop
  | register {i : Instruction} {r : Register} (h : i.firstInvalid? = some r) : Refuses m i (.invalidRegister r)
  | kind {kind : UInt8} {d : Fin 3} : Refuses m (.undefined kind (.ofIndex d)) (.invalidKind kind)
  | operator {op : Text} {d l r : Fin 3} (h : ∀ o : Operation, ¬o.IsNamed op) :
      Refuses m (.operate op (.ofIndex d) (.ofIndex l) (.ofIndex r)) (.failed (.unknownOperator op))
  | divisor {op : Text} {d l r : Fin 3} (hop : Operation.div.IsNamed op ∨ Operation.rem.IsNamed op)
      (hr : (m.registers.get r).toInt = 0) :
      Refuses m (.operate op (.ofIndex d) (.ofIndex l) (.ofIndex r)) (.failed .divisionByZero)

variable {m n : Machine} {i : Instruction} {r : Register} {cause : StepError} {code : List Instruction} {e : RunError}

theorem Refuses.step_eq (h : m.Refuses i cause) : (step i).run m = .error cause m := by
  cases h with
  | register h =>
    rcases valid_or_firstInvalid i with hvalid | ⟨s, hs, hstep⟩
    · rw [hvalid.firstInvalid?_eq] at h
      cases h
    · rw [hs, Option.some.injEq] at h
      rw [hstep, h]
  | @kind kind d => exact step_undefined m kind d
  | operator h => exact step_operate_error (eval_eq_unknownOperator.mpr ⟨rfl, h⟩)
  | divisor hop hr => exact step_operate_error (eval_eq_divisionByZero.mpr ⟨hr, hop⟩)

theorem refuses_of_step (h : (step i).run m = .error cause n) : m.Refuses i cause := by
  rcases valid_or_firstInvalid i with hvalid | ⟨r, hr, hstep⟩
  · cases hvalid with
    | @load d v =>
      rw [step_load] at h
      cases h
    | @store v s =>
      rw [step_store] at h
      cases h
    | @operate op d l r =>
      cases hx : eval op (m.registers.get l) (m.registers.get r) with
      | ok x =>
        rw [step_operate_ok hx] at h
        cases h
      | error e =>
        rw [step_operate_error hx] at h
        cases h
        cases e with
        | divisionByZero =>
          obtain ⟨hzero, hop⟩ := eval_eq_divisionByZero.mp hx
          exact .divisor hop hzero
        | unknownOperator op' =>
          obtain ⟨rfl, hop⟩ := eval_eq_unknownOperator.mp hx
          exact .operator hop
    | @undefined kind d =>
      rw [step_undefined] at h
      cases h
      exact .kind
  · rw [hstep] at h
    cases h
    exact .register hr

theorem step_eq_error : (step i).run m = .error cause n ↔ n = m ∧ m.Refuses i cause := by
  constructor
  · intro h
    exact ⟨step_atomic h, refuses_of_step h⟩
  · rintro ⟨rfl, hrefuses⟩
    exact hrefuses.step_eq

-- The machine that the failing step leaves is the one that the instructions before it lead to, since a step is atomic.
theorem runFrom_eq_error {position : Nat} (h : (runFrom position code).run m = .error e n) :
    ∃ k, e.position = position + k ∧ code[k]? = some e.instruction ∧
      (runFrom position (code.take k)).run m = .ok () n ∧ n.Refuses e.instruction e.cause := by
  induction code generalizing position m with
  | nil => cases h
  | cons i code ih =>
    rw [run_runFrom_cons] at h
    cases hs : (step i).run m with
    | error cause left =>
      rw [hs] at h
      cases h
      obtain ⟨rfl, hrefuses⟩ := step_eq_error.mp hs
      exact ⟨0, rfl, rfl, rfl, hrefuses⟩
    | ok u next =>
      rw [hs] at h
      obtain ⟨k, hposition, hi, hrun, hrefuses⟩ := ih h
      refine ⟨k + 1, by omega, hi, ?_, hrefuses⟩
      rw [List.take_succ_cons, run_runFrom_cons, hs]
      exact hrun

theorem run_error_of_refuses (hi : code[e.position]? = some e.instruction)
    (hrun : m.run (code.take e.position) = (n, none)) (h : n.Refuses e.instruction e.cause) :
    m.run code = (n, some e) := by
  obtain ⟨hlt, hget⟩ := List.getElem?_eq_some_iff.mp hi
  have hlength : (code.take e.position).length = e.position := List.length_take_of_le (Nat.le_of_lt hlt)
  have hfail := run_concat_of_error hrun h.step_eq
  rw [hlength] at hfail
  have hcode : code = code.take e.position ++ [e.instruction] ++ code.drop (e.position + 1) := by
    rw [← hget, List.append_assoc, List.singleton_append, ← List.drop_eq_getElem_cons hlt, List.take_append_drop]
  rw [hcode]
  exact run_append_of_error hfail

/-- A failing instruction is one that the machine refuses, and it changes nothing. So a run fails exactly at an
instruction that is refused by the machine to which the instructions before it lead, and leaves that machine as it is.
Code in two parts runs as its first part and then, unless that fails, as its second, whose errors are counted on from the
length of the first. -/
theorem run_atomic_and_compositional (m : Machine) :
    (∀ (i : Instruction) (cause : StepError) (n : Machine),
      (step i).run m = .error cause n ↔ n = m ∧ m.Refuses i cause) ∧
    (∀ (code : List Instruction) (n : Machine) (e : RunError), m.run code = (n, some e) ↔
      code[e.position]? = some e.instruction ∧ m.run (code.take e.position) = (n, none) ∧
        n.Refuses e.instruction e.cause) ∧
    ∀ code rest : List Instruction, m.run (code ++ rest) = match m.run code with
      | (n, none) => ((n.run rest).1, (n.run rest).2.map (·.shift code.length))
      | (n, some e) => (n, some e) := by
  refine ⟨fun i cause n => step_eq_error, ?_, ?_⟩
  · intro code n e
    constructor
    · intro h
      obtain ⟨k, hposition, hi, hrun, hrefuses⟩ := runFrom_eq_error (run_eq_error.mp h)
      rw [Nat.zero_add] at hposition
      subst hposition
      exact ⟨hi, run_eq_ok.mpr hrun, hrefuses⟩
    · rintro ⟨hi, hrun, hrefuses⟩
      exact run_error_of_refuses hi hrun hrefuses
  · intro code rest
    cases hrun : m.run code with
    | mk n error =>
      cases error with
      | some e => exact run_append_of_error hrun
      | none => exact run_append_of_ok hrun rest

end Machine

end ThreeRegister
