import ThreeRegister.Proofs.Lookup

namespace ThreeRegister

namespace Machine

def Instruction.stored? : Instruction → Option Variable
  | .store v _ => some v
  | _ => none

def stores (code : List Instruction) : List Variable :=
  code.filterMap Instruction.stored?

def Instruction.named : Instruction → List Register
  | .load dst _ => [dst]
  | .store _ src => [src]
  | .operate _ dst left right => [dst, left, right]
  | .undefined _ dst => [dst]

def Instruction.firstInvalid? (i : Instruction) : Option Register :=
  i.named.find? fun r => !r.isValid

inductive Instruction.Valid : Instruction → Prop
  | load {d : Fin 3} {v : Variable} : Valid (.load (.ofIndex d) v)
  | store {v : Variable} {s : Fin 3} : Valid (.store v (.ofIndex s))
  | operate {op : Text} {d l r : Fin 3} : Valid (.operate op (.ofIndex d) (.ofIndex l) (.ofIndex r))
  | undefined {kind : UInt8} {d : Fin 3} : Valid (.undefined kind (.ofIndex d))

variable {m n : Machine} {i : Instruction} {code rest : List Instruction} {position : Nat}

section Step

theorem run_requireRegister (m : Machine) (j : Fin 3) : (requireRegister (.ofIndex j)).run m = .ok j m := by
  rw [requireRegister, Register.index?_ofIndex]
  rfl

theorem run_requireRegister_of_invalid {r : Register} (h : r.isValid = false) (m : Machine) :
    (requireRegister r).run m = .error (.invalidRegister r) m := by
  rw [Register.isValid, Option.isSome_eq_false_iff, Option.isNone_iff_eq_none] at h
  rw [requireRegister, h]
  rfl

theorem step_load (m : Machine) (d : Fin 3) (v : Variable) :
    (step (.load (.ofIndex d) v)).run m = .ok () { m with registers := m.registers.update d (m.memory.read v) } := by
  rw [step, EStateM.run_bind, run_requireRegister]
  rfl

theorem step_store (m : Machine) (s : Fin 3) (v : Variable) :
    (step (.store v (.ofIndex s))).run m = .ok () { m with memory := m.memory.insert v (m.registers.get s) } := by
  rw [step, EStateM.run_bind, run_requireRegister]
  rfl

theorem step_undefined (m : Machine) (kind : UInt8) (d : Fin 3) :
    (step (.undefined kind (.ofIndex d))).run m = .error (.invalidKind kind) m := by
  rw [step, EStateM.run_bind, run_requireRegister]
  rfl

theorem step_operate (m : Machine) (op : Text) (d l r : Fin 3) :
    (step (.operate op (.ofIndex d) (.ofIndex l) (.ofIndex r))).run m =
      match eval op (m.registers.get l) (m.registers.get r) with
      | .ok x => .ok () { m with registers := m.registers.update d x }
      | .error cause => .error (.failed cause) m := by
  simp only [step, EStateM.run_bind, run_requireRegister, evaluate, EStateM.run_get]
  cases eval op (m.registers.get l) (m.registers.get r) <;> rfl

theorem step_operate_ok {op : Text} {d l r : Fin 3} {x : Int64}
    (h : eval op (m.registers.get l) (m.registers.get r) = .ok x) :
    (step (.operate op (.ofIndex d) (.ofIndex l) (.ofIndex r))).run m =
      .ok () { m with registers := m.registers.update d x } := by
  rw [step_operate, h]

theorem step_operate_error {op : Text} {d l r : Fin 3} {cause : EvalError}
    (h : eval op (m.registers.get l) (m.registers.get r) = .error cause) :
    (step (.operate op (.ofIndex d) (.ofIndex l) (.ofIndex r))).run m = .error (.failed cause) m := by
  rw [step_operate, h]

theorem isValid_cases (r : Register) : r.isValid = false ∨ ∃ j, r = .ofIndex j := by
  cases h : r.isValid with
  | false => exact .inl rfl
  | true => exact .inr (Register.isValid_iff.mp h)

theorem Instruction.Valid.firstInvalid?_eq (h : i.Valid) : i.firstInvalid? = none := by
  cases h <;> simp [firstInvalid?, named, Register.isValid_ofIndex]

-- The registers are checked from the destination on, so that the first one that is invalid ends the step.
theorem valid_or_firstInvalid (i : Instruction) :
    i.Valid ∨ ∃ r, i.firstInvalid? = some r ∧ ∀ m : Machine, (step i).run m = .error (.invalidRegister r) m := by
  simp only [Instruction.firstInvalid?]
  cases i with
  | load dst v =>
    rcases isValid_cases dst with hd | ⟨d, rfl⟩
    · refine .inr ⟨dst, by simp [Instruction.named, hd], fun m => ?_⟩
      rw [step, EStateM.run_bind, run_requireRegister_of_invalid hd]
    · exact .inl .load
  | store v src =>
    rcases isValid_cases src with hs | ⟨s, rfl⟩
    · refine .inr ⟨src, by simp [Instruction.named, hs], fun m => ?_⟩
      rw [step, EStateM.run_bind, run_requireRegister_of_invalid hs]
    · exact .inl .store
  | operate op dst left right =>
    rcases isValid_cases dst with hd | ⟨d, rfl⟩
    · refine .inr ⟨dst, by simp [Instruction.named, hd], fun m => ?_⟩
      rw [step, EStateM.run_bind, run_requireRegister_of_invalid hd]
    rcases isValid_cases left with hl | ⟨l, rfl⟩
    · refine .inr ⟨left, by simp [Instruction.named, hl, Register.isValid_ofIndex], fun m => ?_⟩
      simp only [step, EStateM.run_bind, run_requireRegister, run_requireRegister_of_invalid hl]
    rcases isValid_cases right with hr | ⟨r, rfl⟩
    · refine .inr ⟨right, by simp [Instruction.named, hr, Register.isValid_ofIndex], fun m => ?_⟩
      simp only [step, EStateM.run_bind, run_requireRegister, run_requireRegister_of_invalid hr]
    · exact .inl .operate
  | undefined kind dst =>
    rcases isValid_cases dst with hd | ⟨d, rfl⟩
    · refine .inr ⟨dst, by simp [Instruction.named, hd], fun m => ?_⟩
      rw [step, EStateM.run_bind, run_requireRegister_of_invalid hd]
    · exact .inl .undefined

-- What an instruction names is wrong on every machine or on none.
theorem step_cases (i : Instruction) :
    (∃ cause, ∀ m : Machine, (step i).run m = .error cause m) ∨ (∃ d v, i = .load (.ofIndex d) v) ∨
      (∃ v s, i = .store v (.ofIndex s)) ∨ ∃ op d l r, i = .operate op (.ofIndex d) (.ofIndex l) (.ofIndex r) := by
  rcases valid_or_firstInvalid i with hvalid | ⟨r, -, hstep⟩
  · cases hvalid with
    | @load d v => exact .inr (.inl ⟨d, v, rfl⟩)
    | @store v s => exact .inr (.inr (.inl ⟨v, s, rfl⟩))
    | @operate op d l r => exact .inr (.inr (.inr ⟨op, d, l, r, rfl⟩))
    | @undefined kind d => exact .inl ⟨_, fun m => m.step_undefined kind d⟩
  · exact .inl ⟨_, hstep⟩

theorem step_atomic {cause : StepError} (h : (step i).run m = .error cause n) : n = m := by
  rcases step_cases i with ⟨e, hstep⟩ | ⟨d, v, rfl⟩ | ⟨v, s, rfl⟩ | ⟨op, d, l, r, rfl⟩
  · rw [hstep] at h
    cases h
    rfl
  · rw [step_load] at h
    cases h
  · rw [step_store] at h
    cases h
  · rw [step_operate] at h
    split at h
    · cases h
    · cases h
      rfl

end Step

section Run

theorem run_runFrom_cons (position : Nat) (i : Instruction) (code : List Instruction) (m : Machine) :
    (runFrom position (i :: code)).run m = match (step i).run m with
      | .ok () n => (runFrom (position + 1) code).run n
      | .error cause n => .error ⟨position, i, cause⟩ n := by
  rw [runFrom, EStateM.run_bind, EStateM.run_adaptExcept]
  cases (step i).run m <;> rfl

theorem run_eq_ok : m.run code = (n, none) ↔ (runFrom 0 code).run m = .ok () n := by
  unfold run
  cases (runFrom 0 code).run m <;> simp

theorem run_eq_error {e : RunError} : m.run code = (n, some e) ↔ (runFrom 0 code).run m = .error e n := by
  unfold run
  cases (runFrom 0 code).run m <;> simp [and_comm]

theorem runFrom_append (position : Nat) (code rest : List Instruction) :
    runFrom position (code ++ rest) = runFrom position code >>= fun () => runFrom (position + code.length) rest := by
  induction code generalizing position with
  | nil => rfl
  | cons i code ih =>
    rw [List.cons_append, runFrom, ih, runFrom, bind_assoc, List.length_cons, Nat.add_assoc, Nat.add_comm 1]

def RunError.shift (e : RunError) (offset : Nat) : RunError :=
  { e with position := offset + e.position }

theorem run_runFrom_add (offset position : Nat) (code : List Instruction) (m : Machine) :
    (runFrom (offset + position) code).run m = match (runFrom position code).run m with
      | .ok () n => .ok () n
      | .error e n => .error (e.shift offset) n := by
  induction code generalizing position m with
  | nil => rfl
  | cons i code ih =>
    rw [run_runFrom_cons, run_runFrom_cons]
    cases (step i).run m with
    | error cause n => rfl
    | ok u n => exact ih (position + 1) n

theorem run_append_of_error {e : RunError} (h : m.run code = (n, some e)) : m.run (code ++ rest) = (n, some e) := by
  rw [run_eq_error] at h ⊢
  rw [runFrom_append, EStateM.run_bind, h]

theorem run_append_of_ok (h : m.run code = (n, none)) (rest : List Instruction) :
    m.run (code ++ rest) = ((n.run rest).1, (n.run rest).2.map (·.shift code.length)) := by
  rw [run_eq_ok] at h
  rw [run, run, runFrom_append, EStateM.run_bind, h, Nat.zero_add, ← Nat.add_zero code.length]
  simp only [run_runFrom_add]
  cases (runFrom 0 rest).run n <;> rfl

theorem run_append {k : Machine} (h : m.run code = (n, none)) (hrest : n.run rest = (k, none)) :
    m.run (code ++ rest) = (k, none) := by
  rw [run_append_of_ok h, hrest]
  rfl

theorem run_concat {k : Machine} (h : m.run code = (n, none)) (hs : (step i).run n = .ok () k) :
    m.run (code ++ [i]) = (k, none) := by
  apply run_append h
  rw [run_eq_ok, run_runFrom_cons, hs]
  rfl

theorem run_concat_of_error {k : Machine} {cause : StepError} (h : m.run code = (n, none))
    (hs : (step i).run n = .error cause k) : m.run (code ++ [i]) = (k, some ⟨code.length, i, cause⟩) := by
  have hlast : n.run [i] = (k, some ⟨0, i, cause⟩) := by
    rw [run_eq_error, run_runFrom_cons, hs]
  rw [run_append_of_ok h, hlast]
  rfl

end Run

def value (m : Machine) (residents : Residents) (v : Variable) : Int64 :=
  match residents[v]?.bind Register.index? with
  | some i => m.registers.get i
  | none => m.memory.read v

variable {residents : Residents} {v : Variable} {i : Fin 3}

theorem value_of_resident (h : residents[v]? = some (.ofIndex i)) : m.value residents v = m.registers.get i := by
  simp [value, h, Register.index?_ofIndex]

theorem value_of_absent (h : residents[v]? = none) : m.value residents v = m.memory.read v := by
  simp [value, h]

theorem foldlM_insert (m : Machine) (homes : List (Variable × Register)) (memory : Memory)
    (hvalid : ∀ p ∈ homes, ∃ i, p.2 = .ofIndex i) (hdistinct : homes.Pairwise (·.1 ≠ ·.1)) :
    ∃ final : Memory, homes.foldlM (fun (memory : Memory) p => do
        let i ← p.2.index
        return memory.insert p.1 (m.registers.get i)) memory = (.ok final : Except OutOfRange Memory) ∧
      (∀ v i, (v, .ofIndex i) ∈ homes → final.read v = m.registers.get i) ∧
      ∀ v, (∀ r, (v, r) ∉ homes) → final.read v = memory.read v := by
  induction homes generalizing memory with
  | nil => exact ⟨memory, rfl, by simp, by simp⟩
  | cons p homes ih =>
    obtain ⟨i, hi⟩ := hvalid p List.mem_cons_self
    rw [List.pairwise_cons] at hdistinct
    obtain ⟨final, hrun, hheld, hother⟩ := ih (memory.insert p.1 (m.registers.get i))
      (fun q hq => hvalid q (List.mem_cons_of_mem _ hq)) hdistinct.2
    refine ⟨final, ?_, ?_, ?_⟩
    · rw [List.foldlM_cons, hi, Register.index_ofIndex]
      exact hrun
    · intro v j hv
      -- A variable is listed once, so nothing after its own entry overwrites what is written for it.
      rcases List.mem_cons.mp hv with rfl | hmem
      · rw [Register.ofIndex_inj] at hi
        rw [hother _ (fun r hr => hdistinct.1 _ hr rfl), Memory.read_insert, hi]
        simp
      · exact hheld v j hmem
    · intro v hv
      have hne : p.1 ≠ v := by
        rintro rfl
        exact hv p.2 List.mem_cons_self
      rw [hother v fun r hr => hv r (List.mem_cons_of_mem _ hr), Memory.read_insert, if_neg hne]

theorem final_read (m : Machine)
    (hvalid : ∀ (v : Variable) (r : Register), residents[v]? = some r → ∃ i, r = .ofIndex i) :
    ∃ final, m.final residents = .ok final ∧ ∀ v, final.read v = m.value residents v := by
  have hmem (v : Variable) (r : Register) : (v, r) ∈ residents.toList ↔ residents[v]? = some r :=
    Std.TreeMap.mem_toList_iff_getElem?_eq_some
  have hdistinct : residents.toList.Pairwise (·.1 ≠ ·.1) :=
    Std.TreeMap.distinct_keys_toList.imp fun h => by simpa using h
  obtain ⟨final, hrun, hheld, hother⟩ := foldlM_insert m residents.toList m.memory
    (fun p hp => hvalid p.1 p.2 ((hmem _ _).mp hp)) hdistinct
  refine ⟨final, hrun, ?_⟩
  intro v
  cases hv : residents[v]? with
  | none =>
    rw [value_of_absent hv, hother v fun r hr => by simp [(hmem v r).mp hr] at hv]
  | some r =>
    obtain ⟨i, rfl⟩ := hvalid v r hv
    rw [value_of_resident hv, hheld v i ((hmem _ _).mpr hv)]

end Machine

end ThreeRegister
