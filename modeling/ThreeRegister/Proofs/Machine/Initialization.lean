import ThreeRegister.Proofs.Machine.Composition

namespace ThreeRegister

namespace Machine

namespace Instruction

def reads : Instruction → List Register
  | .load .. => []
  | .store _ src => [src]
  | .operate _ _ left right => [left, right]
  | .undefined .. => []

def target? : Instruction → Option Register
  | .load dst _ => some dst
  | .store .. => none
  | .operate _ dst .. => some dst
  | .undefined .. => none

end Instruction

def written (code : List Instruction) : List Register :=
  code.filterMap Instruction.target?

def WrittenBeforeRead (code : List Instruction) : Prop :=
  ∀ (n : Nat) (i : Instruction), code[n]? = some i → ∀ r ∈ i.reads, r ∈ written (code.take n)

def performed (code : List Instruction) : Option RunError → List Instruction
  | none => code
  | some e => code.take e.position

structure AgreesOn (m n : Machine) (known : List Register) : Prop where
  memory : m.memory = n.memory
  registers : ∀ i, .ofIndex i ∈ known → m.registers.get i = n.registers.get i

variable {m n : Machine} {code earlier : List Instruction} {i : Instruction} {known : List Register}

theorem written_append (code rest : List Instruction) : written (code ++ rest) = written code ++ written rest :=
  List.filterMap_append

theorem mem_written_cons {r : Register} : r ∈ written (i :: code) ↔ i.target? = some r ∨ r ∈ written code := by
  simp only [written, List.mem_filterMap, List.mem_cons, exists_eq_or_imp]

theorem writtenBeforeRead_concat :
    WrittenBeforeRead (code ++ [i]) ↔ WrittenBeforeRead code ∧ ∀ r ∈ i.reads, r ∈ written code := by
  constructor
  · intro h
    constructor
    · intro n j hj
      obtain ⟨hn, -⟩ := List.getElem?_eq_some_iff.mp hj
      have hall := h n j (by rwa [List.getElem?_append_left hn])
      rwa [List.take_append_of_le_length (Nat.le_of_lt hn)] at hall
    · have hlast := h code.length i (by simp)
      rwa [List.take_left] at hlast
  · rintro ⟨hcode, hi⟩ n j hj
    by_cases hn : n < code.length
    · rw [List.getElem?_append_left hn] at hj
      rw [List.take_append_of_le_length (Nat.le_of_lt hn)]
      exact hcode n j hj
    · obtain ⟨hlt, rfl⟩ := List.getElem?_eq_some_iff.mp hj
      have hlast : n = code.length := by
        rw [List.length_append, List.length_singleton] at hlt
        omega
      subst hlast
      rw [List.take_left]
      simpa using hi

theorem AgreesOn.update (h : m.AgreesOn n known) (d : Fin 3) (x : Int64) :
    AgreesOn { m with registers := m.registers.update d x } { n with registers := n.registers.update d x }
      (known ++ [.ofIndex d]) := by
  refine ⟨h.memory, ?_⟩
  intro j hj
  rw [Bank.get_update, Bank.get_update]
  by_cases hd : d = j
  · rw [if_pos hd, if_pos hd]
  · rw [if_neg hd, if_neg hd]
    apply h.registers
    rcases List.mem_append.mp hj with hj | hj
    · exact hj
    · exact absurd (Register.ofIndex_inj.mp (List.mem_singleton.mp hj)).symm hd

theorem AgreesOn.insert (h : m.AgreesOn n known) (v : Variable) (x : Int64) :
    AgreesOn { m with memory := m.memory.insert v x } { n with memory := n.memory.insert v x } known :=
  ⟨by rw [h.memory], h.registers⟩

theorem AgreesOn.step (h : m.AgreesOn n known) (hi : ∀ r ∈ i.reads, r ∈ known) :
    (∃ cause, (step i).run m = .error cause m ∧ (step i).run n = .error cause n) ∨
      ∃ m' n', (step i).run m = .ok () m' ∧ (step i).run n = .ok () n' ∧
        m'.AgreesOn n' (known ++ i.target?.toList) := by
  rcases step_cases i with ⟨cause, hcause⟩ | ⟨d, v, rfl⟩ | ⟨v, s, rfl⟩ | ⟨op, d, l, r, rfl⟩
  · exact .inl ⟨cause, hcause m, hcause n⟩
  · have hupdate := h.update d (n.memory.read v)
    refine .inr ⟨_, _, m.step_load d v, n.step_load d v, ?_⟩
    rwa [← h.memory] at hupdate ⊢
  · have hvalue := h.registers s (hi _ List.mem_cons_self)
    have hinsert := h.insert v (n.registers.get s)
    refine .inr ⟨_, _, m.step_store s v, n.step_store s v, ?_⟩
    rw [hvalue, Instruction.target?, Option.toList_none, List.append_nil]
    exact hinsert
  · have hleft := h.registers l (hi _ List.mem_cons_self)
    have hright := h.registers r (hi _ (List.mem_cons_of_mem _ List.mem_cons_self))
    cases hx : eval op (n.registers.get l) (n.registers.get r) with
    | error cause =>
      exact .inl ⟨_, step_operate_error (by rw [hleft, hright, hx]), step_operate_error hx⟩
    | ok x =>
      exact .inr ⟨_, _, step_operate_ok (by rw [hleft, hright, hx]), step_operate_ok hx, h.update d x⟩

theorem AgreesOn.runFrom (h : m.AgreesOn n (written earlier)) (hcode : WrittenBeforeRead (earlier ++ code)) :
    (∃ m' n', (runFrom earlier.length code).run m = .ok () m' ∧ (runFrom earlier.length code).run n = .ok () n' ∧
      m'.AgreesOn n' (written (earlier ++ code))) ∨
    ∃ e m' n', (runFrom earlier.length code).run m = .error e m' ∧ (runFrom earlier.length code).run n = .error e n' ∧
      m'.AgreesOn n' (written ((earlier ++ code).take e.position)) := by
  induction code generalizing earlier m n with
  | nil =>
    rw [List.append_nil]
    exact .inl ⟨m, n, rfl, rfl, h⟩
  | cons i code ih =>
    have hreads : ∀ r ∈ i.reads, r ∈ written earlier := by
      have hi := hcode earlier.length i (by simp)
      rwa [List.take_left] at hi
    rcases h.step hreads with ⟨cause, hm, hn⟩ | ⟨m', n', hm, hn, hnext⟩
    · refine .inr ⟨⟨earlier.length, i, cause⟩, m, n, ?_, ?_, ?_⟩
      · rw [run_runFrom_cons, hm]
      · rw [run_runFrom_cons, hn]
      · rw [List.take_left]
        exact h
    · have hwritten : written earlier ++ i.target?.toList = written (earlier ++ [i]) := by
        rw [written_append]
        cases htarget : i.target? <;> simp [written, htarget]
      rw [hwritten] at hnext
      rw [List.append_cons] at hcode ⊢
      have hrest := ih hnext hcode
      rw [List.length_append, List.length_singleton] at hrest
      simp only [run_runFrom_cons, hm, hn]
      exact hrest

theorem runs_agree (hcode : WrittenBeforeRead code) (m : Memory) (a b : Bank Int64) :
    ∃ machine machine' outcome, run ⟨a, m⟩ code = (machine, outcome) ∧ run ⟨b, m⟩ code = (machine', outcome) ∧
      machine.AgreesOn machine' (written (performed code outcome)) := by
  have hstart : AgreesOn ⟨a, m⟩ ⟨b, m⟩ (written []) := ⟨rfl, fun i hi => by cases hi⟩
  rcases hstart.runFrom hcode with ⟨m', n', hm, hn, hagrees⟩ | ⟨e, m', n', hm, hn, hagrees⟩
  · exact ⟨m', n', none, run_eq_ok.mpr hm, run_eq_ok.mpr hn, hagrees⟩
  · exact ⟨m', n', some e, run_eq_error.mpr hm, run_eq_error.mpr hn, hagrees⟩

theorem step_keeps {j : Fin 3} (h : (step i).run m = .ok () n) (hj : i.target? ≠ some (.ofIndex j)) :
    n.registers.get j = m.registers.get j := by
  have hupdate (d : Fin 3) (x : Int64) (hd : some (Register.ofIndex d) ≠ some (.ofIndex j)) :
      (m.registers.update d x).get j = m.registers.get j := by
    rw [Bank.get_update, if_neg]
    rintro rfl
    exact hd rfl
  rcases step_cases i with ⟨cause, hcause⟩ | ⟨d, v, rfl⟩ | ⟨v, s, rfl⟩ | ⟨op, d, l, r, rfl⟩
  · rw [hcause] at h
    cases h
  · rw [step_load] at h
    cases h
    exact hupdate d _ hj
  · rw [step_store] at h
    cases h
    rfl
  · rw [step_operate] at h
    split at h
    · cases h
      exact hupdate d _ hj
    · cases h

theorem runFrom_keeps {position : Nat} {j : Fin 3} (h : (runFrom position code).run m = .ok () n)
    (hj : .ofIndex j ∉ written code) : n.registers.get j = m.registers.get j := by
  induction code generalizing position m with
  | nil =>
    cases h
    rfl
  | cons i code ih =>
    rw [run_runFrom_cons] at h
    cases hs : (step i).run m with
    | error cause left =>
      rw [hs] at h
      cases h
    | ok u next =>
      rw [hs] at h
      rw [mem_written_cons, not_or] at hj
      exact (ih h hj.2).trans (step_keeps hs hj.1)

theorem run_performed {outcome : Option RunError} (h : m.run code = (n, outcome)) :
    m.run (performed code outcome) = (n, none) := by
  cases outcome with
  | none => exact h
  | some e =>
    obtain ⟨k, hposition, -, hrun, -⟩ := runFrom_eq_error (run_eq_error.mp h)
    rw [Nat.zero_add] at hposition
    rw [performed, hposition]
    exact run_eq_ok.mpr hrun

theorem run_keeps {outcome : Option RunError} {j : Fin 3} (h : m.run code = (n, outcome))
    (hj : .ofIndex j ∉ written (performed code outcome)) : n.registers.get j = m.registers.get j :=
  runFrom_keeps (run_eq_ok.mp (run_performed h)) hj

theorem AgreesOn.value {residents : Residents} {v : Variable} (h : m.AgreesOn n known)
    (hv : ∀ r, residents[v]? = some r → r ∈ known) : m.value residents v = n.value residents v := by
  unfold Machine.value
  cases hi : residents[v]?.bind Register.index? with
  | none => exact congrArg (Memory.read · v) h.memory
  | some i =>
    obtain ⟨r, hr, hindex⟩ := Option.bind_eq_some_iff.mp hi
    exact h.registers i (Register.index?_eq_some.mp hindex ▸ hv r hr)

theorem foldlM_congr {ε α β : Type} {f g : β → α → Except ε β} {xs : List α} (h : ∀ b, ∀ a ∈ xs, f b a = g b a)
    (b : β) : xs.foldlM f b = xs.foldlM g b := by
  induction xs generalizing b with
  | nil => rfl
  | cons a xs ih =>
    rw [List.foldlM_cons, List.foldlM_cons, h b a List.mem_cons_self]
    cases g b a with
    | error e => rfl
    | ok next => exact ih (fun b a ha => h b a (List.mem_cons_of_mem _ ha)) next

theorem AgreesOn.final {residents : Residents} (h : m.AgreesOn n known)
    (hhomes : ∀ (v : Variable) (r : Register), residents[v]? = some r → r ∈ known) :
    m.final residents = n.final residents := by
  unfold Machine.final
  rw [h.memory]
  apply foldlM_congr
  rintro memory ⟨v, r⟩ hv
  have hr := hhomes v r (Std.TreeMap.mem_toList_iff_getElem?_eq_some.mp hv)
  unfold Register.index
  cases hi : r.index? with
  | none => rfl
  | some i =>
    rw [Register.index?_eq_some.mp hi] at hr
    change Except.ok (memory.insert v (m.registers.get i)) = .ok (memory.insert v (n.registers.get i))
    rw [h.registers i hr]

end Machine

end ThreeRegister
