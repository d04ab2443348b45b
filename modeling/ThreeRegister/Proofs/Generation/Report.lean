import ThreeRegister.Proofs.Generation.Vocabulary
import ThreeRegister.Proofs.Program

namespace ThreeRegister

namespace Machine

variable {m n : Machine} {code : List Instruction} {i : Instruction} {residents : Residents} {memory final : Memory}

theorem mem_stores_push {code : Array Instruction} {v : Variable} :
    v ∈ stores (code.push i).toList ↔ v ∈ stores code.toList ∨ i.stored? = some v := by
  rw [Array.toList_push, stores, List.filterMap_append, List.mem_append]
  simp [stores]

theorem mem_memory_step (h : (step i).run m = .ok () n) (v : Variable) :
    v ∈ n.memory ↔ v ∈ m.memory ∨ i.stored? = some v := by
  rcases step_cases i with ⟨cause, hcause⟩ | ⟨d, w, rfl⟩ | ⟨w, s, rfl⟩ | ⟨op, d, l, r, rfl⟩
  · rw [hcause] at h
    cases h
  · rw [step_load] at h
    cases h
    simp [Instruction.stored?]
  · rw [step_store] at h
    cases h
    simp [Instruction.stored?, or_comm]
  · cases hx : eval op (m.registers.get l) (m.registers.get r) with
    | error cause =>
      rw [step_operate_error hx] at h
      cases h
    | ok x =>
      rw [step_operate_ok hx] at h
      cases h
      simp [Instruction.stored?]

theorem mem_memory_runFrom {position : Nat} (h : (runFrom position code).run m = .ok () n) (v : Variable) :
    v ∈ n.memory ↔ v ∈ m.memory ∨ v ∈ stores code := by
  induction code generalizing position m with
  | nil =>
    cases h
    simp [stores]
  | cons i code ih =>
    rw [run_runFrom_cons] at h
    cases hs : (step i).run m with
    | error cause next =>
      rw [hs] at h
      cases h
    | ok u next =>
      rw [hs] at h
      rw [ih h, mem_memory_step hs]
      cases hi : i.stored? <;> simp [stores, hi, or_assoc, eq_comm]

theorem mem_foldlM_insert {homes : List (Variable × Register)}
    (h : homes.foldlM (fun (memory : Memory) p => do
        let i ← p.2.index
        return memory.insert p.1 (m.registers.get i)) memory = (.ok final : Except OutOfRange Memory)) (v : Variable) :
    v ∈ final ↔ v ∈ memory ∨ ∃ r, (v, r) ∈ homes := by
  induction homes generalizing memory with
  | nil =>
    cases h
    simp
  | cons p homes ih =>
    rw [List.foldlM_cons] at h
    obtain ⟨next, hnext, h⟩ := bind_eq_ok h
    obtain ⟨i, hi, hnext⟩ := bind_eq_ok hnext
    cases hnext
    rw [ih h, Std.TreeMap.mem_insert]
    obtain ⟨w, r⟩ := p
    simp only [Std.compare_eq_iff_eq, List.mem_cons, Prod.mk.injEq]
    grind

theorem mem_final (h : m.final residents = .ok final) (v : Variable) :
    v ∈ final ↔ v ∈ m.memory ∨ ∃ r, residents[v]? = some r := by
  rw [mem_foldlM_insert h]
  simp only [Std.TreeMap.mem_toList_iff_getElem?_eq_some]

end Machine

open Alloc

def Session.Keeps (s : Session) (v : Variable) : Prop :=
  v ∈ Machine.stores s.code.toList ∨ ∃ r, s.file.residency[v]? = some r

variable {s t : Session} {strategy : Strategy} {e after : NextUse.Entry} {dst left right v w : Variable} {op : Text}
  {d l r i : Fin 3}

namespace Session.Keeps

theorem of_resident {home : Register} (h : s.file.residency[v]? = some home) : s.Keeps v :=
  .inr ⟨home, h⟩

theorem of_stored {i : Machine.Instruction} (hcode : t.code = s.code.push i) (hi : i.stored? = some v) :
    t.Keeps v := by
  unfold Session.Keeps
  rw [hcode, Machine.mem_stores_push]
  exact .inl (.inr hi)

theorem congr (h : s.Keeps v) (hr : t.file.residency = s.file.residency) (hc : t.code = s.code) : t.Keeps v := by
  unfold Session.Keeps
  rw [hr, hc]
  exact h

theorem push (h : s.Keeps v) {i : Machine.Instruction} (hcode : t.code = s.code.push i)
    (hresident : ∀ home, s.file.residency[v]? = some home →
      i.stored? = some v ∨ t.file.residency[v]? = some home) : t.Keeps v := by
  unfold Session.Keeps
  rw [hcode, Machine.mem_stores_push]
  rcases h with hstored | ⟨home, hhome⟩
  · exact .inl (.inl hstored)
  · rcases hresident home hhome with hstored | hkept
    · exact .inl (.inr hstored)
    · exact .inr ⟨home, hkept⟩

end Session.Keeps

theorem Alloc.Vacated.keeps (h : Vacated strategy e s i t) (hs : s.Keeps v) : t.Keeps v := by
  cases h with
  | free h => exact hs
  | @evicted w _ hfull hw =>
    apply hs.push rfl
    intro home hhome
    by_cases hwv : w = v
    · exact .inl (congrArg some hwv)
    · rw [RegisterFile.residency_release, if_neg hwv]
      exact .inr hhome

theorem Alloc.Ensured.keeps (h : Ensured strategy v e s i t) (hs : s.Keeps w) : t.Keeps w := by
  cases h with
  | resident h => exact hs.congr rfl rfl
  | @loaded u _ h hvacated =>
    by_cases hvw : v = w
    · subst hvw
      exact .of_resident (Ensured.loaded h hvacated).resident_at
    · apply (hvacated.keeps hs).push rfl
      intro home hhome
      have hocc := RegisterFile.residency_occupy u.file v w i
      rw [if_neg hvw] at hocc
      exact .inr (hocc.trans hhome)

namespace Generation

theorem Loaded.keeps (h : Loaded strategy left right e s l r t) (hs : s.Keeps v) : t.Keeps v := by
  obtain @⟨t, u, hleft, hright⟩ := h
  have ht : (t.pin l).Keeps v := (hleft.keeps hs).congr rfl rfl
  exact (hright.keeps ht).congr rfl rfl

theorem Prepared.keeps (h : Prepared strategy left right e s d l r t) (hs : s.Keeps v) : t.Keeps v := by
  cases h with
  | reused hreuse hloaded => exact hloaded.keeps (hs.congr rfl rfl)
  | acquired hreuse hloaded hvacated => exact hvacated.keeps (hloaded.keeps (hs.congr rfl rfl))

theorem Written.keeps {instruction : Source.Instruction}
    (h : Written strategy (.before instruction after) s instruction t) (hs : s.Ready)
    (hv : s.Keeps v ∨ instruction.Mentions v) : t.Keeps v := by
  cases h with
  | @move dst src i t _ _ hsrc =>
    by_cases hdst : dst = v
    · exact .of_stored rfl (congrArg some hdst)
    · have ht : t.Keeps v := by
        rcases hv with hold | hoperand | htarget
        · exact hsrc.keeps (hold.congr rfl rfl)
        · cases List.mem_singleton.mp hoperand
          exact .of_resident hsrc.resident_at
        · exact absurd htarget.symm hdst
      apply ht.push rfl
      intro home hhome
      by_cases hne : dst ≠ src
      · simp only [if_pos hne]
        rw [(hsrc.consistent hs.consistent).residency_forget, if_neg hdst]
        exact .inr hhome
      · simp only [if_neg hne]
        exact .inr hhome
  | @binary dst left right op d l r t _ _ hprepared =>
    by_cases hdst : dst = v
    · subst hdst
      exact .of_resident (t.file.residency_define_self dst d)
    · have hc := hprepared.consistent hs.consistent
      have ht : t.Keeps v := by
        rcases hv with hold | hoperand | htarget
        · exact hprepared.keeps (hold.congr rfl rfl)
        · rcases List.mem_pair.mp hoperand with rfl | rfl
          · exact .of_resident (hprepared.residency_left hs.consistent)
          · exact .of_resident (hprepared.residency_right hs.consistent)
        · exact absurd htarget.symm hdst
      -- The register of the result holds no variable but the target, so this one stays in its own.
      have hother : t.file.residency[v]? ≠ some (.ofIndex d) := fun hd =>
        hdst (hprepared.destination hs.consistent (hc.held hd)).symm
      apply ht.push rfl
      intro home hhome
      exact .inr ((hc.residency_define_of_ne hdst hother).trans hhome)

theorem sessionAfter_keeps (strategy : Strategy) (options : Options) {block : Source.Block}
    (hb : ∀ f, .foreign f ∉ block) {count : Nat} (hcount : count ≤ block.length)
    (hv : ∃ i ∈ block.take count, i.Mentions v) : (sessionAfter strategy options block count).Keeps v := by
  induction count with
  | zero =>
    obtain ⟨i, hi, -⟩ := hv
    cases hi
  | succ count ih =>
    have hi := List.getElem?_eq_getElem hcount
    obtain ⟨after, hstep⟩ := sessionAfter_succ strategy options hb hi
    apply hstep.keeps (sessionAfter_ready strategy options hb count)
    rw [List.take_add_one, hi, Option.toList_some] at hv
    obtain ⟨i, hmem, hmentions⟩ := hv
    rcases List.mem_append.mp hmem with hmem | hmem
    · exact .inl (ih (Nat.le_of_succ_le hcount) ⟨i, hmem, hmentions⟩)
    · rw [List.mem_singleton.mp hmem] at hmentions
      exact .inr hmentions

theorem sessionAfter_keeps_iff (strategy : Strategy) (options : Options) {block : Source.Block}
    (hb : ∀ f, .foreign f ∉ block) :
    (sessionAfter strategy options block block.length).Keeps v ↔ v ∈ block.vars := by
  constructor
  · have hnames := @sessionAfter_names (· ∈ block.vars) (fun _ => True) strategy options block hb _ (Nat.le_refl _)
      (fun i hi v hv => Source.Block.mem_vars.mpr ⟨i, List.mem_of_mem_take hi, hv⟩) fun _ _ _ _ => trivial
    rintro (hstored | ⟨home, hhome⟩)
    · obtain ⟨i, hi, hv⟩ := List.mem_filterMap.mp hstored
      cases hnames.code i hi with
      | store hw =>
        cases hv
        exact hw
      | load hw => cases hv
      | operate hop => cases hv
    · exact hnames.residents hhome
  · intro hv
    apply sessionAfter_keeps strategy options hb (Nat.le_refl _)
    rw [List.take_length]
    exact Source.Block.mem_vars.mp hv

end Generation

variable {source : Text} {config : Config} {p : Program} {m final : Memory}

theorem Program.run_reports_variables (hcompile : (compile source config).result = .ok p) (hrun : p.run m = .ok final)
    (v : Variable) : v ∈ final ↔ v ∈ m ∨ v ∈ p.vars := by
  obtain ⟨strategy, -, hb, hcode, hresidents⟩ := compile_session hcompile
  obtain ⟨machine, hmachine, hfinal⟩ := Program.run_eq_ok hrun
  have hplaces : v ∈ p.vars ↔ v ∈ Machine.stores p.output.code ∨ ∃ r, p.output.residents[v]? = some r := by
    rw [hcode, hresidents]
    exact (Generation.sessionAfter_keeps_iff strategy config.options hb).symm
  rw [Machine.mem_final hfinal, Machine.mem_memory_runFrom (Machine.run_eq_ok.mp hmachine), hplaces, or_assoc]
  rfl

theorem Program.run_reports_variables_evicted :
    let m := Memory.ofPairs [(utf8 "n", 7), (utf8 "d", 4)]
    ∃ p final, (compile (utf8 "x = a\ny = b\nz = c\nb = d\n") {}).result = .ok p ∧ p.run m = .ok final ∧
      ∀ v, v ∈ final ↔ v ∈ m ∨ v ∈ ["a", "x", "b", "y", "c", "z", "d"].map utf8 := by
  intro m
  have hcompiled : (match (compile (utf8 "x = a\ny = b\nz = c\nb = d\n") {}).result with
      | .ok p => decide (p.vars = ["a", "x", "b", "y", "c", "z", "d"].map utf8 ∧ (p.run m).toOption.isSome)
      | .error _ => false) = true := by
    decide +kernel
  cases hcompile : (compile (utf8 "x = a\ny = b\nz = c\nb = d\n") {}).result with
  | error e => simp [hcompile] at hcompiled
  | ok p =>
    rw [hcompile, decide_eq_true_iff] at hcompiled
    obtain ⟨hvars, hsome⟩ := hcompiled
    cases hrun : p.run m with
    | error e => simp [hrun, Except.toOption] at hsome
    | ok final =>
      refine ⟨p, final, rfl, hrun, ?_⟩
      rw [← hvars]
      exact Program.run_reports_variables hcompile hrun

end ThreeRegister
