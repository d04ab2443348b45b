import ThreeRegister.Program
import ThreeRegister.Proofs.Generation.Correctness

namespace ThreeRegister

variable {source : Text} {config : Config} {p : Program} {m store : Memory}

theorem compile_parts (h : (compile source config).result = .ok p) :
    Source.Block.parse source = .ok p.block ∧ ∃ strategy, config.policy.strategy? = some strategy ∧
      (Generation.generate strategy config.options .fresh p.block).2 = .ok p.output := by
  unfold compile at h
  cases hparse : Source.Block.parse source with
  | error e => simp [hparse] at h
  | ok block =>
    cases hstrategy : config.policy.strategy? with
    | none => simp [hparse, hstrategy] at h
    | some strategy =>
      simp only [hparse, hstrategy] at h
      cases hgenerate : (Generation.generate strategy config.options .fresh block).2 with
      | error e => simp [hgenerate, Except.map] at h
      | ok output =>
        simp only [hgenerate, mapError_ok, Except.map, Except.ok.injEq] at h
        subst h
        exact ⟨rfl, strategy, rfl, hgenerate⟩

theorem compile_strategy (h : (compile source config).result = .ok p) :
    ∃ strategy, config.policy.strategy? = some strategy ∧
      (Generation.generate strategy config.options .fresh p.block).2 = .ok p.output :=
  (compile_parts h).2

theorem compile_ok (h : (compile source config).result = .ok p) :
    ∃ strategy, (Generation.generate strategy config.options .fresh p.block).2 = .ok p.output := by
  obtain ⟨strategy, -, hgenerate⟩ := compile_strategy h
  exact ⟨strategy, hgenerate⟩

open Generation in
theorem compile_session (h : (compile source config).result = .ok p) :
    ∃ strategy, config.policy.strategy? = some strategy ∧ (∀ f, .foreign f ∉ p.block) ∧
      p.output.code = (sessionAfter strategy config.options p.block p.block.length).code.toList ∧
      p.output.residents = (sessionAfter strategy config.options p.block p.block.length).file.residency := by
  obtain ⟨strategy, hstrategy, hgenerate⟩ := compile_strategy h
  have hb := not_foreign_of_generate hgenerate
  obtain ⟨table, -, -, hlast⟩ := generate_ok strategy config.options hb
  rw [hlast, Except.ok.injEq] at hgenerate
  rw [← hgenerate]
  exact ⟨strategy, hstrategy, hb, rfl, rfl⟩

namespace Program

theorem run_eq_of_yields {strategy : Strategy} {final : Memory}
    (hp : (Generation.generate strategy config.options .fresh p.block).2 = .ok p.output)
    (h : Generation.Yields strategy config.options p.block m final) : p.run m = .ok final := by
  obtain ⟨output, machine, hgenerate, hrun, hfinal⟩ := h
  rw [hp, Except.ok.injEq] at hgenerate
  subst hgenerate
  simp [run, hrun, hfinal]

theorem run_eq_ok {final : Memory} (h : p.run m = .ok final) :
    ∃ machine, (Machine.ofMemory m).run p.output.code = (machine, none) ∧
      machine.final p.output.residents = .ok final := by
  unfold run at h
  split at h
  · cases h
  · next machine hrun => exact ⟨machine, hrun, mapError_eq_ok h⟩

end Program

end ThreeRegister
