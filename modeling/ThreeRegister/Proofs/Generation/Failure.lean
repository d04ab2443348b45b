import ThreeRegister.Proofs.Program

namespace ThreeRegister

namespace Generation

variable {strategy : Strategy} {options : Options} {block : Source.Block} {m store : Memory} {output : Output}

/-- The code fails at the operation written for this instruction of the block, which is the last of what was written for
it and comes after transfers only. -/
def FailsAtOperation (strategy : Strategy) (options : Options) (block : Source.Block) (code : List Machine.Instruction)
    (m : Memory) (position : Nat) (op : Text) (cause : EvalError) : Prop :=
  ∃ earlier moved d l r later machine,
    earlier = (sessionAfter strategy options block position).code.toList ∧
    earlier ++ moved ++ [.operate op d l r] = (sessionAfter strategy options block (position + 1)).code.toList ∧
    code = earlier ++ moved ++ [.operate op d l r] ++ later ∧ (∀ i ∈ moved, i.isTransfer = true) ∧
    (Machine.ofMemory m).run code =
      (machine, some ⟨(earlier ++ moved).length, .operate op d l r, .failed cause⟩)

theorem code_fails_with_source (hgenerate : (generate strategy options .fresh block).2 = .ok output)
    {e : Source.RunError} (herror : block.run m = .error e) :
    ∃ position dst left op right cause, e = .failed position (.binary dst left op right) cause ∧
      block[position]? = some (.binary dst left op right) ∧
      FailsAtOperation strategy options block output.code m position op cause := by
  have hb := not_foreign_of_generate hgenerate
  obtain ⟨position, i, store, hi, hstore, hfail⟩ := Source.Block.runFrom_error herror
  rw [Nat.zero_add] at hfail
  have hforeign : ∀ f, i ≠ .foreign f := by
    rintro f rfl
    exact hb f (List.mem_of_getElem? hi)
  obtain ⟨cause, rfl⟩ := Source.Instruction.run_error hforeign hfail
  obtain ⟨hposition, -⟩ := List.getElem?_eq_some_iff.mp hi
  have hrealizes := @sessionAfter_realizes strategy options block hb (Machine.ofMemory m) store position
    (Nat.le_of_lt hposition) hstore
  obtain ⟨after, hwritten⟩ := sessionAfter_succ strategy options hb hi
  obtain ⟨moved, dst, left, op, right, d, l, r, machine, rfl, hcode, hmoved, hrun⟩ :=
    hwritten.fails (sessionAfter_ready strategy options hb position) hrealizes hfail
  obtain ⟨later, hlater⟩ := code_extends_of_le strategy options hb hposition (Nat.le_refl _)
  obtain ⟨table, -, -, hgenerate'⟩ := generate_ok strategy options hb
  rw [hgenerate', Except.ok.injEq] at hgenerate
  subst hgenerate
  refine ⟨position, dst, left, op, right, cause, rfl, hi, _, moved, d, l, r, later, machine, rfl, hcode.symm, ?_,
    hmoved, ?_⟩
  · rw [← hcode]
    exact hlater
  · show (Machine.ofMemory m).run (sessionAfter strategy options block block.length).code.toList = _
    rw [hlater]
    exact Machine.run_append_of_error hrun

theorem source_fails_iff (hgenerate : (generate strategy options .fresh block).2 = .ok output) :
    (∃ e, block.run m = .error e) ↔ ∃ machine e, (Machine.ofMemory m).run output.code = (machine, some e) := by
  constructor
  · rintro ⟨e, he⟩
    obtain ⟨position, dst, left, op, right, cause, -, -, hfails⟩ := code_fails_with_source hgenerate he
    obtain ⟨earlier, moved, d, l, r, later, machine, -, -, -, -, hrun⟩ := hfails
    exact ⟨machine, _, hrun⟩
  · rintro ⟨machine, e, hrun⟩
    cases hstore : block.run m with
    | error e => exact ⟨e, rfl⟩
    | ok store =>
      obtain ⟨final, ⟨output', machine', hgenerate', hrun', -⟩, -⟩ := yields_store strategy options hstore
      rw [hgenerate, Except.ok.injEq] at hgenerate'
      subst hgenerate'
      rw [hrun] at hrun'
      cases hrun'

end Generation

namespace Program

variable {p : Program} {m store : Memory} {source : Text} {config : Config}

theorem verify_of_ok (hcompile : (compile source config).result = .ok p) (hstore : p.block.run m = .ok store) :
    ∃ final, p.run m = .ok final ∧ p.verify m = .ok () := by
  obtain ⟨strategy, hgenerate⟩ := compile_ok hcompile
  obtain ⟨final, hyields, hread⟩ := Generation.yields_store strategy config.options hstore
  have hrun := run_eq_of_yields hgenerate hyields
  have hsame : p.vars.find? (fun v => decide (store.read v ≠ final.read v)) = none := by
    simp [hread]
  refine ⟨final, hrun, ?_⟩
  simp only [verify, hstore, hrun, mapError_ok, bind, Except.bind, hsame]
  rfl

theorem verify_of_error (hcompile : (compile source config).result = .ok p) {e : Source.RunError}
    (hstore : p.block.run m = .error e) : p.verify m = .error (.source e) ∧ ∃ e', p.run m = .error (.stopped e') := by
  obtain ⟨strategy, hgenerate⟩ := compile_ok hcompile
  obtain ⟨machine, e', hrun⟩ := (Generation.source_fails_iff hgenerate).mp ⟨e, hstore⟩
  refine ⟨?_, e', ?_⟩
  · simp [verify, hstore, bind, Except.bind]
  · simp [run, hrun]

end Program

open Generation in
/-- A block fails exactly when its code does, and then the code fails at the operation written for the instruction that
fails, for the same reason. So a compiled program passes the check against its source exactly when it runs. -/
theorem source_and_code_fail_together :
    (∀ strategy options (block : Source.Block) m, (∀ f, .foreign f ∉ block) →
      ∃ output, (generate strategy options .fresh block).2 = .ok output ∧
        ((∃ e, block.run m = .error e) ↔ ∃ machine e, (Machine.ofMemory m).run output.code = (machine, some e)) ∧
        ∀ e, block.run m = .error e →
          ∃ position dst left op right cause, e = .failed position (.binary dst left op right) cause ∧
            block[position]? = some (.binary dst left op right) ∧
            FailsAtOperation strategy options block output.code m position op cause) ∧
    ∀ source config p m, (compile source config).result = .ok p →
      (p.verify m = .ok () ↔ ∃ final, p.run m = .ok final) ∧
        ∀ v expected actual, p.verify m ≠ .error (.mismatch v expected actual) := by
  constructor
  · intro strategy options block m hb
    obtain ⟨table, -, -, hgenerate⟩ := generate_ok strategy options hb
    have houtput := congrArg Prod.snd hgenerate
    exact ⟨_, houtput, source_fails_iff houtput, fun e he => code_fails_with_source houtput he⟩
  · intro source config p m hcompile
    cases hstore : p.block.run m with
    | ok store =>
      obtain ⟨final, hrun, hverify⟩ := Program.verify_of_ok hcompile hstore
      simp [hrun, hverify]
    | error e =>
      obtain ⟨hverify, e', hrun⟩ := Program.verify_of_error hcompile hstore
      simp [hrun, hverify]

open Generation in
theorem source_and_code_fail_together_division :
    let source := utf8 "x = a + b\ny = c - x\nd = x * c\nq = y / b\np = q + d\n"
    let quotient : Source.Instruction := .binary (utf8 "q") (utf8 "y") (utf8 "/") (utf8 "b")
    let m := Memory.ofPairs [(utf8 "a", 9), (utf8 "c", 4)]
    ∃ p machine e, (compile source {}).result = .ok p ∧ p.block.run m = .error (.failed 3 quotient .divisionByZero) ∧
      (Machine.ofMemory m).run p.output.code = (machine, some e) ∧ e.position = 14 ∧
      e.cause = .failed .divisionByZero ∧ p.verify m ≠ .ok () ∧ p.verify (m.insert (utf8 "b") 2) = .ok () := by
  intro source quotient m
  let block : Source.Block := [.binary (utf8 "x") (utf8 "a") (utf8 "+") (utf8 "b"),
    .binary (utf8 "y") (utf8 "c") (utf8 "-") (utf8 "x"), .binary (utf8 "d") (utf8 "x") (utf8 "*") (utf8 "c"), quotient,
    .binary (utf8 "p") (utf8 "q") (utf8 "+") (utf8 "d")]
  have hcompiled : (match (compile source {}).result with
      | .ok p => decide (p.block = block ∧ ((Machine.ofMemory m).run p.output.code).2.map (·.position) = some 14 ∧
          (p.run (m.insert (utf8 "b") 2)).isOk)
      | .error _ => false) = true := by
    decide +kernel
  cases hcompile : (compile source {}).result with
  | error e => simp [hcompile] at hcompiled
  | ok p =>
    rw [hcompile, decide_eq_true_iff] at hcompiled
    obtain ⟨hblock, hposition, hruns⟩ := hcompiled
    obtain ⟨strategy, hstrategy, hgenerate⟩ := compile_strategy hcompile
    cases hstrategy
    have hrun : p.block.run m = .error (.failed 3 quotient .divisionByZero) := by
      rw [hblock]
      rfl
    obtain ⟨htogether, hverified⟩ := source_and_code_fail_together
    obtain ⟨output, houtput, -, hfails⟩ := htogether .nextUse {} p.block m (not_foreign_of_generate hgenerate)
    cases hgenerate.symm.trans houtput
    obtain ⟨position, dst, left, op, right, cause, he, -, hfails⟩ := hfails _ hrun
    obtain ⟨-, -, rfl⟩ := Source.RunError.failed.inj he
    obtain ⟨earlier, moved, d, l, r, later, machine, -, -, -, -, hmachine⟩ := hfails
    rw [hmachine, Option.map_some, Option.some.injEq] at hposition
    refine ⟨p, machine, _, rfl, hrun, hmachine, hposition, rfl, ?_, ?_⟩
    · intro hverify
      obtain ⟨final, hfinal⟩ := (hverified source {} p m hcompile).1.mp hverify
      simp [Program.run, hmachine] at hfinal
    · apply (hverified source {} p _ hcompile).1.mpr
      cases hfinal : p.run (m.insert (utf8 "b") 2) with
      | ok final => exact ⟨final, rfl⟩
      | error e =>
        rw [hfinal] at hruns
        cases hruns

end ThreeRegister
