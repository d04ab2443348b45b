import ThreeRegister.Proofs.Generation.Vocabulary
import ThreeRegister.Proofs.Native.Layout
import ThreeRegister.Proofs.Native.Simulation
import ThreeRegister.Proofs.Program

namespace ThreeRegister

namespace Native

open Generation

def Supported (block : Source.Block) : Prop :=
  ∀ dst left op right, .binary dst left op right ∈ block → op ∈ supportedOperators

structure FirstUnsupported (block : Source.Block) (position : Nat) (op : Text) : Prop where
  operation : ∃ dst left right, block[position]? = some (.binary dst left op right)
  unsupported : op ∉ supportedOperators
  earlier : Supported (block.take position)

variable {layout : Layout} {block : Source.Block} {code rest : List Machine.Instruction} {op : Text}
  {position : Nat} {source : Text} {config : Config} {p : Program}

theorem FirstUnsupported.not_supported (h : FirstUnsupported block position op) : ¬Supported block := by
  intro hall
  obtain ⟨dst, left, right, hi⟩ := h.operation
  exact h.unsupported (hall dst left op right (List.mem_of_getElem? hi))

theorem supported_or_firstUnsupported (block : Source.Block) :
    Supported block ∨ ∃ position op, FirstUnsupported block position op := by
  induction block with
  | nil => exact .inl nofun
  | cons i block ih =>
    by_cases hi : ∀ dst left op right, i = .binary dst left op right → op ∈ supportedOperators
    · have hcons {block : Source.Block} (h : Supported block) : Supported (i :: block) := by
        intro dst left op right hmem
        rcases List.mem_cons.mp hmem with heq | hmem
        · exact hi dst left op right heq.symm
        · exact h dst left op right hmem
      rcases ih with h | ⟨position, op, h⟩
      · exact .inl (hcons h)
      · exact .inr ⟨position + 1, op, h.operation, h.unsupported, hcons h.earlier⟩
    · simp only [not_forall] at hi
      obtain ⟨dst, left, op, right, rfl, hop⟩ := hi
      exact .inr ⟨0, op, ⟨dst, left, right, rfl⟩, hop, nofun⟩

theorem lowerable_of_names {i : Machine.Instruction} (h : i.Names (· ∈ layout) (· ∈ supportedOperators)) :
    Lowerable layout i := by
  cases h with
  | load hv => exact ⟨Register.isValid_ofIndex _, hv⟩
  | store hv => exact ⟨Register.isValid_ofIndex _, hv⟩
  | operate hop =>
    exact ⟨hop, Register.isValid_ofIndex _, Register.isValid_ofIndex _, Register.isValid_ofIndex _⟩

theorem assemble_error (hcode : ∀ i ∈ code, Lowerable layout i) (hop : op ∉ supportedOperators) (d l r : Register) :
    assemble layout (code ++ .operate op d l r :: rest) =
      .error ⟨code.length, .operate op d l r, .unsupportedOperator op⟩ := by
  have hbody : body layout (code ++ .operate op d l r :: rest) =
      .error ⟨code.length, .operate op d l r, .unsupportedOperator op⟩ := by
    rw [body, mapM_zipIdx_of_error]
    · rfl
    · intro i hi n
      obtain ⟨natives, hnatives⟩ := exists_lower (hcode i hi)
      exact ⟨natives, by rw [hnatives]; rfl⟩
    · rw [Nat.zero_add, lower, Arith.ofOperator_error hop]
      rfl
  rw [assemble, hbody]
  rfl

theorem names_code (strategy : Strategy) (options : Options) (hb : ∀ f, .foreign f ∉ block) {count : Nat}
    (hcount : count ≤ block.length) {Q : Text → Prop}
    (hQ : ∀ dst left op right, .binary dst left op right ∈ block.take count → Q op) :
    ∀ i ∈ (sessionAfter strategy options block count).code.toList, i.Names (· ∈ Layout.ofBlock block) Q := by
  apply Session.Names.code
  apply sessionAfter_names strategy options hb hcount
  · intro i hi v hv
    exact Layout.mem_ofBlock.mpr (Source.Block.mem_vars.mpr ⟨i, List.mem_of_mem_take hi, hv⟩)
  · intro i hi op hop
    obtain ⟨dst, left, right, rfl⟩ := Source.Instruction.operator?_eq_some.mp hop
    exact hQ dst left op right hi

theorem assemble_firstUnsupported (strategy : Strategy) (options : Options) (hb : ∀ f, .foreign f ∉ block)
    (h : FirstUnsupported block position op) :
    ∃ place d l r, OperationAt strategy options block position place (.operate op d l r) ∧
      (sessionAfter strategy options block block.length).code.toList[place]? = some (.operate op d l r) ∧
      assemble (.ofBlock block) (sessionAfter strategy options block block.length).code.toList =
        .error ⟨place, .operate op d l r, .unsupportedOperator op⟩ := by
  obtain ⟨dst, left, right, hi⟩ := h.operation
  obtain ⟨hposition, -⟩ := List.getElem?_eq_some_iff.mp hi
  obtain ⟨after, hwritten⟩ := sessionAfter_succ strategy options hb hi
  obtain ⟨moved, d, l, r, hcode, hmoved⟩ := hwritten.operation
  obtain ⟨later, hlater⟩ := code_extends_of_le strategy options hb hposition (Nat.le_refl _)
  -- Before this operation stand the code of earlier instructions, whose operators are supported, and transfers.
  have hearlier := names_code strategy options hb (Nat.le_of_lt hposition) h.earlier
  have hwhole := @names_code block strategy options hb (position + 1) hposition (fun _ => True) fun _ _ _ _ _ => trivial
  rw [hcode] at hwhole hlater
  have hlowerable : ∀ i ∈ (sessionAfter strategy options block position).code.toList ++ moved,
      Lowerable (.ofBlock block) i := by
    intro i hi
    apply lowerable_of_names
    rcases List.mem_append.mp hi with hi | hi
    · exact hearlier i hi
    · exact (hwhole i (List.mem_append_left _ (List.mem_append_right _ hi))).of_isTransfer (hmoved i hi)
  rw [List.append_assoc _ [_], List.singleton_append] at hlater
  refine ⟨_, d, l, r, ⟨moved, hcode, hmoved, rfl⟩, ?_, ?_⟩
  · rw [hlater, List.getElem?_append_right (Nat.le_refl _), Nat.sub_self]
    rfl
  · rw [hlater]
    exact assemble_error hlowerable h.unsupported d l r

theorem assemble_outcome (hcompile : (compile source config).result = .ok p) :
    (Supported p.block ∧ ∃ bytes, p.assemble = .ok bytes) ∨
    ∃ strategy position op place d l r, config.policy.strategy? = some strategy ∧
      FirstUnsupported p.block position op ∧
      OperationAt strategy config.options p.block position place (.operate op d l r) ∧
      p.output.code[place]? = some (.operate op d l r) ∧
      p.assemble = .error ⟨place, .operate op d l r, .unsupportedOperator op⟩ := by
  obtain ⟨strategy, hstrategy, hb, hcode, -⟩ := compile_session hcompile
  rw [Program.assemble, hcode]
  rcases supported_or_firstUnsupported p.block with hall | ⟨position, op, hfirst⟩
  · refine .inl ⟨hall, exists_assemble fun i hi => lowerable_of_names ?_⟩
    apply names_code strategy config.options hb (Nat.le_refl _) _ i hi
    rw [List.take_length]
    exact hall
  · obtain ⟨place, d, l, r, hat, hget, herror⟩ := assemble_firstUnsupported strategy config.options hb hfirst
    exact .inr ⟨strategy, position, op, place, d, l, r, hstrategy, hfirst, hat, hget, herror⟩

/-- A compiled program can be assembled exactly when the processor has the operators of all its operations. When it
cannot, the error is about the first operation, in the order of the source, whose operator the processor lacks: it
quotes that operator and stands at the place of what was written for that operation. -/
theorem assembly_refuses_operators_only (hcompile : (compile source config).result = .ok p) :
    ((∃ bytes, p.assemble = .ok bytes) ↔ Supported p.block) ∧
    ∀ e, p.assemble = .error e →
      ∃ strategy position op d l r, config.policy.strategy? = some strategy ∧ FirstUnsupported p.block position op ∧
        OperationAt strategy config.options p.block position e.position (.operate op d l r) ∧
        p.output.code[e.position]? = some (.operate op d l r) ∧
        e = ⟨e.position, .operate op d l r, .unsupportedOperator op⟩ ∧
        e.cause.message = utf8 "unsupported operator " ++ op.quoted := by
  rcases assemble_outcome hcompile with
    ⟨hall, bytes, hbytes⟩ | ⟨strategy, position, op, place, d, l, r, hstrategy, hfirst, hat, hget, herror⟩
  · refine ⟨⟨fun _ => hall, fun _ => ⟨bytes, hbytes⟩⟩, ?_⟩
    intro e he
    rw [hbytes] at he
    cases he
  · refine ⟨⟨?_, fun hall => absurd hall hfirst.not_supported⟩, ?_⟩
    · rintro ⟨bytes, hbytes⟩
      rw [herror] at hbytes
      cases hbytes
    · intro e he
      rw [herror] at he
      cases he
      exact ⟨strategy, position, op, d, l, r, hstrategy, hfirst, hat, hget, rfl, rfl⟩

theorem assembly_refuses_operators_only_spelled :
    let source := utf8 "x = a + b\ny = x add a\nz = y % x\n"
    ∃ p e position, (compile source {}).result = .ok p ∧ p.assemble = .error e ∧ e.position = 4 ∧
      e.cause = .unsupportedOperator (utf8 "add") ∧ FirstUnsupported p.block position (utf8 "add") := by
  intro source
  have hcompiled : (match (compile source {}).result with
      | .ok p =>
        match p.assemble with
        | .ok _ => false
        | .error e => decide (e.position = 4 ∧ e.cause = .unsupportedOperator (utf8 "add"))
      | .error _ => false) = true := by
    decide +kernel
  cases hcompile : (compile source {}).result with
  | error e => simp [hcompile] at hcompiled
  | ok p =>
    cases hassemble : p.assemble with
    | ok bytes => simp [hcompile, hassemble] at hcompiled
    | error e =>
      simp only [hcompile, hassemble, decide_eq_true_iff] at hcompiled
      obtain ⟨hposition, hcause⟩ := hcompiled
      obtain ⟨-, herror⟩ := assembly_refuses_operators_only hcompile
      obtain ⟨strategy, position, op, d, l, r, -, hfirst, -, -, he, -⟩ := herror e hassemble
      rw [he, LoweringError.unsupportedOperator.injEq] at hcause
      subst hcause
      exact ⟨p, e, position, rfl, hassemble, hposition, by rw [he], hfirst⟩

end Native

end ThreeRegister
