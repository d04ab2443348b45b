import ThreeRegister.Proofs.Generation.Comparison

namespace ThreeRegister

variable {s t : Session} {strategy : Strategy} {e : NextUse.Entry} {left right v w : Variable} {d l r : Fin 3}

/-- The sessions differ in their journals at most. -/
structure Session.Agrees (s t : Session) : Prop where
  file : s.file = t.file
  code : s.code = t.code

theorem Session.Tracks.agrees (h : s.Tracks id id Eq t) : s.Agrees t := by
  refine ⟨h.file, ?_⟩
  rw [h.code, Machine.Instruction.rename_id, Array.map_id]

namespace Generation

theorem sessionAfter_agrees (strategy : Strategy) (options options' : Options) {block : Source.Block}
    (hb : ∀ f, .foreign f ∉ block) {count : Nat} (hcount : count ≤ block.length) :
    (sessionAfter strategy options block count).Agrees (sessionAfter strategy options' block count) := by
  have hsame : block.rename id id = block := block.rename_id
  have hblocks : block.rename id id <+: block := ⟨[], by rw [hsame, List.append_nil]⟩
  exact (sessionAfter_tracks RegisterFile.tracking_eq strategy options options' hb hb hblocks (fun _ => hsame.symm)
    hcount).agrees

theorem Loaded.residency_of (h : Loaded strategy left right e s l r t) {home : Register}
    (hw : t.file.residency[w]? = some home) : left = w ∨ right = w ∨ s.file.residency[w]? = some home := by
  obtain ⟨hleft, hright⟩ := h
  rcases hright.residency_of hw with h | hw
  · exact .inr (.inl h)
  · rcases hleft.residency_of hw with h | hw
    · exact .inl h
    · exact .inr (.inr hw)

theorem Prepared.residency_of (h : Prepared strategy left right e s d l r t) {home : Register}
    (hw : t.file.residency[w]? = some home) : left = w ∨ right = w ∨ s.file.residency[w]? = some home := by
  cases h with
  | reused hreuse hloaded => exact hloaded.residency_of hw
  | acquired hreuse hloaded hvacated => exact hloaded.residency_of (hvacated.residency_of hw)

theorem Written.residency_of {instruction : Source.Instruction} (h : Written strategy e s instruction t) (hs : s.Ready)
    {home : Register} (hw : t.file.residency[w]? = some home) :
    w ∈ instruction.operands ∨ w = instruction.target ∨ ∃ home, s.file.residency[w]? = some home := by
  cases h with
  | @move dst src i t _ _ hsrc =>
    have hw' : t.file.residency[w]? = some home := by
      by_cases hne : dst ≠ src
      · simp only [if_pos hne] at hw
        rw [(hsrc.consistent hs.consistent).residency_forget] at hw
        split at hw
        · cases hw
        · exact hw
      · simpa only [if_neg hne] using hw
    rcases hsrc.residency_of hw' with rfl | hold
    · exact .inl (by simp [Source.Instruction.operands])
    · exact .inr (.inr ⟨home, hold⟩)
  | @binary dst left right op d l r t _ _ hprepared =>
    by_cases hdst : dst = w
    · exact .inr (.inl hdst.symm)
    · have hw' := (hprepared.consistent hs.consistent).residency_of_define hdst hw
      rcases hprepared.residency_of hw' with rfl | rfl | hold
      · exact .inl (by simp [Source.Instruction.operands])
      · exact .inl (by simp [Source.Instruction.operands])
      · exact .inr (.inr ⟨home, hold⟩)

theorem sessionAfter_residency (strategy : Strategy) (options : Options) {block : Source.Block}
    (hb : ∀ f, .foreign f ∉ block) {count : Nat} (hcount : count ≤ block.length) {home : Register}
    (hv : (sessionAfter strategy options block count).file.residency[v]? = some home) :
    ∃ i ∈ block, v ∈ i.operands ∨ v = i.target := by
  induction count generalizing home with
  | zero =>
    rw [sessionAfter_zero strategy options hb] at hv
    simp [Session.start, RegisterFile.fresh] at hv
  | succ count ih =>
    obtain ⟨after, hstep⟩ := sessionAfter_succ strategy options hb (List.getElem?_eq_getElem hcount)
    rcases hstep.residency_of (sessionAfter_ready strategy options hb count) hv with h | h | ⟨home, hold⟩
    · exact ⟨_, List.getElem_mem hcount, .inl h⟩
    · exact ⟨_, List.getElem_mem hcount, .inr h⟩
    · exact ih (Nat.le_of_succ_le hcount) hold

theorem generate_of_foreign (strategy : Strategy) (options : Options) (file : RegisterFile) {block : Source.Block}
    {f : Source.Foreign} (hf : .foreign f ∈ block) :
    ∃ e, generate strategy options file block = (Session.start file options.trace, .error (.analysis e)) := by
  obtain ⟨e, he⟩ := NextUse.Table.ofBlockFrom_error 0 hf
  exact ⟨e, by simp [generate, NextUse.Table.ofBlock, he]⟩

theorem generate_of_not_foreign (strategy : Strategy) {block : Source.Block} (hb : ∀ f, .foreign f ∉ block) :
    ∃ output, (∀ options, (generate strategy options .fresh block).2 = .ok output) ∧
      output.nextUse.length = block.length ∧
      output.residents = (sessionAfter strategy {} block block.length).file.residency := by
  obtain ⟨table, htable, hdescribes, hgenerate⟩ := generate_ok strategy {} hb
  let last := sessionAfter strategy {} block block.length
  refine ⟨⟨last.code.toList, last.file.residency, table⟩, fun options => ?_, hdescribes.length_eq, rfl⟩
  obtain ⟨table', htable', -, hgenerate'⟩ := generate_ok strategy options hb
  rw [htable, Except.ok.injEq] at htable'
  subst htable'
  have hagrees := sessionAfter_agrees strategy options {} hb (Nat.le_refl block.length)
  rw [hgenerate']
  simp only [hagrees.file, hagrees.code, last]

/-- Code generation on a fresh register file never faults. It fails exactly when the block has a foreign instruction,
and then leaves the register file fresh; otherwise its output is the same whatever is checked and recorded, and the
residents at the end are at most three variables of the block, each in a register of its own. -/
theorem generate_total (strategy : Strategy) (options : Options) (block : Source.Block) :
    (∀ fault, (generate strategy options .fresh block).2 ≠ .error (.fault fault)) ∧
    ((∃ e, (generate strategy options .fresh block).2 = .error e) ↔ ∃ f, .foreign f ∈ block) ∧
    ((∃ e, (generate strategy options .fresh block).2 = .error e) →
      (generate strategy options .fresh block).1.file = .fresh) ∧
    ∀ output, (generate strategy options .fresh block).2 = .ok output →
      (∀ options', (generate strategy options' .fresh block).2 = .ok output) ∧
      output.nextUse.length = block.length ∧ output.residents.size ≤ 3 ∧
      (∀ (v : Variable) (r : Register), output.residents[v]? = some r →
        r.isValid = true ∧ ∃ i ∈ block, v ∈ i.operands ∨ v = i.target) ∧
      ∀ (v w : Variable) (r : Register), output.residents[v]? = some r → output.residents[w]? = some r → v = w := by
  by_cases hf : ∃ f, .foreign f ∈ block
  · obtain ⟨f, hf⟩ := hf
    obtain ⟨e, he⟩ := generate_of_foreign strategy options .fresh hf
    rw [he]
    refine ⟨?_, ⟨fun _ => ⟨f, hf⟩, fun _ => ⟨_, rfl⟩⟩, fun _ => rfl, ?_⟩
    · intro fault h
      cases h
    · intro output h
      cases h
  · have hb : ∀ f, .foreign f ∉ block := fun f h => hf ⟨f, h⟩
    obtain ⟨output, hsame, hlength, hresidents⟩ := generate_of_not_foreign strategy hb
    have hready := sessionAfter_ready strategy {} hb block.length
    rw [hsame options]
    have hok : ¬∃ e, (Except.ok output : Except Error Output) = .error e := by
      rintro ⟨e, h⟩
      cases h
    refine ⟨fun fault h => hok ⟨_, h⟩, ⟨fun h => absurd h hok, fun h => absurd h hf⟩, fun h => absurd h hok, ?_⟩
    intro output' heq
    cases heq
    refine ⟨hsame, hlength, ?_, fun v r hv => ?_, fun v w r hv hw => ?_⟩
    · rw [hresidents]
      exact hready.consistent.size_le
    · rw [hresidents] at hv
      obtain ⟨i, rfl, -⟩ := hready.consistent.homed hv
      exact ⟨Register.isValid_ofIndex i, sessionAfter_residency strategy {} hb (Nat.le_refl _) hv⟩
    · rw [hresidents] at hv hw
      exact hready.consistent.home_inj hv hw

end Generation

end ThreeRegister
