import ThreeRegister.Proofs.Generation.Correctness
import ThreeRegister.Proofs.Machine.Initialization

namespace ThreeRegister

open Alloc
open Machine (WrittenBeforeRead written performed)

structure Session.Initialized (s : Session) : Prop where
  code : WrittenBeforeRead s.code.toList
  homes : ∀ {v : Variable} {r : Register}, s.file.residency[v]? = some r → r ∈ written s.code.toList

variable {s t : Session} {strategy : Strategy} {e : NextUse.Entry} {left right v : Variable} {d l r i : Fin 3}

namespace Session.Initialized

theorem congr (h : s.Initialized) (hr : t.file.residency = s.file.residency) (hc : t.code = s.code) :
    t.Initialized := by
  constructor
  · rw [hc]
    exact h.code
  · intro v r hv
    rw [hr] at hv
    rw [hc]
    exact h.homes hv

theorem push (h : s.Initialized) {instruction : Machine.Instruction} (hcode : t.code = s.code.push instruction)
    (hreads : ∀ r ∈ instruction.reads, ∃ v : Variable, s.file.residency[v]? = some r)
    (hhomes : ∀ (v : Variable) (r : Register), t.file.residency[v]? = some r →
      instruction.target? = some r ∨ s.file.residency[v]? = some r) : t.Initialized := by
  constructor
  · rw [hcode, Array.toList_push, Machine.writtenBeforeRead_concat]
    refine ⟨h.code, ?_⟩
    intro r hr
    obtain ⟨v, hv⟩ := hreads r hr
    exact h.homes hv
  · intro v r hv
    rw [hcode, Array.toList_push, Machine.written_append]
    apply List.mem_append.mpr
    rcases hhomes v r hv with htarget | hold
    · exact .inr (by simp [written, htarget])
    · exact .inl (h.homes hold)

end Session.Initialized

theorem Alloc.Vacated.initialized (h : Vacated strategy e s i t) (hc : s.file.Consistent) (hs : s.Initialized) :
    t.Initialized := by
  have hkeeps (v : Variable) (r : Register) (hv : t.file.residency[v]? = some r) := h.residency_of hv
  cases h with
  | free h => exact hs
  | evicted hfull hw =>
    apply hs.push rfl
    · intro r hr
      cases List.mem_singleton.mp hr
      exact ⟨_, hc.resident (victim_held hw).1⟩
    · intro v r hv
      exact .inr (hkeeps v r hv)

theorem Alloc.Ensured.initialized (h : Ensured strategy v e s i t) (hc : s.file.Consistent) (hs : s.Initialized) :
    t.Initialized := by
  cases h with
  | resident h => exact hs.congr rfl rfl
  | @loaded u _ h hvacated =>
    apply (hvacated.initialized hc hs).push rfl
    · intro r hr
      cases hr
    · intro w r hw
      have hocc := RegisterFile.residency_occupy u.file v w i
      by_cases hvw : v = w
      · rw [if_pos hvw] at hocc
        exact .inl (hocc.symm.trans hw)
      · rw [if_neg hvw] at hocc
        exact .inr (hocc.symm.trans hw)

namespace Generation

theorem Loaded.initialized (h : Loaded strategy left right e s l r t) (hc : s.file.Consistent) (hs : s.Initialized) :
    t.Initialized := by
  obtain @⟨t, u, hleft, hright⟩ := h
  have ht : (t.pin l).Initialized := (hleft.initialized hc hs).congr rfl rfl
  exact (hright.initialized ((hleft.consistent hc).pin _) ht).congr rfl rfl

theorem Prepared.initialized (h : Prepared strategy left right e s d l r t) (hc : s.file.Consistent)
    (hs : s.Initialized) : t.Initialized := by
  cases h with
  | reused hreuse hloaded => exact hloaded.initialized (hc.pin _) (hs.congr rfl rfl)
  | acquired hreuse hloaded hvacated =>
    exact hvacated.initialized (hloaded.consistent hc) (hloaded.initialized hc (hs.congr rfl rfl))

theorem Written.initialized {instruction : Source.Instruction} (h : Written strategy e s instruction t) (hs : s.Ready)
    (hinit : s.Initialized) : t.Initialized := by
  cases h with
  | @move dst src i t _ _ hsrc =>
    have ht := hsrc.initialized hs.consistent (hinit.congr rfl rfl)
    apply ht.push rfl
    · intro r hr
      cases List.mem_singleton.mp hr
      exact ⟨src, hsrc.resident_at⟩
    · intro v r hv
      by_cases hne : dst ≠ src
      · simp only [if_pos hne] at hv
        rw [(hsrc.consistent hs.consistent).residency_forget] at hv
        split at hv
        · cases hv
        · exact .inr hv
      · simp only [if_neg hne] at hv
        exact .inr hv
  | @binary dst left right op d l r t _ _ hprepared =>
    have ht := hprepared.initialized hs.consistent (hinit.congr rfl rfl)
    apply ht.push rfl
    · intro home hhome
      rcases List.mem_pair.mp hhome with rfl | rfl
      · exact ⟨left, hprepared.residency_left hs.consistent⟩
      · exact ⟨right, hprepared.residency_right hs.consistent⟩
    · intro v home hv
      by_cases hdst : dst = v
      · subst hdst
        exact .inl ((t.file.residency_define_self dst d).symm.trans hv)
      · exact .inr ((hprepared.consistent hs.consistent).residency_of_define hdst hv)

theorem sessionAfter_initialized (strategy : Strategy) (options : Options) {block : Source.Block}
    (hb : ∀ f, .foreign f ∉ block) {count : Nat} (hcount : count ≤ block.length) :
    (sessionAfter strategy options block count).Initialized := by
  induction count with
  | zero =>
    rw [sessionAfter_zero strategy options hb]
    constructor
    · intro n i hi
      cases hi
    · intro v r hv
      simp [Session.start, RegisterFile.fresh] at hv
  | succ count ih =>
    obtain ⟨after, hstep⟩ := sessionAfter_succ strategy options hb (List.getElem?_eq_getElem hcount)
    exact hstep.initialized (sessionAfter_ready strategy options hb count) (ih (Nat.le_of_succ_le hcount))

/-- Whatever the registers hold at the start, generated code ends in the same way, at the same instruction if it fails,
with the same memory and the same contents of the registers that it has written: for it writes every register before it
reads it, and those of the residents too. So a run that succeeds gives the same value to every variable. One that fails
does so too, but for the variables whose register it has not come to write: their value is what was there at the start. -/
theorem generated_code_initializes_registers (strategy : Strategy) (options : Options) {block : Source.Block}
    (hb : ∀ f, .foreign f ∉ block) :
    ∃ output, (generate strategy options .fresh block).2 = .ok output ∧
      (∀ (m : Memory) (a b : Bank Int64),
        ∃ machine machine' outcome final final', Machine.run ⟨a, m⟩ output.code = (machine, outcome) ∧
          Machine.run ⟨b, m⟩ output.code = (machine', outcome) ∧ machine.memory = machine'.memory ∧
          (∀ i, .ofIndex i ∈ written (performed output.code outcome) →
            machine.registers.get i = machine'.registers.get i) ∧
          machine.final output.residents = .ok final ∧ machine'.final output.residents = .ok final' ∧
          (outcome = none → final = final') ∧
          (∀ v, (∀ r, output.residents[v]? = some r → r ∈ written (performed output.code outcome)) →
            final.read v = final'.read v) ∧
          ∀ (v : Variable) (i : Fin 3), output.residents[v]? = some (.ofIndex i) →
            .ofIndex i ∉ written (performed output.code outcome) → final.read v = a.get i ∧ final'.read v = b.get i) ∧
      WrittenBeforeRead output.code ∧
      ∀ (v : Variable) (r : Register), output.residents[v]? = some r → r ∈ written output.code := by
  obtain ⟨table, -, -, hgenerate⟩ := generate_ok strategy options hb
  let last := sessionAfter strategy options block block.length
  have hinit : last.Initialized := sessionAfter_initialized strategy options hb (Nat.le_refl _)
  have hready : last.Ready := sessionAfter_ready strategy options hb _
  have hvalid (v : Variable) (r : Register) (hv : last.file.residency[v]? = some r) : ∃ i, r = .ofIndex i := by
    obtain ⟨i, hi, -⟩ := hready.consistent.homed hv
    exact ⟨i, hi⟩
  refine ⟨_, congrArg Prod.snd hgenerate, ?_, hinit.code, fun v r => hinit.homes⟩
  intro m a b
  obtain ⟨machine, machine', outcome, hrun, hrun', hagrees⟩ := Machine.runs_agree hinit.code m a b
  obtain ⟨final, hfinal, hread⟩ := machine.final_read hvalid
  obtain ⟨final', hfinal', hread'⟩ := machine'.final_read hvalid
  refine ⟨machine, machine', outcome, final, final', hrun, hrun', hagrees.memory, hagrees.registers, hfinal, hfinal', ?_,
    ?_, ?_⟩
  · rintro rfl
    have hsame := hagrees.final fun v r => hinit.homes
    rw [hfinal, hfinal'] at hsame
    exact Except.ok.inj hsame
  · intro v hv
    rw [hread, hread']
    exact hagrees.value hv
  · intro v i hv hunwritten
    rw [hread, hread', Machine.value_of_resident hv, Machine.value_of_resident hv]
    exact ⟨Machine.run_keeps hrun hunwritten, Machine.run_keeps hrun' hunwritten⟩

theorem generated_code_initializes_registers_fourLive :
    let m := Memory.ofPairs [(utf8 "a", 1), (utf8 "b", 2), (utf8 "c", 3), (utf8 "d", 4)]
    (∀ f, .foreign f ∉ fourLive) ∧ ∃ output machine machine' final,
      (generate .nextUse {} .fresh fourLive).2 = .ok output ∧
      Machine.run ⟨.fill 0, m⟩ output.code = (machine, none) ∧ machine.final output.residents = .ok final ∧
      Machine.run ⟨.fill (-9), m⟩ output.code = (machine', none) ∧ machine'.final output.residents = .ok final := by
  intro m
  have hb : ∀ f, .foreign f ∉ fourLive := by simp [fourLive]
  obtain ⟨output, hgenerate, hruns, -⟩ := generated_code_initializes_registers .nextUse {} hb
  obtain ⟨machine, machine', outcome, final, final', hrun, hrun', -, -, hfinal, hfinal', hsame, -⟩ :=
    hruns m (.fill 0) (.fill (-9))
  obtain ⟨store, hstore⟩ : ∃ store, fourLive.run m = .ok store := ⟨_, rfl⟩
  obtain ⟨⟨reached, hreached, -⟩, -⟩ := @output_realizes _ _ _ _ _ hgenerate ⟨.fill 0, m⟩ hstore
  cases hrun.symm.trans hreached
  cases hsame rfl
  exact ⟨hb, output, machine, machine', final, hgenerate, hrun, hfinal, hrun', hfinal'⟩

theorem failed_division_shows_initial_register :
    let block : Source.Block := [.binary (utf8 "x") (utf8 "a") (utf8 "/") (utf8 "b")]
    ∃ output machine machine' e final final', (generate .nextUse {} .fresh block).2 = .ok output ∧
      Machine.run ⟨.fill 0, ∅⟩ output.code = (machine, some e) ∧
      Machine.run ⟨.fill 7, ∅⟩ output.code = (machine', some e) ∧
      machine.final output.residents = .ok final ∧ machine'.final output.residents = .ok final' ∧
      final.read (utf8 "x") = 0 ∧ final'.read (utf8 "x") = 7 :=
  ⟨_, _, _, _, _, _, rfl, rfl, rfl, rfl, rfl, rfl, rfl⟩

end Generation

end ThreeRegister
