import ThreeRegister.Proofs.Generation.Trace

namespace ThreeRegister

namespace Generation

def Yields (strategy : Strategy) (options : Options) (block : Source.Block) (m final : Memory) : Prop :=
  ∃ output machine, (generate strategy options .fresh block).2 = .ok output ∧
    (Machine.ofMemory m).run output.code = (machine, none) ∧ machine.final output.residents = .ok final

variable {strategy : Strategy} {options : Options} {block : Source.Block} {m store final final' : Memory}

theorem Yields.unique (h : Yields strategy options block m final) (h' : Yields strategy options block m final') :
    final = final' := by
  obtain ⟨output, machine, hgenerate, hrun, hfinal⟩ := h
  obtain ⟨output', machine', hgenerate', hrun', hfinal'⟩ := h'
  rw [hgenerate, Except.ok.injEq] at hgenerate'
  subst hgenerate'
  rw [hrun, Prod.mk.injEq] at hrun'
  obtain ⟨rfl, -⟩ := hrun'
  rw [hfinal, Except.ok.injEq] at hfinal'
  exact hfinal'

theorem output_realizes {output : Output} (hgenerate : (generate strategy options .fresh block).2 = .ok output)
    {start : Machine} (hrun : block.run start.memory = .ok store) :
    (∃ machine, start.run output.code = (machine, none) ∧ ∀ v, machine.value output.residents v = store.read v) ∧
      ∀ (v : Variable) (r : Register), output.residents[v]? = some r → ∃ i, r = .ofIndex i := by
  have hb := not_foreign_of_generate hgenerate
  obtain ⟨table, -, -, houtput⟩ := generate_ok strategy options hb
  rw [houtput, Except.ok.injEq] at hgenerate
  subst hgenerate
  have hlast : Source.Block.run (block.take block.length) start.memory = .ok store := by
    rw [List.take_length]
    exact hrun
  refine ⟨sessionAfter_realizes strategy options hb (Nat.le_refl _) hlast, ?_⟩
  intro v r hv
  obtain ⟨i, hi, -⟩ := (sessionAfter_ready strategy options hb block.length).consistent.homed hv
  exact ⟨i, hi⟩

theorem yields_store (strategy : Strategy) (options : Options) (hrun : block.run m = .ok store) :
    ∃ final, Yields strategy options block m final ∧ ∀ v, final.read v = store.read v := by
  obtain ⟨table, -, -, hgenerate⟩ := generate_ok strategy options (Source.Block.not_foreign_of_run hrun)
  have houtput := congrArg Prod.snd hgenerate
  obtain ⟨⟨machine, hmachine, hvalue⟩, hvalid⟩ := @output_realizes _ _ _ _ _ houtput (.ofMemory m) hrun
  obtain ⟨final, hfinal, hread⟩ := machine.final_read hvalid
  refine ⟨final, ⟨_, machine, houtput, hmachine, hfinal⟩, ?_⟩
  intro v
  rw [hread, hvalue]

theorem generation_correct (hrun : block.run m = .ok store) :
    (∀ strategy options, ∃ final, Yields strategy options block m final ∧ ∀ v, final.read v = store.read v) ∧
      ∀ options options' final final', Yields .nextUse options block m final →
        Yields .fixedSlot options' block m final' → ∀ v, final.read v = final'.read v := by
  refine ⟨fun strategy options => yields_store strategy options hrun, ?_⟩
  intro options options' final final' h h' v
  obtain ⟨expected, hyields, hread⟩ := yields_store .nextUse options hrun
  obtain ⟨expected', hyields', hread'⟩ := yields_store .fixedSlot options' hrun
  rw [h.unique hyields, h'.unique hyields', hread, hread']

def fourLive : Source.Block :=
  [.binary (utf8 "x") (utf8 "a") (utf8 "+") (utf8 "b"), .binary (utf8 "y") (utf8 "c") (utf8 "+") (utf8 "d"),
    .binary (utf8 "p") (utf8 "a") (utf8 "+") (utf8 "x"), .binary (utf8 "b") (utf8 "b") (utf8 "-") (utf8 "y")]

theorem generation_correct_fourLive :
    let m := Memory.ofPairs [(utf8 "a", 1), (utf8 "b", 2), (utf8 "c", 3), (utf8 "d", 4)]
    ∃ store, fourLive.run m = .ok store ∧
      ∀ strategy options, ∃ final, Yields strategy options fourLive m final ∧ final.read (utf8 "b") = -5 := by
  intro m
  have hrun : fourLive.run m =
      .ok (Memory.ofPairs [(utf8 "a", 1), (utf8 "b", 2), (utf8 "c", 3), (utf8 "d", 4), (utf8 "x", 3), (utf8 "y", 7),
        (utf8 "p", 4), (utf8 "b", -5)]) := rfl
  refine ⟨_, hrun, ?_⟩
  intro strategy options
  obtain ⟨final, hyields, hread⟩ := (generation_correct hrun).1 strategy options
  exact ⟨final, hyields, hread (utf8 "b")⟩

end Generation

end ThreeRegister
