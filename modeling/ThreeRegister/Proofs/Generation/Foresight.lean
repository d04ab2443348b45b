import ThreeRegister.Proofs.Generation.Correctness
import ThreeRegister.Proofs.Generation.Totality

namespace ThreeRegister

namespace Generation

theorem not_foreign_append {first rest : Source.Block} (hfirst : ∀ f, .foreign f ∉ first)
    (hrest : ∀ f, .foreign f ∉ rest) (f : Source.Foreign) : .foreign f ∉ first ++ rest := by
  rw [List.mem_append, not_or]
  exact ⟨hfirst f, hrest f⟩

theorem sessionAfter_append_agrees (options : Options) {first rest : Source.Block}
    (hfirst : ∀ f, .foreign f ∉ first) (hrest : ∀ f, .foreign f ∉ rest) {count : Nat} (hcount : count ≤ first.length) :
    (sessionAfter .fixedSlot options first count).Agrees (sessionAfter .fixedSlot options (first ++ rest) count) := by
  have hblocks : first.rename id id <+: first ++ rest := by
    rw [Source.Block.rename_id]
    exact List.prefix_append first rest
  exact (sessionAfter_tracks RegisterFile.tracking_eq .fixedSlot options options hfirst
    (not_foreign_append hfirst hrest) hblocks nofun hcount).agrees

theorem fixedSlot_code_append (options : Options) {first rest : Source.Block} (hfirst : ∀ f, .foreign f ∉ first)
    (hrest : ∀ f, .foreign f ∉ rest) :
    ∃ output whole, (generate .fixedSlot options .fresh first).2 = .ok output ∧
      (generate .fixedSlot options .fresh (first ++ rest)).2 = .ok whole ∧ output.code <+: whole.code ∧
      ∀ count ≤ first.length, (sessionAfter .fixedSlot options first count).Agrees
        (sessionAfter .fixedSlot options (first ++ rest) count) := by
  have hall := not_foreign_append hfirst hrest
  have hagrees {count : Nat} (hcount : count ≤ first.length) :=
    sessionAfter_append_agrees options hfirst hrest hcount
  obtain ⟨table, -, -, hgenerate⟩ := generate_ok .fixedSlot options hfirst
  obtain ⟨table', -, -, hgenerate'⟩ := generate_ok .fixedSlot options hall
  have hlength : first.length ≤ (first ++ rest).length := by simp
  obtain ⟨written, hwritten⟩ := code_extends_of_le .fixedSlot options hall hlength (Nat.le_refl _)
  refine ⟨_, _, congrArg Prod.snd hgenerate, congrArg Prod.snd hgenerate', ⟨written, ?_⟩, fun _ => hagrees⟩
  rw [hwritten, (hagrees (Nat.le_refl _)).code]

theorem fixedSlot_code_append_fourLive :
    (∀ f, .foreign f ∉ fourLive) ∧
      ∃ output whole, (generate .fixedSlot {} .fresh fourLive).2 = .ok output ∧
        (generate .fixedSlot {} .fresh (fourLive ++ fourLive)).2 = .ok whole ∧ output.code <+: whole.code := by
  have hb : ∀ f, .foreign f ∉ fourLive := by simp [fourLive]
  obtain ⟨output, whole, houtput, hwhole, hcode, -⟩ := fixedSlot_code_append {} hb hb
  exact ⟨hb, output, whole, houtput, hwhole, hcode⟩

-- With foresight the last operation stores `a` if nothing follows, but `x` if `a` is read again before it.
example : ¬(generate .nextUse {} .fresh fourLive).1.code.toList <+:
    (generate .nextUse {} .fresh (fourLive ++ fourLive)).1.code.toList := by
  decide +kernel

end Generation

end ThreeRegister
