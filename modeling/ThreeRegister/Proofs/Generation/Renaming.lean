import ThreeRegister.Proofs.Generation.Comparison
import ThreeRegister.Proofs.Generation.Correctness

namespace ThreeRegister

namespace Generation

variable {σ : Variable → Variable}

theorem generate_rename (strategy : Strategy) (options : Options) (hσ : Function.Injective σ) (τ : Text → Text)
    {block : Source.Block} (hb : ∀ f, .foreign f ∉ block) :
    ∃ output output', (generate strategy options .fresh block).2 = .ok output ∧
      (generate strategy options .fresh (block.rename σ τ)).2 = .ok output' ∧
      output'.code = output.code.map (Machine.Instruction.rename σ τ) ∧
      (∀ v : Variable, output'.residents[σ v]? = output.residents[v]?) ∧
      (∀ (w : Variable) (r : Register), output'.residents[w]? = some r →
        ∃ v, σ v = w ∧ output.residents[v]? = some r) ∧
      output.nextUse.length = block.length ∧ output'.nextUse.length = block.length ∧
      ∀ (n : Nat) (e e' : NextUse.Entry), output.nextUse[n]? = some e → output'.nextUse[n]? = some e' →
        ∀ v, e'.distance (σ v) = e.distance v := by
  have hb' := Source.Block.not_foreign_rename σ τ hb
  have hlength : (block.rename σ τ).length = block.length := List.length_map _
  obtain ⟨table, -, hdescribes, hgenerate⟩ := generate_ok strategy options hb
  obtain ⟨table', -, hdescribes', hgenerate'⟩ := generate_ok strategy options hb'
  have hlast := sessionAfter_tracks (RegisterFile.tracking_renamed hσ) strategy options options hb hb' List.prefix_rfl
    (fun _ => rfl) (Nat.le_refl block.length)
  have hready' := sessionAfter_ready strategy options hb' block.length
  rw [hlength] at hgenerate'
  refine ⟨_, _, congrArg Prod.snd hgenerate, congrArg Prod.snd hgenerate', ?_, hlast.file.residency, ?_,
    hdescribes.length_eq, hdescribes'.length_eq.trans hlength, ?_⟩
  · simp only [hlast.code, Array.toList_map]
  · intro w r hw
    exact hlast.file.exists_of_resident hready'.consistent hw
  · intro n e e' he he'
    have hentries := hdescribes.renamed hσ hdescribes' n
    rw [he, he'] at hentries
    exact hentries

def mirrored (v : Variable) : Variable :=
  v.map (255 - ·)

theorem mirrored_injective : Function.Injective mirrored := by
  apply List.map_injective_iff.mpr
  intro a b h
  exact (UInt8.sub_right_inj 255).mp h

theorem generate_rename_mirrored :
    Function.Injective mirrored ∧ (∀ f, .foreign f ∉ fourLive) ∧
      ∃ output output', (generate .nextUse {} .fresh fourLive).2 = .ok output ∧
        (generate .nextUse {} .fresh (fourLive.rename mirrored fun _ => utf8 "?")).2 = .ok output' ∧
        output'.code = output.code.map (Machine.Instruction.rename mirrored fun _ => utf8 "?") := by
  have hb : ∀ f, .foreign f ∉ fourLive := by simp [fourLive]
  obtain ⟨output, output', houtput, houtput', hcode, -⟩ :=
    generate_rename .nextUse {} mirrored_injective (fun _ => utf8 "?") hb
  exact ⟨mirrored_injective, hb, output, output', houtput, houtput', hcode⟩

end Generation

end ThreeRegister
