import ThreeRegister.Proofs.FirstOccurrence
import ThreeRegister.Proofs.Native.Lowering

namespace ThreeRegister

theorem Source.Block.vars_nodup (block : Source.Block) : block.vars.Nodup :=
  nodup_eraseDups _

namespace Layout

theorem getElem?_ofBlock {block : Source.Block} {v : Variable} {slot : Int} :
    (ofBlock block)[v]? = some slot ↔ ∃ i : Nat, block.vars[i]? = some v ∧ slot = i := by
  have hkeys : (block.vars.zipIdx.map fun p => (p.1, (p.2 : Int))).map (·.1) = block.vars := by
    rw [List.map_map]
    exact List.zipIdx_map_fst 0 block.vars
  rw [ofBlock, ofPairs, getElem?_foldl_insert (by rw [hkeys]; exact block.vars_nodup)]
  simp [List.mem_zipIdx_iff_getElem?, eq_comm]

theorem mem_ofBlock {block : Source.Block} {v : Variable} : v ∈ ofBlock block ↔ v ∈ block.vars := by
  rw [Std.TreeMap.mem_iff_isSome_getElem?, Option.isSome_iff_exists, List.mem_iff_getElem?]
  simp only [getElem?_ofBlock]
  constructor
  · rintro ⟨slot, i, hi, -⟩
    exact ⟨i, hi⟩
  · rintro ⟨i, hi⟩
    exact ⟨i, i, hi, rfl⟩

end Layout

namespace Native

theorem separated_ofBlock {block : Source.Block} (hsize : 8 * block.vars.length ≤ 0x80000000) :
    Separated (.ofBlock block) := by
  constructor
  · intro v w slot hv hw
    obtain ⟨i, hi, rfl⟩ := Layout.getElem?_ofBlock.mp hv
    obtain ⟨j, hj, hij⟩ := Layout.getElem?_ofBlock.mp hw
    obtain rfl : i = j := Int.ofNat.inj hij
    exact Option.some.inj (hi.symm.trans hj)
  · intro v slot hv
    obtain ⟨i, hi, rfl⟩ := Layout.getElem?_ofBlock.mp hv
    obtain ⟨hlt, -⟩ := List.getElem?_eq_some_iff.mp hi
    constructor
    · omega
    · omega

end Native

end ThreeRegister
