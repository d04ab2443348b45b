import Mathlib.Data.Set.Function
import ThreeRegister.Proofs.Native.Layout

namespace ThreeRegister

namespace Source

def Instruction.nameAt? (i : Instruction) (position : Nat) : Option Variable :=
  if position = i.operands.length then some i.target else i.operands[position]?

theorem Instruction.nameAt?_eq (i : Instruction) (position : Nat) :
    i.nameAt? position = (i.operands ++ [i.target])[position]? := by
  unfold nameAt?
  grind

structure Place where
  instruction : Nat
  position : Nat

def Place.Before (p q : Place) : Prop :=
  p.instruction < q.instruction ∨ p.instruction = q.instruction ∧ p.position < q.position

namespace Block

def nameAt? (block : Block) (p : Place) : Option Variable :=
  block[p.instruction]?.bind (·.nameAt? p.position)

structure Introduces (block : Block) (p : Place) (v : Variable) : Prop where
  here : block.nameAt? p = some v
  first : ∀ q, q.Before p → block.nameAt? q ≠ some v

def places (block : Block) : List (Place × Variable) :=
  block.zipIdx.flatMap fun i => (i.1.operands ++ [i.1.target]).zipIdx.map fun v => (⟨i.2, v.2⟩, v.1)

variable {block : Block} {p q : Place} {v w : Variable} {k : Nat}

theorem mem_places : (p, v) ∈ block.places ↔ block.nameAt? p = some v := by
  obtain ⟨n, k⟩ := p
  simp only [places, List.mem_flatMap, List.mem_map, Prod.exists, List.mem_zipIdx_iff_getElem?, nameAt?,
    Option.bind_eq_some_iff, Instruction.nameAt?_eq]
  constructor
  · rintro ⟨i, m, hi, w, l, hw, heq⟩
    cases heq
    exact ⟨i, hi, hw⟩
  · rintro ⟨i, hi, hv⟩
    exact ⟨i, n, hi, v, k, hv, rfl⟩

theorem places_ordered (block : Block) : block.places.Pairwise fun a b => a.1.Before b.1 := by
  have hnumbers {α : Type} (xs : List α) : xs.zipIdx.Pairwise fun a b => a.2 < b.2 := by
    rw [← List.pairwise_map (f := Prod.snd), List.zipIdx_map_snd]
    exact List.pairwise_lt_range' 1
  rw [places, List.pairwise_flatMap]
  constructor
  · intro i hi
    rw [List.pairwise_map]
    apply (hnumbers _).imp
    intro a b hab
    exact .inr ⟨rfl, hab⟩
  · apply (hnumbers block).imp
    intro i j hij a ha b hb
    obtain ⟨v, -, rfl⟩ := List.mem_map.mp ha
    obtain ⟨w, -, rfl⟩ := List.mem_map.mp hb
    exact .inl hij

theorem vars_eq_places (block : Block) : block.vars = (block.places.map (·.2)).eraseDups := by
  have hnames (i : Source.Instruction × Nat) :
      ((i.1.operands ++ [i.1.target]).zipIdx.map fun v => ((⟨i.2, v.2⟩ : Place), v.1)).map (·.2) =
        i.1.operands ++ [i.1.target] := by
    rw [List.map_map]
    exact List.zipIdx_map_fst 0 _
  have hblock : block.places.map (·.2) = block.flatMap fun i => i.operands ++ [i.target] := by
    rw [places, List.map_flatMap]
    simp only [hnames]
    rw [← List.flatMap_map (f := Prod.fst) (g := fun i : Source.Instruction => i.operands ++ [i.target]),
      List.zipIdx_map_fst]
  rw [hblock, vars]

theorem mem_vars_iff : v ∈ block.vars ↔ ∃ p, block.nameAt? p = some v := by
  simp only [vars_eq_places, List.mem_eraseDups, List.mem_map, Prod.exists, exists_eq_right, mem_places]

theorem before_of_lt {j : Nat} (hj : block.places[j]? = some (p, v)) (hk : block.places[k]? = some (q, w)) (hjk : j < k) :
    p.Before q := by
  obtain ⟨hjlt, hjeq⟩ := List.getElem?_eq_some_iff.mp hj
  obtain ⟨hklt, hkeq⟩ := List.getElem?_eq_some_iff.mp hk
  have hbefore := List.pairwise_iff_getElem.mp block.places_ordered j k hjlt hklt hjk
  rwa [hjeq, hkeq] at hbefore

theorem introduces_of_firstAt (h : FirstAt (block.places.map (·.2)) v k) :
    ∃ p, block.places[k]? = some (p, v) ∧ block.Introduces p v := by
  obtain ⟨⟨p, v⟩, hk, rfl⟩ : ∃ a, block.places[k]? = some a ∧ a.2 = v := by
    simpa [List.getElem?_map] using h.here
  refine ⟨p, hk, mem_places.mp (List.mem_of_getElem? hk), ?_⟩
  intro q hq hv
  obtain ⟨j, hj⟩ := List.getElem?_of_mem (mem_places.mpr hv)
  have hjk : ¬j < k := by
    intro hlt
    apply h.first j hlt
    rw [List.getElem?_map, hj]
    rfl
  rcases Nat.lt_or_eq_of_le (Nat.le_of_not_lt hjk) with hkj | rfl
  · have hpq := before_of_lt hk hj hkj
    unfold Place.Before at hq hpq
    omega
  · rw [hk] at hj
    cases hj
    unfold Place.Before at hq
    omega

theorem vars_ordered (block : Block) :
    block.vars.Pairwise fun v w => ∃ p q, block.Introduces p v ∧ block.Introduces q w ∧ p.Before q := by
  rw [vars_eq_places]
  apply (pairwise_eraseDups _).imp
  rintro v w ⟨j, k, hj, hk, hjk⟩
  obtain ⟨p, hp, hintroduces⟩ := introduces_of_firstAt hj
  obtain ⟨q, hq, hintroduces'⟩ := introduces_of_firstAt hk
  exact ⟨p, q, hintroduces, hintroduces', before_of_lt hp hq hjk⟩

theorem vars_isPrefix (block rest : Block) : block.vars <+: (block ++ rest).vars := by
  rw [vars, vars, List.flatMap_append]
  exact eraseDups_isPrefix ..

end Block

end Source

open Source (Block)

namespace Layout

variable {block : Block} {v w : Variable}

theorem getElem?_of_vars {n : Nat} (h : block.vars[n]? = some v) : (ofBlock block)[v]? = some (n : Int) :=
  getElem?_ofBlock.mpr ⟨n, h, rfl⟩

theorem getElem?_of_notMem (h : v ∉ block.vars) : (ofBlock block)[v]? = none := by
  cases hslot : (ofBlock block)[v]? with
  | none => rfl
  | some slot =>
    obtain ⟨n, hn, -⟩ := getElem?_ofBlock.mp hslot
    exact absurd (List.mem_of_getElem? hn) h

theorem bijOn (block : Block) :
    Set.BijOn (fun v => (ofBlock block)[v]?) {v | ∃ p, block.nameAt? p = some v}
      {slot | ∃ n : Nat, n < block.vars.length ∧ slot = some (n : Int)} := by
  refine ⟨?_, ?_, ?_⟩
  · intro v hv
    obtain ⟨n, hn⟩ := List.getElem?_of_mem (Block.mem_vars_iff.mpr hv)
    exact ⟨n, (List.getElem?_eq_some_iff.mp hn).1, getElem?_of_vars hn⟩
  · intro v hv w hw heq
    obtain ⟨n, hn⟩ := List.getElem?_of_mem (Block.mem_vars_iff.mpr hv)
    have hslot : (ofBlock block)[w]? = some (n : Int) := (getElem?_of_vars hn) ▸ heq.symm
    obtain ⟨m, hm, hnm⟩ := getElem?_ofBlock.mp hslot
    obtain rfl : n = m := by omega
    exact Option.some.inj (hn.symm.trans hm)
  · rintro _ ⟨n, hlt, rfl⟩
    have hn := List.getElem?_eq_getElem hlt
    exact ⟨_, Block.mem_vars_iff.mp (List.mem_of_getElem? hn), getElem?_of_vars hn⟩

theorem bytes_disjoint (hv : v ∈ block.vars) (hw : w ∈ block.vars) (hvw : v ≠ w) :
    ∃ o o', Native.offset (ofBlock block) v = .ok o ∧ Native.offset (ofBlock block) w = .ok o' ∧
      (o + 8 ≤ o' ∨ o' + 8 ≤ o) := by
  obtain ⟨n, hn⟩ := List.getElem?_of_mem hv
  obtain ⟨m, hm⟩ := List.getElem?_of_mem hw
  have hnm : n ≠ m := by
    rintro rfl
    exact hvw (Option.some.inj (hn.symm.trans hm))
  refine ⟨n * 8, m * 8, by rw [Native.offset, getElem?_of_vars hn], by rw [Native.offset, getElem?_of_vars hm], ?_⟩
  omega

end Layout

/-- The variables of a block are those at its places, each once and in the order of the places where they are introduced;
more instructions only add variables after them. The layout is a bijection from the variables of the block to the numbers
below their count, gives each variable its index in the list, and gives no two variables a byte in common. -/
theorem variables_faithfully_numbered (block : Block) :
    (∀ v, v ∈ block.vars ↔ ∃ p, block.nameAt? p = some v) ∧ block.vars.Nodup ∧
    block.vars.Pairwise (fun v w => ∃ p q, block.Introduces p v ∧ block.Introduces q w ∧ p.Before q) ∧
    (∀ rest, block.vars <+: (block ++ rest).vars) ∧
    (∀ (n : Nat) v, block.vars[n]? = some v → (Layout.ofBlock block)[v]? = some (n : Int)) ∧
    (∀ v, v ∉ block.vars → (Layout.ofBlock block)[v]? = none) ∧
    Set.BijOn (fun v => (Layout.ofBlock block)[v]?) {v | ∃ p, block.nameAt? p = some v}
      {slot | ∃ n : Nat, n < block.vars.length ∧ slot = some (n : Int)} ∧
    ∀ v ∈ block.vars, ∀ w ∈ block.vars, v ≠ w →
      ∃ o o', Native.offset (.ofBlock block) v = .ok o ∧ Native.offset (.ofBlock block) w = .ok o' ∧
        (o + 8 ≤ o' ∨ o' + 8 ≤ o) := by
  refine ⟨fun v => Block.mem_vars_iff, block.vars_nodup, block.vars_ordered, block.vars_isPrefix, ?_, ?_,
    Layout.bijOn block, ?_⟩
  · intro n v hn
    exact Layout.getElem?_of_vars hn
  · intro v hv
    exact Layout.getElem?_of_notMem hv
  · intro v hv w hw hvw
    exact Layout.bytes_disjoint hv hw hvw

theorem variables_faithfully_numbered_repeated :
    let call : Source.Foreign := ⟨utf8 "call", utf8 "call", 7, utf8 "c", [utf8 "a", utf8 "d", utf8 "c"]⟩
    let block : Block := [.binary (utf8 "a") (utf8 "b") (utf8 "+") (utf8 "b"), .foreign call]
    block.vars = [utf8 "b", utf8 "a", utf8 "d", utf8 "c"] ∧ (Layout.ofBlock block)[utf8 "d"]? = some 2 ∧
      ∃ o o', Native.offset (.ofBlock block) (utf8 "b") = .ok o ∧ Native.offset (.ofBlock block) (utf8 "c") = .ok o' ∧
        (o + 8 ≤ o' ∨ o' + 8 ≤ o) := by
  intro call block
  have hvars : block.vars = [utf8 "b", utf8 "a", utf8 "d", utf8 "c"] := by decide
  obtain ⟨-, -, -, -, hslot, -, -, hbytes⟩ := variables_faithfully_numbered block
  refine ⟨hvars, hslot 2 _ (by rw [hvars]; rfl), hbytes _ ?_ _ ?_ (by decide)⟩
  · rw [hvars]
    exact List.mem_cons_self
  · rw [hvars]
    simp

end ThreeRegister
