import Mathlib.Data.List.Perm.Subperm
import ThreeRegister.Proofs.RegisterFile.Consistency

namespace ThreeRegister

namespace RegisterFile

variable {f : RegisterFile} {i : Fin 3} {v : Variable}

theorem resident_of_slotViolation? (h : f.slotViolation? i = none) (hv : f.slots.get i = .held v) :
    f.residency[v]? = some (.ofIndex i) := by
  unfold slotViolation? at h
  rw [hv] at h
  simpa using h

theorem occupied_of_countViolation? (h : f.countViolation? = none) : f.occupied = f.residency.size := by
  simpa [countViolation?] using h

theorem consistent_of_checks (hslots : ∀ i, f.slotViolation? i = none) (hcount : f.countViolation? = none) :
    f.Consistent := by
  have hresident {i : Fin 3} {v : Variable} := @resident_of_slotViolation? f i v (hslots i)
  have hsubset : (List.finRange 3).filterMap f.holder? ⊆ f.residency.keys := by
    intro v hv
    obtain ⟨i, -, hi⟩ := List.mem_filterMap.mp hv
    have hhome := hresident (holder?_eq_some.mp hi)
    rw [Std.TreeMap.mem_keys, Std.TreeMap.mem_iff_isSome_getElem?, hhome]
    rfl
  have hlength : f.residency.keys.length ≤ ((List.finRange 3).filterMap f.holder?).length := by
    rw [Std.TreeMap.length_keys, ← occupied_eq]
    exact Nat.le_of_eq (occupied_of_countViolation? hcount).symm
  -- The holders are different residents and as many as all of them, so no resident is left out.
  have hperm := ((holders_nodup hresident).subperm hsubset).perm_of_length_le hlength
  refine ⟨?_, hresident⟩
  intro v r hv
  have hkey : v ∈ f.residency.keys := by
    rw [Std.TreeMap.mem_keys, Std.TreeMap.mem_iff_isSome_getElem?, hv]
    rfl
  obtain ⟨i, -, hi⟩ := List.mem_filterMap.mp (hperm.mem_iff.mpr hkey)
  have hheld := holder?_eq_some.mp hi
  refine ⟨i, ?_, hheld⟩
  rw [hresident hheld, Option.some.injEq] at hv
  exact hv.symm

theorem findSome?_slotViolation? :
    (List.finRange 3).findSome? f.slotViolation? = none ↔ ∀ i, f.slotViolation? i = none := by
  simp [List.findSome?_eq_none_iff]

theorem violation?_eq (f : RegisterFile) :
    f.violation? = ((List.finRange 3).findSome? f.slotViolation?).or f.countViolation? := by
  unfold violation?
  cases hslots : (List.finRange 3).findSome? f.slotViolation? with
  | some violation => rfl
  | none =>
    cases hcount : f.countViolation? with
    | some violation => rfl
    | none =>
      have hc := consistent_of_checks (findSome?_slotViolation?.mp hslots) hcount
      exact List.findSome?_eq_none_iff.mpr fun home hhome => hc.homeViolation?_eq_none hhome

theorem validate_eq_ok_iff : f.validate = .ok () ↔ f.Consistent := by
  constructor
  · intro h
    have hnone : f.violation? = none := by
      unfold validate at h
      split at h
      · cases h
      · assumption
    rw [violation?_eq, Option.or_eq_none_iff, findSome?_slotViolation?] at hnone
    exact consistent_of_checks hnone.1 hnone.2
  · exact Consistent.validate_ok

theorem consistent_iff :
    f.Consistent ↔ (∀ (v : Variable) (r : Register), f.residency[v]? = some r → r.isValid = true) ∧
      ∀ (i : Fin 3) (v : Variable), f.slots.get i = .held v ↔ f.residency[v]? = some (.ofIndex i) := by
  constructor
  · intro h
    refine ⟨?_, fun i v => ⟨h.resident, h.held⟩⟩
    intro v r hv
    obtain ⟨i, rfl, -⟩ := h.homed hv
    exact Register.isValid_ofIndex i
  · rintro ⟨hvalid, hagree⟩
    refine ⟨?_, (hagree _ _).mp⟩
    intro v r hv
    obtain ⟨i, hi⟩ := Option.isSome_iff_exists.mp (hvalid v r hv)
    rw [Register.index?_eq_some] at hi
    subst hi
    exact ⟨i, rfl, (hagree i v).mpr hv⟩

theorem violation_kind {violation : Violation} (h : f.validate = .error violation) :
    (∃ r v home, violation = .mismatch r v home) ∨ ∃ occupied residents, violation = .count occupied residents := by
  have hfound : f.violation? = some violation := by
    unfold validate at h
    split at h
    · next found hfound =>
      cases h
      exact hfound
    · cases h
  rw [violation?_eq, Option.or_eq_some_iff] at hfound
  rcases hfound with hslot | ⟨-, hcount⟩
  · obtain ⟨i, -, hi⟩ := List.exists_of_findSome?_eq_some hslot
    unfold slotViolation? at hi
    grind
  · unfold countViolation? at hcount
    grind

theorem validate_decides_consistency (f : RegisterFile) :
    (f.validate = .ok () ↔
      (∀ (v : Variable) (r : Register), f.residency[v]? = some r → r.isValid = true) ∧
        ∀ (i : Fin 3) (v : Variable), f.slots.get i = .held v ↔ f.residency[v]? = some (.ofIndex i)) ∧
    ((∀ i, f.slotViolation? i = none) → f.countViolation? = none →
      ∀ (v : Variable) (r : Register), f.residency[v]? = some r → f.homeViolation? (v, r) = none) ∧
    ∀ v r, f.validate ≠ .error (.invalidHome v r) ∧ f.validate ≠ .error (.notHeld v r) := by
  refine ⟨validate_eq_ok_iff.trans consistent_iff, ?_, ?_⟩
  · intro hslots hcount v r hv
    exact (consistent_of_checks hslots hcount).homeViolation?_eq_none
      (Std.TreeMap.mem_toList_iff_getElem?_eq_some.mpr hv)
  · intro v r
    constructor
    · intro h
      simpa using violation_kind h
    · intro h
      simpa using violation_kind h

end RegisterFile

end ThreeRegister
