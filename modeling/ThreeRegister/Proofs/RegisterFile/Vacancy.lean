import ThreeRegister.Proofs.Lookup
import ThreeRegister.RegisterFile.Victim

namespace ThreeRegister

namespace RegisterFile

variable {f : RegisterFile} {strategy : Strategy} {e : NextUse.Entry}

theorem mem_free {r : Register} : r ∈ f.free ↔ ∃ i, r = .ofIndex i ∧ (f.slots.get i).isHeld = false := by
  simp only [free, List.mem_map, List.mem_filter, List.mem_finRange, true_and, Bool.not_eq_true']
  constructor
  · rintro ⟨i, hi, rfl⟩
    exact ⟨i, rfl, hi⟩
  · rintro ⟨i, rfl, hi⟩
    exact ⟨i, hi, rfl⟩

theorem firstFree?_eq_some {r : Register} (h : f.firstFree? = some r) :
    ∃ i, r = .ofIndex i ∧ (f.slots.get i).isHeld = false :=
  mem_free.mp (List.mem_of_head? h)

theorem firstFree?_eq_none (h : f.firstFree? = none) (i : Fin 3) : (f.slots.get i).isHeld = true := by
  rw [firstFree?, List.head?_eq_none_iff, free, List.map_eq_nil_iff, List.filter_eq_nil_iff] at h
  simpa using h i (List.mem_finRange i)

theorem mem_evictable {r : Register} {v : Variable} :
    (r, v) ∈ f.evictable ↔ ∃ i, r = .ofIndex i ∧ f.slots.get i = .held v ∧ f.pinned.contains i = false := by
  simp only [evictable, List.mem_filterMap, List.mem_finRange, true_and]
  constructor
  · rintro ⟨i, hi⟩
    split at hi
    · next w hw =>
      split at hi
      · cases hi
      · next hp =>
        cases hi
        exact ⟨i, rfl, hw, by simpa using hp⟩
    · cases hi
  · rintro ⟨i, rfl, hv, hp⟩
    exact ⟨i, by simp [hv, hp]⟩

theorem evictable_eq_nil :
    f.evictable = [] ↔ ∀ i, (f.slots.get i).isHeld = true → f.pinned.contains i = true := by
  rw [List.eq_nil_iff_forall_not_mem]
  constructor
  · intro h i hi
    cases hs : f.slots.get i with
    | free label => simp [hs, Slot.isHeld] at hi
    | held v => simpa using fun hp => h _ (mem_evictable.mpr ⟨i, rfl, hs, hp⟩)
  · rintro h ⟨r, v⟩ hmem
    obtain ⟨i, -, hs, hp⟩ := mem_evictable.mp hmem
    rw [h i (by simp [hs, Slot.isHeld])] at hp
    cases hp

theorem evictable_ne_nil {i : Fin 3} (hheld : (f.slots.get i).isHeld = true) (hp : f.pinned.contains i = false) :
    f.evictable ≠ [] := by
  intro hnil
  rw [evictable_eq_nil.mp hnil i hheld] at hp
  cases hp

theorem foldl_farther_mem (first : Register × Variable) (others : List (Register × Variable)) :
    others.foldl (f.farther e) first ∈ first :: others := by
  induction others generalizing first with
  | nil => simp
  | cons next rest ih =>
    have hstep : f.farther e first next = first ∨ f.farther e first next = next := by
      unfold farther
      split
      · exact .inr rfl
      · exact .inl rfl
    have hrest := ih (f.farther e first next)
    simp only [List.foldl_cons, List.mem_cons] at hrest ⊢
    rcases hrest with heq | hmem
    · rw [heq]
      rcases hstep with h | h
      · exact .inl h
      · exact .inr (.inl h)
    · exact .inr (.inr hmem)

theorem victim?_mem {p : Register × Variable} (h : f.victim? strategy e = some p) : p ∈ f.evictable := by
  unfold victim? at h
  split at h
  · cases h
  · next first others hl =>
    rw [hl]
    cases strategy with
    | nextUse =>
      cases h
      exact foldl_farther_mem first others
    | fixedSlot =>
      cases h
      exact List.mem_cons_self

theorem victim?_eq_some {r : Register} {v : Variable} (h : f.victim? strategy e = some (r, v)) :
    ∃ i, r = .ofIndex i ∧ f.slots.get i = .held v ∧ f.pinned.contains i = false :=
  mem_evictable.mp (victim?_mem h)

theorem victim?_eq_none : f.victim? strategy e = none ↔ f.evictable = [] := by
  unfold victim?
  cases f.evictable with
  | nil => simp
  | cons first others => cases strategy <;> simp

theorem exists_victim (strategy : Strategy) (e : NextUse.Entry) (hfull : f.firstFree? = none) {i : Fin 3}
    (hi : f.pinned.contains i = false) : ∃ p, f.victim? strategy e = some p := by
  rw [← Option.isSome_iff_exists, Option.isSome_iff_ne_none, Ne, victim?_eq_none]
  exact evictable_ne_nil (firstFree?_eq_none hfull i) hi

end RegisterFile

end ThreeRegister
