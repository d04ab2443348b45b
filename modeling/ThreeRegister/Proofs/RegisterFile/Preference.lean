import ThreeRegister.Proofs.RegisterFile.Vacancy

namespace ThreeRegister

namespace NextUse.Distance

inductive Nearer : Distance → Distance → Prop
  | finite {m n : UInt32} (h : m < n) : Nearer (.finite m) (.finite n)
  | unbounded {n : UInt32} : Nearer (.finite n) .unbounded

variable {a b c : Distance}

theorem nearer_finite {m n : UInt32} : Nearer (.finite m) (.finite n) ↔ m < n :=
  ⟨fun | .finite h => h, .finite⟩

theorem compare_eq_gt : compare a b = .gt ↔ b.Nearer a := by
  cases a with
  | finite m =>
    cases b with
    | finite n =>
      rw [nearer_finite]
      change compare m n = .gt ↔ n < m
      exact Std.compare_eq_gt
    | unbounded => exact ⟨nofun, nofun⟩
  | unbounded =>
    cases b with
    | finite n => exact ⟨fun _ => .unbounded, fun _ => rfl⟩
    | unbounded => exact ⟨nofun, nofun⟩

theorem compare_eq_eq : compare a b = .eq ↔ a = b := by
  cases a with
  | finite m =>
    cases b with
    | finite n =>
      rw [finite.injEq]
      change compare m n = .eq ↔ m = n
      exact Std.compare_eq_iff_eq
    | unbounded => exact ⟨nofun, nofun⟩
  | unbounded =>
    cases b with
    | finite n => exact ⟨nofun, nofun⟩
    | unbounded => exact ⟨fun _ => rfl, fun _ => rfl⟩

namespace Nearer

theorem irrefl (a : Distance) : ¬a.Nearer a := by
  rintro ⟨h⟩
  exact UInt32.lt_irrefl _ h

theorem trans (h : a.Nearer b) (h' : b.Nearer c) : a.Nearer c := by
  cases h with
  | finite h =>
    cases h' with
    | finite h' => exact .finite (UInt32.lt_trans h h')
    | unbounded => exact .unbounded
  | unbounded => cases h'

theorem trichotomy (a b : Distance) : a.Nearer b ∨ a = b ∨ b.Nearer a := by
  cases a with
  | finite m =>
    cases b with
    | finite n => grind [nearer_finite]
    | unbounded => exact .inl .unbounded
  | unbounded =>
    cases b with
    | finite n => exact .inr (.inr .unbounded)
    | unbounded => exact .inr (.inl rfl)

end Nearer

end NextUse.Distance

namespace RegisterFile

def Outranks (f : RegisterFile) (e : NextUse.Entry) (v w : Variable) : Prop :=
  (e.distance w).Nearer (e.distance v) ∨ e.distance w = e.distance v ∧ f.age v < f.age w

structure IsBestVictim (f : RegisterFile) (e : NextUse.Entry) (i : Fin 3) (v : Variable) : Prop where
  held : f.slots.get i = .held v
  unpinned : f.pinned.contains i = false
  outranks : ∀ {j : Fin 3} {w : Variable}, j ≠ i → f.slots.get j = .held w → f.pinned.contains j = false →
    f.Outranks e v w

variable {f : RegisterFile} {e : NextUse.Entry} {u v w : Variable} {p q first : Register × Variable}
  {others : List (Register × Variable)} {i j : Fin 3}

theorem prefers_iff : f.prefers e v w = true ↔ f.Outranks e w v := by
  unfold prefers Outranks
  cases hcompare : compare (e.distance w) (e.distance v) with
  | gt =>
    have hnearer := NextUse.Distance.compare_eq_gt.mp hcompare
    exact ⟨fun _ => .inl hnearer, fun _ => rfl⟩
  | eq =>
    have heq := NextUse.Distance.compare_eq_eq.mp hcompare
    rw [decide_eq_true_iff, heq]
    exact ⟨fun h => .inr ⟨rfl, h⟩, fun h => (h.resolve_left (NextUse.Distance.Nearer.irrefl _)).2⟩
  | lt =>
    refine ⟨nofun, ?_⟩
    rintro (h | ⟨h, -⟩)
    · rw [NextUse.Distance.compare_eq_gt.mpr h] at hcompare
      cases hcompare
    · rw [NextUse.Distance.compare_eq_eq.mpr h.symm] at hcompare
      cases hcompare

namespace Outranks

theorem irrefl (v : Variable) : ¬f.Outranks e v v := by
  rintro (h | ⟨-, h⟩)
  · exact NextUse.Distance.Nearer.irrefl _ h
  · exact UInt64.lt_irrefl _ h

theorem trans (h : f.Outranks e u v) (h' : f.Outranks e v w) : f.Outranks e u w := by
  rcases h with h | ⟨heq, h⟩
  · rcases h' with h' | ⟨heq', h'⟩
    · exact .inl (h'.trans h)
    · exact .inl (heq' ▸ h)
  · rcases h' with h' | ⟨heq', h'⟩
    · exact .inl (heq ▸ h')
    · exact .inr ⟨heq'.trans heq, UInt64.lt_trans h h'⟩

theorem total (hages : f.age v ≠ f.age w) : f.Outranks e v w ∨ f.Outranks e w v := by
  rcases NextUse.Distance.Nearer.trichotomy (e.distance v) (e.distance w) with h | h | h
  · exact .inr (.inl h)
  · rcases UInt64.lt_or_lt_of_ne hages with hlt | hlt
    · exact .inl (.inr ⟨h.symm, hlt⟩)
    · exact .inr (.inr ⟨h, hlt⟩)
  · exact .inl (.inl h)

end Outranks

theorem farther_cases (h : p ≠ q → f.age p.2 ≠ f.age q.2) :
    (f.farther e p q = q ∧ f.Outranks e q.2 p.2) ∨ f.farther e p q = p ∧ (q = p ∨ f.Outranks e p.2 q.2) := by
  unfold farther
  split
  · next hprefers => exact .inl ⟨rfl, prefers_iff.mp hprefers⟩
  · next hprefers =>
    refine .inr ⟨rfl, ?_⟩
    by_cases hpq : p = q
    · exact .inl hpq.symm
    · exact .inr ((Outranks.total (h hpq)).resolve_right (mt prefers_iff.mpr hprefers))

-- The scan keeps a candidate that goes before all those it has passed.
theorem foldl_farther_outranks
    (hages : ∀ p ∈ first :: others, ∀ q ∈ first :: others, p ≠ q → f.age p.2 ≠ f.age q.2) :
    ∀ q ∈ first :: others, q = others.foldl (f.farther e) first ∨
      f.Outranks e (others.foldl (f.farther e) first).2 q.2 := by
  induction others generalizing first with
  | nil => simp
  | cons next rest ih =>
    intro q hq
    have hstep := @farther_cases f e first next
      (hages first List.mem_cons_self next (List.mem_cons_of_mem _ List.mem_cons_self))
    let kept := f.farther e first next
    have hkept : kept = first ∨ kept = next := by grind
    have hrest := @ih kept (by grind)
    rw [List.foldl_cons]
    -- The candidate that the first step drops is behind the one it keeps, and so behind the last.
    have hdropped (hq : q = kept ∨ f.Outranks e kept.2 q.2) : q = rest.foldl (f.farther e) kept ∨
        f.Outranks e (rest.foldl (f.farther e) kept).2 q.2 := by
      rcases hq with rfl | hq
      · exact hrest _ List.mem_cons_self
      · rcases hrest kept List.mem_cons_self with heq | hlast
        · rw [← heq]
          exact .inr hq
        · exact .inr (hlast.trans hq)
    rcases List.mem_cons.mp hq with rfl | hq
    · apply hdropped
      grind
    · rcases List.mem_cons.mp hq with rfl | hq
      · apply hdropped
        grind
      · exact hrest q (List.mem_cons_of_mem _ hq)

theorem isBestVictim_iff : f.IsBestVictim e i v ↔
    (.ofIndex i, v) ∈ f.evictable ∧ ∀ q ∈ f.evictable, q = (.ofIndex i, v) ∨ f.Outranks e v q.2 := by
  constructor
  · intro h
    refine ⟨mem_evictable.mpr ⟨i, rfl, h.held, h.unpinned⟩, ?_⟩
    rintro ⟨r, w⟩ hq
    obtain ⟨j, rfl, hj, hp⟩ := mem_evictable.mp hq
    by_cases hji : j = i
    · subst hji
      rw [h.held, Slot.held.injEq] at hj
      exact .inl (by rw [hj])
    · exact .inr (h.outranks hji hj hp)
  · rintro ⟨hmem, hall⟩
    obtain ⟨k, hk, hheld, hp⟩ := mem_evictable.mp hmem
    rw [Register.ofIndex_inj] at hk
    subst hk
    refine ⟨hheld, hp, ?_⟩
    intro j w hji hj hp
    rcases hall _ (mem_evictable.mpr ⟨j, rfl, hj, hp⟩) with heq | h
    · rw [Prod.mk.injEq, Register.ofIndex_inj] at heq
      exact absurd heq.1 hji
    · exact h

theorem IsBestVictim.unique (h : f.IsBestVictim e i v) (h' : f.IsBestVictim e j w) : i = j ∧ v = w := by
  by_cases hij : i = j
  · subst hij
    have hheld := h.held
    rw [h'.held, Slot.held.injEq] at hheld
    exact ⟨rfl, hheld.symm⟩
  · have hvw := h.outranks (Ne.symm hij) h'.held h'.unpinned
    have hwv := h'.outranks hij h.held h.unpinned
    exact absurd (hvw.trans hwv) (Outranks.irrefl v)

def AgesDiffer (f : RegisterFile) : Prop :=
  ∀ {i j : Fin 3} {v w : Variable}, f.slots.get i = .held v → f.slots.get j = .held w → i ≠ j → f.age v ≠ f.age w

theorem AgesDiffer.evictable (h : f.AgesDiffer) (hp : p ∈ f.evictable) (hq : q ∈ f.evictable) (hpq : p ≠ q) :
    f.age p.2 ≠ f.age q.2 := by
  obtain ⟨i, hi, hv, -⟩ := mem_evictable.mp hp
  obtain ⟨j, hj, hw, -⟩ := mem_evictable.mp hq
  apply h hv hw
  rintro rfl
  rw [hv, Slot.held.injEq] at hw
  exact hpq (Prod.ext (hi.trans hj.symm) hw)

theorem exists_isBestVictim (h : f.AgesDiffer) (hperm : (first :: others).Perm f.evictable) :
    ∃ i v, others.foldl (f.farther e) first = (.ofIndex i, v) ∧ f.IsBestVictim e i v := by
  have hbest := @foldl_farther_outranks f e first others fun p hp q hq =>
    h.evictable (hperm.mem_iff.mp hp) (hperm.mem_iff.mp hq)
  have hmem := hperm.mem_iff.mp (@foldl_farther_mem f e first others)
  obtain ⟨i, hi, -⟩ := mem_evictable.mp hmem
  have hlast : others.foldl (f.farther e) first = (.ofIndex i, (others.foldl (f.farther e) first).2) := Prod.ext hi rfl
  refine ⟨i, _, hlast, isBestVictim_iff.mpr ⟨hlast ▸ hmem, ?_⟩⟩
  intro q hq
  rw [← hlast]
  exact hbest q (hperm.mem_iff.mpr hq)

theorem victim?_isBestVictim (h : f.AgesDiffer) (hcandidate : f.evictable ≠ []) (e : NextUse.Entry) :
    ∃ i v, f.victim? .nextUse e = some (.ofIndex i, v) ∧ f.IsBestVictim e i v ∧
      ∀ first others, (first :: others).Perm f.evictable → others.foldl (f.farther e) first = (.ofIndex i, v) := by
  obtain ⟨first, others, hlist⟩ := List.exists_cons_of_ne_nil hcandidate
  obtain ⟨i, v, hscan, hbest⟩ := @exists_isBestVictim f e first others h (by rw [hlist])
  refine ⟨i, v, ?_, hbest, ?_⟩
  · simp only [victim?, hlist, hscan]
  · intro first others hperm
    obtain ⟨j, w, hscan, hbest'⟩ := exists_isBestVictim h hperm
    obtain ⟨rfl, rfl⟩ := hbest.unique hbest'
    exact hscan

end RegisterFile

end ThreeRegister
