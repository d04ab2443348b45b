import ThreeRegister.Proofs.NextUse.Renaming
import ThreeRegister.Proofs.RegisterFile.Consistency
import ThreeRegister.Proofs.RegisterFile.Vacancy

namespace ThreeRegister

def Slot.rename (σ : Variable → Variable) : Slot → Slot
  | .free label => .free label
  | .held v => .held (σ v)

/-- The entries differ by the renaming as far as the strategy looks at them. -/
def Strategy.SeesRenamed (strategy : Strategy) (σ : Variable → Variable) (e e' : NextUse.Entry) : Prop :=
  strategy = .nextUse → ∀ v, e'.distance (σ v) = e.distance v

namespace RegisterFile

structure Renamed (σ : Variable → Variable) (f f' : RegisterFile) : Prop where
  slots (i : Fin 3) : f'.slots.get i = (f.slots.get i).rename σ
  residency (v : Variable) : f'.residency[σ v]? = f.residency[v]?
  clock : f'.clock = f.clock
  age (v : Variable) : f'.age (σ v) = f.age v
  pinned : f'.pinned = f.pinned

variable {σ : Variable → Variable} {f f' : RegisterFile} {strategy : Strategy} {e e' : NextUse.Entry}

theorem Renamed.fresh : Renamed σ .fresh .fresh where
  slots i := by simp [RegisterFile.fresh, Bank.get_fill, Slot.rename]
  residency v := by simp [RegisterFile.fresh]
  clock := rfl
  age v := by simp [RegisterFile.fresh, RegisterFile.age]
  pinned := rfl

theorem Renamed.refl (f : RegisterFile) : f.Renamed id f where
  slots i := by cases f.slots.get i <;> rfl
  residency _ := rfl
  clock := rfl
  age _ := rfl
  pinned := rfl

namespace Renamed

variable (h : f.Renamed σ f')

include h

theorem isHeld (i : Fin 3) : (f'.slots.get i).isHeld = (f.slots.get i).isHeld := by
  rw [h.slots i]
  cases f.slots.get i <;> rfl

theorem firstFree?_eq : f'.firstFree? = f.firstFree? := by
  simp only [firstFree?, free, h.isHeld]

theorem evictable_eq : f'.evictable = f.evictable.map (Prod.map id σ) := by
  simp only [evictable, List.map_filterMap, h.pinned]
  apply List.filterMap_congr
  intro i _
  rw [h.slots i]
  cases f.slots.get i with
  | free label => rfl
  | held v => cases f.pinned.contains i <;> simp [Slot.rename]

theorem prefers_eq (he : ∀ v, e'.distance (σ v) = e.distance v) (current candidate : Variable) :
    f'.prefers e' (σ current) (σ candidate) = f.prefers e current candidate := by
  simp only [prefers, he, h.age]

theorem farther_eq (he : ∀ v, e'.distance (σ v) = e.distance v) (current candidate : Register × Variable) :
    f'.farther e' (current.map id σ) (candidate.map id σ) = (f.farther e current candidate).map id σ := by
  simp only [farther, Prod.map_snd, h.prefers_eq he]
  split <;> rfl

theorem victim?_eq (he : strategy.SeesRenamed σ e e') :
    f'.victim? strategy e' = (f.victim? strategy e).map (Prod.map id σ) := by
  simp only [victim?, h.evictable_eq]
  cases f.evictable with
  | nil => rfl
  | cons first others =>
    cases strategy with
    | fixedSlot => rfl
    | nextUse =>
      simp only [List.map_cons, Option.map_some, List.foldl_map, Option.some.injEq]
      exact List.foldl_hom (Prod.map id σ) fun current candidate => h.farther_eq (he rfl) current candidate

theorem touch (hσ : Function.Injective σ) (v : Variable) : (f.touch v).Renamed σ (f'.touch (σ v)) where
  slots := h.slots
  residency := h.residency
  clock := by simp [RegisterFile.touch, h.clock]
  age w := by
    have hw : f'.recency.getD (σ w) 0 = f.recency.getD w 0 := h.age w
    simp [RegisterFile.touch, RegisterFile.age, Std.TreeMap.getD_insert, h.clock, hσ.eq_iff, hw]
  pinned := h.pinned

theorem pin (r : Register) : (f.pin r).Renamed σ (f'.pin r) where
  slots := h.slots
  residency := h.residency
  clock := h.clock
  age := h.age
  pinned := by simp [RegisterFile.pin, h.pinned]

theorem unpin : f.unpin.Renamed σ f'.unpin :=
  ⟨h.slots, h.residency, h.clock, h.age, rfl⟩

theorem assignSpillSlot (v : Variable) : (f.assignSpillSlot v).Renamed σ (f'.assignSpillSlot (σ v)) :=
  ⟨h.slots, h.residency, h.clock, h.age, h.pinned⟩

theorem occupy (hσ : Function.Injective σ) (v : Variable) (i : Fin 3) :
    (f.occupy v i).Renamed σ (f'.occupy (σ v) i) where
  slots j := by
    rw [slots_occupy, slots_occupy, h.slots j]
    split <;> rfl
  residency w := by simp only [residency_occupy, h.residency, hσ.eq_iff]
  clock := h.clock
  age := h.age
  pinned := h.pinned

theorem release (hσ : Function.Injective σ) (v : Variable) (i : Fin 3) :
    (f.release v i).Renamed σ (f'.release (σ v) i) where
  slots j := by
    rw [slots_release, slots_release, h.slots j]
    split <;> rfl
  residency w := by simp only [residency_release, h.residency, hσ.eq_iff]
  clock := h.clock
  age := h.age
  pinned := h.pinned

theorem exists_of_resident (hc' : f'.Consistent) {w : Variable} {r : Register} (hw : f'.residency[w]? = some r) :
    ∃ v, σ v = w ∧ f.residency[v]? = some r := by
  obtain ⟨i, rfl, hi⟩ := hc'.homed hw
  rw [h.slots i] at hi
  cases hs : f.slots.get i with
  | free label =>
    rw [hs] at hi
    cases hi
  | held v =>
    rw [hs] at hi
    cases hi
    exact ⟨v, rfl, by rw [← h.residency v, hw]⟩

end Renamed

end RegisterFile

end ThreeRegister
