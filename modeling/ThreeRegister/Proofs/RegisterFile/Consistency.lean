import Mathlib.Data.List.Nodup
import ThreeRegister.Proofs.Lookup
import ThreeRegister.RegisterFile.Binding
import ThreeRegister.RegisterFile.Validity

namespace ThreeRegister

namespace RegisterFile

structure Consistent (f : RegisterFile) : Prop where
  homed {v : Variable} {r : Register} : f.residency[v]? = some r → ∃ i, r = .ofIndex i ∧ f.slots.get i = .held v
  resident {i : Fin 3} {v : Variable} : f.slots.get i = .held v → f.residency[v]? = some (.ofIndex i)

def occupy (f : RegisterFile) (v : Variable) (i : Fin 3) : RegisterFile :=
  (f.setSlot i (.held v)).setResidency v (.ofIndex i)

def release (f : RegisterFile) (v : Variable) (i : Fin 3) : RegisterFile :=
  { f.setSlot i (.free []) with residency := f.residency.erase v }

def forget (f : RegisterFile) (v : Variable) : RegisterFile :=
  match f.residency[v]?.bind Register.index? with
  | some i => f.release v i
  | none => f

def clear (f : RegisterFile) (i : Fin 3) : RegisterFile :=
  match f.slots.get i with
  | .held w => f.release w i
  | .free _ => f

def define (f : RegisterFile) (v : Variable) (i : Fin 3) : RegisterFile :=
  if f.residency[v]? = some (.ofIndex i) then f.touch v else (((f.forget v).clear i).occupy v i).touch v

variable {f g : RegisterFile} {v w : Variable} {i j : Fin 3}

theorem slots_occupy (f : RegisterFile) (v : Variable) (i j : Fin 3) :
    (f.occupy v i).slots.get j = if i = j then .held v else f.slots.get j :=
  Bank.get_update _ _ _ _

theorem residency_occupy (f : RegisterFile) (v w : Variable) (i : Fin 3) :
    (f.occupy v i).residency[w]? = if v = w then some (.ofIndex i) else f.residency[w]? := by
  simp [occupy, setResidency, setSlot, Std.TreeMap.getElem?_insert]

theorem slots_release (f : RegisterFile) (v : Variable) (i j : Fin 3) :
    (f.release v i).slots.get j = if i = j then .free [] else f.slots.get j :=
  Bank.get_update _ _ _ _

theorem residency_release (f : RegisterFile) (v w : Variable) (i : Fin 3) :
    (f.release v i).residency[w]? = if v = w then none else f.residency[w]? := by
  simp [release, setSlot, Std.TreeMap.getElem?_erase]

theorem bind_eq (hi : (f.slots.get i).isHeld = false) (hv : f.residency[v]? = none) :
    f.bind v (.ofIndex i) = .ok (f.occupy v i) := by
  cases hs : f.slots.get i with
  | held w => simp [hs, Slot.isHeld] at hi
  | free label =>
    simp [bind, Register.index_ofIndex, hs, hv, occupy, Bind.bind, Except.bind, pure, Except.pure]

theorem unbind_eq (hv : f.residency[v]? = some (.ofIndex i)) :
    f.unbind v = .ok (.ofIndex i, f.release v i) := by
  simp [unbind, hv, Register.index_ofIndex, release, setSlot, Bind.bind, Except.bind, pure, Except.pure]

namespace Consistent

theorem fresh : Consistent .fresh where
  homed h := by simp [RegisterFile.fresh] at h
  resident {i v} h := by simp [RegisterFile.fresh, Bank.get_fill] at h

theorem congr (h : f.Consistent) (hs : g.slots = f.slots) (hr : g.residency = f.residency) : g.Consistent where
  homed {v r} hv := by
    rw [hr] at hv
    rw [hs]
    exact h.homed hv
  resident {i v} hi := by
    rw [hs] at hi
    rw [hr]
    exact h.resident hi

theorem held (h : f.Consistent) (hv : f.residency[v]? = some (.ofIndex i)) : f.slots.get i = .held v := by
  obtain ⟨j, hj, hs⟩ := h.homed hv
  rw [Register.ofIndex_inj] at hj
  rw [hj, hs]

theorem home_inj (h : f.Consistent) {r : Register} (hv : f.residency[v]? = some r)
    (hw : f.residency[w]? = some r) : v = w := by
  obtain ⟨i, rfl, hi⟩ := h.homed hv
  have hj := h.held hw
  rw [hi, Slot.held.injEq] at hj
  exact hj

theorem occupy (h : f.Consistent) (hi : (f.slots.get i).isHeld = false) (hv : f.residency[v]? = none) :
    (f.occupy v i).Consistent where
  homed {w r} hw := by
    rw [residency_occupy] at hw
    split at hw
    · next hvw =>
      subst hvw
      cases hw
      exact ⟨i, rfl, by simp [slots_occupy]⟩
    · obtain ⟨j, rfl, hj⟩ := h.homed hw
      refine ⟨j, rfl, ?_⟩
      have hij : i ≠ j := by
        rintro rfl
        simp [hj, Slot.isHeld] at hi
      simp [slots_occupy, hij, hj]
  resident {j w} hj := by
    rw [slots_occupy] at hj
    split at hj
    · next hij =>
      subst hij
      cases hj
      simp [residency_occupy]
    · have hw := h.resident hj
      have hvw : v ≠ w := by
        rintro rfl
        simp [hv] at hw
      simp [residency_occupy, hvw, hw]

theorem release (h : f.Consistent) (hv : f.residency[v]? = some (.ofIndex i)) : (f.release v i).Consistent where
  homed {w r} hw := by
    rw [residency_release] at hw
    split at hw
    · cases hw
    · next hvw =>
      obtain ⟨j, rfl, hj⟩ := h.homed hw
      refine ⟨j, rfl, ?_⟩
      have hij : i ≠ j := by
        rintro rfl
        exact hvw (h.home_inj hv hw)
      simp [slots_release, hij, hj]
  resident {j w} hj := by
    rw [slots_release] at hj
    split at hj
    · cases hj
    · next hij =>
      have hw := h.resident hj
      have hvw : v ≠ w := by
        rintro rfl
        rw [hv, Option.some.injEq, Register.ofIndex_inj] at hw
        exact hij hw
      simp [residency_release, hvw, hw]

theorem residency_forget (h : f.Consistent) (v w : Variable) :
    (f.forget v).residency[w]? = if v = w then none else f.residency[w]? := by
  unfold forget
  cases hv : f.residency[v]? with
  | none =>
    by_cases hvw : v = w
    · simp [← hvw, hv]
    · simp [hvw]
  | some r =>
    obtain ⟨i, rfl, -⟩ := h.homed hv
    simp [Register.index?_ofIndex, residency_release]

theorem forget (h : f.Consistent) (v : Variable) : (f.forget v).Consistent := by
  unfold RegisterFile.forget
  cases hv : f.residency[v]? with
  | none => exact h
  | some r =>
    obtain ⟨i, rfl, -⟩ := h.homed hv
    simpa [Register.index?_ofIndex] using h.release hv

theorem clear (h : f.Consistent) (i : Fin 3) : (f.clear i).Consistent := by
  unfold RegisterFile.clear
  cases hi : f.slots.get i with
  | held w => exact h.release (h.resident hi)
  | free label => exact h

theorem residency_clear (h : f.Consistent) (hv : f.residency[v]? ≠ some (.ofIndex i)) :
    (f.clear i).residency[v]? = f.residency[v]? := by
  unfold RegisterFile.clear
  cases hi : f.slots.get i with
  | held w =>
    have hwv : w ≠ v := by
      rintro rfl
      exact hv (h.resident hi)
    simp [residency_release, hwv]
  | free label => rfl

theorem touch (h : f.Consistent) (v : Variable) : (f.touch v).Consistent :=
  h.congr rfl rfl

theorem pin (h : f.Consistent) (r : Register) : (f.pin r).Consistent :=
  h.congr rfl rfl

theorem unpin (h : f.Consistent) : f.unpin.Consistent :=
  h.congr rfl rfl

theorem assignSpillSlot (h : f.Consistent) (v : Variable) : (f.assignSpillSlot v).Consistent :=
  h.congr rfl rfl

end Consistent

theorem pinned_forget (f : RegisterFile) (v : Variable) : (f.forget v).pinned = f.pinned := by
  unfold forget
  split <;> rfl

theorem isHeld_clear (f : RegisterFile) (i : Fin 3) : ((f.clear i).slots.get i).isHeld = false := by
  unfold clear
  cases hi : f.slots.get i with
  | held w => simp [slots_release, Slot.isHeld]
  | free label => simp [hi, Slot.isHeld]

theorem Consistent.absent_of_forget (h : f.Consistent) (v : Variable) (i : Fin 3) :
    ((f.forget v).clear i).residency[v]? = none := by
  have hv : (f.forget v).residency[v]? = none := by simp [h.residency_forget]
  rw [(h.forget v).residency_clear (by simp [hv]), hv]

theorem Consistent.define (h : f.Consistent) (v : Variable) (i : Fin 3) : (f.define v i).Consistent := by
  unfold RegisterFile.define
  split
  · exact h.touch v
  · have hcleared := (h.forget v).clear i
    exact (hcleared.occupy (isHeld_clear _ i) (h.absent_of_forget v i)).touch v

theorem residency_define_self (f : RegisterFile) (v : Variable) (i : Fin 3) :
    (f.define v i).residency[v]? = some (.ofIndex i) := by
  unfold define
  split
  · next hv => exact hv
  · have hocc := residency_occupy ((f.forget v).clear i) v v i
    rw [if_pos rfl] at hocc
    exact hocc

theorem Consistent.residency_define_of_ne (h : f.Consistent) (hvw : v ≠ w)
    (hw : f.residency[w]? ≠ some (.ofIndex i)) : (f.define v i).residency[w]? = f.residency[w]? := by
  unfold RegisterFile.define
  split
  · rfl
  · have hforget : (f.forget v).residency[w]? = f.residency[w]? := by rw [h.residency_forget, if_neg hvw]
    have hocc := residency_occupy ((f.forget v).clear i) v w i
    rw [if_neg hvw, (h.forget v).residency_clear (by rwa [hforget]), hforget] at hocc
    exact hocc

theorem residency_of_clear {r : Register} (hw : (f.clear i).residency[w]? = some r) : f.residency[w]? = some r := by
  unfold clear at hw
  split at hw
  · rw [residency_release] at hw
    split at hw
    · cases hw
    · exact hw
  · exact hw

theorem Consistent.residency_of_define (h : f.Consistent) (hvw : v ≠ w) {r : Register}
    (hw : (f.define v i).residency[w]? = some r) : f.residency[w]? = some r := by
  unfold RegisterFile.define at hw
  split at hw
  · exact hw
  · have hocc := residency_occupy ((f.forget v).clear i) v w i
    rw [if_neg hvw] at hocc
    have hforget := residency_of_clear (hocc.symm.trans hw)
    rwa [h.residency_forget, if_neg hvw] at hforget

def holder? (f : RegisterFile) (i : Fin 3) : Option Variable :=
  match f.slots.get i with
  | .held v => some v
  | .free _ => none

theorem holder?_eq_some : f.holder? i = some v ↔ f.slots.get i = .held v := by
  unfold holder?
  cases f.slots.get i <;> simp

theorem occupied_eq (f : RegisterFile) : f.occupied = ((List.finRange 3).filterMap f.holder?).length := by
  rw [occupied, List.length_filterMap_eq_countP]
  congr 1
  funext i
  unfold holder?
  cases f.slots.get i <;> rfl

theorem holders_nodup
    (h : ∀ {i : Fin 3} {v : Variable}, f.slots.get i = .held v → f.residency[v]? = some (.ofIndex i)) :
    ((List.finRange 3).filterMap f.holder?).Nodup := by
  refine List.Nodup.filterMap ?_ (List.nodup_finRange 3)
  intro i j v hi hj
  have hv := h (holder?_eq_some.mp hi)
  rw [h (holder?_eq_some.mp hj), Option.some.injEq, Register.ofIndex_inj] at hv
  exact hv.symm

namespace Consistent

theorem mem_holders (h : f.Consistent) :
    v ∈ (List.finRange 3).filterMap f.holder? ↔ v ∈ f.residency.keys := by
  simp only [List.mem_filterMap, List.mem_finRange, true_and, holder?_eq_some]
  rw [Std.TreeMap.mem_keys, Std.TreeMap.mem_iff_isSome_getElem?, Option.isSome_iff_exists]
  constructor
  · rintro ⟨i, hi⟩
    exact ⟨_, h.resident hi⟩
  · rintro ⟨r, hr⟩
    obtain ⟨i, -, hi⟩ := h.homed hr
    exact ⟨i, hi⟩

theorem occupied_eq_size (h : f.Consistent) : f.occupied = f.residency.size := by
  have hkeys : f.residency.keys.Nodup := Std.TreeMap.nodup_keys
  have hperm := (List.perm_ext_iff_of_nodup (holders_nodup h.resident) hkeys).mpr fun v => h.mem_holders
  rw [occupied_eq, hperm.length_eq, Std.TreeMap.length_keys]

theorem size_le (h : f.Consistent) : f.residency.size ≤ 3 := by
  rw [← h.occupied_eq_size]
  exact List.countP_le_length

theorem slotViolation?_eq_none (h : f.Consistent) (i : Fin 3) : f.slotViolation? i = none := by
  unfold slotViolation?
  split
  · rfl
  · next v hi => simp [h.resident hi]

theorem homeViolation?_eq_none (h : f.Consistent) {home : Variable × Register} (hm : home ∈ f.residency.toList) :
    f.homeViolation? home = none := by
  obtain ⟨i, hr, hi⟩ := h.homed (Std.TreeMap.mem_toList_iff_getElem?_eq_some.mp hm)
  simp [homeViolation?, hr, Register.index?_ofIndex, hi]

theorem validate_ok (h : f.Consistent) : f.validate = .ok () := by
  have hslots : (List.finRange 3).findSome? f.slotViolation? = none :=
    List.findSome?_eq_none_iff.mpr fun i _ => h.slotViolation?_eq_none i
  have hcount : f.countViolation? = none := by simp [countViolation?, h.occupied_eq_size]
  have hhomes : f.residency.toList.findSome? f.homeViolation? = none :=
    List.findSome?_eq_none_iff.mpr fun _ hm => h.homeViolation?_eq_none hm
  simp [validate, violation?, hslots, hcount, hhomes]

end Consistent

end RegisterFile

end ThreeRegister
