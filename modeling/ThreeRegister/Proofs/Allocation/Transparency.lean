import ThreeRegister.Proofs.Allocation.Calls
import ThreeRegister.Proofs.Allocation.Realization

namespace ThreeRegister

namespace Alloc

variable {s t : Session} {strategy : Strategy} {e : NextUse.Entry} {v w : Variable} {i : Fin 3} {r : Register}

theorem Vacated.residency_or_victim (h : Vacated strategy e s i t) (hc : s.file.Consistent)
    (hw : s.file.residency[w]? = some r) :
    t.file.residency[w]? = some r ∨
      t.file.residency[w]? = none ∧ (selectVictim strategy e).run s = .ok (r, w) s := by
  cases h with
  | free h => exact .inl hw
  | @evicted victim _ hfull hvictim =>
    have hr := RegisterFile.residency_release (s.file.assignSpillSlot victim) victim w i
    by_cases hvw : victim = w
    · subst hvw
      rw [if_pos rfl] at hr
      have hhome := hc.resident (victim_held hvictim).1
      rw [hw, Option.some.injEq] at hhome
      subst hhome
      exact .inr ⟨hr, run_selectVictim hvictim⟩
    · rw [if_neg hvw] at hr
      exact .inl (hr.trans hw)

theorem Ensured.residency_or_victim (h : Ensured strategy v e s i t) (hc : s.file.Consistent)
    (hw : s.file.residency[w]? = some r) :
    t.file.residency[w]? = some r ∨
      t.file.residency[w]? = none ∧ (selectVictim strategy e).run s = .ok (r, w) s := by
  cases h with
  | resident h => exact .inl hw
  | @loaded u _ h hvacated =>
    have hvw : v ≠ w := by
      rintro rfl
      rw [h] at hw
      cases hw
    have hocc := RegisterFile.residency_occupy u.file v w i
    rw [if_neg hvw] at hocc
    rcases hvacated.residency_or_victim hc hw with hkept | ⟨hlost, hvictim⟩
    · exact .inl (hocc.trans hkept)
    · exact .inr ⟨hocc.trans hlost, hvictim⟩

theorem ensured_of_run (hc : s.file.Consistent) (hrun : (ensureResident strategy v e).run s = .ok r t) :
    ∃ i, r = .ofIndex i ∧ Ensured strategy v e s i t := by
  rcases ensureResident_outcome strategy v e hc with ⟨-, i, u, hok, hu⟩ | ⟨-, herror⟩
  · rw [hok] at hrun
    cases hrun
    exact ⟨i, rfl, hu⟩
  · rw [herror] at hrun
    cases hrun

theorem vacated_of_run (hc : s.file.Consistent) (hrun : (acquireDestination strategy e).run s = .ok r t) :
    ∃ i, r = .ofIndex i ∧ Vacated strategy e s i t := by
  rcases vacate_outcome strategy e .evictForDestination hc with ⟨-, i, u, hok, hu⟩ | ⟨-, herror⟩
  · rw [acquireDestination, hok] at hrun
    cases hrun
    exact ⟨i, rfl, hu⟩
  · rw [acquireDestination, herror] at hrun
    cases hrun

end Alloc

namespace Allocation

open Alloc

structure Unnoticed (strategy : Strategy) (e : NextUse.Entry) (s t : Session) : Prop where
  transparent : s.Transparent t
  pinned : ∀ {w : Variable} {i : Fin 3}, s.file.residency[w]? = some (.ofIndex i) →
    s.file.pinned.contains i = true → t.file.residency[w]? = some (.ofIndex i)
  evicted : ∀ {w : Variable} {r : Register}, s.file.residency[w]? = some r → t.file.residency[w]? = some r ∨
    t.file.residency[w]? = none ∧ (selectVictim strategy e).run s = .ok (r, w) s

theorem loads_and_spills_unnoticed (strategy : Strategy) (code : Array Machine.Instruction)
    (journal : Option (Array Event)) (calls : List Call) (e : NextUse.Entry) :
    let s := Call.leaveAll strategy ⟨.fresh, code, journal⟩ calls
    (∀ v r t, (ensureResident strategy v e).run s = .ok r t → Unnoticed strategy e s t ∧
      (∀ (w : Variable) (r' : Register), t.file.residency[w]? = some r' → v = w ∨ s.file.residency[w]? = some r') ∧
      t.file.residency[v]? = some r ∧ t.file.occupant r = .ok (.held v)) ∧
    ∀ r t, (acquireDestination strategy e).run s = .ok r t → Unnoticed strategy e s t ∧
      (∀ (w : Variable) (r' : Register), t.file.residency[w]? = some r' → s.file.residency[w]? = some r') ∧
      r ∈ t.file.free := by
  intro s
  have hc : s.file.Consistent := leaveAll_consistent strategy .fresh calls
  constructor
  · intro v r t hrun
    obtain ⟨i, rfl, h⟩ := ensured_of_run hc hrun
    refine ⟨⟨h.transparent hc, h.keeps_pinned hc, h.residency_or_victim hc⟩, fun w r' => h.residency_of,
      h.resident_at, ?_⟩
    rw [mapError_eq_ok (occupant_ofIndex t.file i), (h.consistent hc).held h.resident_at]
  · intro r t hrun
    obtain ⟨i, rfl, h⟩ := vacated_of_run hc hrun
    refine ⟨⟨h.transparent hc, h.keeps_pinned hc, h.residency_or_victim hc⟩, fun w r' => h.residency_of, ?_⟩
    exact RegisterFile.mem_free.mpr ⟨i, rfl, h.isHeld⟩

theorem loads_and_spills_unnoticed_pinned :
    let calls : List Call := [.ensureResident (utf8 "a") ∅, .ensureResident (utf8 "b") ∅,
      .ensureResident (utf8 "c") ∅, .pin .r1]
    let s := Call.leaveAll .nextUse (.start .fresh false) calls
    ∃ t, (ensureResident .nextUse (utf8 "d") ∅).run s = .ok .r2 t ∧ Unnoticed .nextUse ∅ s t ∧
      s.file.residency[utf8 "b"]? = some .r2 ∧ t.file.residency[utf8 "d"]? = some .r2 := by
  intro calls s
  have hreturns : (match (ensureResident .nextUse (utf8 "d") ∅).run s with
      | .ok r _ => decide (r = .r2 ∧ s.file.residency[utf8 "b"]? = some .r2)
      | .error _ _ => false) = true := by
    decide +kernel
  cases hrun : (ensureResident .nextUse (utf8 "d") ∅).run s with
  | error fault t => simp [hrun] at hreturns
  | ok r t =>
    rw [hrun, decide_eq_true_iff] at hreturns
    obtain ⟨rfl, hb⟩ := hreturns
    obtain ⟨hunnoticed, -, hd, -⟩ := (loads_and_spills_unnoticed .nextUse #[] none calls ∅).1 _ _ _ hrun
    exact ⟨t, rfl, hunnoticed, hb, hd⟩

end Allocation

end ThreeRegister
