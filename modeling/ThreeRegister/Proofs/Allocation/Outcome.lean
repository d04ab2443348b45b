import ThreeRegister.Allocation.Operations
import ThreeRegister.Proofs.RegisterFile.Consistency
import ThreeRegister.Proofs.RegisterFile.Vacancy

/-!
The outcome of each operation on a session whose register file is consistent. What an operation writes and what it
makes of the register file is said in full; the journal it keeps is left open.
-/

namespace ThreeRegister

namespace Alloc

variable {s t : Session} {strategy : Strategy} {e : NextUse.Entry} {v w : Variable} {i j : Fin 3}

@[simp] theorem run_file (s : Session) : file.run s = .ok s.file s := rfl

@[simp] theorem run_modifyFile (change : RegisterFile → RegisterFile) (s : Session) :
    (modifyFile change).run s = .ok () { s with file := change s.file } := rfl

@[simp] theorem run_emit (i : Machine.Instruction) (s : Session) :
    (emit i).run s = .ok () { s with code := s.code.push i } := rfl

@[simp] theorem run_record (event : Allocation.Event) (s : Session) :
    (record event).run s = .ok () { s with journal := s.journal.map (·.push event) } := rfl

@[simp] theorem run_ofExcept_ok {α : Type} (a : α) (s : Session) : (ofExcept (.ok a)).run s = .ok a s := rfl

@[simp] theorem run_ofExcept_error {α : Type} (fault : Fault) (s : Session) :
    (ofExcept (.error fault : Except Fault α)).run s = .error fault s := rfl

@[simp] theorem run_touch (v : Variable) (s : Session) :
    (touch v).run s = .ok () { s with file := s.file.touch v } := rfl

@[simp] theorem run_pin (r : Register) (s : Session) : (pin r).run s = .ok () { s with file := s.file.pin r } := rfl

@[simp] theorem run_unpin (s : Session) : unpin.run s = .ok () { s with file := s.file.unpin } := rfl

theorem run_discard_eq {α : Type} (x : Alloc α) (s : Session) : (discard x).run s = match x.run s with
    | .ok _ t => .ok () t
    | .error fault t => .error fault t := by
  simp only [discard, Functor.discard, Functor.mapConst, Function.comp_apply, EStateM.map, EStateM.run]
  cases x s <;> rfl

theorem run_discard {α : Type} {x : Alloc α} {a : α} (h : x.run s = .ok a t) : (discard x).run s = .ok () t := by
  rw [run_discard_eq, h]

theorem run_discard_error {α : Type} {x : Alloc α} {fault : Fault} (h : x.run s = .error fault t) :
    (discard x).run s = .error fault t := by
  rw [run_discard_eq, h]

theorem run_bind (hi : (s.file.slots.get i).isHeld = false) (hv : s.file.residency[v]? = none) :
    (bind v (.ofIndex i)).run s = .ok () { s with file := s.file.occupy v i } := by
  simp [bind, RegisterFile.bind_eq hi hv]

theorem run_unbind (hv : s.file.residency[v]? = some (.ofIndex i)) :
    (unbind v).run s = .ok (.ofIndex i) { s with file := s.file.release v i } := by
  simp only [unbind, EStateM.run_bind, run_file, RegisterFile.unbind_eq hv, run_ofExcept_ok, run_modifyFile]
  rfl

theorem run_selectVictim (h : s.file.victim? strategy e = some (.ofIndex i, w)) :
    (selectVictim strategy e).run s = .ok (.ofIndex i, w) s := by
  simp [selectVictim, h]

theorem run_selectVictim_error (h : s.file.evictable = []) :
    (selectVictim strategy e).run s = .error (.noVictim s.file.slots s.file.pinned) s := by
  have hnone : s.file.victim? strategy e = none := RegisterFile.victim?_eq_none.mpr h
  simp only [selectVictim, EStateM.run_bind, run_file, hnone]
  rfl

theorem run_spill (hv : s.file.residency[v]? = some (.ofIndex i)) :
    (spill v (.ofIndex i)).run s =
      .ok () ⟨(s.file.assignSpillSlot v).release v i, s.code.push (.store v (.ofIndex i)), s.journal⟩ := by
  simp only [spill, EStateM.run_bind, run_emit, run_modifyFile]
  exact run_discard (run_unbind hv)

inductive Vacated (strategy : Strategy) (e : NextUse.Entry) (s : Session) : Fin 3 → Session → Prop
  | free {i : Fin 3} (h : s.file.firstFree? = some (.ofIndex i)) : Vacated strategy e s i s
  | evicted {i : Fin 3} {w : Variable} {journal : Option (Array Allocation.Event)}
      (hfull : s.file.firstFree? = none) (hw : s.file.victim? strategy e = some (.ofIndex i, w)) :
      Vacated strategy e s i
        ⟨(s.file.assignSpillSlot w).release w i, s.code.push (.store w (.ofIndex i)), journal⟩

inductive Ensured (strategy : Strategy) (v : Variable) (e : NextUse.Entry) (s : Session) : Fin 3 → Session → Prop
  | resident {i : Fin 3} (h : s.file.residency[v]? = some (.ofIndex i)) :
      Ensured strategy v e s i { s with file := s.file.touch v }
  | loaded {i : Fin 3} {t : Session} {journal : Option (Array Allocation.Event)}
      (h : s.file.residency[v]? = none) (hvacated : Vacated strategy e s i t) :
      Ensured strategy v e s i
        ⟨(t.file.occupy v i).touch v, t.code.push (.load (.ofIndex i) v), journal⟩

structure Stuck (s : Session) : Prop where
  full : s.file.firstFree? = none
  pinned : s.file.evictable = []

theorem vacate_outcome (strategy : Strategy) (e : NextUse.Entry) (event : Variable → Register → Allocation.Event)
    (hc : s.file.Consistent) :
    (¬Stuck s ∧ ∃ i t, (vacate strategy e event).run s = .ok (.ofIndex i) t ∧ Vacated strategy e s i t) ∨
      Stuck s ∧ (vacate strategy e event).run s = .error (.noVictim s.file.slots s.file.pinned) s := by
  cases hfree : s.file.firstFree? with
  | some r =>
    obtain ⟨i, rfl, -⟩ := RegisterFile.firstFree?_eq_some hfree
    refine .inl ⟨fun hstuck => ?_, i, s, by simp [vacate, hfree], .free hfree⟩
    rw [hstuck.full] at hfree
    cases hfree
  | none =>
    cases hvictim : s.file.victim? strategy e with
    | none =>
      have hpinned := RegisterFile.victim?_eq_none.mp hvictim
      refine .inr ⟨⟨hfree, hpinned⟩, ?_⟩
      simp only [vacate, EStateM.run_bind, run_file, hfree, run_selectVictim_error hpinned]
    | some p =>
      obtain ⟨r, w⟩ := p
      obtain ⟨i, rfl, hi, -⟩ := RegisterFile.victim?_eq_some hvictim
      have hrun : (vacate strategy e event).run s = .ok (.ofIndex i)
          ⟨(s.file.assignSpillSlot w).release w i, s.code.push (.store w (.ofIndex i)),
            s.journal.map (·.push (event w (.ofIndex i)))⟩ := by
        simp only [vacate, EStateM.run_bind, run_file, hfree, run_selectVictim hvictim, run_record]
        have hspill := @run_spill { s with journal := s.journal.map (·.push (event w (.ofIndex i))) } w i
          (hc.resident hi)
        simp only [hspill]
        rfl
      refine .inl ⟨fun hstuck => ?_, i, _, hrun, .evicted hfree hvictim⟩
      rw [RegisterFile.victim?_eq_none.mpr hstuck.pinned] at hvictim
      cases hvictim

theorem not_stuck (hroom : ∃ i, s.file.pinned.contains i = false) : ¬Stuck s := by
  intro hstuck
  obtain ⟨i, hi⟩ := hroom
  obtain ⟨p, hp⟩ := RegisterFile.exists_victim .nextUse ∅ hstuck.full hi
  rw [RegisterFile.victim?_eq_none.mpr hstuck.pinned] at hp
  cases hp

theorem vacate_ok (strategy : Strategy) (e : NextUse.Entry) (event : Variable → Register → Allocation.Event)
    (hc : s.file.Consistent) (hroom : ∃ i, s.file.pinned.contains i = false) :
    ∃ i t, (vacate strategy e event).run s = .ok (.ofIndex i) t ∧ Vacated strategy e s i t := by
  rcases vacate_outcome strategy e event hc with ⟨-, h⟩ | ⟨hstuck, -⟩
  · exact h
  · exact absurd hstuck (not_stuck hroom)

namespace Vacated

theorem isHeld (h : Vacated strategy e s i t) : (t.file.slots.get i).isHeld = false := by
  cases h with
  | free h =>
    obtain ⟨j, hj, hi⟩ := RegisterFile.firstFree?_eq_some h
    rw [Register.ofIndex_inj] at hj
    rw [hj, hi]
  | evicted hfull hw => simp [RegisterFile.slots_release, Slot.isHeld]

theorem victim_held (hw : s.file.victim? strategy e = some (.ofIndex i, w)) :
    s.file.slots.get i = .held w ∧ s.file.pinned.contains i = false := by
  obtain ⟨j, hj, hi, hp⟩ := RegisterFile.victim?_eq_some hw
  rw [Register.ofIndex_inj] at hj
  subst hj
  exact ⟨hi, hp⟩

theorem consistent (h : Vacated strategy e s i t) (hc : s.file.Consistent) : t.file.Consistent := by
  cases h with
  | free h => exact hc
  | evicted hfull hw => exact (hc.assignSpillSlot _).release (hc.resident (victim_held hw).1)

theorem pinned_eq (h : Vacated strategy e s i t) : t.file.pinned = s.file.pinned := by
  cases h <;> rfl

theorem residency_of (h : Vacated strategy e s i t) {r : Register} (hv : t.file.residency[v]? = some r) :
    s.file.residency[v]? = some r := by
  cases h with
  | free h => exact hv
  | evicted hfull hw =>
    rw [RegisterFile.residency_release] at hv
    split at hv
    · cases hv
    · exact hv

theorem absent_of (h : Vacated strategy e s i t) (hv : s.file.residency[v]? = none) : t.file.residency[v]? = none := by
  cases ht : t.file.residency[v]? with
  | none => rfl
  | some r => rw [h.residency_of ht] at hv; cases hv

theorem keeps_pinned (h : Vacated strategy e s i t) (hc : s.file.Consistent)
    (hv : s.file.residency[v]? = some (.ofIndex j)) (hj : s.file.pinned.contains j = true) :
    t.file.residency[v]? = some (.ofIndex j) := by
  cases h with
  | free h => exact hv
  | @evicted w _ hfull hw =>
    have hwv : w ≠ v := by
      rintro rfl
      have hheld := hc.resident (victim_held hw).1
      rw [hv, Option.some.injEq, Register.ofIndex_inj] at hheld
      rw [hheld, (victim_held hw).2] at hj
      cases hj
    rw [RegisterFile.residency_release, if_neg hwv]
    exact hv

end Vacated

theorem ensureResident_outcome (strategy : Strategy) (v : Variable) (e : NextUse.Entry) (hc : s.file.Consistent) :
    (¬(s.file.residency[v]? = none ∧ Stuck s) ∧
        ∃ i t, (ensureResident strategy v e).run s = .ok (.ofIndex i) t ∧ Ensured strategy v e s i t) ∨
      (s.file.residency[v]? = none ∧ Stuck s) ∧
        (ensureResident strategy v e).run s = .error (.noVictim s.file.slots s.file.pinned) s := by
  cases hv : s.file.residency[v]? with
  | some r =>
    obtain ⟨i, rfl, -⟩ := hc.homed hv
    have hrun : (ensureResident strategy v e).run s = .ok (.ofIndex i) { s with file := s.file.touch v } := by
      simp only [ensureResident, EStateM.run_bind, run_file, hv, run_touch]
      rfl
    exact .inl ⟨by simp, i, _, hrun, .resident hv⟩
  | none =>
    rcases vacate_outcome strategy e (.evictToLoad · · v) hc with ⟨hroom, i, t, hvacate, ht⟩ | ⟨hstuck, hvacate⟩
    · have hrun : (ensureResident strategy v e).run s = .ok (.ofIndex i)
          ⟨(t.file.occupy v i).touch v, t.code.push (.load (.ofIndex i) v),
            t.journal.map (·.push (.load v (.ofIndex i)))⟩ := by
        simp only [ensureResident, EStateM.run_bind, run_file, hv, hvacate, run_bind ht.isHeld (ht.absent_of hv),
          run_emit, run_record, run_touch]
        rfl
      exact .inl ⟨fun h => hroom h.2, i, _, hrun, .loaded hv ht⟩
    · refine .inr ⟨⟨rfl, hstuck⟩, ?_⟩
      simp only [ensureResident, EStateM.run_bind, run_file, hv, hvacate]

theorem ensureResident_ok (strategy : Strategy) (v : Variable) (e : NextUse.Entry) (hc : s.file.Consistent)
    (hroom : ∃ i, s.file.pinned.contains i = false) :
    ∃ i t, (ensureResident strategy v e).run s = .ok (.ofIndex i) t ∧ Ensured strategy v e s i t := by
  rcases ensureResident_outcome strategy v e hc with ⟨-, h⟩ | ⟨⟨-, hstuck⟩, -⟩
  · exact h
  · exact absurd hstuck (not_stuck hroom)

namespace Ensured

theorem consistent (h : Ensured strategy v e s i t) (hc : s.file.Consistent) : t.file.Consistent := by
  cases h with
  | resident h => exact hc.touch v
  | loaded h hvacated =>
    exact ((hvacated.consistent hc).occupy hvacated.isHeld (hvacated.absent_of h)).touch v

theorem pinned_eq (h : Ensured strategy v e s i t) : t.file.pinned = s.file.pinned := by
  cases h with
  | resident h => rfl
  | loaded h hvacated => exact hvacated.pinned_eq

theorem resident_at (h : Ensured strategy v e s i t) : t.file.residency[v]? = some (.ofIndex i) := by
  cases h with
  | resident h => exact h
  | @loaded u _ h hvacated =>
    have hocc := RegisterFile.residency_occupy u.file v v i
    rw [if_pos rfl] at hocc
    exact hocc

theorem residency_of (h : Ensured strategy v e s i t) {r : Register} (hw : t.file.residency[w]? = some r) :
    v = w ∨ s.file.residency[w]? = some r := by
  cases h with
  | resident h => exact .inr hw
  | @loaded u _ h hvacated =>
    have hocc := RegisterFile.residency_occupy u.file v w i
    by_cases hvw : v = w
    · exact .inl hvw
    · rw [if_neg hvw] at hocc
      exact .inr (hvacated.residency_of (hocc.symm.trans hw))

theorem keeps_pinned (h : Ensured strategy v e s i t) (hc : s.file.Consistent)
    (hw : s.file.residency[w]? = some (.ofIndex j)) (hj : s.file.pinned.contains j = true) :
    t.file.residency[w]? = some (.ofIndex j) := by
  cases h with
  | resident h => exact hw
  | @loaded u _ h hvacated =>
    have hvw : v ≠ w := by
      rintro rfl
      rw [h] at hw
      cases hw
    have hocc := RegisterFile.residency_occupy u.file v w i
    rw [if_neg hvw, hvacated.keeps_pinned hc hw hj] at hocc
    exact hocc

end Ensured

def reusable? (strategy : Strategy) (f : RegisterFile) (v : Variable) (e : NextUse.Entry) : Option Register :=
  match strategy with
  | .nextUse => if (e.distance v).isUnbounded then f.residency[v]? else none
  | .fixedSlot => none

theorem reuseDead?_ok (strategy : Strategy) (v : Variable) (e : NextUse.Entry) (s : Session) :
    ∃ journal, (reuseDead? strategy v e).run s = .ok (reusable? strategy s.file v e) ⟨s.file, s.code, journal⟩ := by
  cases strategy with
  | fixedSlot => exact ⟨s.journal, rfl⟩
  | nextUse =>
    simp only [reuseDead?, EStateM.run_bind, run_file, reusable?]
    cases hv : s.file.residency[v]? with
    | none => exact ⟨s.journal, by simp⟩
    | some r =>
      by_cases hd : (e.distance v).isUnbounded
      · simp only [hd, if_true]
        exact ⟨_, rfl⟩
      · simp only [hd]
        exact ⟨_, rfl⟩

theorem releaseElsewhere_ok (hc : s.file.Consistent) (hv : s.file.residency[v]? ≠ some (.ofIndex i)) :
    (releaseElsewhere v (.ofIndex i)).run s = .ok () { s with file := s.file.forget v } := by
  simp only [releaseElsewhere, EStateM.run_bind, run_file, RegisterFile.forget]
  cases hr : s.file.residency[v]? with
  | none => rfl
  | some r =>
    obtain ⟨j, rfl, -⟩ := hc.homed hr
    have hne : Register.ofIndex j ≠ .ofIndex i := by
      intro heq
      rw [hr, heq] at hv
      exact hv rfl
    simp only [Option.bind_some, Register.index?_ofIndex, if_pos hne]
    exact run_discard (run_unbind hr)

theorem occupant_ofIndex (f : RegisterFile) (i : Fin 3) :
    (f.occupant (.ofIndex i)).mapError Fault.outOfRange = .ok (f.slots.get i) := by
  simp [RegisterFile.occupant, Register.index_ofIndex, Bind.bind, Except.bind, pure, Except.pure]

theorem overwrite_ok (i : Fin 3) (hc : s.file.Consistent) (hv : s.file.residency[v]? = none) :
    ∃ journal, (overwrite v (.ofIndex i)).run s = .ok () ⟨s.file.clear i, s.code, journal⟩ := by
  simp only [overwrite, EStateM.run_bind, run_file, occupant_ofIndex, run_ofExcept_ok, RegisterFile.clear]
  cases hi : s.file.slots.get i with
  | free label => exact ⟨s.journal, rfl⟩
  | held w =>
    have hw := hc.resident hi
    have hne : w ≠ v := by
      rintro rfl
      rw [hv] at hw
      cases hw
    simp only [if_pos hne, EStateM.run_bind, run_record]
    exact ⟨_, run_discard (run_unbind hw)⟩

theorem overwrite_self (hi : s.file.slots.get i = .held v) : (overwrite v (.ofIndex i)).run s = .ok () s := by
  simp only [overwrite, EStateM.run_bind, run_file, occupant_ofIndex, run_ofExcept_ok, hi]
  simp

theorem define_ok (hc : s.file.Consistent) (v : Variable) (i : Fin 3) :
    ∃ journal, (define v (.ofIndex i)).run s = .ok () ⟨s.file.define v i, s.code, journal⟩ := by
  by_cases hv : s.file.residency[v]? = some (.ofIndex i)
  · have hrelease : (releaseElsewhere v (.ofIndex i)).run s = .ok () s := by
      simp [releaseElsewhere, hv]
    have hcontains : s.file.residency.contains v = true := by
      rw [Std.TreeMap.contains_eq_isSome_getElem?, hv]
      rfl
    simp only [define, EStateM.run_bind, run_file, hrelease, overwrite_self (hc.held hv), hcontains,
      RegisterFile.define, if_pos hv]
    exact ⟨_, rfl⟩
  · have hrelease := releaseElsewhere_ok hc hv
    have hforgotten : (s.file.forget v).residency[v]? = none := by simp [hc.residency_forget]
    obtain ⟨journal, hoverwrite⟩ := @overwrite_ok { s with file := s.file.forget v } v i (hc.forget v) hforgotten
    have habsent := hc.absent_of_forget v i
    have hcontains : ((s.file.forget v).clear i).residency.contains v = false := by
      rw [Std.TreeMap.contains_eq_isSome_getElem?, habsent]
      rfl
    have hbind := @run_bind ⟨(s.file.forget v).clear i, s.code, journal⟩ v i (RegisterFile.isHeld_clear _ i) habsent
    simp only [define, EStateM.run_bind, run_file, hrelease, hoverwrite, hcontains, Bool.not_false, if_true, hbind,
      RegisterFile.define, if_neg hv]
    exact ⟨_, rfl⟩

theorem invalidate_ok (hc : s.file.Consistent) (v : Variable) :
    ∃ journal, (invalidate v).run s = .ok () ⟨s.file.forget v, s.code, journal⟩ := by
  simp only [invalidate, EStateM.run_bind, run_file, RegisterFile.forget]
  cases hr : s.file.residency[v]? with
  | none => exact ⟨s.journal, rfl⟩
  | some r =>
    obtain ⟨i, rfl, -⟩ := hc.homed hr
    refine ⟨s.journal.map (·.push (.invalidate v (.ofIndex i))), ?_⟩
    simp only [run_record, Option.bind_some, Register.index?_ofIndex, EStateM.run_bind]
    exact run_discard (@run_unbind { s with journal := _ } v i hr)

end Alloc

end ThreeRegister
