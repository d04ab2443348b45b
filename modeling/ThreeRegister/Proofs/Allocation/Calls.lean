import ThreeRegister.Proofs.Allocation.Outcome

namespace ThreeRegister

namespace Allocation

inductive Call where
  | ensureResident (v : Variable) (e : NextUse.Entry)
  | reuseDead (v : Variable) (e : NextUse.Entry)
  | selectVictim (e : NextUse.Entry)
  | acquireDestination (e : NextUse.Entry)
  | define (v : Variable) (r : Register)
  | invalidate (v : Variable)
  | pin (r : Register)
  | unpin

namespace Call

def perform (strategy : Strategy) : Call → Alloc Unit
  | .ensureResident v e => discard (Alloc.ensureResident strategy v e)
  | .reuseDead v e => discard (Alloc.reuseDead? strategy v e)
  | .selectVictim e => discard (Alloc.selectVictim strategy e)
  | .acquireDestination e => discard (Alloc.acquireDestination strategy e)
  | .define v r => Alloc.define v r
  | .invalidate v => Alloc.invalidate v
  | .pin r => Alloc.pin r
  | .unpin => Alloc.unpin

def leave (strategy : Strategy) (s : Session) (call : Call) : Session :=
  match (call.perform strategy).run s with
  | .ok _ t => t
  | .error _ t => t

def leaveAll (strategy : Strategy) (s : Session) (calls : List Call) : Session :=
  calls.foldl (leave strategy) s

def NeedsVictim (f : RegisterFile) : Call → Prop
  | .ensureResident v _ => f.residency[v]? = none ∧ f.free = []
  | .acquireDestination _ => f.free = []
  | .selectVictim _ => True
  | _ => False

end Call

inductive Performed (strategy : Strategy) (s : Session) : Call → Session → Prop
  | ensureResident {v : Variable} {e : NextUse.Entry} {i : Fin 3} {t : Session}
      (h : Alloc.Ensured strategy v e s i t) : Performed strategy s (.ensureResident v e) t
  | reuseDead {v : Variable} {e : NextUse.Entry} {journal : Option (Array Event)} :
      Performed strategy s (.reuseDead v e) ⟨s.file, s.code, journal⟩
  | selectVictim {e : NextUse.Entry} : Performed strategy s (.selectVictim e) s
  | acquireDestination {e : NextUse.Entry} {i : Fin 3} {t : Session} (h : Alloc.Vacated strategy e s i t) :
      Performed strategy s (.acquireDestination e) t
  | define {v : Variable} {i : Fin 3} {journal : Option (Array Event)} :
      Performed strategy s (.define v (.ofIndex i)) ⟨s.file.define v i, s.code, journal⟩
  | invalidate {v : Variable} {journal : Option (Array Event)} :
      Performed strategy s (.invalidate v) ⟨s.file.forget v, s.code, journal⟩
  | pin {r : Register} : Performed strategy s (.pin r) { s with file := s.file.pin r }
  | unpin : Performed strategy s .unpin { s with file := s.file.unpin }

inductive Faulted (s : Session) : Call → Fault → Session → Prop
  | outOfRange {v : Variable} {r : Register} (hr : r.isValid = false) :
      Faulted s (.define v r) (.outOfRange ⟨r.offset, 3⟩) { s with file := s.file.forget v }
  | noVictim {call : Call} (hneeds : call.NeedsVictim s.file)
      (hpinned : ∀ i, (s.file.slots.get i).isHeld = true → s.file.pinned.contains i = true) :
      Faulted s call (.noVictim s.file.slots s.file.pinned) s

variable {s t : Session} {strategy : Strategy} {call : Call} {fault : Fault} {v : Variable} {r : Register}

theorem stuck_iff : Alloc.Stuck s ↔
    s.file.free = [] ∧ ∀ i, (s.file.slots.get i).isHeld = true → s.file.pinned.contains i = true := by
  rw [← RegisterFile.evictable_eq_nil, ← List.head?_eq_none_iff]
  exact ⟨fun h => ⟨h.full, h.pinned⟩, fun h => ⟨h.1, h.2⟩⟩

theorem index?_of_not_isValid (hr : r.isValid = false) : r.index? = none := by
  simpa [Register.isValid] using hr

-- The variable is released before the register is looked at, so that it stays released after the fault.
theorem define_error (hc : s.file.Consistent) (v : Variable) (hr : r.isValid = false) :
    (Alloc.define v r).run s = .error (.outOfRange ⟨r.offset, 3⟩) { s with file := s.file.forget v } := by
  have hindex := index?_of_not_isValid hr
  have hrelease : (Alloc.releaseElsewhere v r).run s = .ok () { s with file := s.file.forget v } := by
    simp only [Alloc.releaseElsewhere, EStateM.run_bind, Alloc.run_file, RegisterFile.forget]
    cases hv : s.file.residency[v]? with
    | none => rfl
    | some home =>
      obtain ⟨i, rfl, -⟩ := hc.homed hv
      have hne : Register.ofIndex i ≠ r := by
        rintro rfl
        rw [Register.index?_ofIndex] at hindex
        cases hindex
      simp only [Option.bind_some, Register.index?_ofIndex, if_pos hne]
      exact Alloc.run_discard (Alloc.run_unbind hv)
  have hoccupant (f : RegisterFile) : (f.occupant r).mapError Fault.outOfRange = .error (.outOfRange ⟨r.offset, 3⟩) := by
    simp [RegisterFile.occupant, Register.index, hindex, Bind.bind, Except.bind]
  simp only [Alloc.define, Alloc.overwrite, EStateM.run_bind, hrelease, Alloc.run_file, hoccupant,
    Alloc.run_ofExcept_error]

theorem perform_of_faulted (strategy : Strategy) (hc : s.file.Consistent) (h : Faulted s call fault t) :
    (call.perform strategy).run s = .error fault t := by
  cases h with
  | outOfRange hr => exact define_error hc _ hr
  | noVictim hneeds hpinned =>
    cases call with
    | ensureResident v e =>
      have hstuck : Alloc.Stuck s := stuck_iff.mpr ⟨hneeds.2, hpinned⟩
      rcases Alloc.ensureResident_outcome strategy v e hc with ⟨hnot, -⟩ | ⟨-, hrun⟩
      · exact absurd ⟨hneeds.1, hstuck⟩ hnot
      · exact Alloc.run_discard_error hrun
    | selectVictim e =>
      exact Alloc.run_discard_error (Alloc.run_selectVictim_error (RegisterFile.evictable_eq_nil.mpr hpinned))
    | acquireDestination e =>
      have hstuck : Alloc.Stuck s := stuck_iff.mpr ⟨hneeds, hpinned⟩
      rcases Alloc.vacate_outcome strategy e .evictForDestination hc with ⟨hnot, -⟩ | ⟨-, hrun⟩
      · exact absurd hstuck hnot
      · exact Alloc.run_discard_error hrun
    | reuseDead v e => exact hneeds.elim
    | define v r => exact hneeds.elim
    | invalidate v => exact hneeds.elim
    | pin r => exact hneeds.elim
    | unpin => exact hneeds.elim

theorem perform_cases (strategy : Strategy) (hc : s.file.Consistent) (call : Call) :
    (∃ t, (call.perform strategy).run s = .ok () t ∧ Performed strategy s call t) ∨
      ∃ fault t, Faulted s call fault t := by
  cases call with
  | ensureResident v e =>
    rcases Alloc.ensureResident_outcome strategy v e hc with ⟨-, i, t, hrun, ht⟩ | ⟨⟨hv, hstuck⟩, -⟩
    · exact .inl ⟨t, Alloc.run_discard hrun, .ensureResident ht⟩
    · obtain ⟨hfull, hpinned⟩ := stuck_iff.mp hstuck
      exact .inr ⟨_, _, .noVictim ⟨hv, hfull⟩ hpinned⟩
  | reuseDead v e =>
    obtain ⟨journal, hrun⟩ := Alloc.reuseDead?_ok strategy v e s
    exact .inl ⟨_, Alloc.run_discard hrun, .reuseDead⟩
  | selectVictim e =>
    cases hvictim : s.file.victim? strategy e with
    | none =>
      have hpinned := RegisterFile.evictable_eq_nil.mp (RegisterFile.victim?_eq_none.mp hvictim)
      exact .inr ⟨_, _, .noVictim trivial hpinned⟩
    | some p =>
      obtain ⟨r, w⟩ := p
      obtain ⟨i, rfl, -⟩ := RegisterFile.victim?_eq_some hvictim
      exact .inl ⟨s, Alloc.run_discard (Alloc.run_selectVictim hvictim), .selectVictim⟩
  | acquireDestination e =>
    rcases Alloc.vacate_outcome strategy e .evictForDestination hc with ⟨-, i, t, hrun, ht⟩ | ⟨hstuck, -⟩
    · exact .inl ⟨t, Alloc.run_discard hrun, .acquireDestination ht⟩
    · obtain ⟨hfull, hpinned⟩ := stuck_iff.mp hstuck
      exact .inr ⟨_, _, .noVictim hfull hpinned⟩
  | define v r =>
    cases hr : r.index? with
    | none => exact .inr ⟨_, _, .outOfRange (by simp [Register.isValid, hr])⟩
    | some i =>
      obtain rfl := Register.index?_eq_some.mp hr
      obtain ⟨journal, hrun⟩ := Alloc.define_ok hc v i
      exact .inl ⟨_, hrun, .define⟩
  | invalidate v =>
    obtain ⟨journal, hrun⟩ := Alloc.invalidate_ok hc v
    exact .inl ⟨_, hrun, .invalidate⟩
  | pin r => exact .inl ⟨_, rfl, .pin⟩
  | unpin => exact .inl ⟨_, rfl, .unpin⟩

theorem perform_error_iff (hc : s.file.Consistent) :
    (call.perform strategy).run s = .error fault t ↔ Faulted s call fault t := by
  constructor
  · intro hrun
    rcases perform_cases strategy hc call with ⟨u, hok, -⟩ | ⟨fault', u, h⟩
    · rw [hok] at hrun
      cases hrun
    · rw [perform_of_faulted strategy hc h] at hrun
      cases hrun
      exact h
  · exact perform_of_faulted strategy hc

theorem Performed.consistent (h : Performed strategy s call t) (hc : s.file.Consistent) : t.file.Consistent := by
  cases h with
  | ensureResident h => exact h.consistent hc
  | reuseDead => exact hc
  | selectVictim => exact hc
  | acquireDestination h => exact h.consistent hc
  | define => exact hc.define _ _
  | invalidate => exact hc.forget _
  | pin => exact hc.pin _
  | unpin => exact hc.unpin

theorem Faulted.consistent (h : Faulted s call fault t) (hc : s.file.Consistent) : t.file.Consistent := by
  cases h with
  | outOfRange hr => exact hc.forget _
  | noVictim hneeds hpinned => exact hc

theorem leave_consistent (strategy : Strategy) (hc : s.file.Consistent) (call : Call) :
    (call.leave strategy s).file.Consistent := by
  unfold Call.leave
  rcases perform_cases strategy hc call with ⟨t, hrun, ht⟩ | ⟨fault, t, ht⟩
  · rw [hrun]
    exact ht.consistent hc
  · rw [perform_of_faulted strategy hc ht]
    exact ht.consistent hc

theorem leaveAll_consistent (strategy : Strategy) (hc : s.file.Consistent) (calls : List Call) :
    (Call.leaveAll strategy s calls).file.Consistent := by
  induction calls generalizing s with
  | nil => exact hc
  | cons call calls ih => exact ih (leave_consistent strategy hc call)

/-- After any calls on a fresh register file the check passes, and the next call faults exactly in two cases: a
definition in no register of the machine, which leaves its variable in none, and a call that needs a victim while every
held register is pinned, which leaves everything as it was. -/
theorem validate_after_calls (strategy : Strategy) (code : Array Machine.Instruction) (journal : Option (Array Event))
    (calls : List Call) :
    let s := Call.leaveAll strategy ⟨.fresh, code, journal⟩ calls
    s.file.validate = .ok () ∧
      ∀ call fault t, (call.perform strategy).run s = .error fault t ↔ Faulted s call fault t := by
  intro s
  have hfresh : Session.file ⟨.fresh, code, journal⟩ |>.Consistent := .fresh
  have hc : s.file.Consistent := leaveAll_consistent strategy hfresh calls
  exact ⟨hc.validate_ok, fun call fault t => perform_error_iff hc⟩

end Allocation

end ThreeRegister
