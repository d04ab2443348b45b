import ThreeRegister.Generation
import ThreeRegister.Proofs.Allocation.Outcome

namespace ThreeRegister

open Alloc

def Session.pin (s : Session) (i : Fin 3) : Session :=
  { s with file := s.file.pin (.ofIndex i) }

/-- The session is consistent and nothing is pinned, as between any two instructions. -/
structure Session.Ready (s : Session) : Prop where
  consistent : s.file.Consistent
  unpinned : s.file.pinned = .empty

namespace Generation

variable {s t : Session} {strategy : Strategy} {e : NextUse.Entry} {dst left right v w : Variable} {op : Text}
  {d l r i j : Fin 3}

inductive Loaded (strategy : Strategy) (left right : Variable) (e : NextUse.Entry) (s : Session) :
    Fin 3 → Fin 3 → Session → Prop
  | mk {l r : Fin 3} {t u : Session} (hleft : Ensured strategy left e s l t)
      (hright : Ensured strategy right e (t.pin l) r u) : Loaded strategy left right e s l r (u.pin r)

def reusableOperand? (strategy : Strategy) (f : RegisterFile) (left right : Variable) (e : NextUse.Entry) :
    Option Register :=
  (reusable? strategy f left e).or (reusable? strategy f right e)

inductive Prepared (strategy : Strategy) (left right : Variable) (e : NextUse.Entry) (s : Session) :
    Fin 3 → Fin 3 → Fin 3 → Session → Prop
  | reused {d l r : Fin 3} {t : Session} {journal : Option (Array Allocation.Event)}
      (hreuse : reusableOperand? strategy s.file left right e = some (.ofIndex d))
      (hloaded : Loaded strategy left right e (Session.pin ⟨s.file, s.code, journal⟩ d) l r t) :
      Prepared strategy left right e s d l r t
  | acquired {d l r : Fin 3} {t u : Session} {journal : Option (Array Allocation.Event)}
      (hreuse : reusableOperand? strategy s.file left right e = none)
      (hloaded : Loaded strategy left right e ⟨s.file, s.code, journal⟩ l r t) (hvacated : Vacated strategy e t d u) :
      Prepared strategy left right e s d l r u

inductive Written (strategy : Strategy) (e : NextUse.Entry) (s : Session) : Source.Instruction → Session → Prop
  | move {dst src : Variable} {i : Fin 3} {t : Session} {before after : Option (Array Allocation.Event)}
      (hsrc : Ensured strategy src e ⟨s.file, s.code, before⟩ i t) :
      Written strategy e s (.move dst src)
        ⟨if dst ≠ src then t.file.forget dst else t.file, t.code.push (.store dst (.ofIndex i)), after⟩
  | binary {dst left right : Variable} {op : Text} {d l r : Fin 3} {t : Session}
      {before after : Option (Array Allocation.Event)}
      (hprepared : Prepared strategy left right e ⟨s.file, s.code, before⟩ d l r t) :
      Written strategy e s (.binary dst left op right)
        ⟨(t.file.define dst d).unpin, t.code.push (.operate op (.ofIndex d) (.ofIndex l) (.ofIndex r)), after⟩

theorem exists_ne_ne (i j : Fin 3) : ∃ k, i ≠ k ∧ j ≠ k := by
  revert i j
  decide

namespace Loaded

theorem consistent (h : Loaded strategy left right e s l r t) (hc : s.file.Consistent) : t.file.Consistent := by
  obtain ⟨hleft, hright⟩ := h
  exact (hright.consistent ((hleft.consistent hc).pin _)).pin _

theorem contains_pinned (h : Loaded strategy left right e s l r t) (i : Fin 3) :
    t.file.pinned.contains i = (decide (r = i) || (decide (l = i) || s.file.pinned.contains i)) := by
  obtain ⟨hleft, hright⟩ := h
  have hl := hleft.pinned_eq
  have hr := hright.pinned_eq
  simp only [Session.pin, RegisterFile.pin] at hr ⊢
  rw [RegisterSet.contains_insert, hr, RegisterSet.contains_insert, hl]

theorem keeps_pinned (h : Loaded strategy left right e s l r t) (hc : s.file.Consistent)
    (hv : s.file.residency[v]? = some (.ofIndex j)) (hj : s.file.pinned.contains j = true) :
    t.file.residency[v]? = some (.ofIndex j) := by
  obtain @⟨t, u, hleft, hright⟩ := h
  have ht := hleft.keeps_pinned hc hv hj
  have hp : (t.pin l).file.pinned.contains j = true := by
    simp only [Session.pin, RegisterFile.pin, RegisterSet.contains_insert, hleft.pinned_eq, hj, Bool.or_true]
  exact hright.keeps_pinned ((hleft.consistent hc).pin _) ht hp

theorem residency_left (h : Loaded strategy left right e s l r t) (hc : s.file.Consistent) :
    t.file.residency[left]? = some (.ofIndex l) := by
  obtain @⟨t, u, hleft, hright⟩ := h
  have hp : (t.pin l).file.pinned.contains l = true := by
    simp [Session.pin, RegisterFile.pin, RegisterSet.contains_insert]
  exact hright.keeps_pinned ((hleft.consistent hc).pin _) hleft.resident_at hp

theorem residency_right (h : Loaded strategy left right e s l r t) : t.file.residency[right]? = some (.ofIndex r) := by
  obtain ⟨hleft, hright⟩ := h
  exact hright.resident_at

end Loaded

theorem loadOperand_ok (strategy : Strategy) (v : Variable) (e : NextUse.Entry) (hc : s.file.Consistent)
    (hroom : ∃ i, s.file.pinned.contains i = false) :
    ∃ i t, (loadOperand strategy v e).run s = .ok (.ofIndex i) (t.pin i) ∧ Ensured strategy v e s i t := by
  obtain ⟨i, t, hrun, ht⟩ := ensureResident_ok strategy v e hc hroom
  refine ⟨i, t, ?_, ht⟩
  simp only [loadOperand, EStateM.run_bind, hrun, run_pin]
  rfl

theorem loadOperands_ok (strategy : Strategy) (left right : Variable) (e : NextUse.Entry) (hc : s.file.Consistent)
    {k : Fin 3} (hk : ∀ i, s.file.pinned.contains i = true → k = i) :
    ∃ l r t u, (loadOperand strategy left e).run s = .ok (.ofIndex l) t ∧
      (loadOperand strategy right e).run t = .ok (.ofIndex r) u ∧ Loaded strategy left right e s l r u := by
  have hroom : ∃ i, s.file.pinned.contains i = false := by
    obtain ⟨i, hi, -⟩ := exists_ne_ne k k
    exact ⟨i, by simpa using fun h => hi (hk i h)⟩
  obtain ⟨l, t, hrunl, hleft⟩ := loadOperand_ok strategy left e hc hroom
  have hroom' : ∃ i, (t.pin l).file.pinned.contains i = false := by
    obtain ⟨i, hl, hi⟩ := exists_ne_ne l k
    refine ⟨i, ?_⟩
    simp only [Session.pin, RegisterFile.pin, RegisterSet.contains_insert, hleft.pinned_eq, hl, decide_false,
      Bool.false_or]
    simpa using fun h => hi (hk i h)
  obtain ⟨r, u, hrunr, hright⟩ := loadOperand_ok strategy right e ((hleft.consistent hc).pin (.ofIndex l)) hroom'
  exact ⟨l, r, _, _, hrunl, hrunr, .mk hleft hright⟩

theorem reuseOperand?_ok (strategy : Strategy) (left right : Variable) (e : NextUse.Entry) (s : Session) :
    ∃ journal, (reuseOperand? strategy left right e).run s =
      .ok (reusableOperand? strategy s.file left right e) ⟨s.file, s.code, journal⟩ := by
  obtain ⟨before, hleft⟩ := reuseDead?_ok strategy left e s
  obtain ⟨after, hright⟩ := reuseDead?_ok strategy right e ⟨s.file, s.code, before⟩
  simp only [reuseOperand?, EStateM.run_bind, hleft, reusableOperand?]
  cases reusable? strategy s.file left e with
  | none => exact ⟨after, hright⟩
  | some r => exact ⟨before, rfl⟩

theorem reusable?_home {r : Register} (h : reusable? strategy s.file v e = some r) :
    s.file.residency[v]? = some r ∧ (e.distance v).isUnbounded = true := by
  cases strategy with
  | fixedSlot => cases h
  | nextUse =>
    simp only [reusable?] at h
    split at h
    · next hd => exact ⟨h, hd⟩
    · cases h

theorem reusableOperand?_home {r : Register} (h : reusableOperand? strategy s.file left right e = some r) :
    ∃ v, (v = left ∨ v = right) ∧ s.file.residency[v]? = some r ∧ (e.distance v).isUnbounded = true := by
  rcases Option.or_eq_some_iff.mp h with hleft | ⟨-, hright⟩
  · exact ⟨left, .inl rfl, reusable?_home hleft⟩
  · exact ⟨right, .inr rfl, reusable?_home hright⟩

theorem writeMove_ok (strategy : Strategy) (dst src : Variable) (e : NextUse.Entry) (hs : s.Ready) :
    ∃ i t journal, Ensured strategy src e s i t ∧ (writeMove strategy dst src e).run s = .ok ()
      ⟨if dst ≠ src then t.file.forget dst else t.file, t.code.push (.store dst (.ofIndex i)), journal⟩ := by
  have hroom : ∃ i, s.file.pinned.contains i = false := ⟨0, by rw [hs.unpinned, RegisterSet.contains_empty]⟩
  obtain ⟨i, t, hrun, ht⟩ := ensureResident_ok strategy src e hs.consistent hroom
  simp only [writeMove, EStateM.run_bind, hrun, run_emit]
  by_cases hne : dst ≠ src
  · obtain ⟨journal, hinvalidate⟩ := @invalidate_ok { t with code := t.code.push (.store dst (.ofIndex i)) }
      (ht.consistent hs.consistent) dst
    simp only [if_pos hne]
    exact ⟨i, t, journal, ht, hinvalidate⟩
  · simp only [if_neg hne]
    exact ⟨i, t, t.journal, ht, rfl⟩

theorem Prepared.consistent (h : Prepared strategy left right e s d l r t) (hc : s.file.Consistent) :
    t.file.Consistent := by
  cases h with
  | reused hreuse hloaded => exact hloaded.consistent (hc.pin _)
  | acquired hreuse hloaded hvacated => exact hvacated.consistent (hloaded.consistent hc)

theorem run_finally_unpin (x : Alloc Unit) (s : Session) : (tryFinally x unpin).run s = match x.run s with
    | .ok () t => .ok () { t with file := t.file.unpin }
    | .error fault t => .error fault { t with file := t.file.unpin } := by
  simp only [EStateM.run, tryFinally, tryFinally', Functor.map, EStateM.map]
  cases x s <;> rfl

theorem writeBinary_error_unpinned {fault : Fault}
    (h : (writeBinary strategy dst left op right e).run s = .error fault t) : t.file.pinned = .empty := by
  rw [writeBinary, run_finally_unpin] at h
  split at h
  · cases h
  · cases h
    rfl

theorem writeBinary_ok (strategy : Strategy) (dst left : Variable) (op : Text) (right : Variable) (e : NextUse.Entry)
    (hs : s.Ready) :
    ∃ d l r t journal, Prepared strategy left right e s d l r t ∧
      (writeBinary strategy dst left op right e).run s = .ok ()
        ⟨(t.file.define dst d).unpin, t.code.push (.operate op (.ofIndex d) (.ofIndex l) (.ofIndex r)), journal⟩ := by
  have hnone (i : Fin 3) : s.file.pinned.contains i = false := by rw [hs.unpinned, RegisterSet.contains_empty]
  obtain ⟨before, hreuse⟩ := reuseOperand?_ok strategy left right e s
  cases hr : reusableOperand? strategy s.file left right e with
  | some c =>
    obtain ⟨v, -, hv, -⟩ := reusableOperand?_home hr
    obtain ⟨d, rfl, -⟩ := hs.consistent.homed hv
    obtain ⟨l, r, t, u, hl, hr', hloaded⟩ := @loadOperands_ok (Session.pin ⟨s.file, s.code, before⟩ d)
      strategy left right e (hs.consistent.pin _) d fun i hi => by
        simpa [Session.pin, RegisterFile.pin, RegisterSet.contains_insert, hnone] using hi
    have hprepared : Prepared strategy left right e s d l r u := .reused hr hloaded
    obtain ⟨after, hdefine⟩ := @define_ok
      { u with code := u.code.push (.operate op (.ofIndex d) (.ofIndex l) (.ofIndex r)) }
      (hprepared.consistent hs.consistent) dst d
    refine ⟨d, l, r, u, after, hprepared, ?_⟩
    rw [writeBinary, run_finally_unpin]
    simp only [writeOperation, EStateM.run_bind, hreuse, hr, run_pin]
    simp only [Session.pin] at hl
    simp only [hl, hr', run_emit, EStateM.run_pure, hdefine]
  | none =>
    obtain ⟨l, r, t, u, hl, hr', hloaded⟩ := @loadOperands_ok ⟨s.file, s.code, before⟩ strategy left right e
      hs.consistent 0 fun i hi => by rw [hnone] at hi; cases hi
    -- Only the registers of the operands are pinned now, so a third can be given up for the result.
    have hroom : ∃ i, u.file.pinned.contains i = false := by
      obtain ⟨i, hl, hr⟩ := exists_ne_ne l r
      exact ⟨i, by simp [hloaded.contains_pinned, hl, hr, hnone]⟩
    obtain ⟨d, k, hacquire, hvacated⟩ := vacate_ok strategy e .evictForDestination
      (hloaded.consistent hs.consistent) hroom
    have hprepared : Prepared strategy left right e s d l r k := .acquired hr hloaded hvacated
    obtain ⟨after, hdefine⟩ := @define_ok
      { k with code := k.code.push (.operate op (.ofIndex d) (.ofIndex l) (.ofIndex r)) }
      (hprepared.consistent hs.consistent) dst d
    refine ⟨d, l, r, k, after, hprepared, ?_⟩
    rw [writeBinary, run_finally_unpin]
    simp only [writeOperation, EStateM.run_bind, hreuse, hr, hl, hr', acquireDestination, hacquire, run_emit, hdefine]

theorem run_ofAlloc {α : Type} {x : Alloc α} {a : α} (h : x.run s = .ok a t) : (Step.ofAlloc x).run s = .ok a t := by
  simp [Step.ofAlloc, h]

theorem run_of_ofAlloc {α : Type} {x : Alloc α} {a : α} (h : (Step.ofAlloc x).run s = .ok a t) : x.run s = .ok a t := by
  rw [Step.ofAlloc, EStateM.run_adaptExcept] at h
  cases hx : x.run s with
  | error fault u =>
    rw [hx] at h
    cases h
  | ok b u =>
    rw [hx] at h
    cases h
    rfl

theorem writeInstruction_ok (strategy : Strategy) (position : Nat) {i : Source.Instruction} (e : NextUse.Entry)
    (hs : s.Ready) (hi : ∀ f, i ≠ .foreign f) :
    ∃ t, (writeInstruction strategy position i e).run s = .ok () t ∧ Written strategy e s i t := by
  let s' : Session := { s with journal := s.journal.map (·.push (.instruction position i e)) }
  have hs' : s'.Ready := ⟨hs.consistent, hs.unpinned⟩
  have hrecord : (Step.ofAlloc (Alloc.record (.instruction position i e))).run s = .ok () s' := run_ofAlloc rfl
  cases i with
  | foreign f => exact absurd rfl (hi f)
  | move dst src =>
    obtain ⟨i, t, journal, ht, hrun⟩ := writeMove_ok strategy dst src e hs'
    have hstep : (writeInstruction strategy position (.move dst src) e).run s =
        (Step.ofAlloc (writeMove strategy dst src e)).run s' := by
      simp only [writeInstruction, EStateM.run_bind, hrecord]
    exact ⟨_, hstep.trans (run_ofAlloc hrun), .move ht⟩
  | binary dst left op right =>
    obtain ⟨d, l, r, t, journal, ht, hrun⟩ := writeBinary_ok strategy dst left op right e hs'
    have hstep : (writeInstruction strategy position (.binary dst left op right) e).run s =
        (Step.ofAlloc (writeBinary strategy dst left op right e)).run s' := by
      simp only [writeInstruction, EStateM.run_bind, hrecord]
    exact ⟨_, hstep.trans (run_ofAlloc hrun), .binary ht⟩

end Generation

end ThreeRegister
