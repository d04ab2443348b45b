import ThreeRegister.Proofs.Allocation.Realization
import ThreeRegister.Proofs.Generation.Instruction
import ThreeRegister.Proofs.NextUse.Table
import ThreeRegister.Source.Run

namespace ThreeRegister

open Alloc

def Machine.Instruction.isTransfer : Machine.Instruction → Bool
  | .load .. => true
  | .store .. => true
  | .operate .. => false
  | .undefined .. => false

def Session.Transfers (s t : Session) : Prop :=
  ∃ moved, t.code.toList = s.code.toList ++ moved ∧ ∀ i ∈ moved, i.isTransfer = true

variable {s t : Session} {strategy : Strategy} {e after : NextUse.Entry} {dst left right v w : Variable} {op : Text}
  {d l r i j : Fin 3} {start : Machine} {store : Memory}

namespace Session.Transfers

theorem of_code_eq (h : t.code = s.code) : s.Transfers t :=
  ⟨[], by simp [h], by simp⟩

theorem trans {u : Session} (h : s.Transfers t) (h' : t.Transfers u) : s.Transfers u := by
  obtain ⟨moved, heq, hall⟩ := h
  obtain ⟨moved', heq', hall'⟩ := h'
  refine ⟨moved ++ moved', by rw [heq', heq, List.append_assoc], ?_⟩
  intro i hi
  rcases List.mem_append.mp hi with hi | hi
  · exact hall i hi
  · exact hall' i hi

theorem of_push {instruction : Machine.Instruction} (h : t.code = s.code.push instruction)
    (hi : instruction.isTransfer = true) : s.Transfers t :=
  ⟨[instruction], by simp [h], by simpa using hi⟩

end Session.Transfers

theorem Alloc.Vacated.transfers (h : Vacated strategy e s i t) : s.Transfers t := by
  cases h with
  | free h => exact .of_code_eq rfl
  | evicted hfull hw => exact .of_push rfl rfl

theorem Alloc.Ensured.transfers (h : Ensured strategy v e s i t) : s.Transfers t := by
  cases h with
  | resident h => exact .of_code_eq rfl
  | loaded h hvacated => exact hvacated.transfers.trans (.of_push rfl rfl)

namespace Generation

theorem Loaded.transfers (h : Loaded strategy left right e s l r t) : s.Transfers t := by
  obtain @⟨t, u, hleft, hright⟩ := h
  have hpin : t.Transfers (t.pin l) := .of_code_eq rfl
  exact (hleft.transfers.trans hpin).trans (hright.transfers.trans (.of_code_eq rfl))

theorem Loaded.realizes (h : Loaded strategy left right e s l r t) (hc : s.file.Consistent)
    (hs : s.Realizes start store) : t.Realizes start store := by
  obtain @⟨t, u, hleft, hright⟩ := h
  have ht : (t.pin l).Realizes start store := ((hleft.transparent hc).realizes hs).congr rfl rfl
  exact ((hright.transparent ((hleft.consistent hc).pin _)).realizes ht).congr rfl rfl

namespace Prepared

theorem transfers (h : Prepared strategy left right e s d l r t) : s.Transfers t := by
  cases h with
  | reused hreuse hloaded => exact hloaded.transfers
  | acquired hreuse hloaded hvacated => exact hloaded.transfers.trans hvacated.transfers

theorem realizes (h : Prepared strategy left right e s d l r t) (hc : s.file.Consistent)
    (hs : s.Realizes start store) : t.Realizes start store := by
  cases h with
  | reused hreuse hloaded => exact hloaded.realizes (hc.pin _) (hs.congr rfl rfl)
  | acquired hreuse hloaded hvacated =>
    exact (hvacated.transparent (hloaded.consistent hc)).realizes (hloaded.realizes hc (hs.congr rfl rfl))

theorem residency_left (h : Prepared strategy left right e s d l r t) (hc : s.file.Consistent) :
    t.file.residency[left]? = some (.ofIndex l) := by
  cases h with
  | reused hreuse hloaded => exact hloaded.residency_left (hc.pin _)
  | acquired hreuse hloaded hvacated =>
    exact hvacated.keeps_pinned (hloaded.consistent hc) (hloaded.residency_left hc) (by simp [hloaded.contains_pinned])

theorem residency_right (h : Prepared strategy left right e s d l r t) (hc : s.file.Consistent) :
    t.file.residency[right]? = some (.ofIndex r) := by
  cases h with
  | reused hreuse hloaded => exact hloaded.residency_right
  | acquired hreuse hloaded hvacated =>
    exact hvacated.keeps_pinned (hloaded.consistent hc) hloaded.residency_right (by simp [hloaded.contains_pinned])

/-- The register of the result holds nothing, or the variable that the operation is about to write: an operand that is
reused has no next use, which in the entry of this very operation is so only of its target. -/
theorem destination (h : Prepared strategy left right (.before (.binary dst left op right) after) s d l r t)
    (hc : s.file.Consistent) (hw : t.file.slots.get d = .held w) : w = dst := by
  cases h with
  | reused hreuse hloaded =>
    obtain ⟨v, hv, hhome, hdead⟩ := reusableOperand?_home hreuse
    have hoperand : v ∈ (Source.Instruction.binary dst left op right).operands := by
      simpa [Source.Instruction.operands] using hv
    have hdst : v = dst := (NextUse.Entry.isUnbounded_before after hoperand).mp hdead
    have hpinned := hloaded.keeps_pinned (hc.pin _) hhome
      (by simp [Session.pin, RegisterFile.pin, RegisterSet.contains_insert])
    have hheld := (hloaded.consistent (hc.pin _)).held hpinned
    rw [hw, Slot.held.injEq] at hheld
    rw [hheld, hdst]
  | acquired hreuse hloaded hvacated =>
    have hfree := hvacated.isHeld
    rw [hw] at hfree
    cases hfree

end Prepared

namespace Written

variable {instruction : Source.Instruction}

theorem ready (h : Written strategy e s instruction t) (hs : s.Ready) : t.Ready := by
  cases h with
  | @move dst src i t _ _ hsrc =>
    have hc := hsrc.consistent hs.consistent
    have hp := hsrc.pinned_eq.trans hs.unpinned
    by_cases hne : dst ≠ src
    · simp only [if_pos hne]
      exact ⟨hc.forget dst, (RegisterFile.pinned_forget _ _).trans hp⟩
    · simp only [if_neg hne]
      exact ⟨hc, hp⟩
  | binary hprepared => exact ⟨((hprepared.consistent hs.consistent).define _ _).unpin, rfl⟩

theorem code_extends (h : Written strategy e s instruction t) :
    ∃ written, t.code.toList = s.code.toList ++ written := by
  cases h with
  | move hsrc =>
    obtain ⟨moved, hcode, -⟩ := hsrc.transfers
    exact ⟨moved ++ [_], by rw [Array.toList_push, hcode, List.append_assoc]⟩
  | binary hprepared =>
    obtain ⟨moved, hcode, -⟩ := hprepared.transfers
    exact ⟨moved ++ [_], by rw [Array.toList_push, hcode, List.append_assoc]⟩

theorem realizes (h : Written strategy (.before instruction after) s instruction t) (hs : s.Ready)
    (hr : s.Realizes start store) {position : Nat} {next : Memory}
    (hrun : instruction.run position store = .ok next) : t.Realizes start next := by
  cases h with
  | move hsrc =>
    cases hrun
    have ht := (hsrc.transparent hs.consistent).realizes (hr.congr rfl rfl)
    exact ht.move (hsrc.consistent hs.consistent) hsrc.resident_at rfl rfl
  | @binary dst left right op d l r t _ _ hprepared =>
    have ht := hprepared.realizes hs.consistent (hr.congr rfl rfl)
    have hc := hprepared.consistent hs.consistent
    simp only [Source.Instruction.run] at hrun
    cases hx : eval op (store.read left) (store.read right) with
    | error cause => simp [hx] at hrun
    | ok x =>
      simp only [hx, Except.ok.injEq] at hrun
      subst hrun
      exact ht.operate hc (hprepared.residency_left hs.consistent) (hprepared.residency_right hs.consistent)
        (fun w => hprepared.destination hs.consistent) hx rfl rfl

theorem fails (h : Written strategy e s instruction t) (hs : s.Ready) (hr : s.Realizes start store) {position : Nat}
    {cause : EvalError} (hrun : instruction.run position store = .error (.failed position instruction cause)) :
    ∃ moved dst left op right d l r m, instruction = .binary dst left op right ∧
      t.code.toList = s.code.toList ++ moved ++ [.operate op d l r] ∧ (∀ i ∈ moved, i.isTransfer = true) ∧
      start.run t.code.toList =
        (m, some ⟨(s.code.toList ++ moved).length, .operate op d l r, .failed cause⟩) := by
  cases h with
  | move hsrc => cases hrun
  | @binary dst left right op d l r t _ _ hprepared =>
    simp only [Source.Instruction.run] at hrun
    cases hx : eval op (store.read left) (store.read right) with
    | ok x => simp [hx] at hrun
    | error cause' =>
      simp only [hx, Except.error.injEq, Source.RunError.failed.injEq, true_and] at hrun
      subst hrun
      obtain ⟨moved, hcode, hall⟩ := hprepared.transfers
      have ht := hprepared.realizes hs.consistent (hr.congr rfl rfl)
      obtain ⟨m, hm⟩ := @Session.Realizes.operate_error _ _ _ ht left right op d l r _
        (hprepared.residency_left hs.consistent) (hprepared.residency_right hs.consistent) hx
      refine ⟨moved, dst, left, op, right, .ofIndex d, .ofIndex l, .ofIndex r, m, rfl, ?_, hall, ?_⟩
      · rw [Array.toList_push, hcode]
      · rw [hm, ← hcode, Array.length_toList]

end Written

end Generation

end ThreeRegister
