import ThreeRegister.Proofs.Allocation.Journal
import ThreeRegister.Proofs.Generation.Correctness
import ThreeRegister.Proofs.Generation.Stages

namespace ThreeRegister

open Alloc
open Allocation (Event)

variable {s t : Session} {strategy : Strategy} {e after : NextUse.Entry} {dst left right v w : Variable} {op : Text}
  {f : RegisterFile} {c : Register} {i j : Fin 3}

theorem RegisterFile.slots_of_forget (h : (f.forget v).slots.get i = .held w) : f.slots.get i = .held w := by
  unfold forget at h
  split at h
  · rw [slots_release] at h
    split at h
    · cases h
    · exact h
  · exact h

def Allocation.Event.isOverwrite : Event → Bool
  | .overwrite .. => true
  | _ => false

namespace Alloc

theorem releaseElsewhere_held (hc : s.file.Consistent) (v : Variable) (i : Fin 3) :
    ∃ u, (releaseElsewhere v (.ofIndex i)).run s = .ok () u ∧
      ∀ j w, u.file.slots.get j = .held w → s.file.slots.get j = .held w := by
  by_cases hv : s.file.residency[v]? = some (.ofIndex i)
  · exact ⟨s, by simp [releaseElsewhere, hv], fun j w hw => hw⟩
  · exact ⟨_, releaseElsewhere_ok hc hv, fun j w hw => RegisterFile.slots_of_forget hw⟩

theorem overwrite_idle (h : ∀ w, s.file.slots.get i = .held w → w = v) :
    (overwrite v (.ofIndex i)).run s = .ok () s := by
  cases hi : s.file.slots.get i with
  | held w =>
    obtain rfl := h w hi
    exact overwrite_self hi
  | free label =>
    simp only [overwrite, EStateM.run_bind, run_file, occupant_ofIndex, run_ofExcept_ok, hi]
    rfl

end Alloc

namespace Generation

/-- The register that a result goes to is free or holds the target, so that recording the result takes out no other
variable: the step that would is passed over, and all other variables stay where they are. -/
structure Stages.DisplacesNothing (g : Stages) (dst : Variable) : Prop where
  vacant : (∃ label, g.emitted.file.occupant g.target = .ok (.free label)) ∨
    g.emitted.file.occupant g.target = .ok (.held dst)
  idle : ∃ u, (releaseElsewhere dst g.target).run g.emitted = .ok () u ∧ (overwrite dst g.target).run u = .ok () u
  others : ∀ w, w ≠ dst → g.defined.file.residency[w]? = g.emitted.file.residency[w]?

def Stages.KeepsCandidate (g : Stages) (v : Variable) (c : Register) : Prop :=
  ∀ u ∈ [g.looked, g.pinned, g.leftLoaded, g.rightLoaded, g.placed, g.emitted],
    u.file.residency[v]? = some c ∧ u.file.occupant c = .ok (.held v)

theorem reusable?_before (f : RegisterFile) (hv : v ∈ (Source.Instruction.binary dst left op right).operands) :
    reusable? .nextUse f v (.before (.binary dst left op right) after) =
      if v = dst then f.residency[v]? else none := by
  simp only [reusable?, NextUse.Entry.isUnbounded_before after hv]
  rfl

theorem reusableOperand?_before :
    reusableOperand? strategy f left right (.before (.binary dst left op right) after) = some c ↔
      strategy = .nextUse ∧ (dst = left ∨ dst = right) ∧ f.residency[dst]? = some c := by
  cases strategy with
  | fixedSlot => simp [reusableOperand?, reusable?]
  | nextUse =>
    rw [reusableOperand?, reusable?_before f (by exact List.mem_cons_self),
      reusable?_before f (by exact List.mem_cons_of_mem _ List.mem_cons_self)]
    by_cases hleft : dst = left
    · subst hleft
      by_cases hright : right = dst <;> simp [hright]
    · by_cases hright : dst = right
      · subst hright
        simp [Ne.symm hleft]
      · simp [hleft, hright, Ne.symm hleft, Ne.symm hright]

structure HoldsPinned (f : RegisterFile) (v : Variable) (i : Fin 3) : Prop where
  consistent : f.Consistent
  resident : f.residency[v]? = some (.ofIndex i)
  pinned : f.pinned.contains i = true

theorem HoldsPinned.loadOperand (h : HoldsPinned s.file v i)
    (hrun : (loadOperand strategy w e).run s = .ok c t) : HoldsPinned t.file v i := by
  obtain ⟨j, u, rfl, rfl, hu⟩ := ensured_of_loadOperand h.consistent hrun
  refine ⟨(hu.consistent h.consistent).pin _, hu.keeps_pinned h.consistent h.resident h.pinned, ?_⟩
  simp only [Session.pin, RegisterFile.pin, RegisterSet.contains_insert, hu.pinned_eq, h.pinned, Bool.or_true]

theorem occupant_eq_ok (f : RegisterFile) (i : Fin 3) : f.occupant (.ofIndex i) = .ok (f.slots.get i) :=
  mapError_eq_ok (occupant_ofIndex f i)

namespace Stages.Lead

variable {g : Stages}

theorem candidate_iff (h : g.Lead strategy dst left op right (.before (.binary dst left op right) after) s t) :
    g.candidate = some c ↔ strategy = .nextUse ∧ (dst = left ∨ dst = right) ∧ s.file.residency[dst]? = some c := by
  rw [h.candidate_eq.1, reusableOperand?_before]

theorem displacesNothing
    (h : g.Lead strategy dst left op right (.before (.binary dst left op right) after) s t) (hc : s.file.Consistent) :
    g.DisplacesNothing dst := by
  obtain ⟨d, l, r, hd, -, -, hprepared⟩ := h.prepared hc
  have hemitted : g.emitted.file = g.placed.file := by rw [h.emitted_eq]
  have hce : g.emitted.file.Consistent := hemitted ▸ hprepared.consistent hc
  have hheld (w : Variable) (hw : g.emitted.file.slots.get d = .held w) : w = dst := by
    rw [hemitted] at hw
    exact hprepared.destination hc hw
  refine ⟨?_, ?_, ?_⟩
  · rw [hd, occupant_eq_ok]
    cases hslot : g.emitted.file.slots.get d with
    | free label => exact .inl ⟨label, rfl⟩
    | held w => exact .inr (by rw [hheld w hslot])
  · rw [hd]
    obtain ⟨u, hrelease, hu⟩ := releaseElsewhere_held hce dst d
    exact ⟨u, hrelease, overwrite_idle fun w hw => hheld w (hu d w hw)⟩
  · intro w hw
    obtain ⟨journal, hdefined⟩ := h.defined_eq hce hd
    rw [hdefined]
    apply hce.residency_define_of_ne (Ne.symm hw)
    intro hhome
    exact hw (hheld w (hce.held hhome))

theorem keepsCandidate (h : g.Lead strategy dst left op right (.before (.binary dst left op right) after) s t)
    (hc : s.file.Consistent) (hg : g.candidate = some c) : g.target = c ∧ g.KeepsCandidate dst c := by
  obtain ⟨-, journal, hlooked⟩ := h.candidate_eq
  obtain ⟨-, -, hhome⟩ := h.candidate_iff.mp hg
  obtain ⟨i, rfl, -⟩ := hc.homed hhome
  rcases h.cases_candidate with ⟨hnone, -⟩ | ⟨c, hsome, hpinned, htarget, hplaced⟩
  · rw [hg] at hnone
    cases hnone
  · rw [hg, Option.some.injEq] at hsome
    subst hsome
    have hpin : HoldsPinned g.pinned.file dst i := by
      rw [hpinned, hlooked]
      exact ⟨hc.pin _, hhome, by simp [RegisterFile.pin, RegisterSet.contains_insert]⟩
    have hleft := hpin.loadOperand h.loadLeft
    have hright := hleft.loadOperand h.loadRight
    have hat {u : Session} (hu : u.file.Consistent) (hv : u.file.residency[dst]? = some (.ofIndex i)) :
        u.file.residency[dst]? = some (.ofIndex i) ∧ u.file.occupant (.ofIndex i) = .ok (.held dst) :=
      ⟨hv, by rw [occupant_eq_ok, hu.held hv]⟩
    refine ⟨htarget, ?_⟩
    simp only [KeepsCandidate, List.forall_mem_cons, List.not_mem_nil, false_implies, implies_true, and_true, h.emitted_eq,
      hplaced, hlooked]
    -- Once the operands are loaded nothing is done to the registers any more.
    have hlast := hat hright.consistent hright.resident
    exact ⟨@hat ⟨s.file, s.code, journal⟩ hc hhome, hat hpin.consistent hpin.resident,
      hat hleft.consistent hleft.resident, hlast, hlast, hlast⟩

end Stages.Lead

section Journal

theorem keepsLog_loadOperand : KeepsLog (·.isOverwrite = false) (loadOperand strategy v e) :=
  (keepsLog_ensureResident (fun _ _ => rfl) fun _ => rfl).bind fun _ => (keepsLog_modifyFile _).bind fun _ =>
    keepsLog_pure _

theorem keepsLog_reuseOperand? : KeepsLog (·.isOverwrite = false) (reuseOperand? strategy left right e) := by
  unfold reuseOperand?
  apply (keepsLog_reuseDead? fun _ => rfl).bind
  intro candidate
  split
  · exact keepsLog_pure _
  · exact keepsLog_reuseDead? fun _ => rfl

theorem keepsLog_writeMove : KeepsLog (·.isOverwrite = false) (writeMove strategy dst v e) := by
  unfold writeMove
  apply (keepsLog_ensureResident (fun _ _ => rfl) fun _ => rfl).bind
  intro r
  apply (keepsLog_emit _).bind
  intro _
  split
  · exact keepsLog_invalidate fun _ => rfl
  · exact keepsLog_pure _

theorem Stages.Lead.logs {g : Stages} (h : g.Lead strategy dst left op right e s t) (hg : g.DisplacesNothing dst)
    (hs : s.Logs (·.isOverwrite = false)) : t.Logs (·.isOverwrite = false) := by
  have hpin (candidate : Option Register) :
      KeepsLog (·.isOverwrite = false) (candidate.elim (pure ()) Alloc.pin) := by
    cases candidate with
    | none => exact keepsLog_pure _
    | some c => exact keepsLog_modifyFile (·.pin c)
  have hplace (candidate : Option Register) :
      KeepsLog (·.isOverwrite = false) (candidate.elim (acquireDestination strategy e) pure) := by
    cases candidate with
    | none => exact keepsLog_vacate fun _ _ => rfl
    | some c => exact keepsLog_pure _
  have hpinned := (hpin _).logs h.pin (keepsLog_reuseOperand?.logs h.reuse hs)
  have hloaded := keepsLog_loadOperand.logs h.loadRight (keepsLog_loadOperand.logs h.loadLeft hpinned)
  have hemitted := (keepsLog_emit _).logs h.emit ((hplace _).logs h.place hloaded)
  obtain ⟨u, hrelease, hidle⟩ := hg.idle
  exact (keepsLog_modifyFile _).logs h.unpin (define_logs h.define hrelease hidle rfl hemitted)

end Journal

section NoForeign

variable (strategy : Strategy) (options : Options) {block : Source.Block} (hb : ∀ f, .foreign f ∉ block)
  {table : NextUse.Table} {n : Nat}

include hb

theorem exists_stages (htable : NextUse.Table.ofBlock block = .ok table)
    (hi : (block.zip table)[n]? = some (.binary dst left op right, e)) :
    ∃ s g, (record (.instruction n (.binary dst left op right) e)).run (sessionAfter strategy options block n) = .ok () s ∧
      s.file = (sessionAfter strategy options block n).file ∧
      Stages.Lead g strategy dst left op right e s (sessionAfter strategy options block (n + 1)) := by
  obtain ⟨⟨⟩, s, hrecord, h⟩ := run_bind_eq_ok (sessionAfter_step strategy options hb htable hi).1
  replace hrecord := run_of_ofAlloc hrecord
  obtain ⟨g, hg⟩ := writeBinary_stages (run_of_ofAlloc h)
  refine ⟨s, g, hrecord, ?_, hg⟩
  cases hrecord
  rfl

theorem sessionAfter_logs (hn : n ≤ block.length) :
    (sessionAfter strategy options block n).Logs (·.isOverwrite = false) := by
  induction n with
  | zero =>
    rw [sessionAfter_zero strategy options hb]
    exact Session.logs_start _ _ _
  | succ n ih =>
    have hs := ih (Nat.le_of_succ_le hn)
    obtain ⟨table, htable, hdescribes, -⟩ := run_sessionAfter strategy options hb
    obtain ⟨after, hzip⟩ := getElem?_zip_describes hdescribes (List.getElem?_eq_getElem hn)
    cases hi : block[n] with
    | foreign f => exact absurd (hi ▸ List.getElem_mem hn) (hb f)
    | move dst src =>
      rw [hi] at hzip
      obtain ⟨⟨⟩, s, hrecord, h⟩ := run_bind_eq_ok (sessionAfter_step strategy options hb htable hzip).1
      exact keepsLog_writeMove.logs (run_of_ofAlloc h) ((keepsLog_record (by rfl)).logs (run_of_ofAlloc hrecord) hs)
    | binary dst left op right =>
      rw [hi] at hzip
      obtain ⟨s, g, hrecord, hfile, hg⟩ := exists_stages strategy options hb htable hzip
      have hc : s.file.Consistent := hfile ▸ (sessionAfter_ready strategy options hb n).consistent
      exact hg.logs (hg.displacesNothing hc) ((keepsLog_record (by rfl)).logs hrecord hs)

end NoForeign

/-- Code generation displaces no variable. At each operation the register of the result is free or holds the target. A
register is reused exactly under the strategy that looks at next uses, if the target is an operand and in a register; it
is then that register, and the target stays in it until the operation is written. No decision to overwrite a variable is
ever recorded, and after each instruction nothing is pinned. -/
theorem results_displace_nothing (strategy : Strategy) (options : Options) {block : Source.Block}
    (hb : ∀ f, .foreign f ∉ block) :
    ∃ output, (generate strategy options .fresh block).2 = .ok output ∧
      (∀ n dst left op right, block[n]? = some (.binary dst left op right) → ∃ e s g, output.nextUse[n]? = some e ∧
        (record (.instruction n (.binary dst left op right) e)).run (sessionAfter strategy options block n) = .ok () s ∧
        Stages.Lead g strategy dst left op right e s (sessionAfter strategy options block (n + 1)) ∧
        g.DisplacesNothing dst ∧
        (∀ c, g.candidate = some c ↔ strategy = .nextUse ∧ (dst = left ∨ dst = right) ∧
          (sessionAfter strategy options block n).file.residency[dst]? = some c) ∧
        ∀ c, g.candidate = some c → g.target = c ∧ g.KeepsCandidate dst c) ∧
      (generate strategy options .fresh block).1.Logs (·.isOverwrite = false) ∧
      ∀ n, n ≤ block.length → (sessionAfter strategy options block n).file.pinned = .empty := by
  obtain ⟨table, htable, hdescribes, hgenerate⟩ := generate_ok strategy options hb
  refine ⟨_, congrArg Prod.snd hgenerate, ?_, ?_, fun n _ => (sessionAfter_ready strategy options hb n).unpinned⟩
  · intro n dst left op right hi
    obtain ⟨after, hzip⟩ := getElem?_zip_describes hdescribes hi
    obtain ⟨s, g, hrecord, hfile, hg⟩ := exists_stages strategy options hb htable hzip
    have hc : s.file.Consistent := hfile ▸ (sessionAfter_ready strategy options hb n).consistent
    refine ⟨_, s, g, (List.getElem?_zip_eq_some.mp hzip).2, hrecord, hg, hg.displacesNothing hc, ?_,
      fun c => hg.keepsCandidate hc⟩
    rw [← hfile]
    exact fun c => hg.candidate_iff
  · rw [hgenerate]
    exact sessionAfter_logs strategy options hb (Nat.le_refl _)

def updated : Source.Block :=
  [.binary (utf8 "x") (utf8 "a") (utf8 "+") (utf8 "b"), .binary (utf8 "x") (utf8 "x") (utf8 "-") (utf8 "c")]

-- All registers are taken when the second operand of the second instruction is loaded.
theorem results_displace_nothing_updated :
    let options : Options := ⟨true, true⟩
    (∀ f, .foreign f ∉ updated) ∧
      (sessionAfter .nextUse options updated 1).file.residency[utf8 "x"]? = some (.ofIndex 2) ∧
      ∃ e s g, Stages.Lead g .nextUse (utf8 "x") (utf8 "x") (utf8 "-") (utf8 "c") e s
          (sessionAfter .nextUse options updated 2) ∧
        g.candidate = some (.ofIndex 2) ∧ g.target = .ofIndex 2 ∧ g.KeepsCandidate (utf8 "x") (.ofIndex 2) ∧
        g.DisplacesNothing (utf8 "x") := by
  intro options
  have hb : ∀ f, .foreign f ∉ updated := by simp [updated]
  have hhome : (sessionAfter .nextUse options updated 1).file.residency[utf8 "x"]? = some (.ofIndex 2) := rfl
  refine ⟨hb, hhome, ?_⟩
  obtain ⟨output, -, hoperations, -⟩ := results_displace_nothing .nextUse options hb
  obtain ⟨e, s, g, -, -, hg, hdisplaces, hcandidate, hkeeps⟩ := hoperations 1 _ _ _ _ rfl
  have hc := (hcandidate _).mpr ⟨rfl, .inl rfl, hhome⟩
  obtain ⟨htarget, hkeeps⟩ := hkeeps _ hc
  exact ⟨e, s, g, hg, hc, htarget, hkeeps, hdisplaces⟩

end Generation

end ThreeRegister
