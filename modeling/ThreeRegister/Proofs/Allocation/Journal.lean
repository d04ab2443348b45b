import ThreeRegister.Proofs.Allocation.Outcome

namespace ThreeRegister

open Allocation (Event)

def Session.Logs (P : Event → Prop) (s : Session) : Prop :=
  ∀ journal, s.journal = some journal → ∀ event ∈ journal, P event

theorem Session.logs_start (P : Event → Prop) (f : RegisterFile) (traced : Bool) : (Session.start f traced).Logs P := by
  intro journal hjournal event hevent
  cases traced with
  | false => cases hjournal
  | true =>
    cases hjournal
    simp at hevent

namespace Alloc

structure KeepsLog {α : Type} (P : Event → Prop) (x : Alloc α) : Prop where
  logs : ∀ {s t : Session} {a : α}, x.run s = .ok a t → s.Logs P → t.Logs P

variable {α β : Type} {P : Event → Prop} {x : Alloc α} {k : α → Alloc β} {event : Event} {v : Variable} {r : Register}
  {strategy : Strategy} {e : NextUse.Entry}

theorem keepsLog_of_journal (h : ∀ s t a, x.run s = .ok a t → t.journal = s.journal) : KeepsLog P x := by
  constructor
  intro s t a hrun hs journal hjournal
  rw [h s t a hrun] at hjournal
  exact hs journal hjournal

theorem KeepsLog.bind (hx : KeepsLog P x) (hk : ∀ a, KeepsLog P (k a)) : KeepsLog P (x >>= k) := by
  constructor
  intro s u b hrun hs
  obtain ⟨a, t, ha, hb⟩ := run_bind_eq_ok hrun
  exact (hk a).logs hb (hx.logs ha hs)

theorem KeepsLog.discard (hx : KeepsLog P x) : KeepsLog P (discard x) := by
  constructor
  intro s t a hrun hs
  rw [run_discard_eq] at hrun
  cases hok : x.run s with
  | error fault u =>
    rw [hok] at hrun
    cases hrun
  | ok b u =>
    rw [hok] at hrun
    cases hrun
    exact hx.logs hok hs

theorem keepsLog_pure (a : α) : KeepsLog P (pure a : Alloc α) := by
  apply keepsLog_of_journal
  rintro s t b ⟨⟩
  rfl

theorem keepsLog_throw (fault : Fault) : KeepsLog P (throw fault : Alloc α) := by
  apply keepsLog_of_journal
  rintro s t b ⟨⟩

theorem keepsLog_file : KeepsLog P file := by
  apply keepsLog_of_journal
  rintro s t f ⟨⟩
  rfl

theorem keepsLog_modifyFile (change : RegisterFile → RegisterFile) : KeepsLog P (modifyFile change) := by
  apply keepsLog_of_journal
  rintro s t a ⟨⟩
  rfl

theorem keepsLog_emit (i : Machine.Instruction) : KeepsLog P (emit i) := by
  apply keepsLog_of_journal
  rintro s t a ⟨⟩
  rfl

theorem keepsLog_ofExcept (a : Except Fault α) : KeepsLog P (ofExcept a) := by
  cases a with
  | ok a => exact keepsLog_pure a
  | error fault => exact keepsLog_throw fault

theorem keepsLog_record (h : P event) : KeepsLog P (record event) := by
  constructor
  intro s t a hrun hs journal hjournal other hother
  cases hrun
  obtain ⟨before, hbefore, rfl⟩ := Option.map_eq_some_iff.mp hjournal
  rcases Array.mem_push.mp hother with hold | rfl
  · exact hs before hbefore other hold
  · exact h

theorem keepsLog_bind (v : Variable) (r : Register) : KeepsLog P (bind v r) :=
  keepsLog_file.bind fun _ => (keepsLog_ofExcept _).bind fun _ => keepsLog_modifyFile _

theorem keepsLog_unbind (v : Variable) : KeepsLog P (unbind v) :=
  keepsLog_file.bind fun _ => (keepsLog_ofExcept _).bind fun _ => (keepsLog_modifyFile _).bind fun _ => keepsLog_pure _

theorem keepsLog_vacate {event : Variable → Register → Event} (h : ∀ w r, P (event w r)) :
    KeepsLog P (vacate strategy e event) := by
  unfold vacate
  apply keepsLog_file.bind
  intro f
  split
  · exact keepsLog_pure _
  · have hselect : KeepsLog P (selectVictim strategy e) := by
      unfold selectVictim
      apply keepsLog_file.bind
      intro f
      split
      · exact keepsLog_pure _
      · exact keepsLog_throw _
    have hspill (w : Variable) (r : Register) : KeepsLog P (spill w r) :=
      (keepsLog_emit _).bind fun _ => (keepsLog_modifyFile _).bind fun _ => (keepsLog_unbind w).discard
    apply hselect.bind
    rintro ⟨r, w⟩
    exact (keepsLog_record (h w r)).bind fun _ => (hspill w r).bind fun _ => keepsLog_pure r

theorem keepsLog_ensureResident (hevict : ∀ w r, P (.evictToLoad w r v)) (hload : ∀ r, P (.load v r)) :
    KeepsLog P (ensureResident strategy v e) := by
  unfold ensureResident
  apply keepsLog_file.bind
  intro f
  split
  · exact (keepsLog_modifyFile _).bind fun _ => keepsLog_pure _
  · apply (keepsLog_vacate fun w r => hevict w r).bind
    intro r
    exact (keepsLog_bind v r).bind fun _ => (keepsLog_emit _).bind fun _ => (keepsLog_record (hload r)).bind fun _ =>
      (keepsLog_modifyFile _).bind fun _ => keepsLog_pure r

theorem keepsLog_reuseDead? (h : ∀ r, P (.reuse r v)) : KeepsLog P (reuseDead? strategy v e) := by
  unfold reuseDead?
  apply keepsLog_file.bind
  intro f
  split
  · next r _ =>
    split
    · exact (keepsLog_record (h r)).bind fun _ => keepsLog_pure _
    · exact keepsLog_pure _
  · exact keepsLog_pure _

theorem keepsLog_releaseElsewhere (v : Variable) (r : Register) : KeepsLog P (releaseElsewhere v r) := by
  unfold releaseElsewhere
  apply keepsLog_file.bind
  intro f
  split
  · split
    · exact (keepsLog_unbind v).discard
    · exact keepsLog_pure _
  · exact keepsLog_pure _

theorem keepsLog_invalidate (h : ∀ r, P (.invalidate v r)) : KeepsLog P (invalidate v) := by
  unfold invalidate
  apply keepsLog_file.bind
  intro f
  split
  · next r _ => exact (keepsLog_record (h r)).bind fun _ => (keepsLog_unbind v).discard
  · exact keepsLog_pure _

theorem define_logs {s t u : Session} (hrun : (define v r).run s = .ok () t)
    (hrelease : (releaseElsewhere v r).run s = .ok () u) (hidle : (overwrite v r).run u = .ok () u)
    (h : P (.define v r)) (hs : s.Logs P) : t.Logs P := by
  obtain ⟨⟨⟩, u', hrelease', hrun⟩ := run_bind_eq_ok hrun
  rw [hrelease] at hrelease'
  cases hrelease'
  obtain ⟨⟨⟩, u', hidle', hrun⟩ := run_bind_eq_ok hrun
  rw [hidle] at hidle'
  cases hidle'
  have hrest : KeepsLog P (do record (.define v r); touch v) :=
    (keepsLog_record h).bind fun _ => keepsLog_modifyFile _
  have hbind : KeepsLog P (do
      if !(← file).residency.contains v then bind v r
      record (.define v r)
      touch v) := by
    apply keepsLog_file.bind
    intro f
    split
    · exact (keepsLog_bind v r).bind fun _ => hrest
    · exact hrest
  exact hbind.logs hrun ((keepsLog_releaseElsewhere v r).logs hrelease hs)

end Alloc

end ThreeRegister
