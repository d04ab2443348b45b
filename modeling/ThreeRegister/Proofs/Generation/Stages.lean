import ThreeRegister.Proofs.Allocation.Transparency
import ThreeRegister.Proofs.Generation.Instruction

namespace ThreeRegister

open Alloc

namespace Generation

structure Stages where
  candidate : Option Register
  left : Register
  right : Register
  target : Register
  looked : Session
  pinned : Session
  leftLoaded : Session
  rightLoaded : Session
  placed : Session
  emitted : Session
  defined : Session

structure Stages.Lead (g : Stages) (strategy : Strategy) (dst left : Variable) (op : Text) (right : Variable)
    (e : NextUse.Entry) (s t : Session) : Prop where
  reuse : (reuseOperand? strategy left right e).run s = .ok g.candidate g.looked
  pin : (g.candidate.elim (pure ()) Alloc.pin).run g.looked = .ok () g.pinned
  loadLeft : (loadOperand strategy left e).run g.pinned = .ok g.left g.leftLoaded
  loadRight : (loadOperand strategy right e).run g.leftLoaded = .ok g.right g.rightLoaded
  place : (g.candidate.elim (acquireDestination strategy e) pure).run g.rightLoaded = .ok g.target g.placed
  emit : (Alloc.emit (.operate op g.target g.left g.right)).run g.placed = .ok () g.emitted
  define : (Alloc.define dst g.target).run g.emitted = .ok () g.defined
  unpin : Alloc.unpin.run g.defined = .ok () t

variable {s t : Session} {strategy : Strategy} {e : NextUse.Entry} {dst left right v : Variable} {op : Text}
  {g : Stages} {a b : Register}

theorem writeBinary_stages (hrun : (writeBinary strategy dst left op right e).run s = .ok () t) :
    ∃ g : Stages, g.Lead strategy dst left op right e s t := by
  obtain ⟨defined, hoperation, hunpin⟩ : ∃ u, (writeOperation strategy dst left op right e).run s = .ok () u ∧
      Alloc.unpin.run u = .ok () t := by
    rw [writeBinary, run_finally_unpin] at hrun
    split at hrun
    · next u hu => exact ⟨u, hu, hrun⟩
    · cases hrun
  obtain ⟨candidate, looked, hreuse, h⟩ := run_bind_eq_ok hoperation
  cases candidate with
  | none =>
    obtain ⟨l, leftLoaded, hleft, h⟩ := run_bind_eq_ok h
    obtain ⟨r, rightLoaded, hright, h⟩ := run_bind_eq_ok h
    obtain ⟨d, placed, hplace, h⟩ := run_bind_eq_ok h
    obtain ⟨⟨⟩, emitted, hemit, hdefine⟩ := run_bind_eq_ok h
    exact ⟨⟨none, l, r, d, looked, looked, leftLoaded, rightLoaded, placed, emitted, defined⟩, hreuse, rfl, hleft,
      hright, hplace, hemit, hdefine, hunpin⟩
  | some c =>
    obtain ⟨⟨⟩, pinned, hpin, h⟩ := run_bind_eq_ok h
    obtain ⟨l, leftLoaded, hleft, h⟩ := run_bind_eq_ok h
    obtain ⟨r, rightLoaded, hright, h⟩ := run_bind_eq_ok h
    obtain ⟨d, placed, hplace, h⟩ := run_bind_eq_ok h
    obtain ⟨⟨⟩, emitted, hemit, hdefine⟩ := run_bind_eq_ok h
    exact ⟨⟨some c, l, r, d, looked, pinned, leftLoaded, rightLoaded, placed, emitted, defined⟩, hreuse, hpin, hleft,
      hright, hplace, hemit, hdefine, hunpin⟩

theorem ensured_of_loadOperand (hc : s.file.Consistent) (hrun : (loadOperand strategy v e).run s = .ok a t) :
    ∃ i u, a = .ofIndex i ∧ t = u.pin i ∧ Ensured strategy v e s i u := by
  obtain ⟨r, u, hensure, h⟩ := run_bind_eq_ok hrun
  obtain ⟨i, rfl, hu⟩ := ensured_of_run hc hensure
  cases h
  exact ⟨i, u, rfl, rfl, hu⟩

theorem loaded_of_run {u : Session} (hleft : (loadOperand strategy left e).run s = .ok a t)
    (hright : (loadOperand strategy right e).run t = .ok b u) (hc : s.file.Consistent) :
    ∃ l r, a = .ofIndex l ∧ b = .ofIndex r ∧ Loaded strategy left right e s l r u := by
  obtain ⟨l, t', rfl, rfl, hl⟩ := ensured_of_loadOperand hc hleft
  obtain ⟨r, u', rfl, rfl, hr⟩ := ensured_of_loadOperand ((hl.consistent hc).pin _) hright
  exact ⟨l, r, rfl, rfl, .mk hl hr⟩

namespace Stages.Lead

theorem candidate_eq (h : g.Lead strategy dst left op right e s t) :
    g.candidate = reusableOperand? strategy s.file left right e ∧ ∃ journal, g.looked = ⟨s.file, s.code, journal⟩ := by
  obtain ⟨journal, hfound⟩ := reuseOperand?_ok strategy left right e s
  have hreuse := h.reuse
  rw [hfound, EStateM.Result.ok.injEq] at hreuse
  exact ⟨hreuse.1.symm, journal, hreuse.2.symm⟩

theorem cases_candidate (h : g.Lead strategy dst left op right e s t) :
    (g.candidate = none ∧ g.pinned = g.looked ∧
      (acquireDestination strategy e).run g.rightLoaded = .ok g.target g.placed) ∨
    ∃ c, g.candidate = some c ∧ g.pinned = { g.looked with file := g.looked.file.pin c } ∧ g.target = c ∧
      g.placed = g.rightLoaded := by
  have hpin := h.pin
  have hplace := h.place
  cases hg : g.candidate with
  | none =>
    rw [hg] at hpin hplace
    exact .inl ⟨rfl, (EStateM.Result.ok.inj hpin).2.symm, hplace⟩
  | some c =>
    rw [hg] at hpin hplace
    obtain ⟨htarget, hplaced⟩ := EStateM.Result.ok.inj hplace
    exact .inr ⟨c, rfl, (EStateM.Result.ok.inj hpin).2.symm, htarget.symm, hplaced.symm⟩

theorem prepared (h : g.Lead strategy dst left op right e s t) (hc : s.file.Consistent) :
    ∃ d l r, g.target = .ofIndex d ∧ g.left = .ofIndex l ∧ g.right = .ofIndex r ∧
      Prepared strategy left right e s d l r g.placed := by
  obtain ⟨hcandidate, journal, hlooked⟩ := h.candidate_eq
  have hleft := h.loadLeft
  rcases h.cases_candidate with ⟨hnone, hpinned, hplace⟩ | ⟨c, hsome, hpinned, htarget, hplaced⟩
  · rw [hpinned, hlooked] at hleft
    obtain ⟨l, r, hl, hr, hloaded⟩ := loaded_of_run hleft h.loadRight hc
    obtain ⟨d, hd, hvacated⟩ := vacated_of_run (hloaded.consistent hc) hplace
    exact ⟨d, l, r, hd, hl, hr, .acquired (hcandidate.symm.trans hnone) hloaded hvacated⟩
  · have hreuse := hcandidate.symm.trans hsome
    obtain ⟨v, -, hv, -⟩ := reusableOperand?_home hreuse
    obtain ⟨d, rfl, -⟩ := hc.homed hv
    rw [hpinned, hlooked] at hleft
    obtain ⟨l, r, hl, hr, hloaded⟩ := loaded_of_run hleft h.loadRight (hc.pin _)
    rw [hplaced]
    exact ⟨d, l, r, htarget, hl, hr, .reused hreuse hloaded⟩

theorem emitted_eq (h : g.Lead strategy dst left op right e s t) :
    g.emitted = { g.placed with code := g.placed.code.push (.operate op g.target g.left g.right) } :=
  (EStateM.Result.ok.inj h.emit).2.symm

theorem defined_eq (h : g.Lead strategy dst left op right e s t) (hc : g.emitted.file.Consistent) {d : Fin 3}
    (hd : g.target = .ofIndex d) : ∃ journal, g.defined = ⟨g.emitted.file.define dst d, g.emitted.code, journal⟩ := by
  have hdefine := h.define
  obtain ⟨journal, hok⟩ := define_ok hc dst d
  rw [hd, hok] at hdefine
  exact ⟨journal, (EStateM.Result.ok.inj hdefine).2.symm⟩

theorem code_eq (h : g.Lead strategy dst left op right e s t) (hc : s.file.Consistent) :
    t.code.toList = g.placed.code.toList ++ [.operate op g.target g.left g.right] := by
  obtain ⟨d, l, r, hd, -, -, hprepared⟩ := h.prepared hc
  have hemitted := h.emitted_eq
  have hce : g.emitted.file.Consistent := by
    rw [hemitted]
    exact hprepared.consistent hc
  obtain ⟨journal, hdefined⟩ := h.defined_eq hce hd
  rw [← (EStateM.Result.ok.inj h.unpin).2, hdefined, hemitted]
  exact Array.toList_push ..

end Stages.Lead

end Generation

end ThreeRegister
