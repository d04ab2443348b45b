import ThreeRegister.Proofs.Generation.Correctness
import ThreeRegister.Proofs.Generation.Stages
import ThreeRegister.Proofs.Generation.Vocabulary

namespace ThreeRegister

open Alloc

def Machine.Instruction.operator? : Machine.Instruction → Option Text
  | .load .. => none
  | .store .. => none
  | .operate op .. => some op
  | .undefined .. => none

namespace Generation

inductive EvictionPart (f : RegisterFile) : Register → List Machine.Instruction → Prop
  | free {r : Register} (hfree : f.firstFree? = some r) : EvictionPart f r []
  | store {r : Register} {w : Variable} (hfull : f.firstFree? = none) (hw : f.residency[w]? = some r) :
      EvictionPart f r [.store w r]

inductive LoadPart (f : RegisterFile) (v : Variable) : Register → List Machine.Instruction → Prop
  | resident {r : Register} (hv : f.residency[v]? = some r) : LoadPart f v r []
  | load {r : Register} {part : List Machine.Instruction} (hv : f.residency[v]? = none) (hpart : EvictionPart f r part) :
      LoadPart f v r (part ++ [.load r v])

inductive OperandParts (strategy : Strategy) (left right : Variable) (e : NextUse.Entry) (s : Session) :
    Register → Register → List Machine.Instruction → Session → Prop
  | mk {l r : Register} {t u : Session} {first second : List Machine.Instruction}
      (hleft : (loadOperand strategy left e).run s = .ok l t) (hfirst : LoadPart s.file left l first)
      (hright : (loadOperand strategy right e).run t = .ok r u) (hsecond : LoadPart t.file right r second) :
      OperandParts strategy left right e s l r (first ++ second) u

structure Holds (f : RegisterFile) (left right : Variable) (l r : Register) : Prop where
  atLeft : f.residency[left]? = some l
  atRight : f.residency[right]? = some r
  same : l = r ↔ left = right

inductive Fragment (strategy : Strategy) (e : NextUse.Entry) (s : Session) :
    Source.Instruction → List Machine.Instruction → Prop
  | move {dst src : Variable} {r : Register} {t : Session} {part : List Machine.Instruction}
      (hrun : (ensureResident strategy src e).run s = .ok r t) (hpart : LoadPart s.file src r part) :
      Fragment strategy e s (.move dst src) (part ++ [.store dst r])
  | reused {dst left right : Variable} {op : Text} {d l r : Register} {s₀ s₁ s₂ : Session}
      {parts : List Machine.Instruction} (hreuse : (reuseOperand? strategy left right e).run s = .ok (some d) s₀)
      (hpin : (pin d).run s₀ = .ok () s₁) (hparts : OperandParts strategy left right e s₁ l r parts s₂)
      (hheld : Holds s₂.file left right l r) :
      Fragment strategy e s (.binary dst left op right) (parts ++ [.operate op d l r])
  | acquired {dst left right : Variable} {op : Text} {d l r : Register} {s₁ s₂ s₃ : Session}
      {parts third : List Machine.Instruction} (hreuse : (reuseOperand? strategy left right e).run s = .ok none s₁)
      (hparts : OperandParts strategy left right e s₁ l r parts s₂)
      (hdst : (acquireDestination strategy e).run s₂ = .ok d s₃) (hthird : EvictionPart s₂.file d third)
      (hheld : Holds s₃.file left right l r) :
      Fragment strategy e s (.binary dst left op right) (parts ++ third ++ [.operate op d l r])

variable {s t u : Session} {strategy : Strategy} {e : NextUse.Entry} {dst left right v : Variable} {op : Text}
  {f : RegisterFile} {a b c : Register} {i : Fin 3} {part : List Machine.Instruction}

theorem EvictionPart.of_vacated (h : Vacated strategy e s i t) (hc : s.file.Consistent) :
    ∃ part, EvictionPart s.file (.ofIndex i) part ∧ t.code.toList = s.code.toList ++ part := by
  cases h with
  | free hfree => exact ⟨[], .free hfree, (List.append_nil _).symm⟩
  | evicted hfull hw => exact ⟨_, .store hfull (hc.resident (Vacated.victim_held hw).1), Array.toList_push ..⟩

theorem LoadPart.of_ensured (h : Ensured strategy v e s i t) (hc : s.file.Consistent) :
    ∃ part, LoadPart s.file v (.ofIndex i) part ∧ t.code.toList = s.code.toList ++ part := by
  cases h with
  | resident hv => exact ⟨[], .resident hv, (List.append_nil _).symm⟩
  | loaded hv hvacated =>
    obtain ⟨part, hpart, hcode⟩ := EvictionPart.of_vacated hvacated hc
    refine ⟨_, .load hv hpart, ?_⟩
    rw [Array.toList_push, hcode, List.append_assoc]

theorem Holds.of_consistent (hc : f.Consistent) (hl : f.residency[left]? = some a) (hr : f.residency[right]? = some b) :
    Holds f left right a b := by
  refine ⟨hl, hr, ?_, ?_⟩
  · rintro rfl
    exact hc.home_inj hl hr
  · rintro rfl
    exact Option.some.inj (hl.symm.trans hr)

theorem operandParts_of_run (hc : s.file.Consistent) (hleft : (loadOperand strategy left e).run s = .ok a t)
    (hright : (loadOperand strategy right e).run t = .ok b u) :
    ∃ l r parts, a = .ofIndex l ∧ b = .ofIndex r ∧ Loaded strategy left right e s l r u ∧
      OperandParts strategy left right e s a b parts u ∧ u.code.toList = s.code.toList ++ parts := by
  obtain ⟨l, t', rfl, rfl, hl⟩ := ensured_of_loadOperand hc hleft
  have hct : (t'.pin l).file.Consistent := (hl.consistent hc).pin _
  obtain ⟨r, u', rfl, rfl, hr⟩ := ensured_of_loadOperand hct hright
  obtain ⟨first, hfirst, hcode⟩ := LoadPart.of_ensured hl hc
  obtain ⟨second, hsecond, hcode'⟩ := LoadPart.of_ensured hr hct
  refine ⟨l, r, _, rfl, rfl, .mk hl hr, .mk hleft hfirst hright hsecond, ?_⟩
  simp only [Session.pin] at hcode' ⊢
  rw [hcode', hcode, List.append_assoc]

theorem writeMove_fragment (hc : s.file.Consistent) (hrun : (writeMove strategy dst v e).run s = .ok () t) :
    ∃ part, Fragment strategy e s (.move dst v) part ∧ t.code.toList = s.code.toList ++ part := by
  obtain ⟨r, u, hensure, h⟩ := run_bind_eq_ok hrun
  obtain ⟨i, rfl, hu⟩ := ensured_of_run hc hensure
  obtain ⟨part, hpart, hcode⟩ := LoadPart.of_ensured hu hc
  obtain ⟨⟨⟩, w, hemit, h⟩ := run_bind_eq_ok h
  cases hemit
  refine ⟨_, .move hensure hpart, ?_⟩
  rw [← List.append_assoc, ← hcode, ← Array.toList_push]
  split at h
  · obtain ⟨journal, hinvalidate⟩ := @invalidate_ok { u with code := u.code.push (.store dst (.ofIndex i)) }
      (hu.consistent hc) dst
    rw [hinvalidate] at h
    cases h
    rfl
  · cases h
    rfl

theorem writeBinary_fragment (hc : s.file.Consistent)
    (hrun : (writeBinary strategy dst left op right e).run s = .ok () t) :
    ∃ part, Fragment strategy e s (.binary dst left op right) part ∧ t.code.toList = s.code.toList ++ part := by
  obtain ⟨g, h⟩ := writeBinary_stages hrun
  obtain ⟨d, l, r, -, hl, hr, hprepared⟩ := h.prepared hc
  obtain ⟨-, journal, hlooked⟩ := h.candidate_eq
  have hcode := h.code_eq hc
  have hheld : Holds g.placed.file left right g.left g.right := by
    rw [hl, hr]
    exact .of_consistent (hprepared.consistent hc) (hprepared.residency_left hc) (hprepared.residency_right hc)
  have hpinned : g.pinned.file.Consistent ∧ g.pinned.code = s.code := by
    rcases h.cases_candidate with ⟨-, hpinned, -⟩ | ⟨c, -, hpinned, -, -⟩
    · rw [hpinned, hlooked]
      exact ⟨hc, rfl⟩
    · rw [hpinned, hlooked]
      exact ⟨hc.pin _, rfl⟩
  obtain ⟨l, r, parts, -, -, hloaded, hparts, hcode'⟩ := operandParts_of_run hpinned.1 h.loadLeft h.loadRight
  rw [hpinned.2] at hcode'
  rcases h.cases_candidate with ⟨hnone, hlast, hplace⟩ | ⟨c, hsome, -, htarget, hplaced⟩
  · obtain ⟨d, hd, hvacated⟩ := vacated_of_run (hloaded.consistent hpinned.1) hplace
    obtain ⟨third, hthird, hcode''⟩ := EvictionPart.of_vacated hvacated (hloaded.consistent hpinned.1)
    rw [← hd] at hthird
    rw [hlast] at hparts
    refine ⟨_, .acquired (hnone ▸ h.reuse) hparts hplace hthird hheld, ?_⟩
    rw [hcode, hcode'', hcode', List.append_assoc, List.append_assoc, List.append_assoc]
  · have hpin := h.pin
    rw [hsome] at hpin
    rw [hplaced] at hheld hcode
    rw [htarget] at hcode
    refine ⟨_, .reused (hsome ▸ h.reuse) hpin hparts hheld, ?_⟩
    rw [hcode, hcode', List.append_assoc]

theorem writeInstruction_fragment (hc : s.file.Consistent) {position : Nat} {instruction : Source.Instruction}
    (hrun : (writeInstruction strategy position instruction e).run s = .ok () t) :
    ∃ s' part, (record (.instruction position instruction e)).run s = .ok () s' ∧
      Fragment strategy e s' instruction part ∧ t.code.toList = s.code.toList ++ part := by
  obtain ⟨⟨⟩, s', hrecord, h⟩ := run_bind_eq_ok hrun
  have hrecorded := run_of_ofAlloc hrecord
  obtain ⟨hc', hcode'⟩ : s'.file.Consistent ∧ s'.code = s.code := by
    cases hrecorded
    exact ⟨hc, rfl⟩
  rw [← hcode']
  cases instruction with
  | move dst src =>
    obtain ⟨part, hpart, hcode⟩ := writeMove_fragment hc' (run_of_ofAlloc h)
    exact ⟨s', part, hrecorded, hpart, hcode⟩
  | binary dst left op right =>
    obtain ⟨part, hpart, hcode⟩ := writeBinary_fragment hc' (run_of_ofAlloc h)
    exact ⟨s', part, hrecorded, hpart, hcode⟩
  | foreign f => cases h

section Counting

theorem EvictionPart.operators (h : EvictionPart f a part) : part.filterMap Machine.Instruction.operator? = [] := by
  cases h <;> rfl

theorem EvictionPart.length_le (h : EvictionPart f a part) : part.length ≤ 1 := by
  cases h <;> simp

theorem LoadPart.operators (h : LoadPart f v a part) : part.filterMap Machine.Instruction.operator? = [] := by
  cases h with
  | resident hv => rfl
  | load hv hpart => rw [List.filterMap_append, hpart.operators]; rfl

theorem LoadPart.length_le (h : LoadPart f v a part) : part.length ≤ 2 := by
  cases h with
  | resident hv => simp
  | load hv hpart =>
    have hlength := hpart.length_le
    rw [List.length_append, List.length_singleton]
    omega

theorem OperandParts.operators (h : OperandParts strategy left right e s a b part t) :
    part.filterMap Machine.Instruction.operator? = [] := by
  obtain ⟨hleft, hfirst, hright, hsecond⟩ := h
  rw [List.filterMap_append, hfirst.operators, hsecond.operators, List.append_nil]

theorem OperandParts.length_le (h : OperandParts strategy left right e s a b part t) : part.length ≤ 4 := by
  obtain ⟨hleft, hfirst, hright, hsecond⟩ := h
  have hlength := hfirst.length_le
  have hlength' := hsecond.length_le
  rw [List.length_append]
  omega

theorem Fragment.operators {instruction : Source.Instruction} (h : Fragment strategy e s instruction part) :
    part.filterMap Machine.Instruction.operator? = instruction.operator?.toList := by
  cases h with
  | move hrun hpart => rw [List.filterMap_append, hpart.operators]; rfl
  | reused hreuse hpin hparts hheld => rw [List.filterMap_append, hparts.operators]; rfl
  | acquired hreuse hparts hdst hthird hheld =>
    rw [List.filterMap_append, List.filterMap_append, hparts.operators, hthird.operators]
    rfl

theorem Fragment.length_le {instruction : Source.Instruction} (h : Fragment strategy e s instruction part) :
    part.length ≤ if instruction.operator?.isSome then 6 else 3 := by
  cases h with
  | move hrun hpart =>
    have hlength := hpart.length_le
    rw [List.length_append, List.length_singleton]
    change _ ≤ 3
    omega
  | reused hreuse hpin hparts hheld =>
    have hlength := hparts.length_le
    rw [List.length_append, List.length_singleton]
    change _ ≤ 6
    omega
  | acquired hreuse hparts hdst hthird hheld =>
    have hlength := hparts.length_le
    have hlength' := hthird.length_le
    rw [List.length_append, List.length_append, List.length_singleton]
    change _ ≤ 6
    omega

end Counting

def fragmentAt (strategy : Strategy) (options : Options) (block : Source.Block) (n : Nat) : List Machine.Instruction :=
  (sessionAfter strategy options block (n + 1)).code.toList.drop (sessionAfter strategy options block n).code.size

section NoForeign

variable (strategy : Strategy) (options : Options) {block : Source.Block} (hb : ∀ f, .foreign f ∉ block)
  {table : NextUse.Table} {n : Nat} {instruction : Source.Instruction}

include hb

theorem fragmentAt_spec (htable : NextUse.Table.ofBlock block = .ok table)
    (hi : (block.zip table)[n]? = some (instruction, e)) :
    (∃ s, (record (.instruction n instruction e)).run (sessionAfter strategy options block n) = .ok () s ∧
      Fragment strategy e s instruction (fragmentAt strategy options block n)) ∧
      (sessionAfter strategy options block (n + 1)).code.toList =
        (sessionAfter strategy options block n).code.toList ++ fragmentAt strategy options block n := by
  obtain ⟨s, part, hrecord, hpart, hcode⟩ := writeInstruction_fragment
    (sessionAfter_ready strategy options hb n).consistent (sessionAfter_step strategy options hb htable hi).1
  have hfragment : fragmentAt strategy options block n = part := by
    rw [fragmentAt, hcode, ← Array.length_toList, List.drop_left]
  rw [hfragment]
  exact ⟨⟨s, hrecord, hpart⟩, hcode⟩

theorem exists_fragment (hi : block[n]? = some instruction) :
    (∃ e s, Fragment strategy e s instruction (fragmentAt strategy options block n)) ∧
      (sessionAfter strategy options block (n + 1)).code.toList =
        (sessionAfter strategy options block n).code.toList ++ fragmentAt strategy options block n := by
  obtain ⟨table, htable, hdescribes, -⟩ := run_sessionAfter strategy options hb
  obtain ⟨after, hzip⟩ := getElem?_zip_describes hdescribes hi
  obtain ⟨⟨s, -, hpart⟩, hcode⟩ := fragmentAt_spec strategy options hb htable hzip
  exact ⟨⟨_, s, hpart⟩, hcode⟩

theorem code_eq_fragments {count : Nat} (hcount : count ≤ block.length) :
    (sessionAfter strategy options block count).code.toList =
      (List.range count).flatMap (fragmentAt strategy options block) := by
  induction count with
  | zero =>
    rw [sessionAfter_zero strategy options hb]
    rfl
  | succ n ih =>
    have hstep := exists_fragment strategy options hb (List.getElem?_eq_getElem hcount)
    rw [hstep.2, ih (Nat.le_of_succ_le hcount), List.range_succ, List.flatMap_append, List.flatMap_singleton]

theorem operators_eq {count : Nat} (hcount : count ≤ block.length) :
    (sessionAfter strategy options block count).code.toList.filterMap Machine.Instruction.operator? =
      (block.take count).filterMap Source.Instruction.operator? := by
  induction count with
  | zero =>
    rw [sessionAfter_zero strategy options hb]
    rfl
  | succ n ih =>
    have hi := List.getElem?_eq_getElem hcount
    obtain ⟨⟨e, s, hpart⟩, hcode⟩ := exists_fragment strategy options hb hi
    rw [hcode, List.filterMap_append, ih (Nat.le_of_succ_le hcount), hpart.operators, List.take_add_one, hi,
      List.filterMap_append, Option.toList_some]
    cases hop : block[n].operator? with
    | none => rw [List.filterMap_cons_none hop]; rfl
    | some op => rw [List.filterMap_cons_some hop]; rfl

theorem length_code_le {count : Nat} (hcount : count ≤ block.length) :
    (sessionAfter strategy options block count).code.toList.length ≤
      3 * (block.take count).countP (·.operator?.isNone) + 6 * (block.take count).countP (·.operator?.isSome) := by
  induction count with
  | zero =>
    rw [sessionAfter_zero strategy options hb]
    exact Nat.zero_le _
  | succ n ih =>
    have hi := List.getElem?_eq_getElem hcount
    obtain ⟨⟨e, s, hpart⟩, hcode⟩ := exists_fragment strategy options hb hi
    have hlength := hpart.length_le
    have hbefore := ih (Nat.le_of_succ_le hcount)
    rw [hcode, List.length_append, List.take_add_one, hi, Option.toList_some, List.countP_append, List.countP_append,
      List.countP_singleton, List.countP_singleton]
    cases hop : block[n].operator? with
    | none =>
      simp only [hop, Option.isSome_none, Option.isNone_none, Bool.false_eq_true, if_true, if_false] at hlength ⊢
      omega
    | some op =>
      simp only [hop, Option.isSome_some, Option.isNone_some, Bool.false_eq_true, if_true, if_false] at hlength ⊢
      omega

end NoForeign

/-- The code of a block is one fragment after another, one for each instruction, written from the session that the
instructions before it lead to and with its next uses. Its operations are those of the block in order, and a move takes
at most three instructions and an operation six. -/
theorem code_is_fragments (strategy : Strategy) (options : Options) {block : Source.Block}
    (hb : ∀ f, .foreign f ∉ block) :
    ∃ output, (generate strategy options .fresh block).2 = .ok output ∧
      output.code = (List.range block.length).flatMap (fragmentAt strategy options block) ∧
      (∀ n instruction, block[n]? = some instruction → ∃ e s, output.nextUse[n]? = some e ∧
        (record (.instruction n instruction e)).run (sessionAfter strategy options block n) = .ok () s ∧
        Fragment strategy e s instruction (fragmentAt strategy options block n)) ∧
      output.code.filterMap Machine.Instruction.operator? = block.filterMap Source.Instruction.operator? ∧
      output.code.length ≤ 3 * block.countP (·.operator?.isNone) + 6 * block.countP (·.operator?.isSome) := by
  obtain ⟨table, htable, hdescribes, hgenerate⟩ := generate_ok strategy options hb
  refine ⟨_, congrArg Prod.snd hgenerate, code_eq_fragments strategy options hb (Nat.le_refl _), ?_, ?_, ?_⟩
  · intro n instruction hi
    obtain ⟨after, hzip⟩ := getElem?_zip_describes hdescribes hi
    obtain ⟨⟨s, hrecord, hpart⟩, -⟩ := fragmentAt_spec strategy options hb htable hzip
    exact ⟨_, s, (List.getElem?_zip_eq_some.mp hzip).2, hrecord, hpart⟩
  · have hall := operators_eq strategy options hb (Nat.le_refl block.length)
    rw [List.take_length] at hall
    exact hall
  · have hall := length_code_le strategy options hb (Nat.le_refl block.length)
    rw [List.take_length] at hall
    exact hall

-- The second operation finds every register held and none of its variables in one, so that all six are written.
theorem code_is_fragments_fourLive :
    fragmentAt .nextUse ⟨true, false⟩ fourLive 1 = [.store (utf8 "b") .r2, .load .r2 (utf8 "c"), .store (utf8 "a") .r1,
      .load .r1 (utf8 "d"), .store (utf8 "x") .r3, .operate (utf8 "+") .r3 .r2 .r1] ∧
    ∃ output, (generate .nextUse ⟨true, false⟩ .fresh fourLive).2 = .ok output ∧
      output.code = (List.range 4).flatMap (fragmentAt .nextUse ⟨true, false⟩ fourLive) ∧
      (∃ e s, output.nextUse[1]? = some e ∧
        Fragment .nextUse e s (.binary (utf8 "y") (utf8 "c") (utf8 "+") (utf8 "d"))
          (fragmentAt .nextUse ⟨true, false⟩ fourLive 1)) ∧
      output.code.length ≤ 24 := by
  have hb (f : Source.Foreign) : .foreign f ∉ fourLive := by simp [fourLive]
  obtain ⟨output, hgenerate, hcode, hfragment, -, hlength⟩ := code_is_fragments .nextUse ⟨true, false⟩ hb
  obtain ⟨e, s, he, -, hpart⟩ := hfragment 1 _ rfl
  exact ⟨by decide +kernel, output, hgenerate, hcode, ⟨e, s, he, hpart⟩, hlength⟩

end Generation

end ThreeRegister
