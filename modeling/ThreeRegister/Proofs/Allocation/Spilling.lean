import ThreeRegister.Proofs.Allocation.Calls
import ThreeRegister.Proofs.FirstOccurrence
import ThreeRegister.Proofs.Machine.Run

namespace ThreeRegister

open Machine (stores)

/-- The slots of the variables in a log of evictions: each variable has the index of its first eviction, later evictions
of one variable not being counted. -/
structure Numbers (slots : Std.TreeMap Variable Nat) (log : List Variable) : Prop where
  size : slots.size = log.eraseDups.length
  slot : ∀ {v : Variable} {n : Nat}, slots[v]? = some n ↔ log.eraseDups[n]? = some v

def assignSlots (slots : Std.TreeMap Variable Nat) (evicted : List Variable) : Std.TreeMap Variable Nat :=
  evicted.foldl (fun slots v => slots.insertIfNew v slots.size) slots

variable {slots : Std.TreeMap Variable Nat} {log evicted : List Variable} {v w : Variable} {n k : Nat}

namespace Numbers

theorem empty : Numbers ∅ [] := by
  constructor
  · rfl
  · intro v n
    simp

theorem mem (h : Numbers slots log) : v ∈ slots ↔ v ∈ log := by
  rw [Std.TreeMap.mem_iff_isSome_getElem?, Option.isSome_iff_exists, ← List.mem_eraseDups, List.mem_iff_getElem?]
  simp only [h.slot]

theorem evict (h : Numbers slots log) (w : Variable) : Numbers (slots.insertIfNew w slots.size) (log ++ [w]) := by
  by_cases hw : w ∈ log
  · -- A variable with a slot keeps it, and the list of the variables evicted so far stays the same.
    have hmem : w ∈ slots := h.mem.mpr hw
    constructor
    · rw [Std.TreeMap.size_insertIfNew, if_pos hmem, eraseDups_concat, if_pos hw]
      exact h.size
    · intro v n
      rw [Std.TreeMap.getElem?_insertIfNew, if_neg (fun hnew => hnew.2 hmem), eraseDups_concat, if_pos hw]
      exact h.slot
  · have hmem : w ∉ slots := mt h.mem.mp hw
    constructor
    · rw [Std.TreeMap.size_insertIfNew, if_neg hmem, eraseDups_concat, if_neg hw, List.length_append,
        List.length_singleton, h.size]
    · intro v n
      rw [Std.TreeMap.getElem?_insertIfNew, eraseDups_concat, if_neg hw]
      by_cases hwv : w = v
      · subst hwv
        have hfirst : w ∉ log.eraseDups := mt List.mem_eraseDups.mp hw
        simp only [Std.compare_self, hmem, not_false_iff, and_self, if_true, Option.some.injEq, h.size]
        constructor
        · rintro rfl
          exact List.getElem?_concat_length
        · intro hn
          grind
      · have hcompare : compare w v ≠ .eq := mt Std.compare_eq_iff_eq.mp hwv
        rw [if_neg (fun hnew => hcompare hnew.1), h.slot]
        grind

theorem evictAll (h : Numbers slots log) (evicted : List Variable) :
    Numbers (assignSlots slots evicted) (log ++ evicted) := by
  induction evicted generalizing slots log with
  | nil =>
    rw [List.append_nil]
    exact h
  | cons w evicted ih =>
    rw [List.append_cons]
    exact ih (h.evict w)

theorem of_firstAt (h : Numbers slots log) (hk : FirstAt log v k) : slots[v]? = some (log.take k).toFinset.card := by
  rw [h.slot, card_toFinset]
  exact hk.getElem?_eraseDups

theorem exists_slot (h : Numbers slots log) : (∃ v : Variable, slots[v]? = some n) ↔ n < log.toFinset.card := by
  simp only [h.slot, card_toFinset]
  constructor
  · rintro ⟨v, hv⟩
    exact (List.getElem?_eq_some_iff.mp hv).1
  · intro hn
    exact ⟨_, List.getElem?_eq_getElem hn⟩

theorem slot_inj (h : Numbers slots log) (hv : slots[v]? = some n) (hw : slots[w]? = some n) : v = w :=
  Option.some.inj ((h.slot.mp hv).symm.trans (h.slot.mp hw))

theorem keeps (h : Numbers slots log) (hv : slots[v]? = some n) (evicted : List Variable) :
    (assignSlots slots evicted)[v]? = some n := by
  have hn := h.slot.mp hv
  obtain ⟨later, hall⟩ := eraseDups_isPrefix log evicted
  rw [(h.evictAll evicted).slot, ← hall, List.getElem?_append_left (List.getElem?_eq_some_iff.mp hn).1]
  exact hn

end Numbers

namespace RegisterFile

variable {f : RegisterFile}

theorem spillSlots_forget (f : RegisterFile) (v : Variable) : (f.forget v).spillSlots = f.spillSlots := by
  unfold forget
  split <;> rfl

theorem spillSlots_define (f : RegisterFile) (v : Variable) (i : Fin 3) : (f.define v i).spillSlots = f.spillSlots := by
  have hclear (g : RegisterFile) : (g.clear i).spillSlots = g.spillSlots := by
    unfold clear
    split <;> rfl
  unfold define
  split
  · rfl
  · exact (hclear _).trans (f.spillSlots_forget v)

theorem Consistent.isSpilled_iff (h : f.Consistent) :
    f.isSpilled v = true ↔ (∃ n, f.spillSlots[v]? = some n) ∧ ∀ i, f.slots.get i ≠ .held v := by
  rw [isSpilled, Bool.and_eq_true, Bool.not_eq_true', Std.TreeMap.contains_eq_isSome_getElem?,
    Std.TreeMap.contains_eq_isSome_getElem?, Option.isSome_iff_exists, Option.isSome_eq_false_iff, Option.isNone_iff_eq_none]
  apply and_congr_right'
  constructor
  · intro hv i hi
    rw [h.resident hi] at hv
    cases hv
  · intro hv
    cases hr : f.residency[v]? with
    | none => rfl
    | some r =>
      obtain ⟨i, -, hi⟩ := h.homed hr
      exact absurd hi (hv i)

end RegisterFile

structure Session.Evicts (s : Session) (evicted : List Variable) (t : Session) : Prop where
  code : ∃ part, t.code.toList = s.code.toList ++ part ∧ stores part = evicted
  slots : t.file.spillSlots = assignSlots s.file.spillSlots evicted

variable {s t u : Session} {strategy : Strategy} {e : NextUse.Entry} {i : Fin 3}

namespace Session.Evicts

theorem of_eq (hcode : t.code = s.code) (hslots : t.file.spillSlots = s.file.spillSlots) : s.Evicts [] t :=
  ⟨⟨[], by rw [hcode, List.append_nil], rfl⟩, hslots⟩

theorem trans {evicted' : List Variable} (h : s.Evicts evicted t) (h' : t.Evicts evicted' u) :
    s.Evicts (evicted ++ evicted') u := by
  obtain ⟨⟨part, hcode, hpart⟩, hslots⟩ := h
  obtain ⟨⟨part', hcode', hpart'⟩, hslots'⟩ := h'
  constructor
  · refine ⟨part ++ part', by rw [hcode', hcode, List.append_assoc], ?_⟩
    rw [stores, List.filterMap_append, ← hpart, ← hpart']
    rfl
  · rw [hslots', hslots, assignSlots, assignSlots, assignSlots, List.foldl_append]

theorem stores_drop (h : s.Evicts evicted t) : stores (t.code.toList.drop s.code.size) = evicted := by
  obtain ⟨part, hcode, hpart⟩ := h.code
  rw [hcode, ← Array.length_toList, List.drop_left]
  exact hpart

end Session.Evicts

theorem Alloc.Vacated.evicts (h : Vacated strategy e s i t) : ∃ evicted, s.Evicts evicted t := by
  cases h with
  | free h => exact ⟨[], .of_eq rfl rfl⟩
  | @evicted w _ hfull hw => exact ⟨[w], ⟨_, Array.toList_push .., rfl⟩, rfl⟩

theorem Alloc.Ensured.evicts (h : Ensured strategy v e s i t) : ∃ evicted, s.Evicts evicted t := by
  cases h with
  | resident h => exact ⟨[], .of_eq rfl rfl⟩
  | loaded h hvacated =>
    obtain ⟨evicted, hevicts⟩ := hvacated.evicts
    refine ⟨_, hevicts.trans ⟨⟨_, Array.toList_push .., rfl⟩, rfl⟩⟩

namespace Allocation

variable {call : Call} {fault : Fault}

def Call.makesRoom : Call → Bool
  | .ensureResident .. => true
  | .acquireDestination _ => true
  | _ => false

def Call.evicts (strategy : Strategy) (s : Session) (call : Call) : List Variable :=
  if call.makesRoom then stores ((call.leave strategy s).code.toList.drop s.code.size) else []

def Call.evictions (strategy : Strategy) (s : Session) : List Call → List Variable
  | [] => []
  | call :: calls => call.evicts strategy s ++ evictions strategy (call.leave strategy s) calls

theorem Performed.evicts (h : Performed strategy s call t) :
    ∃ evicted, s.Evicts evicted t ∧ (call.makesRoom = false → evicted = []) := by
  cases h with
  | ensureResident h =>
    obtain ⟨evicted, hevicts⟩ := h.evicts
    exact ⟨evicted, hevicts, nofun⟩
  | acquireDestination h =>
    obtain ⟨evicted, hevicts⟩ := h.evicts
    exact ⟨evicted, hevicts, nofun⟩
  | reuseDead => exact ⟨[], .of_eq rfl rfl, fun _ => rfl⟩
  | selectVictim => exact ⟨[], .of_eq rfl rfl, fun _ => rfl⟩
  | define => exact ⟨[], .of_eq rfl (s.file.spillSlots_define ..), fun _ => rfl⟩
  | invalidate => exact ⟨[], .of_eq rfl (s.file.spillSlots_forget _), fun _ => rfl⟩
  | pin => exact ⟨[], .of_eq rfl rfl, fun _ => rfl⟩
  | unpin => exact ⟨[], .of_eq rfl rfl, fun _ => rfl⟩

theorem Faulted.evicts (h : Faulted s call fault t) : s.Evicts [] t := by
  cases h with
  | outOfRange hr => exact .of_eq rfl (s.file.spillSlots_forget _)
  | noVictim hneeds hpinned => exact .of_eq rfl rfl

theorem leave_evicts (strategy : Strategy) (hc : s.file.Consistent) (call : Call) :
    s.Evicts (call.evicts strategy s) (call.leave strategy s) := by
  obtain ⟨evicted, hevicts, hnone⟩ : ∃ evicted, s.Evicts evicted (call.leave strategy s) ∧
      (call.makesRoom = false → evicted = []) := by
    unfold Call.leave
    rcases perform_cases strategy hc call with ⟨t, hrun, ht⟩ | ⟨fault, t, ht⟩
    · rw [hrun]
      exact ht.evicts
    · rw [perform_of_faulted strategy hc ht]
      exact ⟨[], ht.evicts, fun _ => rfl⟩
  have hevicted : call.evicts strategy s = evicted := by
    unfold Call.evicts
    split
    · exact hevicts.stores_drop
    · next hroom => exact (hnone (by simpa using hroom)).symm
  rw [hevicted]
  exact hevicts

theorem leaveAll_evicts (strategy : Strategy) (hc : s.file.Consistent) (calls : List Call) :
    s.Evicts (Call.evictions strategy s calls) (Call.leaveAll strategy s calls) := by
  induction calls generalizing s with
  | nil => exact .of_eq rfl rfl
  | cons call calls ih => exact (leave_evicts strategy hc call).trans (ih (leave_consistent strategy hc call))

/-- After any calls on a fresh register file, exactly the variables evicted by the calls that make room have a slot. The
slot of a variable is the number of variables evicted before its first eviction, so that the slots in use are those below
the number of variables evicted, each for one variable; and no further calls change it. A variable counts as spilled when
it has a slot and no register holds it. -/
theorem spill_slots_number_evictions (strategy : Strategy) (code : Array Machine.Instruction)
    (journal : Option (Array Event)) (calls : List Call) :
    let start : Session := ⟨.fresh, code, journal⟩
    let s := Call.leaveAll strategy start calls
    let log := Call.evictions strategy start calls
    (∀ v, (∃ n, s.file.spillSlots[v]? = some n) ↔ v ∈ log) ∧
    (∀ v k, FirstAt log v k → s.file.spillSlots[v]? = some (log.take k).toFinset.card) ∧
    (∀ n, (∃ v : Variable, s.file.spillSlots[v]? = some n) ↔ n < log.toFinset.card) ∧
    (∀ (v w : Variable) (n : Nat), s.file.spillSlots[v]? = some n → s.file.spillSlots[w]? = some n → v = w) ∧
    (∀ (more : List Call) (v : Variable) (n : Nat), s.file.spillSlots[v]? = some n →
      (Call.leaveAll strategy s more).file.spillSlots[v]? = some n) ∧
    ∀ v, s.file.isSpilled v = true ↔ (∃ n, s.file.spillSlots[v]? = some n) ∧ ∀ i, s.file.slots.get i ≠ .held v := by
  intro start s log
  have hc : s.file.Consistent := leaveAll_consistent strategy .fresh calls
  have hs : Numbers s.file.spillSlots log := by
    rw [(leaveAll_evicts strategy .fresh calls).slots]
    exact Numbers.empty.evictAll log
  refine ⟨fun v => ?_, fun v k => hs.of_firstAt, fun n => hs.exists_slot, fun v w n => hs.slot_inj, ?_,
    fun v => hc.isSpilled_iff⟩
  · rw [← hs.mem, Std.TreeMap.mem_iff_isSome_getElem?, Option.isSome_iff_exists]
  · intro more v n hv
    rw [(leaveAll_evicts strategy hc more).slots]
    exact hs.keeps hv _

-- The first variable comes back and is evicted again; it keeps its slot, and no slot is skipped for it.
theorem spill_slots_number_evictions_again :
    let calls := ["a", "b", "c", "d", "a", "e", "f", "g"].map fun name => Call.ensureResident (utf8 name) ∅
    let log := Call.evictions .nextUse (.start .fresh false) calls
    let s := Call.leaveAll .nextUse (.start .fresh false) calls
    log = ["a", "b", "c", "d", "a"].map utf8 ∧ FirstAt log (utf8 "d") 3 ∧ FirstAt log (utf8 "a") 0 ∧
      s.file.spillSlots[utf8 "d"]? = some 3 ∧ s.file.spillSlots[utf8 "a"]? = some 0 := by
  intro calls log s
  have hlog : log = ["a", "b", "c", "d", "a"].map utf8 := by decide +kernel
  have hd : FirstAt log (utf8 "d") 3 := by
    rw [hlog]
    exact ⟨rfl, by decide⟩
  have ha : FirstAt log (utf8 "a") 0 := by
    rw [hlog]
    exact ⟨rfl, nofun⟩
  obtain ⟨-, hslot, -⟩ := spill_slots_number_evictions .nextUse #[] none calls
  have hslotd := hslot _ _ hd
  have hslota := hslot _ _ ha
  refine ⟨hlog, hd, ha, hslotd.trans ?_, hslota⟩
  change some (log.take 3).toFinset.card = some 3
  rw [hlog]
  rfl

end Allocation

end ThreeRegister
