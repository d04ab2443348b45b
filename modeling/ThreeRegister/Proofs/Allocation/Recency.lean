import Mathlib.Data.List.Induction
import ThreeRegister.Proofs.Allocation.Calls
import ThreeRegister.Proofs.RegisterFile.Preference

namespace ThreeRegister

structure LastAccess (log : List Variable) (v : Variable) (k : Nat) : Prop where
  here : log[k]? = some v
  last : ∀ j, k < j → log[j]? ≠ some v

variable {log : List Variable} {u v w : Variable} {f g : RegisterFile} {i : Fin 3} {k l : Nat}

namespace LastAccess

theorem lt_length (h : LastAccess log v k) : k < log.length :=
  (List.getElem?_eq_some_iff.mp h.here).1

theorem unique (h : LastAccess log v k) (h' : LastAccess log w k) : v = w :=
  Option.some.inj (h.here.symm.trans h'.here)

theorem concat_self (log : List Variable) (v : Variable) : LastAccess (log ++ [v]) v log.length := by
  refine ⟨List.getElem?_concat_length, ?_⟩
  intro j hj
  rw [List.getElem?_eq_none (by rw [List.length_append, List.length_singleton]; omega)]
  nofun

theorem concat_of_ne (h : u ≠ v) : LastAccess (log ++ [u]) v k ↔ LastAccess log v k := by
  have hget (j : Nat) : (log ++ [u])[j]? = some v ↔ log[j]? = some v := by
    grind
  constructor
  · rintro ⟨hhere, hlast⟩
    exact ⟨(hget k).mp hhere, fun j hj => mt (hget j).mpr (hlast j hj)⟩
  · rintro ⟨hhere, hlast⟩
    exact ⟨(hget k).mpr hhere, fun j hj => mt (hget j).mp (hlast j hj)⟩

theorem position_unique (h : LastAccess log v k) (h' : LastAccess log v l) : k = l := by
  have hkl : ¬k < l := fun hlt => h.last l hlt h'.here
  have hlk : ¬l < k := fun hlt => h'.last k hlt h.here
  omega

end LastAccess

theorem exists_lastAccess : (∃ k, LastAccess log v k) ↔ v ∈ log := by
  constructor
  · rintro ⟨k, h⟩
    exact List.mem_of_getElem? h.here
  · intro h
    induction log using List.reverseRecOn with
    | nil => cases h
    | append_singleton log u ih =>
      by_cases huv : u = v
      · subst huv
        exact ⟨_, .concat_self log u⟩
      · have hmem : v ∈ log := by simpa [Ne.symm huv] using h
        obtain ⟨k, hk⟩ := ih hmem
        exact ⟨k, (LastAccess.concat_of_ne huv).mpr hk⟩

namespace RegisterFile

structure Records (f : RegisterFile) (log : List Variable) : Prop where
  clock : f.clock.toNat = log.length
  recency : ∀ {v : Variable} {n : UInt64}, f.recency[v]? = some n ↔ ∃ k, LastAccess log v k ∧ n.toNat = k + 1
  residents : ∀ {v : Variable} {r : Register}, f.residency[v]? = some r → v ∈ log

theorem clock_forget (f : RegisterFile) (v : Variable) : (f.forget v).clock = f.clock := by
  unfold forget
  split <;> rfl

theorem recency_forget (f : RegisterFile) (v : Variable) : (f.forget v).recency = f.recency := by
  unfold forget
  split <;> rfl

theorem clock_clear (f : RegisterFile) (i : Fin 3) : (f.clear i).clock = f.clock := by
  unfold clear
  split <;> rfl

theorem recency_clear (f : RegisterFile) (i : Fin 3) : (f.clear i).recency = f.recency := by
  unfold clear
  split <;> rfl

theorem clock_define (f : RegisterFile) (v : Variable) (i : Fin 3) : (f.define v i).clock = f.clock + 1 := by
  unfold define
  split
  · rfl
  · change ((f.forget v).clear i).clock + 1 = _
    rw [clock_clear, clock_forget]

theorem recency_define (f : RegisterFile) (v : Variable) (i : Fin 3) :
    (f.define v i).recency = f.recency.insert v (f.clock + 1) := by
  unfold define
  split
  · rfl
  · change ((f.forget v).clear i).recency.insert v (((f.forget v).clear i).clock + 1) = _
    rw [clock_clear, clock_forget, recency_clear, recency_forget]

namespace Records

theorem fresh : Records .fresh [] := by
  refine ⟨rfl, ?_, ?_⟩
  · intro v n
    constructor
    · intro h
      simp [RegisterFile.fresh] at h
    · rintro ⟨k, h, -⟩
      cases h.here
  · intro v r h
    simp [RegisterFile.fresh] at h

theorem keep (h : f.Records log) (hclock : g.clock = f.clock) (hrecency : g.recency = f.recency)
    (hresidents : ∀ (w : Variable) (r : Register), g.residency[w]? = some r → f.residency[w]? = some r) :
    g.Records log := by
  refine ⟨hclock ▸ h.clock, ?_, fun hv => h.residents (hresidents _ _ hv)⟩
  rw [hrecency]
  exact h.recency

theorem repin (h : f.Records log) (pinned : RegisterSet) : Records { f with pinned } log :=
  h.keep rfl rfl fun _ _ hv => hv

theorem access (h : f.Records log) (hroom : log.length + 1 < UInt64.size) (hclock : g.clock = f.clock + 1)
    (hrecency : g.recency = f.recency.insert v (f.clock + 1))
    (hresidents : ∀ (w : Variable) (r : Register), g.residency[w]? = some r → v = w ∨ f.residency[w]? = some r) :
    g.Records (log ++ [v]) := by
  have htick : (f.clock + 1).toNat = log.length + 1 := by
    rw [UInt64.toNat_add, h.clock]
    exact Nat.mod_eq_of_lt hroom
  refine ⟨?_, ?_, ?_⟩
  · rw [hclock, htick, List.length_append, List.length_singleton]
  · intro w n
    rw [hrecency, Std.TreeMap.getElem?_insert]
    by_cases hvw : v = w
    · subst hvw
      simp only [Std.compare_self, if_true, Option.some.injEq]
      constructor
      · rintro rfl
        exact ⟨_, .concat_self log v, htick⟩
      · rintro ⟨k, hk, hn⟩
        rw [hk.position_unique (.concat_self log v), ← htick] at hn
        exact (UInt64.toNat_inj.mp hn).symm
    · have hcompare : compare v w ≠ .eq := mt Std.compare_eq_iff_eq.mp hvw
      rw [if_neg hcompare, h.recency]
      simp only [LastAccess.concat_of_ne hvw]
  · intro w r hw
    rcases hresidents w r hw with rfl | hold
    · exact List.mem_append_right _ List.mem_cons_self
    · exact List.mem_append_left _ (h.residents hold)

theorem forget (h : f.Records log) (hc : f.Consistent) (v : Variable) : (f.forget v).Records log := by
  apply h.keep (f.clock_forget v) (f.recency_forget v)
  intro w r hw
  rw [hc.residency_forget] at hw
  split at hw
  · cases hw
  · exact hw

theorem exists_recency (h : f.Records log) : (∃ n, f.recency[v]? = some n) ↔ v ∈ log := by
  constructor
  · rintro ⟨n, hn⟩
    obtain ⟨k, hk, -⟩ := h.recency.mp hn
    exact exists_lastAccess.mp ⟨k, hk⟩
  · intro hv
    obtain ⟨k, hk⟩ := exists_lastAccess.mpr hv
    have hlt : k + 1 < UInt64.size := by
      have hk := hk.lt_length
      have hclock := f.clock.toNat_lt_size
      rw [h.clock] at hclock
      omega
    exact ⟨.ofNat (k + 1), h.recency.mpr ⟨k, hk, UInt64.toNat_ofNat_of_lt' hlt⟩⟩

theorem recency_inj (h : f.Records log) {n : UInt64} (hv : f.recency[v]? = some n) (hw : f.recency[w]? = some n) :
    v = w := by
  obtain ⟨k, hk, hn⟩ := h.recency.mp hv
  obtain ⟨l, hl, hn'⟩ := h.recency.mp hw
  obtain rfl : k = l := by omega
  exact hk.unique hl

theorem recencies_differ (h : f.Records log) (hv : v ∈ log) (hw : w ∈ log) (hvw : v ≠ w) :
    ∃ n m, f.recency[v]? = some n ∧ f.recency[w]? = some m ∧ n ≠ m := by
  obtain ⟨n, hn⟩ := h.exists_recency.mpr hv
  obtain ⟨m, hm⟩ := h.exists_recency.mpr hw
  refine ⟨n, m, hn, hm, ?_⟩
  rintro rfl
  exact hvw (h.recency_inj hn hm)

theorem recency_last (h : f.Records (log ++ [v])) :
    ∃ n, f.recency[v]? = some n ∧ ∀ (w : Variable) (m : UInt64), w ≠ v → f.recency[w]? = some m → m < n := by
  obtain ⟨n, hn⟩ := h.exists_recency.mpr (List.mem_append_right log (List.mem_singleton_self v))
  refine ⟨n, hn, ?_⟩
  intro w m hwv hm
  obtain ⟨k, hk, hn⟩ := h.recency.mp hn
  obtain ⟨l, hl, hm⟩ := h.recency.mp hm
  have hlast := hk.position_unique (.concat_self log v)
  have hlt := ((LastAccess.concat_of_ne (Ne.symm hwv)).mp hl).lt_length
  rw [UInt64.lt_iff_toNat_lt]
  omega

theorem agesDiffer (h : f.Records log) (hc : f.Consistent) : f.AgesDiffer := by
  intro i j v w hi hj hij hages
  obtain ⟨n, hn⟩ := h.exists_recency.mpr (h.residents (hc.resident hi))
  obtain ⟨m, hm⟩ := h.exists_recency.mpr (h.residents (hc.resident hj))
  have hage {u : Variable} {n : UInt64} (hu : f.recency[u]? = some n) : f.age u = n := by
    rw [age, Std.TreeMap.getD_eq_getD_getElem?, hu]
    rfl
  rw [hage hn, hage hm] at hages
  subst hages
  obtain rfl := h.recency_inj hn hm
  have hhome := hc.resident hi
  rw [hc.resident hj, Option.some.injEq, Register.ofIndex_inj] at hhome
  exact hij hhome.symm

end Records

end RegisterFile

namespace Allocation

variable {s t : Session} {strategy : Strategy} {call : Call}

def Call.access? : Call → Option Variable
  | .ensureResident v _ => some v
  | .define v _ => some v
  | _ => none

def Call.accessed? (strategy : Strategy) (s : Session) (call : Call) : Option Variable :=
  match (call.perform strategy).run s with
  | .ok _ _ => call.access?
  | .error _ _ => none

def Call.accesses (strategy : Strategy) (s : Session) : List Call → List Variable
  | [] => []
  | call :: calls => (call.accessed? strategy s).toList ++ accesses strategy (call.leave strategy s) calls

theorem Performed.records (h : Performed strategy s call t) (hc : s.file.Consistent) (hs : s.file.Records log)
    (hroom : (log ++ call.access?.toList).length < UInt64.size) : t.file.Records (log ++ call.access?.toList) := by
  rw [List.length_append] at hroom
  cases h with
  | ensureResident h =>
    have hresidents (w : Variable) (r : Register) (hw : t.file.residency[w]? = some r) := h.residency_of hw
    cases h with
    | resident h => exact hs.access hroom rfl rfl hresidents
    | loaded h hvacated =>
      cases hvacated with
      | free hfree => exact hs.access hroom rfl rfl hresidents
      | evicted hfull hw => exact hs.access hroom rfl rfl hresidents
  | acquireDestination h =>
    have hresidents (w : Variable) (r : Register) (hw : t.file.residency[w]? = some r) := h.residency_of hw
    simp only [Call.access?, Option.toList_none, List.append_nil]
    cases h with
    | free hfree => exact hs
    | evicted hfull hw => exact hs.keep rfl rfl hresidents
  | @define v i journal =>
    apply hs.access hroom (s.file.clock_define v i) (s.file.recency_define v i)
    intro w r hw
    by_cases hvw : v = w
    · exact .inl hvw
    · exact .inr (hc.residency_of_define hvw hw)
  | invalidate => simpa [Call.access?] using hs.forget hc _
  | reuseDead => simpa [Call.access?] using hs
  | selectVictim => simpa [Call.access?] using hs
  | pin =>
    simp only [Call.access?, Option.toList_none, List.append_nil]
    exact hs.repin _
  | unpin =>
    simp only [Call.access?, Option.toList_none, List.append_nil]
    exact hs.repin _

theorem leave_records (strategy : Strategy) (call : Call) (hc : s.file.Consistent) (hs : s.file.Records log)
    (hroom : (log ++ (call.accessed? strategy s).toList).length < UInt64.size) :
    (call.leave strategy s).file.Records (log ++ (call.accessed? strategy s).toList) := by
  unfold Call.accessed? Call.leave at *
  rcases perform_cases strategy hc call with ⟨t, hrun, ht⟩ | ⟨fault, t, ht⟩
  · simp only [hrun] at hroom ⊢
    exact ht.records hc hs hroom
  · simp only [perform_of_faulted strategy hc ht, Option.toList_none, List.append_nil]
    cases ht with
    | outOfRange hr => exact hs.forget hc _
    | noVictim hneeds hpinned => exact hs

theorem leaveAll_records (strategy : Strategy) (calls : List Call) (hc : s.file.Consistent) (hs : s.file.Records log)
    (hroom : (log ++ Call.accesses strategy s calls).length < UInt64.size) :
    (Call.leaveAll strategy s calls).file.Records (log ++ Call.accesses strategy s calls) := by
  induction calls generalizing s log with
  | nil =>
    rw [Call.accesses, List.append_nil]
    exact hs
  | cons call calls ih =>
    rw [Call.accesses, ← List.append_assoc] at hroom ⊢
    have hfirst : (log ++ (call.accessed? strategy s).toList).length < UInt64.size := by
      rw [List.length_append] at hroom
      omega
    exact ih (leave_consistent strategy hc call) (leave_records strategy call hc hs hfirst) hroom

/-- After any calls on a fresh register file, with fewer accesses than the clock can count, every resident has a
recency, which is the number of its last access; so no two of the variables accessed share one, and the last of them has
the greatest. Whatever is then pinned and whatever the next uses are, if a register can be evicted the victim is the one
variable that outranks all other candidates, and a scan of the candidates in any order would have found it. -/
theorem victim_is_strict_optimum (code : Array Machine.Instruction) (journal : Option (Array Event)) (calls : List Call)
    (hcount : (Call.accesses .nextUse ⟨.fresh, code, journal⟩ calls).length < UInt64.size) :
    let s := Call.leaveAll .nextUse ⟨.fresh, code, journal⟩ calls
    let log := Call.accesses .nextUse ⟨.fresh, code, journal⟩ calls
    (∀ (v : Variable) (r : Register), s.file.residency[v]? = some r → ∃ n, s.file.recency[v]? = some n) ∧
    (∀ (v : Variable) (n : UInt64), s.file.recency[v]? = some n ↔ ∃ k, LastAccess log v k ∧ n.toNat = k + 1) ∧
    (∀ v ∈ log, ∀ w ∈ log, v ≠ w →
      ∃ n m, s.file.recency[v]? = some n ∧ s.file.recency[w]? = some m ∧ n ≠ m) ∧
    (∀ earlier v, log = earlier ++ [v] → ∃ n, s.file.recency[v]? = some n ∧
      ∀ (w : Variable) (m : UInt64), w ≠ v → s.file.recency[w]? = some m → m < n) ∧
    ∀ (pinned : RegisterSet) (e : NextUse.Entry),
      let t : Session := { s with file := { s.file with pinned } }
      (∃ i, (t.file.slots.get i).isHeld = true ∧ pinned.contains i = false) →
        ∃ i v, (Alloc.selectVictim .nextUse e).run t = .ok (.ofIndex i, v) t ∧ t.file.IsBestVictim e i v ∧
          (∀ j w, t.file.IsBestVictim e j w → j = i ∧ w = v) ∧
          ∀ first others, (first :: others).Perm t.file.evictable →
            others.foldl (t.file.farther e) first = (.ofIndex i, v) := by
  intro s log
  have hc : s.file.Consistent := leaveAll_consistent .nextUse .fresh calls
  have hs : s.file.Records ([] ++ log) := leaveAll_records .nextUse calls .fresh .fresh hcount
  rw [List.nil_append] at hs
  refine ⟨fun v r hv => hs.exists_recency.mpr (hs.residents hv), fun v n => hs.recency, ?_, ?_, ?_⟩
  · intro v hv w hw hvw
    exact hs.recencies_differ hv hw hvw
  · intro earlier v hlog
    rw [hlog] at hs
    exact hs.recency_last
  · rintro pinned e t ⟨i, hheld, hunpinned⟩
    have ht : t.file.Records log := hs.repin pinned
    have hnonempty : t.file.evictable ≠ [] := RegisterFile.evictable_ne_nil hheld hunpinned
    have hages : t.file.AgesDiffer := ht.agesDiffer (hc.congr rfl rfl)
    obtain ⟨i, v, hvictim, hbest, hscan⟩ := RegisterFile.victim?_isBestVictim hages hnonempty e
    exact ⟨i, v, Alloc.run_selectVictim hvictim, hbest, fun j w h => h.unique hbest, hscan⟩

theorem victim_is_strict_optimum_tie :
    let calls : List Call := [.ensureResident (utf8 "a") ∅, .ensureResident (utf8 "b") ∅,
      .ensureResident (utf8 "c") ∅, .ensureResident (utf8 "a") ∅]
    let s := Call.leaveAll .nextUse ⟨.fresh, #[], none⟩ calls
    let t : Session := { s with file := { s.file with pinned := .ofList [.r3] } }
    let e := NextUse.Entry.ofPairs [(utf8 "a", .finite 5), (utf8 "b", .finite 5)]
    (Call.accesses .nextUse ⟨.fresh, #[], none⟩ calls).length < UInt64.size ∧
      (∃ i, (t.file.slots.get i).isHeld = true ∧ t.file.pinned.contains i = false) ∧
      (Alloc.selectVictim .nextUse e).run t = .ok (.ofIndex 1, utf8 "b") t ∧ t.file.IsBestVictim e 1 (utf8 "b") := by
  intro calls s t e
  have hcount : (Call.accesses .nextUse ⟨.fresh, #[], none⟩ calls).length < UInt64.size := by decide +kernel
  have hcandidate : ∃ i, (t.file.slots.get i).isHeld = true ∧ t.file.pinned.contains i = false := by decide +kernel
  have hchoice : t.file.victim? .nextUse e = some (.ofIndex 1, utf8 "b") := by decide +kernel
  have hchosen := Alloc.run_selectVictim hchoice
  obtain ⟨-, -, -, -, hvictim⟩ := victim_is_strict_optimum #[] none calls hcount
  obtain ⟨i, v, hrun, hbest, -⟩ := hvictim (.ofList [.r3]) e hcandidate
  rw [hchosen, EStateM.Result.ok.injEq, Prod.mk.injEq, Register.ofIndex_inj] at hrun
  obtain ⟨⟨rfl, rfl⟩, -⟩ := hrun
  exact ⟨hcount, hcandidate, hchosen, hbest⟩

end Allocation

end ThreeRegister
