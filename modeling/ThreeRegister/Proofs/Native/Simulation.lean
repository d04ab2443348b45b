import ThreeRegister.Proofs.Native.Lowering

namespace ThreeRegister

namespace Native

variable {layout : Layout} {bytes rest : List UInt8} {code : List Machine.Instruction} {i : Machine.Instruction}
  {natives : List Instruction} {parts : List (List Instruction)} {m n : Machine} {p q t : Processor}

/-- The byte at an address is none of the eight of a slot. -/
def Processor.Outside (p : Processor) (slot : Int) (a : BitVec 64) : Prop :=
  8 ≤ (a - (p.registers baseNumber + BitVec.ofInt 64 (slot * 8))).toNat

/-- An instruction has been performed on both sides. Of the processor's memory, it has changed at most the slot that it
stores to. -/
structure Performs (layout : Layout) (bytes : List UInt8) (i : Machine.Instruction) (m : Machine) (p : Processor)
    (n : Machine) (q : Processor) : Prop where
  step : (Machine.step i).run m = .ok () n
  reaches : Processor.Reaches bytes p q
  mirrors : Mirrors layout n q
  registers : ∀ r, (∀ g : Gpr, r ≠ g.number) → q.registers r = p.registers r
  storage : ∀ a, (∀ v src slot, i = .store v src → layout[v]? = some slot → p.Outside slot a) →
    q.storage a = p.storage a

inductive Lockstep (layout : Layout) (bytes : List UInt8) :
    List Machine.Instruction → Machine → Processor → Machine → Processor → Prop
  | nil {m : Machine} {p : Processor} : Lockstep layout bytes [] m p m p
  | cons {i : Machine.Instruction} {code : List Machine.Instruction} {m n k : Machine} {p q t : Processor}
      (hfirst : Performs layout bytes i m p k q) (hrest : Lockstep layout bytes code k q n t) :
      Lockstep layout bytes (i :: code) m p n t

theorem Lowered.storage (h : Lowered layout i natives) (p : Processor) {a : BitVec 64}
    (ha : ∀ v src slot, i = .store v src → layout[v]? = some slot → p.Outside slot a) :
    (p.executeAll natives).storage a = p.storage a := by
  cases h with
  | load hv => rfl
  | store hv => exact Storage.write_away _ (ha _ _ _ rfl hv)
  | @operate op b d l r hop => rw [(p.assigned_arithmetic b (home_ne_r11 r)).storage]

theorem Lowered.performs (h : Lowered layout i natives) (hlayout : Separated layout) (hm : Mirrors layout m p)
    (hbytes : bytes.drop p.pc = encode natives ++ rest) :
    ∃ n, Performs layout bytes i m p n (p.executeAll natives) ∧ bytes.drop (p.executeAll natives).pc = rest := by
  obtain ⟨n, hstep, hn⟩ := h.simulates hlayout hm
  obtain ⟨hreaches, hrest⟩ := Processor.reaches_executeAll (h.encodable hlayout) hbytes
  exact ⟨n, ⟨hstep, hreaches, hn, fun r hr => p.registers_executeAll natives hr, fun a => h.storage p⟩, hrest⟩

theorem Lowered.lockstep (h : List.Forall₂ (Lowered layout) code parts) (hlayout : Separated layout)
    (hm : Mirrors layout m p) (hbytes : bytes.drop p.pc = encode parts.flatten ++ rest) :
    ∃ n q, Lockstep layout bytes code m p n q ∧ bytes.drop q.pc = rest := by
  induction h generalizing m p with
  | nil => exact ⟨m, p, .nil, hbytes⟩
  | cons hi _ ih =>
    rw [List.flatten_cons, encode, List.flatMap_append, List.append_assoc] at hbytes
    obtain ⟨k, hfirst, hdrop⟩ := hi.performs hlayout hm hbytes
    obtain ⟨n, q, hrest, hend⟩ := ih hfirst.mirrors hdrop
    exact ⟨n, q, .cons hfirst hrest, hend⟩

namespace Lockstep

theorem runFrom (h : Lockstep layout bytes code m p n q) (position : Nat) :
    (Machine.runFrom position code).run m = .ok () n := by
  induction h generalizing position with
  | nil => rfl
  | cons hfirst hrest ih =>
    rw [Machine.run_runFrom_cons, hfirst.step]
    exact ih (position + 1)

theorem reaches (h : Lockstep layout bytes code m p n q) : Processor.Reaches bytes p q := by
  induction h with
  | nil => exact .refl
  | cons hfirst hrest ih => exact hfirst.reaches.trans ih

theorem mirrors (h : Lockstep layout bytes code m p n q) (hm : Mirrors layout m p) : Mirrors layout n q := by
  induction h with
  | nil => exact hm
  | cons hfirst hrest ih => exact ih hfirst.mirrors

theorem registers (h : Lockstep layout bytes code m p n q) {r : Fin 16} (hr : ∀ g : Gpr, r ≠ g.number) :
    q.registers r = p.registers r := by
  induction h with
  | nil => rfl
  | cons hfirst hrest ih => rw [ih, hfirst.registers r hr]

theorem storage (h : Lockstep layout bytes code m p n q) {a : BitVec 64}
    (ha : ∀ v src slot, .store v src ∈ code → layout[v]? = some slot → p.Outside slot a) :
    q.storage a = p.storage a := by
  induction h with
  | nil => rfl
  | @cons i code m n k p q t hfirst hrest ih =>
    have hbase : q.registers baseNumber = p.registers baseNumber :=
      hfirst.registers _ fun g => Ne.symm g.number_ne_base
    rw [ih, hfirst.storage]
    · rintro v src slot rfl
      exact ha v src slot List.mem_cons_self
    · intro v src slot hmem
      rw [Processor.Outside, hbase]
      exact ha v src slot (List.mem_cons_of_mem _ hmem)

end Lockstep

theorem Mirrors.congr (h : Mirrors layout m p) (hr : t.registers = p.registers) (hs : t.storage = p.storage) :
    Mirrors layout m t := by
  constructor
  · rw [hr]
    exact h.homes
  · intro v slot hv
    rw [Processor.slot, hr, hs]
    exact h.slots hv

theorem assemble_lockstep (h : assemble layout code = .ok bytes) (hlayout : Separated layout) (hpc : p.pc = 0)
    (hm : Mirrors layout m p) :
    ∃ n q t, Lockstep layout bytes code m p n q ∧ Processor.Reaches bytes q t ∧ t.AtReturn bytes ∧
      t.registers = q.registers ∧ t.storage = q.storage := by
  obtain ⟨parts, hlowered, -, hbytes⟩ := assemble_ok h
  have hstart : bytes.drop p.pc = encode parts.flatten ++ encode (epilogue (encode parts.flatten).length) := by
    rw [hpc, List.drop_zero, hbytes, assumedEncoding]
  obtain ⟨n, q, hlockstep, hrest⟩ := Lowered.lockstep hlowered hlayout hm hstart
  obtain ⟨t, ht⟩ := Processor.reaches_return hrest
  exact ⟨n, q, t, hlockstep, ht⟩

theorem assemble_simulates (h : assemble layout code = .ok bytes) (hlayout : Separated layout) (hpc : p.pc = 0)
    (hm : Mirrors layout m p) :
    ∃ n t, m.run code = (n, none) ∧ Processor.Reaches bytes p t ∧ t.AtReturn bytes ∧ Mirrors layout n t ∧
      ∀ r, (∀ g : Gpr, r ≠ g.number) → t.registers r = p.registers r := by
  obtain ⟨n, q, t, hlockstep, hreaches, hat, hregisters, hstorage⟩ := assemble_lockstep h hlayout hpc hm
  refine ⟨n, t, Machine.run_eq_ok.mpr (hlockstep.runFrom 0), hlockstep.reaches.trans hreaches, hat,
    (hlockstep.mirrors hm).congr hregisters hstorage, ?_⟩
  intro r hr
  rw [hregisters, hlockstep.registers hr]

def supportedOperators : List Text :=
  ["+", "-", "*", "&", "|", "^"].map utf8

def Lowerable (layout : Layout) : Machine.Instruction → Prop
  | .load dst v => dst.isValid ∧ v ∈ layout
  | .store v src => src.isValid ∧ v ∈ layout
  | .operate op dst left right =>
    op ∈ supportedOperators ∧ dst.isValid ∧ left.isValid ∧ right.isValid
  | .undefined _ _ => False

instance : DecidablePred (Lowerable layout)
  | .load dst v => inferInstanceAs (Decidable (dst.isValid ∧ v ∈ layout))
  | .store v src => inferInstanceAs (Decidable (src.isValid ∧ v ∈ layout))
  | .operate op dst left right => inferInstanceAs (Decidable
      (op ∈ supportedOperators ∧ dst.isValid ∧ left.isValid ∧ right.isValid))
  | .undefined _ _ => inferInstanceAs (Decidable False)

theorem Gpr.exists_ofRegister {r : Register} (h : r.isValid) : ∃ g, Gpr.ofRegister r = .ok g := by
  obtain ⟨i, hi⟩ := Option.isSome_iff_exists.mp h
  exact ⟨home i, by rw [Gpr.ofRegister, hi]⟩

theorem exists_offset {v : Variable} (h : v ∈ layout) : ∃ o, offset layout v = .ok o := by
  obtain ⟨slot, hslot⟩ := Option.isSome_iff_exists.mp (Std.TreeMap.isSome_getElem?_iff_mem.mpr h)
  exact ⟨slot * 8, by rw [offset, hslot]⟩

theorem mem_supportedOperators {op : Text} : op ∈ supportedOperators ↔ ∃ o ∈ operators, utf8 o.1 = op := by
  have hnames : supportedOperators = operators.map fun o => utf8 o.1 := rfl
  rw [hnames, List.mem_map]

theorem Arith.exists_ofOperator {op : Text} (h : op ∈ supportedOperators) : ∃ a, Arith.ofOperator op = .ok a := by
  obtain ⟨o, ho, hop⟩ := mem_supportedOperators.mp h
  have hfound : (operators.find? fun o => utf8 o.1 = op).isSome :=
    List.find?_isSome.mpr ⟨o, ho, decide_eq_true hop⟩
  obtain ⟨found, hfound⟩ := Option.isSome_iff_exists.mp hfound
  exact ⟨found.2, by rw [Arith.ofOperator, hfound]⟩

theorem Arith.ofOperator_error {op : Text} (h : op ∉ supportedOperators) :
    Arith.ofOperator op = .error (.unsupportedOperator op) := by
  have hnone : (operators.find? fun o => utf8 o.1 = op) = none := by
    rw [List.find?_eq_none]
    intro o ho hop
    exact h (mem_supportedOperators.mpr ⟨o, ho, of_decide_eq_true hop⟩)
  rw [Arith.ofOperator, hnone]

theorem exists_lower (h : Lowerable layout i) : ∃ natives, lower layout i = .ok natives := by
  cases i with
  | load dst v =>
    obtain ⟨g, hg⟩ := Gpr.exists_ofRegister h.1
    obtain ⟨o, ho⟩ := exists_offset h.2
    exact ⟨_, by rw [lower, hg, ho]; rfl⟩
  | store v src =>
    obtain ⟨g, hg⟩ := Gpr.exists_ofRegister h.1
    obtain ⟨o, ho⟩ := exists_offset h.2
    exact ⟨_, by rw [lower, hg, ho]; rfl⟩
  | operate op dst left right =>
    obtain ⟨hop, hdst, hleft, hright⟩ := h
    obtain ⟨a, ha⟩ := Arith.exists_ofOperator hop
    obtain ⟨d, hd⟩ := Gpr.exists_ofRegister hdst
    obtain ⟨l, hl⟩ := Gpr.exists_ofRegister hleft
    obtain ⟨r, hr⟩ := Gpr.exists_ofRegister hright
    exact ⟨_, by rw [lower, ha, hd, hl, hr]; rfl⟩
  | undefined kind dst => cases h

theorem exists_assemble (h : ∀ i ∈ code, Lowerable layout i) : ∃ bytes, assemble layout code = .ok bytes := by
  choose! natives hnatives using fun i hi => exists_lower (h i hi)
  have hparts : List.Forall₂ (fun i part => lower layout i = .ok part) code (code.map natives) :=
    List.forall₂_map_right_iff.mpr (List.forall₂_same.mpr hnatives)
  have hbody : body layout code = .ok (code.map natives).flatten := by
    rw [body, mapM_zipIdx_of_forall₂ _ hparts 0]
    · rfl
    · intro i position part hpart
      rw [hpart]
      rfl
  exact ⟨_, by rw [assemble, hbody]; rfl⟩

/-- The code can be assembled, to the bytes that are assumed of its lowered instructions. The processor that runs them
follows the machine from instruction to instruction, up to the return. -/
theorem assembled_code_simulates (hlayout : Separated layout) (hcode : ∀ i ∈ code, Lowerable layout i) :
    ∃ natives bytes, body layout code = .ok natives ∧ bytes = assumedEncoding natives ∧
      assemble layout code = .ok bytes ∧ ∀ (m : Machine) (p : Processor), p.pc = 0 → Mirrors layout m p →
      ∃ n q t, m.run code = (n, none) ∧ Lockstep layout bytes code m p n q ∧ Processor.Reaches bytes q t ∧
        Processor.Reaches bytes p t ∧ t.AtReturn bytes ∧ Mirrors layout n t ∧
        (∀ r, (∀ g : Gpr, r ≠ g.number) → t.registers r = p.registers r) ∧
        ∀ a, (∀ v src slot, .store v src ∈ code → layout[v]? = some slot → p.Outside slot a) →
          t.storage a = p.storage a := by
  obtain ⟨bytes, hbytes⟩ := exists_assemble hcode
  obtain ⟨parts, -, hbody, hencoding⟩ := assemble_ok hbytes
  refine ⟨parts.flatten, bytes, hbody, hencoding, hbytes, ?_⟩
  intro m p hpc hm
  obtain ⟨n, q, t, hlockstep, hreaches, hat, hregisters, hstorage⟩ := assemble_lockstep hbytes hlayout hpc hm
  refine ⟨n, q, t, Machine.run_eq_ok.mpr (hlockstep.runFrom 0), hlockstep, hreaches, hlockstep.reaches.trans hreaches, hat,
    (hlockstep.mirrors hm).congr hregisters hstorage, ?_, ?_⟩
  · intro r hr
    rw [hregisters, hlockstep.registers hr]
  · intro a ha
    rw [hstorage, hlockstep.storage ha]

def belowAndAbove : Layout :=
  .ofPairs [(utf8 "a", -1), (utf8 "b", 16)]

theorem belowAndAbove_cases {v : Variable} {slot : Int} (h : belowAndAbove[v]? = some slot) :
    (v = utf8 "a" ∧ slot = -1) ∨ (v = utf8 "b" ∧ slot = 16) := by
  have hlist : belowAndAbove.toList = [(utf8 "a", -1), (utf8 "b", 16)] := by decide +kernel
  have hmem := Std.TreeMap.mem_toList_iff_getElem?_eq_some.mpr h
  rw [hlist] at hmem
  simpa using hmem

theorem separated_belowAndAbove : Separated belowAndAbove := by
  constructor
  · intro v w slot hv hw
    obtain ⟨rfl, rfl⟩ | ⟨rfl, rfl⟩ := belowAndAbove_cases hv
    · obtain ⟨rfl, -⟩ | ⟨-, hslot⟩ := belowAndAbove_cases hw
      · rfl
      · cases hslot
    · obtain ⟨-, hslot⟩ | ⟨rfl, -⟩ := belowAndAbove_cases hw
      · cases hslot
      · rfl
  · intro v slot hv
    rw [InRange]
    obtain ⟨-, rfl⟩ | ⟨-, rfl⟩ := belowAndAbove_cases hv <;> omega

def fiveTwelve : Processor :=
  ⟨0, fun r => if r = baseNumber then 64 else 0, (Storage.write (fun _ => 0) 56 5).write 192 12⟩

theorem mirrors_fiveTwelve :
    Mirrors belowAndAbove (.ofMemory (.ofPairs [(utf8 "a", 5), (utf8 "b", 12)])) fiveTwelve := by
  constructor
  · decide +kernel
  · intro v slot hv
    obtain ⟨rfl, rfl⟩ | ⟨rfl, rfl⟩ := belowAndAbove_cases hv <;> decide +kernel

theorem assembled_code_simulates_scratch :
    let code : List Machine.Instruction := [.load .r1 (utf8 "a"), .load .r2 (utf8 "b"),
      .operate (utf8 "-") .r2 .r1 .r2, .store (utf8 "b") .r2]
    Separated belowAndAbove ∧ (∀ i ∈ code, Lowerable belowAndAbove i) ∧
      ∃ bytes t, assemble belowAndAbove code = .ok bytes ∧ Processor.Reaches bytes fiveTwelve t ∧
        t.AtReturn bytes ∧ t.slot 16 = -7 ∧ t.slot (-1) = 5 ∧ t.registers Gpr.dx.number = -7 := by
  intro code
  have hcode : ∀ i ∈ code, Lowerable belowAndAbove i := by decide +kernel
  refine ⟨separated_belowAndAbove, hcode, ?_⟩
  obtain ⟨natives, bytes, -, -, hbytes, hruns⟩ := assembled_code_simulates separated_belowAndAbove hcode
  obtain ⟨n, q, t, hrun, -, -, hreaches, hat, hn, -⟩ := hruns _ fiveTwelve rfl mirrors_fiveTwelve
  have hlast : n.registers.get 1 = -7 ∧ n.memory.read (utf8 "a") = 5 ∧ n.memory.read (utf8 "b") = -7 := by
    obtain rfl := congrArg Prod.fst hrun
    decide +kernel
  obtain ⟨hr, ha, hb⟩ := hlast
  refine ⟨bytes, t, hbytes, hreaches, hat, ?_, ?_, ?_⟩
  · rw [hn.slots (show belowAndAbove[utf8 "b"]? = some 16 by decide +kernel), hb]
    rfl
  · rw [hn.slots (show belowAndAbove[utf8 "a"]? = some (-1) by decide +kernel), ha]
    rfl
  · exact (hn.homes 1).trans (congrArg Int64.toBitVec hr)

end Native

end ThreeRegister
