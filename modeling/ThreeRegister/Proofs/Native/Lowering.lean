import Mathlib.Data.List.Forall2
import ThreeRegister.Proofs.Machine.Run
import ThreeRegister.Proofs.Native.Execution

namespace ThreeRegister

namespace Native

theorem home_inj {i j : Fin 3} : home i = home j ↔ i = j := by
  revert i j
  decide

theorem home_ne_r11 (i : Fin 3) : home i ≠ .r11 := by
  revert i
  decide

theorem Gpr.ofRegister_eq_ok {r : Register} {g : Gpr} (h : Gpr.ofRegister r = .ok g) :
    ∃ i, r = .ofIndex i ∧ g = home i := by
  unfold Gpr.ofRegister at h
  split at h
  case h_1 i hi =>
    cases h
    exact ⟨i, Register.index?_eq_some.mp hi, rfl⟩
  case h_2 => cases h

theorem offset_eq_ok {layout : Layout} {v : Variable} {o : Int} (h : offset layout v = .ok o) :
    ∃ slot, layout[v]? = some slot ∧ o = slot * 8 := by
  unfold offset at h
  split at h
  case h_1 slot hslot =>
    cases h
    exact ⟨slot, hslot, rfl⟩
  case h_2 => cases h

inductive Lowered (layout : Layout) : Machine.Instruction → List Instruction → Prop
  | load {d : Fin 3} {v : Variable} {slot : Int} (hv : layout[v]? = some slot) :
    Lowered layout (.load (.ofIndex d) v) [.load (slot * 8) (home d)]
  | store {s : Fin 3} {v : Variable} {slot : Int} (hv : layout[v]? = some slot) :
    Lowered layout (.store v (.ofIndex s)) [.store (home s) (slot * 8)]
  | operate {op : Text} {a : Arith} {d l r : Fin 3} (hop : Arith.ofOperator op = .ok a) :
    Lowered layout (.operate op (.ofIndex d) (.ofIndex l) (.ofIndex r)) (arithmetic a (home d) (home l) (home r))

theorem lower_ok {layout : Layout} {i : Machine.Instruction} {natives : List Instruction}
    (h : lower layout i = .ok natives) : Lowered layout i natives := by
  cases i with
  | load dst v =>
    obtain ⟨g, hg, h⟩ := bind_eq_ok h
    obtain ⟨o, ho, h⟩ := bind_eq_ok h
    obtain ⟨d, rfl, rfl⟩ := Gpr.ofRegister_eq_ok hg
    obtain ⟨slot, hslot, rfl⟩ := offset_eq_ok ho
    cases h
    exact .load hslot
  | store v src =>
    obtain ⟨g, hg, h⟩ := bind_eq_ok h
    obtain ⟨o, ho, h⟩ := bind_eq_ok h
    obtain ⟨s, rfl, rfl⟩ := Gpr.ofRegister_eq_ok hg
    obtain ⟨slot, hslot, rfl⟩ := offset_eq_ok ho
    cases h
    exact .store hslot
  | operate op dst left right =>
    obtain ⟨a, ha, h⟩ := bind_eq_ok h
    obtain ⟨gd, hd, h⟩ := bind_eq_ok h
    obtain ⟨gl, hl, h⟩ := bind_eq_ok h
    obtain ⟨gr, hr, h⟩ := bind_eq_ok h
    obtain ⟨d, rfl, rfl⟩ := Gpr.ofRegister_eq_ok hd
    obtain ⟨l, rfl, rfl⟩ := Gpr.ofRegister_eq_ok hl
    obtain ⟨r, rfl, rfl⟩ := Gpr.ofRegister_eq_ok hr
    cases h
    exact .operate ha
  | undefined kind dst => cases h

theorem Arith.apply_comm {a : Arith} (h : a.isCommutative) (x y : BitVec 64) : a.apply x y = a.apply y x := by
  cases a with
  | add => exact BitVec.add_comm x y
  | sub => cases h
  | imul => exact BitVec.mul_comm x y
  | and => exact BitVec.and_comm x y
  | or => exact BitVec.or_comm x y
  | xor => exact BitVec.xor_comm x y

def Arith.operation : Arith → Operation
  | .add => .add
  | .sub => .sub
  | .imul => .mul
  | .and => .and
  | .or => .or
  | .xor => .xor

theorem Arith.result?_operation (a : Arith) (x y : Int64) :
    ∃ z, a.operation.result? x y = some z ∧ z.toBitVec = a.apply x.toBitVec y.toBitVec := by
  cases a with
  | add => exact ⟨_, rfl, Int64.toBitVec_add⟩
  | sub => exact ⟨_, rfl, Int64.toBitVec_sub⟩
  | imul => exact ⟨_, rfl, Int64.toBitVec_mul⟩
  | and => exact ⟨_, rfl, Int64.toBitVec_and x y⟩
  | or => exact ⟨_, rfl, Int64.toBitVec_or x y⟩
  | xor => exact ⟨_, rfl, Int64.toBitVec_xor x y⟩

theorem ofText?_operators : ∀ o ∈ operators, Operation.ofText? (utf8 o.1) = some o.2.operation := by
  decide +kernel

theorem eval_of_ofOperator {op : Text} {a : Arith} (h : Arith.ofOperator op = .ok a) (x y : Int64) :
    ∃ z, eval op x y = .ok z ∧ z.toBitVec = a.apply x.toBitVec y.toBitVec := by
  unfold Arith.ofOperator at h
  split at h
  case h_1 o ho =>
    cases h
    have hop : utf8 o.1 = op := by simpa using List.find?_some ho
    have hoperation := ofText?_operators o (List.mem_of_find?_eq_some ho)
    obtain ⟨z, hz, hvalue⟩ := o.2.result?_operation x y
    refine ⟨z, ?_, hvalue⟩
    rw [hop] at hoperation
    simp only [eval, hoperation, hz]
  case h_2 => cases h

namespace Processor

structure Assigned (p : Processor) (g : Gpr) (x : BitVec 64) (q : Processor) : Prop where
  value : q.registers g.number = x
  elsewhere : ∀ n, n ≠ g.number → n ≠ Gpr.r11.number → q.registers n = p.registers n
  storage : q.storage = p.storage

variable {p q t : Processor} {x y : BitVec 64}

theorem Assigned.trans {g h : Gpr} (hp : p.Assigned g x q) (hgh : g = h ∨ g = .r11) (hq : q.Assigned h y t) :
    p.Assigned h y t := by
  refine ⟨hq.value, ?_, hq.storage.trans hp.storage⟩
  intro n hn hscratch
  have hg : n ≠ g.number := by
    rcases hgh with rfl | rfl
    · exact hn
    · exact hscratch
  rw [hq.elsewhere n hn hscratch, hp.elsewhere n hg hscratch]

theorem Assigned.keeps {g h : Gpr} (hp : p.Assigned g x q) (hne : h ≠ g) (hscratch : h ≠ .r11) :
    q.registers h.number = p.registers h.number :=
  hp.elsewhere h.number (mt Gpr.number_inj.mp hne) (mt Gpr.number_inj.mp hscratch)

theorem assigned_set (p : Processor) (g : Gpr) (x : BitVec 64) (pc : Nat) :
    p.Assigned g x { p.set x (.register g.number) with pc } := by
  refine ⟨Function.update_self .., ?_, rfl⟩
  intro n hn _
  exact Function.update_of_ne hn ..

theorem assigned_move (p : Processor) (s d : Gpr) :
    p.Assigned d (p.registers s.number) (p.execute (.move s d)) :=
  p.assigned_set d _ _

theorem assigned_arith (p : Processor) (a : Arith) (s d : Gpr) :
    p.Assigned d (a.apply (p.registers d.number) (p.registers s.number)) (p.execute (.arith a s d)) :=
  p.assigned_set d _ _

theorem assigned_arithmetic (p : Processor) (a : Arith) {d l r : Gpr} (hr : r ≠ .r11) :
    p.Assigned d (a.apply (p.registers l.number) (p.registers r.number)) (p.executeAll (arithmetic a d l r)) := by
  unfold arithmetic
  split
  case isTrue hdl =>
    subst hdl
    exact p.assigned_arith a r d
  case isFalse hdl =>
    split
    case isTrue hdr =>
      subst hdr
      split
      case isTrue hcomm =>
        rw [Arith.apply_comm hcomm]
        exact p.assigned_arith a l d
      case isFalse hcomm =>
        -- The destination is still read after the first move, so the result is made in R11.
        have hmove := p.assigned_move l .r11
        have harith := (p.execute (.move l .r11)).assigned_arith a d .r11
        rw [hmove.value, hmove.keeps hr hr] at harith
        have hback := ((p.execute (.move l .r11)).execute (.arith a d .r11)).assigned_move .r11 d
        rw [harith.value] at hback
        exact (hmove.trans (.inl rfl) harith).trans (.inr rfl) hback
    case isFalse hdr =>
      have hmove := p.assigned_move l d
      have harith := (p.execute (.move l d)).assigned_arith a r d
      rw [hmove.value, hmove.keeps (Ne.symm hdr) hr] at harith
      exact hmove.trans (.inl rfl) harith

def slot (p : Processor) (i : Int) : BitVec 64 :=
  p.storage.read (p.registers baseNumber + BitVec.ofInt 64 (i * 8))

theorem Assigned.base {g : Gpr} (h : p.Assigned g x q) : q.registers baseNumber = p.registers baseNumber :=
  h.elsewhere baseNumber (Ne.symm g.number_ne_base) (Ne.symm Gpr.r11.number_ne_base)

theorem Assigned.slot {g : Gpr} (h : p.Assigned g x q) (i : Int) : q.slot i = p.slot i := by
  rw [Processor.slot, Processor.slot, h.base, h.storage]

theorem slot_store_self (p : Processor) (g : Gpr) (i : Int) :
    (p.execute (.store g (i * 8))).slot i = p.registers g.number :=
  Storage.read_write_self ..

theorem slot_store_of_ne (p : Processor) (g : Gpr) {i j : Int} (hne : i ≠ j) (hi : InRange (i * 8))
    (hj : InRange (j * 8)) : (p.execute (.store g (i * 8))).slot j = p.slot j :=
  Storage.read_write_away _ (away_of_ne _ (Ne.symm hne) hj hi) (away_of_ne _ hne hi hj)

end Processor

structure Separated (layout : Layout) : Prop where
  distinct : ∀ {v w : Variable} {slot : Int}, layout[v]? = some slot → layout[w]? = some slot → v = w
  inRange : ∀ {v : Variable} {slot : Int}, layout[v]? = some slot → InRange (slot * 8)

structure Mirrors (layout : Layout) (m : Machine) (p : Processor) : Prop where
  homes : ∀ i, p.registers (home i).number = (m.registers.get i).toBitVec
  slots : ∀ {v : Variable} {slot : Int}, layout[v]? = some slot → p.slot slot = (m.memory.read v).toBitVec

namespace Mirrors

variable {layout : Layout} {m : Machine} {p q : Processor}

theorem assign {d : Fin 3} {x : Int64} (hm : Mirrors layout m p) (h : p.Assigned (home d) x.toBitVec q) :
    Mirrors layout { m with registers := m.registers.update d x } q := by
  constructor
  · intro i
    rw [Bank.get_update]
    by_cases hi : d = i
    · rw [if_pos hi, ← hi, h.value]
    · rw [if_neg hi, ← hm.homes i, h.keeps (mt home_inj.mp (Ne.symm hi)) (home_ne_r11 i)]
  · intro v slot hv
    rw [h.slot, hm.slots hv]

theorem load {d : Fin 3} {v : Variable} {slot : Int} (hm : Mirrors layout m p) (hv : layout[v]? = some slot) :
    Mirrors layout { m with registers := m.registers.update d (m.memory.read v) }
      (p.execute (.load (slot * 8) (home d))) := by
  have hassigned : p.Assigned (home d) (p.slot slot) (p.execute (.load (slot * 8) (home d))) :=
    p.assigned_set (home d) _ _
  rw [hm.slots hv] at hassigned
  exact hm.assign hassigned

theorem store {i : Fin 3} {v : Variable} {slot : Int} (hm : Mirrors layout m p) (hlayout : Separated layout)
    (hv : layout[v]? = some slot) :
    Mirrors layout { m with memory := m.memory.insert v (m.registers.get i) }
      (p.execute (.store (home i) (slot * 8))) := by
  refine ⟨hm.homes, ?_⟩
  intro w other hw
  rw [Memory.read_insert]
  by_cases hvw : v = w
  · subst hvw
    obtain rfl : slot = other := Option.some.inj (hv.symm.trans hw)
    rw [if_pos rfl, Processor.slot_store_self, hm.homes i]
  · have hne : slot ≠ other := by
      rintro rfl
      exact hvw (hlayout.distinct hv hw)
    rw [if_neg hvw, Processor.slot_store_of_ne p _ hne (hlayout.inRange hv) (hlayout.inRange hw), hm.slots hw]

end Mirrors

namespace Lowered

variable {layout : Layout} {i : Machine.Instruction} {natives : List Instruction}

theorem encodable (h : Lowered layout i natives) (hlayout : Separated layout) :
    ∀ j ∈ natives, j.Encodable ∧ j ≠ .ret := by
  intro j hj
  cases h with
  | load hv =>
    cases List.mem_singleton.mp hj
    exact ⟨hlayout.inRange hv, nofun⟩
  | store hv =>
    cases List.mem_singleton.mp hj
    exact ⟨hlayout.inRange hv, nofun⟩
  | operate hop =>
    cases j with
    | move src dst => exact ⟨trivial, nofun⟩
    | arith a src dst => exact ⟨trivial, nofun⟩
    | _ => grind [arithmetic]

theorem step_ok (h : Lowered layout i natives) (m : Machine) : ∃ n, (Machine.step i).run m = .ok () n := by
  cases h with
  | load hv => exact ⟨_, m.step_load _ _⟩
  | store hv => exact ⟨_, m.step_store _ _⟩
  | @operate op a d l r hop =>
    obtain ⟨z, hz, -⟩ := eval_of_ofOperator hop (m.registers.get l) (m.registers.get r)
    exact ⟨_, Machine.step_operate_ok hz⟩

theorem simulates {m : Machine} {p : Processor} (h : Lowered layout i natives) (hlayout : Separated layout)
    (hm : Mirrors layout m p) : ∃ n, (Machine.step i).run m = .ok () n ∧ Mirrors layout n (p.executeAll natives) := by
  cases h with
  | load hv => exact ⟨_, m.step_load _ _, hm.load hv⟩
  | store hv => exact ⟨_, m.step_store _ _, hm.store hlayout hv⟩
  | @operate op a d l r hop =>
    obtain ⟨z, hz, hvalue⟩ := eval_of_ofOperator hop (m.registers.get l) (m.registers.get r)
    have hassigned := p.assigned_arithmetic a (d := home d) (l := home l) (home_ne_r11 r)
    rw [hm.homes, hm.homes, ← hvalue] at hassigned
    exact ⟨_, Machine.step_operate_ok hz, hm.assign hassigned⟩

theorem run_ok {code : List Machine.Instruction} {parts : List (List Instruction)}
    (h : List.Forall₂ (Lowered layout) code parts) (m : Machine) (position : Nat) :
    ∃ n, (Machine.runFrom position code).run m = .ok () n := by
  induction h generalizing m position with
  | nil => exact ⟨m, rfl⟩
  | cons hi _ ih =>
    obtain ⟨k, hstep⟩ := hi.step_ok m
    obtain ⟨n, hrun⟩ := ih k (position + 1)
    refine ⟨n, ?_⟩
    rw [Machine.run_runFrom_cons, hstep]
    exact hrun

end Lowered

theorem mapM_lower_ok {layout : Layout} {code : List Machine.Instruction} {position : Nat}
    {parts : List (List Instruction)}
    (h : (code.zipIdx position).mapM (fun i => (lower layout i.1).mapError (AssemblyError.mk i.2 i.1 ·)) = .ok parts) :
    List.Forall₂ (Lowered layout) code parts :=
  forall₂_of_mapM_zipIdx (fun _ _ _ hpart => lower_ok (mapError_eq_ok hpart)) h

theorem assemble_ok {layout : Layout} {code : List Machine.Instruction} {bytes : List UInt8}
    (h : assemble layout code = .ok bytes) :
    ∃ parts, List.Forall₂ (Lowered layout) code parts ∧ body layout code = .ok parts.flatten ∧
      bytes = assumedEncoding parts.flatten := by
  obtain ⟨natives, hbody, hbytes⟩ := bind_eq_ok h
  obtain ⟨parts, hparts, hnatives⟩ := bind_eq_ok hbody
  cases hbytes
  cases hnatives
  exact ⟨parts, mapM_lower_ok hparts, hbody, rfl⟩

theorem assemble_run_ok {layout : Layout} {code : List Machine.Instruction} {bytes : List UInt8}
    (h : assemble layout code = .ok bytes) (m : Machine) : ∃ n, m.run code = (n, none) := by
  obtain ⟨parts, hlowered, -⟩ := assemble_ok h
  obtain ⟨n, hrun⟩ := Lowered.run_ok hlowered m 0
  exact ⟨n, Machine.run_eq_ok.mpr hrun⟩

theorem Processor.registers_execute (p : Processor) (i : Instruction) {n : Fin 16} (hn : ∀ g : Gpr, n ≠ g.number) :
    (p.execute i).registers n = p.registers n := by
  cases i with
  | load offset dst => exact Function.update_of_ne (hn dst) ..
  | move src dst => exact Function.update_of_ne (hn dst) ..
  | arith a src dst => exact Function.update_of_ne (hn dst) ..
  | _ => rfl

theorem Processor.registers_executeAll (p : Processor) (natives : List Instruction) {n : Fin 16}
    (hn : ∀ g : Gpr, n ≠ g.number) : (p.executeAll natives).registers n = p.registers n := by
  induction natives generalizing p with
  | nil => rfl
  | cons i natives ih => exact (ih (p.execute i)).trans (p.registers_execute i hn)

end Native

end ThreeRegister
