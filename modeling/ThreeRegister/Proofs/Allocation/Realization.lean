import ThreeRegister.Proofs.Allocation.Outcome
import ThreeRegister.Proofs.Machine.Run

namespace ThreeRegister

namespace Machine

variable {f g : RegisterFile} {m n : Machine} {v w : Variable} {i : Fin 3}

theorem value_congr (hc : f.Consistent) (hr : g.residency[v]? = f.residency[v]?)
    (hregister : ∀ i, f.residency[v]? = some (.ofIndex i) → n.registers.get i = m.registers.get i)
    (hmemory : f.residency[v]? = none → n.memory.read v = m.memory.read v) :
    n.value g.residency v = m.value f.residency v := by
  cases hv : f.residency[v]? with
  | none =>
    rw [hv] at hr
    rw [value_of_absent hv, value_of_absent hr, hmemory hv]
  | some r =>
    obtain ⟨i, rfl, -⟩ := hc.homed hv
    rw [hv] at hr
    rw [value_of_resident hv, value_of_resident hr, hregister i hv]

theorem value_evict (m : Machine) (hc : f.Consistent) (hw : f.residency[w]? = some (.ofIndex i)) (v : Variable) :
    value { m with memory := m.memory.insert w (m.registers.get i) } (f.release w i).residency v =
      m.value f.residency v := by
  have hr := RegisterFile.residency_release f w v i
  by_cases hwv : w = v
  · subst hwv
    rw [if_pos rfl] at hr
    rw [value_of_absent hr, value_of_resident hw, Memory.read_insert, if_pos rfl]
  · rw [if_neg hwv] at hr
    refine value_congr hc hr (fun _ _ => rfl) ?_
    intro _
    rw [Memory.read_insert, if_neg hwv]

theorem value_load (m : Machine) (hc : f.Consistent) (hi : (f.slots.get i).isHeld = false)
    (hv : f.residency[v]? = none) (w : Variable) :
    value { m with registers := m.registers.update i (m.memory.read v) } (f.occupy v i).residency w =
      m.value f.residency w := by
  have hr := RegisterFile.residency_occupy f v w i
  by_cases hvw : v = w
  · subst hvw
    rw [if_pos rfl] at hr
    rw [value_of_resident hr, value_of_absent hv, Bank.get_update, if_pos rfl]
  · rw [if_neg hvw] at hr
    refine value_congr hc hr (fun j hj => ?_) fun _ => rfl
    have hij : i ≠ j := by
      rintro rfl
      rw [hc.held hj] at hi
      cases hi
    rw [Bank.get_update, if_neg hij]

theorem value_store (m : Machine) (hc : f.Consistent) (hv : f.residency[v]? = some (.ofIndex i)) (w : Variable) :
    value { m with memory := m.memory.insert v (m.registers.get i) } f.residency w = m.value f.residency w := by
  refine value_congr hc rfl (fun _ _ => rfl) ?_
  intro hw
  have hvw : v ≠ w := by
    rintro rfl
    rw [hv] at hw
    cases hw
  rw [Memory.read_insert, if_neg hvw]

theorem value_forget (m : Machine) (hc : f.Consistent) (v : Variable) (x : Int64) (w : Variable) :
    value { m with memory := m.memory.insert v x } (f.forget v).residency w =
      if v = w then x else m.value f.residency w := by
  have hr := hc.residency_forget v w
  by_cases hvw : v = w
  · rw [if_pos hvw] at hr ⊢
    rw [value_of_absent hr, Memory.read_insert, if_pos hvw]
  · rw [if_neg hvw] at hr ⊢
    refine value_congr hc hr (fun _ _ => rfl) ?_
    intro _
    rw [Memory.read_insert, if_neg hvw]

theorem value_define (m : Machine) (hc : f.Consistent) (hi : ∀ w, f.slots.get i = .held w → w = v) (x : Int64)
    (w : Variable) :
    value { m with registers := m.registers.update i x } (f.define v i).residency w =
      if v = w then x else m.value f.residency w := by
  by_cases hvw : v = w
  · subst hvw
    rw [if_pos rfl, value_of_resident (RegisterFile.residency_define_self f v i), Bank.get_update, if_pos rfl]
  · -- Another variable cannot be in the register that is overwritten, so it stays where it is.
    have hw : f.residency[w]? ≠ some (.ofIndex i) := fun h => hvw (hi w (hc.held h)).symm
    rw [if_neg hvw]
    refine value_congr hc (hc.residency_define_of_ne hvw hw) (fun j hj => ?_) fun _ => rfl
    have hij : i ≠ j := by
      rintro rfl
      exact hw hj
    rw [Bank.get_update, if_neg hij]

end Machine

/-- From the starting machine, the code written so far gives every variable its value in the store. -/
def Session.Realizes (s : Session) (start : Machine) (store : Memory) : Prop :=
  ∃ m, start.run s.code.toList = (m, none) ∧ ∀ v, m.value s.file.residency v = store.read v

/-- Code has been written that leaves every variable with the value it had, on whatever machine it is run. -/
def Session.Transparent (s t : Session) : Prop :=
  ∃ emitted, t.code.toList = s.code.toList ++ emitted ∧
    ∀ m : Machine, ∃ n, m.run emitted = (n, none) ∧ ∀ v, n.value t.file.residency v = m.value s.file.residency v

variable {s t : Session} {start : Machine} {store : Memory} {strategy : Strategy} {e : NextUse.Entry}
  {v w : Variable} {i : Fin 3}

namespace Session.Realizes

theorem congr (h : s.Realizes start store) (hr : t.file.residency = s.file.residency) (hc : t.code = s.code) :
    t.Realizes start store := by
  obtain ⟨m, hrun, hvalue⟩ := h
  refine ⟨m, ?_, ?_⟩
  · rw [hc]
    exact hrun
  · rw [hr]
    exact hvalue

theorem begin (recording : Bool) (start : Machine) :
    (Session.start .fresh recording).Realizes start start.memory := by
  refine ⟨start, rfl, fun v => Machine.value_of_absent ?_⟩
  simp [Session.start, RegisterFile.fresh]

theorem push {m n : Machine} {instruction : Machine.Instruction} {after : Memory}
    (hrun : start.run s.code.toList = (m, none)) (hstep : (Machine.step instruction).run m = .ok () n)
    (hcode : t.code = s.code.push instruction) (hvalue : ∀ v, n.value t.file.residency v = after.read v) :
    t.Realizes start after := by
  refine ⟨n, ?_, hvalue⟩
  rw [hcode, Array.toList_push]
  exact Machine.run_concat hrun hstep

theorem move (h : s.Realizes start store) (hc : s.file.Consistent) {dst src : Variable}
    (hsrc : s.file.residency[src]? = some (.ofIndex i)) (hcode : t.code = s.code.push (.store dst (.ofIndex i)))
    (hfile : t.file = if dst ≠ src then s.file.forget dst else s.file) :
    t.Realizes start (store.insert dst (store.read src)) := by
  obtain ⟨m, hrun, hvalue⟩ := h
  refine push hrun (m.step_store i dst) hcode ?_
  intro w
  rw [Memory.read_insert, ← hvalue w, ← hvalue src, hfile]
  by_cases hne : dst = src
  · -- A move of a variable to itself writes its own value to memory and leaves it in its register.
    subst hne
    rw [if_neg (fun h => h rfl), m.value_store hc hsrc]
    split
    · next hw => rw [hw]
    · rfl
  · rw [if_pos hne, m.value_forget hc, Machine.value_of_resident hsrc]

theorem operate (h : s.Realizes start store) (hc : s.file.Consistent) {dst left right : Variable} {op : Text}
    {d l r : Fin 3} {x : Int64} (hleft : s.file.residency[left]? = some (.ofIndex l))
    (hright : s.file.residency[right]? = some (.ofIndex r)) (hd : ∀ w, s.file.slots.get d = .held w → w = dst)
    (hx : eval op (store.read left) (store.read right) = .ok x)
    (hcode : t.code = s.code.push (.operate op (.ofIndex d) (.ofIndex l) (.ofIndex r)))
    (hfile : t.file.residency = (s.file.define dst d).residency) : t.Realizes start (store.insert dst x) := by
  obtain ⟨m, hrun, hvalue⟩ := h
  rw [← hvalue, ← hvalue, Machine.value_of_resident hleft, Machine.value_of_resident hright] at hx
  refine push hrun (Machine.step_operate_ok hx) hcode ?_
  intro w
  rw [hfile, m.value_define hc hd, hvalue, Memory.read_insert]

theorem operate_error (h : s.Realizes start store) {left right : Variable} {op : Text} {d l r : Fin 3}
    {cause : EvalError} (hleft : s.file.residency[left]? = some (.ofIndex l))
    (hright : s.file.residency[right]? = some (.ofIndex r))
    (hx : eval op (store.read left) (store.read right) = .error cause) :
    ∃ m, start.run (s.code.push (.operate op (.ofIndex d) (.ofIndex l) (.ofIndex r))).toList =
      (m, some ⟨s.code.size, .operate op (.ofIndex d) (.ofIndex l) (.ofIndex r), .failed cause⟩) := by
  obtain ⟨m, hrun, hvalue⟩ := h
  rw [← hvalue, ← hvalue, Machine.value_of_resident hleft, Machine.value_of_resident hright] at hx
  refine ⟨m, ?_⟩
  rw [Array.toList_push, Machine.run_concat_of_error hrun (Machine.step_operate_error hx), Array.length_toList]

end Session.Realizes

namespace Session.Transparent

theorem of_eq (hr : t.file.residency = s.file.residency) (hc : t.code = s.code) : s.Transparent t := by
  refine ⟨[], by rw [hc, List.append_nil], ?_⟩
  intro m
  refine ⟨m, rfl, ?_⟩
  rw [hr]
  exact fun v => rfl

theorem push {u : Session} (h : s.Transparent t) {instruction : Machine.Instruction}
    (hcode : u.code = t.code.push instruction)
    (hstep : ∀ m : Machine, ∃ n, (Machine.step instruction).run m = .ok () n ∧
      ∀ v, n.value u.file.residency v = m.value t.file.residency v) : s.Transparent u := by
  obtain ⟨emitted, hemitted, hruns⟩ := h
  refine ⟨emitted ++ [instruction], by rw [hcode, Array.toList_push, hemitted, List.append_assoc], ?_⟩
  intro m
  obtain ⟨n, hrun, hvalue⟩ := hruns m
  obtain ⟨k, hk, hvalue'⟩ := hstep n
  refine ⟨k, Machine.run_concat hrun hk, ?_⟩
  intro v
  rw [hvalue', hvalue]

theorem realizes (h : s.Transparent t) (hs : s.Realizes start store) : t.Realizes start store := by
  obtain ⟨emitted, hcode, hruns⟩ := h
  obtain ⟨m, hrun, hvalue⟩ := hs
  obtain ⟨n, hrun', hvalue'⟩ := hruns m
  refine ⟨n, ?_, ?_⟩
  · rw [hcode]
    exact Machine.run_append hrun hrun'
  · intro v
    rw [hvalue', hvalue]

end Session.Transparent

namespace Alloc

theorem Vacated.transparent (h : Vacated strategy e s i t) (hc : s.file.Consistent) : s.Transparent t := by
  cases h with
  | free h => exact .of_eq rfl rfl
  | @evicted w _ hfull hw =>
    apply (Session.Transparent.of_eq rfl rfl : s.Transparent s).push rfl
    intro m
    exact ⟨_, m.step_store i w, m.value_evict (hc.assignSpillSlot w) (hc.resident (victim_held hw).1)⟩

theorem Ensured.transparent (h : Ensured strategy v e s i t) (hc : s.file.Consistent) : s.Transparent t := by
  cases h with
  | resident h => exact .of_eq rfl rfl
  | loaded h hvacated =>
    apply (hvacated.transparent hc).push rfl
    intro m
    exact ⟨_, m.step_load i v, m.value_load (hvacated.consistent hc) hvacated.isHeld (hvacated.absent_of h)⟩

end Alloc

end ThreeRegister
