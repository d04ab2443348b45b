import ThreeRegister.Proofs.Generation.Totality
import ThreeRegister.Proofs.NextUse.ClosedForm

namespace ThreeRegister

open Alloc

def Source.Instruction.operator? : Source.Instruction → Option Text
  | .move .. => none
  | .binary _ _ op _ => some op
  | .foreign _ => none

theorem Source.Instruction.operator?_eq_some {i : Source.Instruction} {op : Text} :
    i.operator? = some op ↔ ∃ dst left right, i = .binary dst left op right := by
  cases i <;> simp [operator?]

theorem Source.Block.mem_vars {block : Source.Block} {v : Variable} :
    v ∈ block.vars ↔ ∃ i ∈ block, i.Mentions v := by
  simp [Source.Block.vars, List.mem_eraseDups, Source.Instruction.Mentions]

inductive Machine.Instruction.Names (P : Variable → Prop) (Q : Text → Prop) : Machine.Instruction → Prop
  | load {d : Fin 3} {v : Variable} (hv : P v) : Names P Q (.load (.ofIndex d) v)
  | store {s : Fin 3} {v : Variable} (hv : P v) : Names P Q (.store v (.ofIndex s))
  | operate {op : Text} {d l r : Fin 3} (hop : Q op) :
      Names P Q (.operate op (.ofIndex d) (.ofIndex l) (.ofIndex r))

structure Session.Names (P : Variable → Prop) (Q : Text → Prop) (s : Session) : Prop where
  code : ∀ i ∈ s.code.toList, i.Names P Q
  residents : ∀ {v : Variable} {r : Register}, s.file.residency[v]? = some r → P v

variable {P : Variable → Prop} {Q Q' : Text → Prop} {s t : Session} {strategy : Strategy} {e : NextUse.Entry}
  {left right v : Variable} {d l r i : Fin 3}

theorem Machine.Instruction.Names.of_isTransfer {i : Machine.Instruction} (h : i.Names P Q)
    (hi : i.isTransfer = true) : i.Names P Q' := by
  cases h with
  | load hv => exact .load hv
  | store hv => exact .store hv
  | operate hop => cases hi

namespace Session.Names

theorem congr (h : s.Names P Q) (hr : t.file.residency = s.file.residency) (hc : t.code = s.code) : t.Names P Q := by
  constructor
  · rw [hc]
    exact h.code
  · rw [hr]
    exact h.residents

theorem push (h : s.Names P Q) {i : Machine.Instruction} (hcode : t.code = s.code.push i) (hi : i.Names P Q)
    (hresidents : ∀ (v : Variable) (r : Register), t.file.residency[v]? = some r → P v) : t.Names P Q := by
  refine ⟨?_, hresidents _ _⟩
  intro j hj
  rw [hcode, Array.toList_push, List.mem_append, List.mem_singleton] at hj
  rcases hj with hj | rfl
  · exact h.code j hj
  · exact hi

end Session.Names

theorem Alloc.Vacated.names (h : Vacated strategy e s i t) (hc : s.file.Consistent) (hs : s.Names P Q) :
    t.Names P Q := by
  have hresidents (v : Variable) (r : Register) (hv : t.file.residency[v]? = some r) : P v :=
    hs.residents (h.residency_of hv)
  cases h with
  | free h => exact hs
  | evicted hfull hw => exact hs.push rfl (.store (hs.residents (hc.resident (victim_held hw).1))) hresidents

theorem Alloc.Ensured.names (h : Ensured strategy v e s i t) (hc : s.file.Consistent) (hs : s.Names P Q) (hv : P v) :
    t.Names P Q := by
  have hresidents (w : Variable) (r : Register) (hw : t.file.residency[w]? = some r) : P w := by
    rcases h.residency_of hw with rfl | hold
    · exact hv
    · exact hs.residents hold
  cases h with
  | resident h => exact hs.congr rfl rfl
  | loaded h hvacated => exact (hvacated.names hc hs).push rfl (.load hv) hresidents

namespace Generation

theorem Loaded.names (h : Loaded strategy left right e s l r t) (hc : s.file.Consistent) (hs : s.Names P Q)
    (hleft : P left) (hright : P right) : t.Names P Q := by
  obtain @⟨t, u, hl, hr⟩ := h
  have ht : (t.pin l).Names P Q := (hl.names hc hs hleft).congr rfl rfl
  exact (hr.names ((hl.consistent hc).pin _) ht hright).congr rfl rfl

theorem Prepared.names (h : Prepared strategy left right e s d l r t) (hc : s.file.Consistent) (hs : s.Names P Q)
    (hleft : P left) (hright : P right) : t.Names P Q := by
  cases h with
  | reused hreuse hloaded => exact hloaded.names (hc.pin _) (hs.congr rfl rfl) hleft hright
  | acquired hreuse hloaded hvacated =>
    exact hvacated.names (hloaded.consistent hc) (hloaded.names hc (hs.congr rfl rfl) hleft hright)

theorem Written.names {instruction : Source.Instruction} (h : Written strategy e s instruction t) (hs : s.Ready)
    (hnames : s.Names P Q) (hP : ∀ v, instruction.Mentions v → P v)
    (hQ : ∀ op, instruction.operator? = some op → Q op) : t.Names P Q := by
  have hresidents (v : Variable) (r : Register) (hv : t.file.residency[v]? = some r) : P v := by
    rcases h.residency_of hs hv with hoperand | htarget | ⟨home, hold⟩
    · exact hP v (.inl hoperand)
    · exact hP v (.inr htarget)
    · exact hnames.residents hold
  cases h with
  | @move dst src i t _ _ hsrc =>
    have ht := hsrc.names hs.consistent (hnames.congr rfl rfl) (hP src (.inl List.mem_cons_self))
    exact ht.push rfl (.store (hP dst (.inr rfl))) hresidents
  | @binary dst left right op d l r t _ _ hprepared =>
    have ht := hprepared.names hs.consistent (hnames.congr rfl rfl) (hP left (.inl List.mem_cons_self))
      (hP right (.inl (List.mem_cons_of_mem _ List.mem_cons_self)))
    exact ht.push rfl (.operate (hQ op rfl)) hresidents

theorem Written.operation {op : Text} {dst : Variable} (h : Written strategy e s (.binary dst left op right) t) :
    ∃ moved d l r, t.code.toList = s.code.toList ++ moved ++ [.operate op d l r] ∧
      ∀ i ∈ moved, i.isTransfer = true := by
  cases h with
  | @binary _ _ _ _ d l r t _ _ hprepared =>
    obtain ⟨moved, hcode, hmoved⟩ := hprepared.transfers
    exact ⟨moved, .ofIndex d, .ofIndex l, .ofIndex r, by rw [Array.toList_push, hcode], hmoved⟩

/-- The operation written for the instruction at a position of the block is at this place in the code. It is the last of
what was written for that instruction, after transfers only. -/
def OperationAt (strategy : Strategy) (options : Options) (block : Source.Block) (position place : Nat)
    (i : Machine.Instruction) : Prop :=
  ∃ moved, (sessionAfter strategy options block (position + 1)).code.toList =
      (sessionAfter strategy options block position).code.toList ++ moved ++ [i] ∧
    (∀ j ∈ moved, j.isTransfer = true) ∧
    place = ((sessionAfter strategy options block position).code.toList ++ moved).length

theorem sessionAfter_names (strategy : Strategy) (options : Options) {block : Source.Block}
    (hb : ∀ f, .foreign f ∉ block) {count : Nat} (hcount : count ≤ block.length)
    (hP : ∀ i ∈ block.take count, ∀ v, i.Mentions v → P v)
    (hQ : ∀ i ∈ block.take count, ∀ op, i.operator? = some op → Q op) :
    (sessionAfter strategy options block count).Names P Q := by
  induction count with
  | zero =>
    rw [sessionAfter_zero strategy options hb]
    constructor
    · intro i hi
      cases hi
    · intro v r hv
      simp [Session.start, RegisterFile.fresh] at hv
  | succ count ih =>
    rw [List.take_add_one, List.getElem?_eq_getElem hcount, Option.toList_some] at hP hQ
    rw [List.forall_mem_append, List.forall_mem_singleton] at hP hQ
    obtain ⟨after, hstep⟩ := sessionAfter_succ strategy options hb (List.getElem?_eq_getElem hcount)
    exact hstep.names (sessionAfter_ready strategy options hb count) (ih (Nat.le_of_succ_le hcount) hP.1 hQ.1) hP.2 hQ.2

end Generation

end ThreeRegister
