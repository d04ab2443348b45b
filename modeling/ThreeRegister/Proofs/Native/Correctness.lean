import ThreeRegister.Proofs.Generation.Failure
import ThreeRegister.Proofs.Native.Layout
import ThreeRegister.Proofs.Native.Simulation

namespace ThreeRegister

namespace Native

def machineOf (s : Processor) (m : Memory) : Machine :=
  ⟨Vector.ofFn fun i => .ofBitVec (s.registers (home i).number), m⟩

theorem mirrors_machineOf {block : Source.Block} {s : Processor} {m : Memory}
    (hslots : ∀ (i : Nat) (v : Variable), block.vars[i]? = some v → s.slot i = (m.read v).toBitVec) :
    Mirrors (.ofBlock block) (machineOf s m) s := by
  constructor
  · intro i
    have hget : (machineOf s m).registers.get i = .ofBitVec (s.registers (home i).number) := Vector.getElem_ofFn i.isLt
    exact congrArg Int64.toBitVec hget.symm
  · intro v slot hv
    obtain ⟨i, hi, rfl⟩ := Layout.getElem?_ofBlock.mp hv
    exact hslots i v hi

variable {source : Text} {config : Config} {p : Program} {bytes : List UInt8} {m : Memory}

theorem source_run_ok (hcompile : (compile source config).result = .ok p) (hassemble : p.assemble = .ok bytes)
    (m : Memory) : ∃ store, p.block.run m = .ok store := by
  obtain ⟨strategy, hgenerate⟩ := compile_ok hcompile
  obtain ⟨n, hrun⟩ := assemble_run_ok hassemble (.ofMemory m)
  cases hstore : p.block.run m with
  | ok store => exact ⟨store, rfl⟩
  | error e =>
    obtain ⟨machine, e', hfails⟩ := (Generation.source_fails_iff hgenerate).mp ⟨e, hstore⟩
    rw [hrun] at hfails
    cases hfails

/-- The value of a variable of a program is where the program leaves it: in the processor's register for the one that it
is resident in, or else in its slot. -/
def Holds (p : Program) (t : Processor) (v : Variable) (x : Int64) : Prop :=
  match p.output.residents[v]? with
  | some r => ∃ g, Gpr.ofRegister r = .ok g ∧ t.registers g.number = x.toBitVec
  | none => ∃ i : Nat, p.vars[i]? = some v ∧ t.slot i = x.toBitVec

theorem holds_of_mirrors {n : Machine} {t : Processor} {v : Variable} (hn : Mirrors (.ofBlock p.block) n t)
    (hvalid : ∀ r, p.output.residents[v]? = some r → ∃ i, r = .ofIndex i) (hv : v ∈ p.vars) :
    Holds p t v (n.value p.output.residents v) := by
  unfold Holds
  split
  case h_1 r hr =>
    obtain ⟨i, rfl⟩ := hvalid r hr
    refine ⟨home i, ?_, ?_⟩
    · rw [Gpr.ofRegister, Register.index?_ofIndex]
    · rw [Machine.value_of_resident hr, hn.homes]
  case h_2 hr =>
    obtain ⟨i, hi⟩ := List.mem_iff_getElem?.mp hv
    refine ⟨i, hi, ?_⟩
    rw [Machine.value_of_absent hr]
    exact hn.slots (Layout.getElem?_ofBlock.mpr ⟨i, hi, rfl⟩)

/-- Run from its first byte, whatever the registers hold, the native code of a program reaches its return with each
variable as the source leaves it, and with the base register unchanged. The code is the bytes that are assumed of the
program's lowered instructions. -/
theorem native_code_correct (hcompile : (compile source config).result = .ok p) (hassemble : p.assemble = .ok bytes)
    (hsize : 8 * p.vars.length ≤ 0x80000000) (m : Memory) (s : Processor) (hpc : s.pc = 0)
    (hslots : ∀ (i : Nat) (v : Variable), p.vars[i]? = some v → s.slot i = (m.read v).toBitVec) :
    ∃ natives store t, body (.ofBlock p.block) p.output.code = .ok natives ∧ bytes = assumedEncoding natives ∧
      p.block.run m = .ok store ∧ Processor.Reaches bytes s t ∧ t.AtReturn bytes ∧
      (∀ v ∈ p.vars, Holds p t v (store.read v)) ∧ t.registers baseNumber = s.registers baseNumber := by
  obtain ⟨store, hstore⟩ := source_run_ok hcompile hassemble m
  obtain ⟨strategy, hgenerate⟩ := compile_ok hcompile
  obtain ⟨⟨machine, hmachine, hvalue⟩, hvalid⟩ :=
    @Generation.output_realizes _ _ _ _ _ hgenerate (machineOf s m) hstore
  obtain ⟨n, t, hrun, hreach, hat, hn, hkept⟩ :=
    assemble_simulates hassemble (separated_ofBlock hsize) hpc (mirrors_machineOf hslots)
  obtain rfl : machine = n := congrArg Prod.fst (hmachine.symm.trans hrun)
  obtain ⟨parts, -, hbody, hencoding⟩ := assemble_ok hassemble
  refine ⟨parts.flatten, store, t, hbody, hencoding, hstore, hreach, hat, ?_, ?_⟩
  · intro v hv
    rw [← hvalue]
    exact holds_of_mirrors hn (hvalid v) hv
  · apply hkept
    intro g
    exact Ne.symm g.number_ne_base

def twelveFive : Processor :=
  ⟨0, fun n => if n = baseNumber then 64 else 1, (Storage.write (fun _ => 0) 64 12).write 72 5⟩

theorem native_code_correct_difference :
    let bytes : List UInt8 := [0x48, 0x8b, 0x07, 0x48, 0x8b, 0x57, 0x08, 0x48, 0x89, 0xc1, 0x48, 0x29, 0xd1, 0xc3]
    ∃ p t, (compile (utf8 "a = b - a\n") {}).result = .ok p ∧ p.assemble = .ok bytes ∧
      Processor.Reaches bytes twelveFive t ∧ t.AtReturn bytes ∧ t.registers Gpr.cx.number = 7 := by
  intro bytes
  have hcompiled : (match (compile (utf8 "a = b - a\n") {}).result with
      | .ok p => decide (p.block = [.binary (utf8 "a") (utf8 "b") (utf8 "-") (utf8 "a")] ∧
          p.output.residents[utf8 "a"]? = some .r3 ∧ p.assemble.toOption = some bytes)
      | .error _ => false) = true := by
    decide +kernel
  cases hcompile : (compile (utf8 "a = b - a\n") {}).result with
  | error e => simp [hcompile] at hcompiled
  | ok p =>
    rw [hcompile, decide_eq_true_iff] at hcompiled
    obtain ⟨hblock, hresident, hbytes⟩ := hcompiled
    have hassemble : p.assemble = .ok bytes := by
      cases h : p.assemble with
      | error e => simp [h, Except.toOption] at hbytes
      | ok b => simpa [h, Except.toOption] using hbytes
    have hvars : p.vars = [utf8 "b", utf8 "a"] := by
      rw [Program.vars, hblock]
      rfl
    have hslots : ∀ (i : Nat) (v : Variable), p.vars[i]? = some v →
        twelveFive.slot i = ((Memory.ofPairs [(utf8 "b", 12), (utf8 "a", 5)]).read v).toBitVec := by
      intro i v hv
      rw [hvars] at hv
      match i with
      | 0 =>
        cases hv
        decide +kernel
      | 1 =>
        cases hv
        decide +kernel
      | n + 2 => cases hv
    obtain ⟨natives, store, t, -, -, hstore, hreach, hat, hholds, -⟩ :=
      native_code_correct hcompile hassemble (by rw [hvars]; decide) _ twelveFive rfl hslots
    refine ⟨p, t, rfl, hassemble, hreach, hat, ?_⟩
    have ha := hholds (utf8 "a") (by rw [hvars]; decide +kernel)
    rw [hblock] at hstore
    cases hstore
    rw [Holds, hresident] at ha
    obtain ⟨g, hg, hvalue⟩ := ha
    cases hg
    exact hvalue

end Native

end ThreeRegister
