import Mathlib.Data.List.Perm.Basic
import ThreeRegister.CommandLine.Command
import ThreeRegister.Proofs.Lookup
import ThreeRegister.Proofs.Text.Decimal

namespace ThreeRegister

theorem Text.cut?_append {b : UInt8} {s : Text} (h : b ∉ s) (t : Text) : Text.cut? b (s ++ b :: t) = some (s, t) := by
  induction s with
  | nil => simp [cut?]
  | cons c s ih =>
    rw [List.mem_cons, not_or] at h
    simp [cut?, Ne.symm h.1, ih h.2]

namespace Memory

def assignments (m : Memory) : List Text :=
  if m.isEmpty then [] else m.text.splitOn Text.space

def Separable (m : Memory) : Prop :=
  ∀ v ∈ m, Text.space ∉ v ∧ CommandLine.Argument.equals ∉ v

def assignment (p : Variable × Int64) : Text :=
  p.1 ++ CommandLine.Argument.equals :: Decimal.ofInt p.2.toInt

theorem text_eq (m : Memory) : m.text = Text.join " " (m.toList.map assignment) := by
  have h (p : Variable × Int64) : p.1 ++ utf8 "=" ++ Decimal.ofInt p.2.toInt = assignment p := by
    rw [List.append_assoc]
    rfl
  simp only [text, h]

variable {m : Memory} {pairs : List (Variable × Int64)} {p : Variable × Int64}

theorem space_notMem_assignment (h : Text.space ∉ p.1) : Text.space ∉ assignment p := by
  rw [assignment, List.mem_append, List.mem_cons, not_or, not_or]
  refine ⟨h, by decide, ?_⟩
  intro hspace
  rcases Decimal.mem_ofInt hspace with hsign | hdigit
  · exact absurd hsign (by decide)
  · exact absurd hdigit (by decide)

theorem cut?_assignment (h : CommandLine.Argument.equals ∉ p.1) :
    (assignment p).cut? CommandLine.Argument.equals = some (p.1, Decimal.ofInt p.2.toInt) :=
  Text.cut?_append h _

theorem mem_of_mem_toList (hp : p ∈ m.toList) : p.1 ∈ m := by
  rw [← Std.TreeMap.mem_keys, ← Std.TreeMap.map_fst_toList_eq_keys]
  exact List.mem_map_of_mem hp

theorem assignments_eq (h : m.Separable) : m.assignments = m.toList.map assignment := by
  unfold assignments
  rw [← Std.TreeMap.isEmpty_toList]
  split
  · next hempty => rw [List.isEmpty_iff.mp hempty, List.map_nil]
  · next hempty =>
    rw [text_eq]
    apply List.splitOn_intercalate
    · rw [List.forall_mem_map]
      exact fun p hp => space_notMem_assignment (h p.1 (mem_of_mem_toList hp)).1
    · rw [Ne, List.map_eq_nil_iff]
      exact fun hnil => hempty (List.isEmpty_iff.mpr hnil)

theorem toList_ofPairs (h : pairs.Perm m.toList) : (ofPairs pairs).toList = m.toList := by
  have hkeys : (pairs.map (·.1)).Nodup := by
    rw [(h.map (·.1)).nodup_iff, Std.TreeMap.map_fst_toList_eq_keys]
    exact Std.TreeMap.nodup_keys
  apply Std.TreeMap.equiv_iff_toList_eq.mp
  apply Std.TreeMap.Equiv.of_forall_constGet?_eq
  intro v
  apply Option.ext
  intro x
  rw [ofPairs, getElem?_foldl_insert hkeys, h.mem_iff, Std.TreeMap.mem_toList_iff_getElem?_eq_some]
  simp

end Memory

namespace CommandLine

open Memory (assignment)

theorem assign_assignment {p : Variable × Int64} (h : Argument.equals ∉ p.1) (m : Memory) :
    assign m (assignment p) = .ok (m.insert p.1 p.2) := by
  have hcut : (assignment p).cut? 0x3d = _ := Memory.cut?_assignment h
  simp only [assign, hcut, Decimal.readInt64_ofInt]

theorem assignAll_assignments {pairs : List (Variable × Int64)} (h : ∀ p ∈ pairs, Argument.equals ∉ p.1) :
    assignAll (pairs.map assignment) = .ok (.ofPairs pairs) := by
  unfold assignAll Memory.ofPairs
  generalize (∅ : Memory) = m
  induction pairs generalizing m with
  | nil => rfl
  | cons p pairs ih =>
    rw [List.forall_mem_cons] at h
    rw [List.map_cons, List.foldlM_cons, assign_assignment h.1, List.foldl_cons]
    exact ih h.2 (m.insert p.1 p.2)

/-- The arguments give these values to the flag for assignments, each in the argument after the flag or in its own. -/
inductive Gives : List Text → List Text → Prop where
  | nil : Gives [] []
  | apart {flag value : Text} {values arguments : List Text} (hflag : flag ∈ [utf8 "-set", utf8 "--set"])
      (h : Gives values arguments) : Gives (value :: values) (flag :: value :: arguments)
  | joined {flag value : Text} {values arguments : List Text} (hflag : flag ∈ [utf8 "-set=", utf8 "--set="])
      (h : Gives values arguments) : Gives (value :: values) ((flag ++ value) :: arguments)

theorem FlagSet.kind?_ofList {σ : Type} {flags : List (String × Flag σ)} {name : String} {flag : Flag σ}
    (hdistinct : ((flags.map (·.1)).map utf8).Nodup) (hflag : (name, flag) ∈ flags) :
    (ofList flags).kind? (utf8 name) = some flag.kind := by
  have hfold : ofList flags = (flags.map fun f => (utf8 f.1, f.2)).foldl (fun set f => set.insert f.1 f.2) ∅ := by
    rw [List.foldl_map]
    rfl
  have hfound : (ofList flags)[utf8 name]? = some flag := by
    rw [hfold, getElem?_foldl_insert]
    · exact .inl (List.mem_map_of_mem hflag)
    · rw [List.map_map] at hdistinct ⊢
      exact hdistinct
  rw [kind?, Std.TreeMap.get?_eq_getElem?, hfound]
  rfl

theorem kind?_set (defaults : Defaults) : (Command.run.flags defaults).kind? (utf8 "set") =
    some (.repeated fun s o => { o with assignments := o.assignments ++ [s] }) := by
  have hflag : ("set", _) ∈ sharedFlags defaults ++ ownFlags .run := List.mem_append_right _ List.mem_cons_self
  have hnames : (sharedFlags defaults ++ ownFlags .run).map (·.1) =
      ["h", "allocator", "validate", "trace", "set", "verify"] := rfl
  exact FlagSet.kind?_ofList (by rw [hnames]; decide) hflag

theorem Gives.parse {values arguments : List Text} (h : Gives values arguments) (defaults : Defaults)
    (options : Options) (rest : List Text) : (Command.run.flags defaults).parse options (arguments ++ rest) =
      (Command.run.flags defaults).parse { options with assignments := options.assignments ++ values } rest := by
  induction h generalizing options with
  | nil => simp
  | @apart flag value values arguments hflag h ih =>
    have hkind : Argument.ofText flag = .flag (utf8 "set") none := by
      simp only [List.mem_cons, List.not_mem_nil, or_false] at hflag
      rcases hflag with rfl | rfl <;> rfl
    rw [List.cons_append, List.cons_append, FlagSet.parse, hkind]
    simp only [kind?_set, ih, List.append_assoc, List.singleton_append]
  | @joined flag value values arguments hflag h ih =>
    have hkind : Argument.ofText (flag ++ value) = .flag (utf8 "set") (some value) := by
      simp only [List.mem_cons, List.not_mem_nil, or_false] at hflag
      rcases hflag with rfl | rfl <;> rfl
    rw [List.cons_append, FlagSet.parse, hkind]
    simp only [kind?_set, ih, List.append_assoc, List.singleton_append]

theorem plan_run (defaults : Defaults) (arguments : List Text) :
    plan defaults (utf8 "run" :: arguments) = Command.run.plan defaults arguments := by
  rfl

theorem plan_of_gives {values arguments : List Text} {m : Memory} {path : Text} (hgives : Gives values arguments)
    (hm : assignAll values = .ok m) (hpath : Argument.ofText path = .operand) (defaults : Defaults) :
    plan defaults (utf8 "run" :: (arguments ++ [path])) =
      .read ⟨.run, { Options.initial defaults with assignments := values }, m, path⟩ := by
  have hnone : (Options.initial defaults).assignments ++ values = values := rfl
  simp only [plan_run, Command.plan, hgives.parse, hnone, FlagSet.parse, hpath, hm]
  rfl

/-- The text of a memory can be given back. Its parts, in any order and each in any form of the flag, make the run command
start with that memory; the names that they assign are those of the memory, in strictly increasing order. -/
theorem printed_memory_given_back {m : Memory} (h : m.Separable) :
    (∀ values arguments defaults path, values.Perm m.assignments → Gives values arguments →
      Argument.ofText path = .operand → ∃ rebuilt, assignAll values = .ok rebuilt ∧ rebuilt.toList = m.toList ∧
        plan defaults (utf8 "run" :: (arguments ++ [path])) =
          .read ⟨.run, { Options.initial defaults with assignments := values }, rebuilt, path⟩) ∧
      (m.assignments.map fun part => (part.cut? Argument.equals).map Prod.fst) = m.keys.map some ∧
      m.keys.Pairwise (· < ·) := by
  have hequals (p : Variable × Int64) (hp : p ∈ m.toList) : Argument.equals ∉ p.1 :=
    (h p.1 (Memory.mem_of_mem_toList hp)).2
  rw [Memory.assignments_eq h]
  refine ⟨?_, ?_, pairwise_keys m⟩
  · intro values arguments defaults path hperm hgives hpath
    obtain ⟨pairs, rfl, hpairs⟩ := (congrFun₂ (List.eq_map_comp_perm assignment) values m.toList).mpr hperm
    have hassign := assignAll_assignments fun p hp => hequals p (hpairs.mem_iff.mp hp)
    exact ⟨_, hassign, Memory.toList_ofPairs hpairs, plan_of_gives hgives hassign hpath defaults⟩
  · rw [List.map_map, ← Std.TreeMap.map_fst_toList_eq_keys, List.map_map]
    apply List.map_congr_left
    intro p hp
    simp only [Function.comp_apply, Memory.cut?_assignment (hequals p hp), Option.map_some]

theorem printed_memory_given_back_extremes :
    let m : Memory := .ofPairs [(utf8 "a", 0x7fffffffffffffff), ([], -0x8000000000000000)]
    let low := utf8 "=-9223372036854775808"
    let high := utf8 "a=9223372036854775807"
    let defaults : Defaults := ⟨utf8 "fixed", false⟩
    m.Separable ∧ m.assignments = [low, high] ∧
      ∃ rebuilt, assignAll [high, low] = .ok rebuilt ∧ rebuilt.toList = m.toList ∧
        plan defaults (utf8 "run" :: ([utf8 "-set", high, utf8 "--set=" ++ low] ++ [standardInput])) =
          .read ⟨.run, { Options.initial defaults with assignments := [high, low] }, rebuilt, standardInput⟩ := by
  intro m low high defaults
  have hkeys : m.keys = [[], utf8 "a"] := by decide +kernel
  have hm : m.Separable := by
    intro v hv
    rw [← Std.TreeMap.mem_keys, hkeys] at hv
    revert v
    decide
  have hparts : m.assignments = [low, high] := by decide +kernel
  have hperm : [high, low].Perm m.assignments := by
    rw [hparts]
    exact .swap low high []
  have hgives : Gives [high, low] [utf8 "-set", high, utf8 "--set=" ++ low] :=
    .apart (by decide) (.joined (by decide) .nil)
  exact ⟨hm, hparts, (printed_memory_given_back hm).1 _ _ defaults standardInput hperm hgives (by decide)⟩

end CommandLine

end ThreeRegister
