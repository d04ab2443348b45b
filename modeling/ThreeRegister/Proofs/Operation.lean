import Mathlib.Data.List.Nodup
import ThreeRegister.Machine.Instruction
import ThreeRegister.Operation
import ThreeRegister.Proofs.Text.Casing

/-!
The words that name an operation, and those that do so only in upper case. A name is recognised by its lower-case form
and an instruction shows it in upper case; the two agree on what a name stands for but for a few disguised words, whose
upper-case form names an operation that the words themselves do not.
-/

namespace ThreeRegister

open CaseRun (lookalikes map_lower_upper_eq_iff)

namespace Operation

variable {op : Text} {o : Operation}

/-- Words that name an operation only when they are raised first. -/
def disguises : List (String × Operation) :=
  [("ſub", sub), ("dıv", div), ("ſhl", shl), ("ſhr", shr)]

theorem words_nodup : ((spellings ++ disguises).map (·.1)).Nodup := by
  decide +kernel

theorem ascii_of_spelling {w : String} (hw : (w, o) ∈ spellings) (a : Char) (ha : a ∈ w.toList) :
    0 < a.toNat ∧ a.toNat < 128 := by
  have hall : ∀ s ∈ spellings, s.1.toList.all fun a => 0 < a.toNat && a.toNat < 128 := by decide
  simpa using List.all_eq_true.mp (hall _ hw) a ha

theorem mem_of_lookalike : ∀ s ∈ spellings, ∀ cs ∈ (s.1.toList.map lookalikes).sections,
    ∃ t ∈ spellings ++ disguises, t.2 = s.2 ∧ t.1.toList = cs := by
  decide +kernel

theorem lookalike_of_mem : ∀ t ∈ spellings ++ disguises,
    ∃ s ∈ spellings, s.2 = t.2 ∧ t.1.toList ∈ (s.1.toList.map lookalikes).sections := by
  decide +kernel

def NamedIn (words : List (String × Operation)) (op : Text) (o : Operation) : Prop :=
  ∃ w, (w, o) ∈ words ∧ op.toLower = utf8 w

theorem NamedIn.unique {p q : Operation} (hp : NamedIn (spellings ++ disguises) op p)
    (hq : NamedIn (spellings ++ disguises) op q) : p = q := by
  obtain ⟨v, hv, hop⟩ := hp
  obtain ⟨w, hw, hop'⟩ := hq
  rw [Text.toLower_eq_utf8] at hop hop'
  have hword : v = w := String.toList_injective (hop.symm.trans hop')
  exact congrArg Prod.snd (List.inj_on_of_nodup_map words_nodup hv hw hword)

theorem NamedIn.append_left (h : NamedIn spellings op o) : NamedIn (spellings ++ disguises) op o := by
  obtain ⟨w, hw, hop⟩ := h
  exact ⟨w, List.mem_append_left _ hw, hop⟩

theorem ofText?_eq_some : ofText? op = some o ↔ NamedIn spellings op o := by
  have hnamed : ∀ p, ofText? op = some p → NamedIn spellings op p := by
    intro p hp
    obtain ⟨⟨w, q⟩, hfind, rfl⟩ := Option.map_eq_some_iff.mp hp
    have hw : utf8 w = op.toLower := by simpa using List.find?_some hfind
    exact ⟨w, List.mem_of_find?_eq_some hfind, hw.symm⟩
  constructor
  · exact hnamed o
  · intro ho
    cases hfound : ofText? op with
    | some p => rw [(hnamed p hfound).append_left.unique ho.append_left]
    | none =>
      obtain ⟨w, hw, hop⟩ := ho
      have hnone := List.find?_eq_none.mp (Option.map_eq_none_iff.mp hfound) _ hw
      simp [hop] at hnone

theorem ofText?_toUpper_eq_some : ofText? op.toUpper = some o ↔ NamedIn (spellings ++ disguises) op o := by
  simp only [ofText?_eq_some, NamedIn, Text.toLower_eq_utf8, Text.chars_toUpper]
  constructor
  · rintro ⟨w, hw, h⟩
    rw [map_lower_upper_eq_iff (ascii_of_spelling hw)] at h
    obtain ⟨⟨v, p⟩, hv, rfl, hchars⟩ := mem_of_lookalike _ hw _ h
    exact ⟨v, hv, hchars.symm⟩
  · rintro ⟨w, hw, h⟩
    obtain ⟨⟨v, p⟩, hv, rfl, hchars⟩ := lookalike_of_mem _ hw
    refine ⟨v, hv, ?_⟩
    rw [map_lower_upper_eq_iff (ascii_of_spelling hv), h]
    exact hchars

theorem ofText?_toUpper_of_plain (h : ∀ o, ¬NamedIn disguises op o) : ofText? op.toUpper = ofText? op := by
  apply Option.ext
  intro o
  rw [ofText?_toUpper_eq_some, ofText?_eq_some]
  constructor
  · rintro ⟨w, hw, hop⟩
    rcases List.mem_append.mp hw with hw | hw
    · exact ⟨w, hw, hop⟩
    · exact absurd ⟨w, hw, hop⟩ (h o)
  · exact NamedIn.append_left

theorem ofText?_of_disguise (h : NamedIn disguises op o) : ofText? op = none := by
  rw [Option.eq_none_iff_forall_ne_some]
  intro p hp
  obtain ⟨v, hv, hop⟩ := h
  obtain ⟨w, hw, hop'⟩ := ofText?_eq_some.mp hp
  rw [Text.toLower_eq_utf8] at hop hop'
  have hword : w = v := String.toList_injective (hop'.symm.trans hop)
  have hnodup := words_nodup
  rw [List.map_append, List.nodup_append] at hnodup
  exact hnodup.2.2 w (List.mem_map_of_mem hw) v (List.mem_map_of_mem hv) hword

theorem ofText?_toUpper_of_disguise (h : NamedIn disguises op o) : ofText? op.toUpper = some o := by
  rw [ofText?_toUpper_eq_some]
  obtain ⟨w, hw, hop⟩ := h
  exact ⟨w, List.mem_append_right _ hw, hop⟩

end Operation

open Operation (NamedIn disguises ofText? ofText?_toUpper_of_plain ofText?_of_disguise ofText?_toUpper_of_disguise)

inductive SameOutcome : Except EvalError Int64 → Except EvalError Int64 → Prop
  | value (z : Int64) : SameOutcome (.ok z) (.ok z)
  | divisionByZero : SameOutcome (.error .divisionByZero) (.error .divisionByZero)
  | unknownOperator (op op' : Text) : SameOutcome (.error (.unknownOperator op)) (.error (.unknownOperator op'))

theorem eval_of_some {op : Text} {o : Operation} (h : ofText? op = some o) (x y : Int64) :
    eval op x y = (o.result? x y).elim (.error .divisionByZero) .ok := by
  simp only [eval, h]
  cases o.result? x y <;> rfl

theorem eval_of_none {op : Text} (h : ofText? op = none) (x y : Int64) : eval op x y = .error (.unknownOperator op) := by
  rw [eval, h]

theorem sameOutcome_of_eq {op op' : Text} (h : ofText? op = ofText? op') (x y : Int64) :
    SameOutcome (eval op x y) (eval op' x y) := by
  cases h' : ofText? op' with
  | none =>
    rw [eval_of_none h', eval_of_none (h.trans h')]
    exact .unknownOperator op op'
  | some o =>
    rw [eval_of_some h', eval_of_some (h.trans h')]
    cases o.result? x y with
    | none => exact .divisionByZero
    | some z => exact .value z

theorem not_sameOutcome {op op' : Text} {o : Operation} (h : ofText? op = some o) (h' : ofText? op' = none)
    (x y : Int64) : ¬SameOutcome (eval op x y) (eval op' x y) := by
  rw [eval_of_some h, eval_of_none h']
  intro hsame
  cases hresult : o.result? x y with
  | none =>
    rw [hresult] at hsame
    cases hsame
  | some z =>
    rw [hresult] at hsame
    cases hsame

/-- What an instruction shows means the operation it carries out, whatever the words, unless its operator is a disguised
one. A disguised operator is shown as an operation, and the machine rejects it. -/
theorem mnemonic_means_operator (op : Text) (dst left right : Register) :
    ((∀ x y, SameOutcome (eval (Machine.Instruction.operate op dst left right).mnemonic x y) (eval op x y)) ↔
      ∀ o, ¬NamedIn disguises op o) ∧
    ∀ o, NamedIn disguises op o →
      ofText? (Machine.Instruction.operate op dst left right).mnemonic = some o ∧
        ∀ x y, eval op x y = .error (.unknownOperator op) := by
  have hmnemonic : (Machine.Instruction.operate op dst left right).mnemonic = op.toUpper := rfl
  rw [hmnemonic]
  refine ⟨⟨?_, ?_⟩, ?_⟩
  · intro hsame o ho
    exact not_sameOutcome (ofText?_toUpper_of_disguise ho) (ofText?_of_disguise ho) 0 0 (hsame 0 0)
  · intro hplain
    exact sameOutcome_of_eq (ofText?_toUpper_of_plain hplain)
  · intro o ho
    exact ⟨ofText?_toUpper_of_disguise ho, eval_of_none (ofText?_of_disguise ho)⟩

theorem disguised_operator_shown :
    (Machine.Instruction.operate (utf8 "ſub") .r3 .r1 .r2).mnemonic = utf8 "SUB" ∧
      eval (utf8 "SUB") 7 2 = .ok 5 ∧ eval (utf8 "ſub") 7 2 = .error (.unknownOperator (utf8 "ſub")) := by
  refine ⟨?_, ?_, ?_⟩ <;> decide +kernel

end ThreeRegister
