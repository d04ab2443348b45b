import Mathlib.Data.List.Forall2
import ThreeRegister.Machine.Run

namespace ThreeRegister

@[simp] theorem mapError_ok {ε δ α : Type} (f : ε → δ) (a : α) : (Except.ok a).mapError f = .ok a := rfl

@[simp] theorem mapError_error {ε δ α : Type} (f : ε → δ) (e : ε) :
    (Except.error e : Except ε α).mapError f = .error (f e) := rfl

theorem mapError_eq_ok {ε δ α : Type} {x : Except ε α} {f : ε → δ} {a : α} (h : x.mapError f = .ok a) :
    x = .ok a := by
  cases x with
  | error e => cases h
  | ok b =>
    cases h
    rfl

theorem bind_eq_ok {ε α β : Type} {x : Except ε α} {f : α → Except ε β} {b : β} (h : x >>= f = .ok b) :
    ∃ a, x = .ok a ∧ f a = .ok b := by
  cases x with
  | error e => cases h
  | ok a => exact ⟨a, rfl, h⟩

theorem run_bind_eq_ok {ε σ α β : Type} {x : EStateM ε σ α} {k : α → EStateM ε σ β} {s u : σ} {b : β}
    (h : (x >>= k).run s = .ok b u) : ∃ a t, x.run s = .ok a t ∧ (k a).run t = .ok b u := by
  rw [EStateM.run_bind] at h
  cases hx : x.run s with
  | error fault t =>
    rw [hx] at h
    cases h
  | ok a t =>
    rw [hx] at h
    exact ⟨a, t, rfl, h⟩

section Numbered

variable {ε α β : Type} {f : α × Nat → Except ε β} {R : α → β → Prop} {xs rest : List α} {ys : List β}

theorem forall₂_of_mapM_zipIdx (hf : ∀ x n y, f (x, n) = .ok y → R x y) {n : Nat}
    (h : (xs.zipIdx n).mapM f = .ok ys) : List.Forall₂ R xs ys := by
  induction xs generalizing n ys with
  | nil =>
    cases h
    exact .nil
  | cons x xs ih =>
    rw [List.zipIdx_cons, List.mapM_cons] at h
    obtain ⟨y, hy, h⟩ := bind_eq_ok h
    obtain ⟨ys, hys, h⟩ := bind_eq_ok h
    cases h
    exact .cons (hf x n y hy) (ih hys)

theorem mapM_zipIdx_of_forall₂ (hf : ∀ x n y, R x y → f (x, n) = .ok y) (h : List.Forall₂ R xs ys) (n : Nat) :
    (xs.zipIdx n).mapM f = .ok ys := by
  induction h generalizing n with
  | nil => rfl
  | @cons x y xs ys hxy h ih =>
    rw [List.zipIdx_cons, List.mapM_cons, hf x n y hxy, ih (n + 1)]
    rfl

theorem mapM_zipIdx_of_error (hf : ∀ x ∈ xs, ∀ n, ∃ y, f (x, n) = .ok y) {x : α} {n : Nat} {e : ε}
    (h : f (x, n + xs.length) = .error e) : ((xs ++ x :: rest).zipIdx n).mapM f = .error e := by
  induction xs generalizing n with
  | nil =>
    rw [List.length_nil, Nat.add_zero] at h
    rw [List.nil_append, List.zipIdx_cons, List.mapM_cons, h]
    rfl
  | cons first xs ih =>
    rw [List.forall_mem_cons] at hf
    obtain ⟨y, hy⟩ := hf.1 n
    have hrest := @ih hf.2 (n + 1) (by rwa [List.length_cons, Nat.add_comm xs.length, ← Nat.add_assoc] at h)
    rw [List.cons_append, List.zipIdx_cons, List.mapM_cons, hy, hrest]
    rfl

end Numbered

theorem Bank.get_fill {α : Type} (x : α) (i : Fin 3) : (Bank.fill x).get i = x := by
  simp [Bank.fill, Vector.get]

theorem Bank.get_update {α : Type} (b : Bank α) (i j : Fin 3) (x : α) :
    (b.update i x).get j = if i = j then x else b.get j := by
  have hget (bank : Bank α) (k : Fin 3) : bank.get k = bank[k.val] := rfl
  rw [hget, hget, Bank.update, Vector.getElem_set]
  simp only [Fin.ext_iff]

namespace Register

theorem index?_ofIndex (i : Fin 3) : (ofIndex i).index? = some i := by
  revert i
  decide

theorem index?_eq_some {r : Register} {i : Fin 3} : r.index? = some i ↔ r = ofIndex i := by
  constructor
  · intro h
    unfold index? at h
    split at h
    · next hr =>
      cases h
      obtain ⟨n⟩ := r
      simp only [ofIndex, mk.injEq]
      apply UInt8.toNat_inj.mp
      dsimp only at hr
      simp only [Nat.toUInt8, UInt8.toNat_ofNat']
      omega
    · cases h
  · rintro rfl
    exact index?_ofIndex i

theorem ofIndex_inj {i j : Fin 3} : ofIndex i = ofIndex j ↔ i = j := by
  constructor
  · intro h
    have hi := index?_ofIndex i
    rw [h, index?_ofIndex, Option.some.injEq] at hi
    exact hi.symm
  · rintro rfl
    rfl

theorem index_ofIndex (i : Fin 3) : (ofIndex i).index = .ok i := by
  simp [index, index?_ofIndex]

theorem isValid_ofIndex (i : Fin 3) : (ofIndex i).isValid = true := by
  simp [isValid, index?_ofIndex]

theorem isValid_iff {r : Register} : r.isValid = true ↔ ∃ i, r = ofIndex i := by
  simp only [isValid, Option.isSome_iff_exists, index?_eq_some]

end Register

namespace RegisterSet

theorem contains_empty (i : Fin 3) : empty.contains i = false :=
  Bank.get_fill false i

theorem contains_insert (s : RegisterSet) (i j : Fin 3) :
    (s.insert (.ofIndex i)).contains j = (decide (i = j) || s.contains j) := by
  simp only [insert, Register.index?_ofIndex, contains, Bank.get_update]
  by_cases h : i = j <;> simp [h]

end RegisterSet

theorem Text.compare_eq_lt {a b : Text} : compare a b = .lt ↔ a < b := by
  induction a generalizing b with
  | nil => cases b <;> simp [List.compare_nil_cons]
  | cons x a ih =>
    cases b with
    | nil => simp [List.compare_cons_nil]
    | cons y b =>
      rw [List.compare_cons_cons, Ordering.then_eq_lt, ih, List.cons_lt_cons_iff, Std.compare_eq_lt,
        Std.compare_eq_iff_eq]

theorem pairwise_keys {β : Type} (map : Std.TreeMap Variable β) : map.keys.Pairwise (· < ·) :=
  Std.TreeMap.ordered_keys.imp Text.compare_eq_lt.mp

theorem getElem?_foldl_insert {β : Type} {pairs : List (Variable × β)} {map : Std.TreeMap Variable β}
    (hdistinct : (pairs.map (·.1)).Nodup) (v : Variable) (x : β) :
    (pairs.foldl (fun map p => map.insert p.1 p.2) map)[v]? = some x ↔
      (v, x) ∈ pairs ∨ v ∉ pairs.map (·.1) ∧ map[v]? = some x := by
  induction pairs generalizing map with
  | nil => simp
  | cons p pairs ih =>
    rw [List.map_cons, List.nodup_cons] at hdistinct
    rw [List.foldl_cons, ih hdistinct.2, Std.TreeMap.getElem?_insert]
    obtain ⟨w, y⟩ := p
    by_cases hw : w = v
    · subst hw
      have habsent : (w, x) ∉ pairs := by
        intro hmem
        exact hdistinct.1 (List.mem_map_of_mem (f := (·.1)) hmem)
      simp [habsent, hdistinct.1, eq_comm]
    · have hvw : v ≠ w := Ne.symm hw
      simp [hw, hvw]

theorem Memory.read_insert (m : Memory) (v w : Variable) (x : Int64) :
    Memory.read (m.insert v x) w = if v = w then x else m.read w := by
  simp [Memory.read, Std.TreeMap.getD_insert]

end ThreeRegister
