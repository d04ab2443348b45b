import Mathlib.Data.Finset.Card
import Mathlib.Data.List.Induction

namespace ThreeRegister

structure FirstAt {α : Type} (xs : List α) (x : α) (k : Nat) : Prop where
  here : xs[k]? = some x
  first : ∀ j, j < k → xs[j]? ≠ some x

variable {α : Type} {xs : List α} {x : α} {k l : Nat}

namespace FirstAt

theorem lt_length (h : FirstAt xs x k) : k < xs.length :=
  (List.getElem?_eq_some_iff.mp h.here).1

theorem position_unique (h : FirstAt xs x k) (h' : FirstAt xs x l) : k = l := by
  have hkl : ¬k < l := fun hlt => h'.first k hlt h.here
  have hlk : ¬l < k := fun hlt => h.first l hlt h'.here
  omega

theorem append (h : FirstAt xs x k) (ys : List α) : FirstAt (xs ++ ys) x k := by
  constructor
  · rw [List.getElem?_append_left h.lt_length]
    exact h.here
  · intro j hj
    rw [List.getElem?_append_left (Nat.lt_trans hj h.lt_length)]
    exact h.first j hj

theorem concat (h : x ∉ xs) : FirstAt (xs ++ [x]) x xs.length := by
  constructor
  · exact List.getElem?_concat_length
  · intro j hj hx
    rw [List.getElem?_append_left hj] at hx
    exact h (List.mem_of_getElem? hx)

theorem notMem_take (h : FirstAt xs x k) : x ∉ xs.take k := by
  intro hx
  obtain ⟨j, hj⟩ := List.getElem?_of_mem hx
  rw [List.getElem?_take] at hj
  split at hj
  · next hlt => exact h.first j hlt hj
  · cases hj

end FirstAt

variable [BEq α] [LawfulBEq α]

theorem eraseDups_concat (xs : List α) (x : α) :
    (xs ++ [x]).eraseDups = if x ∈ xs then xs.eraseDups else xs.eraseDups ++ [x] := by
  rw [List.eraseDups_append]
  by_cases hx : x ∈ xs
  · simp [hx, List.removeAll]
  · simp [hx, List.removeAll, List.eraseDups_cons]

theorem exists_firstAt (h : x ∈ xs) : ∃ k, FirstAt xs x k := by
  induction xs using List.reverseRecOn with
  | nil => cases h
  | append_singleton xs y ih =>
    by_cases hx : x ∈ xs
    · obtain ⟨k, hk⟩ := ih hx
      exact ⟨k, hk.append [y]⟩
    · obtain rfl : x = y := by simpa [hx] using h
      exact ⟨xs.length, .concat hx⟩

theorem pairwise_eraseDups (xs : List α) :
    xs.eraseDups.Pairwise fun x y => ∃ j k, FirstAt xs x j ∧ FirstAt xs y k ∧ j < k := by
  induction xs using List.reverseRecOn with
  | nil => exact List.Pairwise.nil
  | append_singleton xs z ih =>
    have hearlier : xs.eraseDups.Pairwise fun x y => ∃ j k, FirstAt (xs ++ [z]) x j ∧ FirstAt (xs ++ [z]) y k ∧ j < k := by
      apply ih.imp
      rintro x y ⟨j, k, hj, hk, hjk⟩
      exact ⟨j, k, hj.append [z], hk.append [z], hjk⟩
    rw [eraseDups_concat]
    split
    · exact hearlier
    · next hz =>
      rw [List.pairwise_append]
      refine ⟨hearlier, List.pairwise_singleton .., ?_⟩
      intro x hx y hy
      obtain rfl := List.mem_singleton.mp hy
      obtain ⟨j, hj⟩ := exists_firstAt (List.mem_eraseDups.mp hx)
      exact ⟨j, xs.length, hj.append [y], .concat hz, hj.lt_length⟩

theorem nodup_eraseDups (xs : List α) : xs.eraseDups.Nodup := by
  apply (pairwise_eraseDups xs).imp
  rintro x y ⟨j, k, hj, hk, hjk⟩ rfl
  exact absurd (hj.position_unique hk) (Nat.ne_of_lt hjk)

theorem card_toFinset [DecidableEq α] (xs : List α) : xs.toFinset.card = xs.eraseDups.length := by
  rw [← List.toFinset_card_of_nodup (nodup_eraseDups xs)]
  congr 1
  ext x
  rw [List.mem_toFinset, List.mem_toFinset, List.mem_eraseDups]

theorem eraseDups_isPrefix (xs ys : List α) : xs.eraseDups <+: (xs ++ ys).eraseDups := by
  rw [List.eraseDups_append]
  exact List.prefix_append ..

theorem FirstAt.getElem?_eraseDups (h : FirstAt xs x k) :
    xs.eraseDups[(xs.take k).eraseDups.length]? = some x := by
  have htake : (xs.take (k + 1)).eraseDups = (xs.take k).eraseDups ++ [x] := by
    rw [List.take_add_one, h.here, Option.toList_some, eraseDups_concat, if_neg h.notMem_take]
  obtain ⟨later, hall⟩ := eraseDups_isPrefix (xs.take (k + 1)) (xs.drop (k + 1))
  rw [List.take_append_drop, htake] at hall
  rw [← hall, List.getElem?_append_left (by simp)]
  exact List.getElem?_concat_length

end ThreeRegister
