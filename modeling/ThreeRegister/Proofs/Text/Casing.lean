import Mathlib.Data.List.Sections
import ThreeRegister.Proofs.Text.Blank
import ThreeRegister.Text.Casing

namespace ThreeRegister

open String (utf8EncodeChar)

namespace CaseRun

variable {runs : List CaseRun} {run : CaseRun} {a c d : Char}

abbrev upper : Char → Char := image upperRuns

abbrev lower : Char → Char := image lowerRuns

theorem covers_iff {n : Nat} :
    run.covers n = true ↔ run.first ≤ n ∧ n ≤ run.last ∧ (n - run.first) % run.step = 0 := by
  simp [covers, and_assoc]

-- A number that is no character gives the zero character, so that any other comes from its own number.
theorem toNat_eq_of_ofNat {n : Nat} (h : Char.ofNat n = d) (hd : 0 < d.toNat) : n = d.toNat := by
  by_cases hn : n.isValidChar
  · rw [Char.ofNat, dif_pos hn] at h
    rw [← h]
    rfl
  · rw [Char.ofNat, dif_neg hn] at h
    rw [← h] at hd
    exact absurd hd (by decide)

theorem exists_run_of_image (h : image runs c = d) (hd : 0 < d.toNat) (hne : c ≠ d) :
    ∃ run ∈ runs, run.covers c.toNat = true ∧ (c.toNat : Int) + run.shift = d.toNat := by
  unfold image at h
  split at h
  · next run hfind =>
    have hcovers : run.covers c.toNat = true := by simpa using List.find?_some hfind
    have hmoved := toNat_eq_of_ofNat h hd
    refine ⟨run, List.mem_of_find?_eq_some hfind, hcovers, ?_⟩
    omega
  · exact absurd h hne

def origin (run : CaseRun) (d : Char) : Nat :=
  ((d.toNat : Int) - run.shift).toNat

def single (pair : Char × Char) : CaseRun :=
  ⟨pair.1.toNat, pair.1.toNat, 1, (pair.2.toNat : Int) - pair.1.toNat⟩

def Outside (pairs : List (Char × Char)) (alone : List Char) (run : CaseRun) : Prop :=
  128 ≤ run.first ∧ ((run.first : Int) + run.shift < 128 → run ∈ pairs.map single) ∧
    alone.all fun d => !run.covers (run.origin d)

instance (pairs : List (Char × Char)) (alone : List Char) (run : CaseRun) : Decidable (Outside pairs alone run) :=
  inferInstanceAs (Decidable (_ ∧ _ ∧ _))

/-- How a table that begins with the letters meets ASCII: only pairs lead there from elsewhere. Some characters are
reached from themselves alone, and the replacement character stays. -/
structure Borders (letters : CaseRun) (others : List CaseRun) (pairs : List (Char × Char)) (alone : List Char) :
    Prop where
  letters_lt : letters.last < 128
  letters_away : alone.all fun d => 0 < d.toNat && !letters.covers (letters.origin d)
  outside : others.all fun run => decide (Outside pairs alone run)
  replacement : image (letters :: others) (Char.ofNat 0xfffd) = Char.ofNat 0xfffd

namespace Borders

variable {letters : CaseRun} {others : List CaseRun} {pairs : List (Char × Char)} {alone : List Char}

theorem outside_of_mem (h : Borders letters others pairs alone) (hrun : run ∈ others) : run.Outside pairs alone :=
  of_decide_eq_true (List.all_eq_true.mp h.outside run hrun)

-- The runs after the letters' do not bear on an ASCII character, so that one comparison finds its image.
theorem image_of_ascii (h : Borders letters others pairs alone) (hc : c.toNat < 128) :
    image (letters :: others) c = image [letters] c := by
  have hnone : others.find? (·.covers c.toNat) = none := by
    rw [List.find?_eq_none]
    intro run hrun hcovers
    have hfirst := (h.outside_of_mem hrun).1
    have hle := (covers_iff.mp hcovers).1
    omega
  rw [image, image, List.find?_cons, List.find?_cons, hnone, List.find?_nil]

theorem ascii_or_pair (h : Borders letters others pairs alone) (himage : image (letters :: others) c = d)
    (hpos : 0 < d.toNat) (hd : d.toNat < 128) : c.toNat < 128 ∨ (c, d) ∈ pairs := by
  by_cases hne : c = d
  · rw [hne]
    exact .inl hd
  · obtain ⟨run, hrun, hcovers, hmoved⟩ := exists_run_of_image himage hpos hne
    rw [covers_iff] at hcovers
    rcases List.mem_cons.mp hrun with rfl | hother
    · left
      have hletters := h.letters_lt
      omega
    · right
      obtain ⟨⟨p, q⟩, hmem, rfl⟩ := List.mem_map.mp ((h.outside_of_mem hother).2.1 (by omega))
      simp only [single] at hcovers hmoved
      have hp : c = p := Char.toNat_inj.mp (by omega)
      have hq : d = q := Char.toNat_inj.mp (by omega)
      rw [hp, hq]
      exact hmem

theorem eq_of_image (h : Borders letters others pairs alone) (himage : image (letters :: others) c = d)
    (hd : d ∈ alone) : c = d := by
  have haway := List.all_eq_true.mp h.letters_away d hd
  simp only [Bool.and_eq_true, decide_eq_true_eq, Bool.not_eq_true'] at haway
  obtain ⟨hpos, hletters⟩ := haway
  have hruns : ∀ run ∈ letters :: others, run.covers (run.origin d) = false := by
    intro run hrun
    rcases List.mem_cons.mp hrun with rfl | hother
    · exact hletters
    · simpa using List.all_eq_true.mp (h.outside_of_mem hother).2.2 d hd
  refine Decidable.byContradiction ?_
  intro hne
  obtain ⟨run, hrun, hcovers, hmoved⟩ := exists_run_of_image himage hpos hne
  have horigin : run.origin d = c.toNat := by
    unfold origin
    omega
  have hnot := hruns run hrun
  rw [horigin, hcovers] at hnot
  cases hnot

end Borders

def upperLetters : CaseRun :=
  ⟨0x61, 0x7a, 1, -32⟩

def lowerLetters : CaseRun :=
  ⟨0x41, 0x5a, 1, 32⟩

theorem upper_borders : Borders upperLetters upperRuns.tail [('ı', 'I'), ('ſ', 'S')] ['İ', '\u212a'] where
  letters_lt := by decide
  letters_away := by decide
  outside := by decide +kernel
  replacement := by decide +kernel

theorem lower_borders : Borders lowerLetters lowerRuns.tail [('İ', 'i'), ('\u212a', 'k')] ['ı', 'ſ'] where
  letters_lt := by decide
  letters_away := by decide
  outside := by decide +kernel
  replacement := by decide +kernel

theorem lower_upper_letters (n : Nat) (hn : n < 128) :
    (image [upperLetters] (Char.ofNat n)).toNat < 128 ∧
      image [lowerLetters] (image [upperLetters] (Char.ofNat n)) = image [lowerLetters] (Char.ofNat n) := by
  revert n
  decide +kernel

theorem lower_upper_of_ascii (hc : c.toNat < 128) : lower (upper c) = lower c := by
  have hletters := lower_upper_letters c.toNat hc
  rw [Char.ofNat_toNat] at hletters
  have hupper : upper c = image [upperLetters] c := upper_borders.image_of_ascii hc
  have hlower : lower c = image [lowerLetters] c := lower_borders.image_of_ascii hc
  rw [hupper, hlower, ← hletters.2]
  exact lower_borders.image_of_ascii hletters.1

theorem lower_zero (h : c.toNat = 0) : lower c = c := by
  have hc : c = Char.ofNat 0 := Char.toNat_inj.mp h
  rw [hc]
  exact lower_borders.image_of_ascii (by decide)

def lookalikes (a : Char) : List Char :=
  if a = 'i' then ['i', 'ı'] else if a = 's' then ['s', 'ſ'] else [a]

theorem self_mem_lookalikes : a ∈ lookalikes a := by
  unfold lookalikes
  split_ifs with hi hs <;> simp [*]

theorem eq_of_mem_lookalikes (h : d ∈ lookalikes a) : d = a ∨ (d, a) ∈ [('ı', 'i'), ('ſ', 's')] := by
  unfold lookalikes at h
  split_ifs at h with hi hs <;> simp_all

def entering : List (Char × Char) :=
  [('ı', 'i'), ('ſ', 's'), ('İ', 'i'), ('\u212a', 'k')]

theorem lower_upper_of_entering :
    ∀ p ∈ entering, lower (upper p.1) = p.2 ∧ lower p.1 ∈ lookalikes (lower (upper p.1)) := by
  decide +kernel

theorem lower_mem_lookalikes (hc : c ∈ entering.map Prod.fst) : lower c ∈ lookalikes (lower (upper c)) := by
  obtain ⟨p, hp, rfl⟩ := List.mem_map.mp hc
  exact (lower_upper_of_entering p hp).2

theorem mem_lookalikes_of_lower_upper (h : lower (upper c) = a) (hpos : 0 < a.toNat) (ha : a.toNat < 128) :
    lower c ∈ lookalikes a := by
  rw [← h]
  rcases lower_borders.ascii_or_pair h hpos ha with hu | hpair
  · have hupos : 0 < (upper c).toNat := by
      apply Nat.pos_of_ne_zero
      intro hzero
      rw [lower_zero hzero] at h
      rw [h] at hzero
      omega
    rcases upper_borders.ascii_or_pair rfl hupos hu with hc | hpair
    · rw [lower_upper_of_ascii hc]
      exact self_mem_lookalikes
    · have hc : c ∈ ['ı', 'ſ'] := List.mem_map_of_mem (f := Prod.fst) hpair
      exact lower_mem_lookalikes (List.mem_append_left ['İ', '\u212a'] hc)
  · -- What lowering takes into ASCII from outside is upper case already.
    have hu : upper c ∈ ['İ', '\u212a'] := List.mem_map_of_mem (f := Prod.fst) hpair
    have hc : c = upper c := upper_borders.eq_of_image rfl hu
    rw [← hc] at hu
    exact lower_mem_lookalikes (List.mem_append_right ['ı', 'ſ'] hu)

theorem lower_upper_of_mem_lookalikes (h : lower c ∈ lookalikes a) (hpos : 0 < a.toNat) (ha : a.toNat < 128) :
    lower (upper c) = a := by
  rcases eq_of_mem_lookalikes h with h | hpair
  · rcases lower_borders.ascii_or_pair h hpos ha with hc | hpair
    · rw [lower_upper_of_ascii hc, h]
    · exact (lower_upper_of_entering (c, a) (List.mem_append_right [('ı', 'i'), ('ſ', 's')] hpair)).1
  · have hl : lower c ∈ ['ı', 'ſ'] := List.mem_map_of_mem (f := Prod.fst) hpair
    have hc : c = lower c := lower_borders.eq_of_image rfl hl
    rw [← hc] at hpair
    exact (lower_upper_of_entering (c, a) (List.mem_append_left [('İ', 'i'), ('\u212a', 'k')] hpair)).1

theorem lower_upper_eq_iff (hpos : 0 < a.toNat) (ha : a.toNat < 128) :
    lower (upper c) = a ↔ lower c ∈ lookalikes a :=
  ⟨fun h => mem_lookalikes_of_lower_upper h hpos ha, fun h => lower_upper_of_mem_lookalikes h hpos ha⟩

theorem map_lower_upper_eq_iff {cs word : List Char} (h : ∀ a ∈ word, 0 < a.toNat ∧ a.toNat < 128) :
    (cs.map upper).map lower = word ↔ cs.map lower ∈ (word.map lookalikes).sections := by
  rw [List.mem_sections]
  induction cs generalizing word with
  | nil => cases word <;> simp
  | cons c cs ih =>
    cases word with
    | nil => simp
    | cons a word =>
      have ha := h a List.mem_cons_self
      have hword := ih fun b hb => h b (List.mem_cons_of_mem a hb)
      simp only [List.map_cons, List.cons.injEq, List.forall₂_cons, lower_upper_eq_iff ha.1 ha.2, hword]

theorem upperRuns_disjoint_blanks : ∀ run ∈ upperRuns, ∀ range ∈ blankRanges,
    (run.last : Int) + run.shift < range.1 ∨ (range.2 : Int) < run.first + run.shift := by
  decide +kernel

theorem isBlank_of_upper (h : (Scalar.char (upper c)).isBlank = true) : (Scalar.char c).isBlank = true := by
  by_cases hc : c = upper c
  · rwa [← hc] at h
  · simp only [Scalar.isBlank, List.any_eq_true, Bool.and_eq_true, decide_eq_true_eq] at h
    obtain ⟨range, hrange, hfirst, hlast⟩ := h
    have hpos : ∀ range ∈ blankRanges, 0 < range.1 := by decide
    obtain ⟨run, hrun, hcovers, hmoved⟩ :=
      exists_run_of_image (rfl : upper c = upper c) (Nat.lt_of_lt_of_le (hpos range hrange) hfirst) hc
    have hdisjoint := upperRuns_disjoint_blanks run hrun range hrange
    rw [covers_iff] at hcovers
    omega

end CaseRun

open CaseRun (lower upper)

def Scalar.toChar : Scalar → Char
  | .char c => c
  | .stray _ => Char.ofNat 0xfffd

theorem Scalar.mapCase_eq {runs : List CaseRun} (h : CaseRun.image runs (Char.ofNat 0xfffd) = Char.ofNat 0xfffd)
    (x : Scalar) : x.mapCase runs = CaseRun.image runs x.toChar := by
  cases x with
  | char c => rfl
  | stray b => exact h.symm

namespace Text

def chars (s : Text) : List Char :=
  s.scalars.map Scalar.toChar

theorem scalars_flatMap (cs : List Char) : scalars (cs.flatMap utf8EncodeChar) = cs.map .char := by
  induction cs with
  | nil => rfl
  | cons c cs ih => rw [List.flatMap_cons, scalars_char, ih, List.map_cons]

theorem chars_flatMap (cs : List Char) : chars (cs.flatMap utf8EncodeChar) = cs := by
  rw [chars, scalars_flatMap, List.map_map]
  exact List.map_id cs

theorem mapCase_eq {runs : List CaseRun} (h : CaseRun.image runs (Char.ofNat 0xfffd) = Char.ofNat 0xfffd) (s : Text) :
    s.mapCase runs = (s.chars.map (CaseRun.image runs)).flatMap utf8EncodeChar := by
  rw [mapCase, chars, List.map_map, List.flatMap_map]
  simp only [Function.comp_apply, Scalar.mapCase_eq h]

theorem toUpper_eq (s : Text) : s.toUpper = (s.chars.map upper).flatMap utf8EncodeChar :=
  mapCase_eq CaseRun.upper_borders.replacement s

theorem toLower_eq (s : Text) : s.toLower = (s.chars.map lower).flatMap utf8EncodeChar :=
  mapCase_eq CaseRun.lower_borders.replacement s

theorem chars_toUpper (s : Text) : s.toUpper.chars = s.chars.map upper := by
  rw [toUpper_eq, chars_flatMap]

theorem IsToken.toUpper {s : Text} (h : s.IsToken) : s.toUpper.IsToken := by
  have hchars : ∀ c ∈ s.chars, (Scalar.char (upper c)).isBlank = false := by
    intro c hc
    obtain ⟨x, hx, rfl⟩ := List.mem_map.mp hc
    rw [Bool.eq_false_iff]
    intro hupper
    have hblank := CaseRun.isBlank_of_upper hupper
    cases x with
    | char c =>
      rw [Scalar.toChar, blankless_iff.mp h.2 _ hx] at hblank
      cases hblank
    | stray b => cases hblank
  rw [toUpper_eq]
  constructor
  · intro hnil
    have hchars := chars_flatMap (s.chars.map upper)
    rw [hnil, eq_comm, show chars [] = [] from rfl, List.map_eq_nil_iff, chars, List.map_eq_nil_iff] at hchars
    exact scalars_ne_nil h.1 hchars
  · rw [blankless_iff, scalars_flatMap]
    simpa using hchars

theorem toLower_eq_utf8 {word : String} {s : Text} : s.toLower = utf8 word ↔ s.chars.map lower = word.toList := by
  rw [toLower_eq, utf8]
  constructor
  · intro h
    rw [← chars_flatMap (s.chars.map lower), h, chars_flatMap]
  · intro h
    rw [h]

end Text

end ThreeRegister
