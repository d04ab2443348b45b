import ThreeRegister.Proofs.Text.Scalar
import ThreeRegister.Text.Blank

/-!
Fields said without decoding: a text is a sequence of encoded blank characters and of tokens, which hold the encoding of
no blank character, and two tokens never meet. There is exactly one way to see a text so, and its tokens are the fields.
-/

namespace ThreeRegister

open String (utf8EncodeChar)

namespace Text

def Blankless (s : Text) : Prop :=
  ∀ c : Char, (Scalar.char c).isBlank = true → ¬utf8EncodeChar c <:+: s

def IsToken (s : Text) : Prop :=
  s ≠ [] ∧ s.Blankless

inductive Tokens : Text → List Text → Prop
  | nil : Tokens [] []
  | blank {c : Char} {s : Text} {tokens : List Text} (hc : (Scalar.char c).isBlank = true) (h : Tokens s tokens) :
      Tokens (utf8EncodeChar c ++ s) tokens
  | last {token : Text} (ht : token.IsToken) : Tokens token [token]
  | token {token : Text} {c : Char} {s : Text} {tokens : List Text} (ht : token.IsToken)
      (hc : (Scalar.char c).isBlank = true) (h : Tokens s tokens) :
      Tokens (token ++ (utf8EncodeChar c ++ s)) (token :: tokens)

variable {s t : Text} {tokens : List Text} {x : Scalar}

theorem blankless_iff : s.Blankless ↔ ∀ x ∈ s.scalars, x.isBlank = false := by
  constructor
  · intro h x hx
    cases x with
    | stray b => rfl
    | char c =>
      obtain ⟨before, after, hscalars⟩ := List.append_of_mem hx
      have hs : s = ofScalars before ++ (utf8EncodeChar c ++ ofScalars after) := by
        have hbytes := ofScalars_scalars s
        rw [hscalars, ofScalars, List.flatMap_append, List.flatMap_cons, Scalar.bytes] at hbytes
        exact hbytes.symm
      rw [Bool.eq_false_iff]
      intro hblank
      apply h c hblank
      rw [hs, ← List.append_assoc]
      exact ⟨_, _, rfl⟩
  · rintro h c hblank ⟨before, after, hs⟩
    have hmem : .char c ∈ s.scalars := by
      rw [← hs, List.append_assoc, scalars_append before (atBoundary_char c after), scalars_char]
      simp
    rw [h _ hmem] at hblank
    cases hblank

theorem scalars_ne_nil (h : s ≠ []) : s.scalars ≠ [] := by
  intro hnil
  have hbytes := ofScalars_scalars s
  rw [hnil] at hbytes
  exact h hbytes.symm

theorem fields_blank {c : Char} (hc : (Scalar.char c).isBlank = true) (s : Text) :
    fields (utf8EncodeChar c ++ s) = s.fields := by
  simp [fields, scalars_char, List.splitOnP_cons_eq_if_modifyHead, hc]

theorem fields_last (ht : t.IsToken) : t.fields = [t] := by
  simp [fields, List.splitOnP_eq_singleton (blankless_iff.mp ht.2), scalars_ne_nil ht.1, ofScalars_scalars]

theorem fields_token (ht : t.IsToken) {c : Char} (hc : (Scalar.char c).isBlank = true) (s : Text) :
    fields (t ++ (utf8EncodeChar c ++ s)) = t :: s.fields := by
  have hsplit := List.splitOnP_append_cons_of_forall_mem (blankless_iff.mp ht.2) (.char c) hc s.scalars
  simp [fields, scalars_append t (atBoundary_char c s), scalars_char, hsplit, scalars_ne_nil ht.1, ofScalars_scalars]

theorem Tokens.fields_eq (h : Tokens s tokens) : s.fields = tokens := by
  induction h with
  | nil => rfl
  | blank hc h ih => rw [fields_blank hc, ih]
  | last ht => exact fields_last ht
  | token ht hc h ih => rw [fields_token ht hc, ih]

-- A scalar that is not blank joins the token that follows it, or is a token of its own before a blank or the end.
theorem Tokens.prepend (hx : x.isBlank = false) (hne : x.bytes ≠ [])
    (hscalars : ∀ t : Text, t <+: s → scalars (x.bytes ++ t) = x :: t.scalars) (h : Tokens s tokens) :
    ∃ tokens', Tokens (x.bytes ++ s) tokens' := by
  have hjoin {t : Text} (ht : t <+: s) (hb : t.Blankless) : IsToken (x.bytes ++ t) := by
    refine ⟨by simp [hne], ?_⟩
    rw [blankless_iff] at hb ⊢
    rw [hscalars t ht]
    simpa [hx] using hb
  have hsingle : x.bytes.IsToken := by
    have hnil : Blankless [] := blankless_iff.mpr (by simp [scalars, collectScalars])
    simpa using hjoin List.nil_prefix hnil
  cases h with
  | nil => exact ⟨_, by simpa using Tokens.last hsingle⟩
  | blank hc h => exact ⟨_, .token hsingle hc h⟩
  | last ht => exact ⟨_, .last (hjoin (List.prefix_refl _) ht.2)⟩
  | token ht hc h =>
    rw [← List.append_assoc]
    exact ⟨_, .token (hjoin (List.prefix_append _ _) ht.2) hc h⟩

theorem exists_tokens (s : Text) : ∃ tokens, Tokens s tokens := by
  induction s using decoding_induction with
  | nil => exact ⟨[], .nil⟩
  | char c s ih =>
    obtain ⟨tokens, h⟩ := ih
    cases hc : (Scalar.char c).isBlank with
    | true => exact ⟨tokens, .blank hc h⟩
    | false => exact h.prepend hc (utf8EncodeChar_ne_nil c) fun t _ => scalars_char c t
  | stray b s hstray ih =>
    obtain ⟨tokens, h⟩ := ih
    have hstarts {t : Text} (ht : t <+: s) (c : Char) : ¬utf8EncodeChar c <+: b :: t :=
      fun hc => hstray c (hc.trans (List.prefix_cons_inj b |>.mpr ht))
    exact @Tokens.prepend s tokens (.stray b) rfl (by simp [Scalar.bytes]) (fun t ht => scalars_stray (hstarts ht)) h

theorem fields_eq_iff : s.fields = tokens ↔ Tokens s tokens := by
  constructor
  · intro h
    obtain ⟨tokens', h'⟩ := exists_tokens s
    rw [← h, h'.fields_eq]
    exact h'
  · exact Tokens.fields_eq

def IsVisible (b : UInt8) : Prop :=
  32 < b.toNat ∧ b.toNat < 128

theorem not_isVisible_of_blank {c : Char} (hc : (Scalar.char c).isBlank = true) :
    ∃ lead rest, utf8EncodeChar c = lead :: rest ∧ ¬IsVisible lead := by
  obtain ⟨lead, rest, henc, hlead, -⟩ := utf8EncodeChar_eq_cons c
  refine ⟨lead, rest, henc, ?_⟩
  simp only [Scalar.isBlank, blankRanges, List.any_cons, List.any_nil, Bool.or_false, Bool.or_eq_true,
    Bool.and_eq_true, decide_eq_true_eq] at hc
  unfold IsVisible
  omega

theorem blankless_of_visible (h : ∀ b ∈ s, IsVisible b) : s.Blankless := by
  intro c hc hinfix
  obtain ⟨lead, rest, henc, hlead⟩ := not_isVisible_of_blank hc
  apply hlead
  apply h lead
  apply hinfix.subset
  simp [henc]

theorem Blankless.newline_notMem (h : s.Blankless) : newline ∉ s := by
  intro hmem
  obtain ⟨before, after, rfl⟩ := List.append_of_mem hmem
  apply h '\n' rfl
  exact ⟨before, after, by simp [String.utf8EncodeChar, newline]⟩

theorem isToken_of_all (hne : s ≠ []) (h : (s.all fun b => 32 < b.toNat && b.toNat < 128) = true) : s.IsToken := by
  refine ⟨hne, blankless_of_visible ?_⟩
  intro b hb
  simpa [IsVisible] using List.all_eq_true.mp h b hb

theorem IsToken.append_char (h : s.IsToken) {c : Char} (hc : (Scalar.char c).isBlank = false) :
    IsToken (s ++ utf8EncodeChar c) := by
  refine ⟨by simp [h.1], blankless_iff.mpr ?_⟩
  have hscalars : scalars (s ++ utf8EncodeChar c) = s.scalars ++ [.char c] := by
    have hcut := scalars_append s (atBoundary_char c [])
    rwa [scalars_char, List.append_nil] at hcut
  rw [hscalars, List.forall_mem_append, List.forall_mem_singleton]
  exact ⟨blankless_iff.mp h.2, hc⟩

theorem Tokens.exists_blanks (h : Tokens s (t :: tokens)) :
    ∃ before rest, Tokens before [] ∧ s = before ++ t ++ rest := by
  generalize htokens : t :: tokens = all at h
  induction h with
  | nil => cases htokens
  | @blank c s all hc h ih =>
    obtain ⟨before, rest, hbefore, rfl⟩ := ih htokens
    exact ⟨_, rest, .blank hc hbefore, by simp⟩
  | last ht =>
    cases htokens
    exact ⟨[], [], .nil, by simp⟩
  | token ht hc h ih =>
    cases htokens
    exact ⟨[], _, .nil, rfl⟩

theorem fields_append_of_blanks (h : Tokens s []) (t : Text) : fields (s ++ t) = t.fields := by
  generalize hnil : ([] : List Text) = tokens at h
  induction h with
  | nil => rfl
  | blank hc h ih => rw [List.append_assoc, fields_blank hc, ih hnil]
  | last ht => cases hnil
  | token ht hc h ih => cases hnil

theorem Tokens.spaces (h : Tokens s tokens) (count : Nat) : Tokens (List.replicate count space ++ s) tokens := by
  induction count with
  | zero => exact h
  | succ count ih => exact @Tokens.blank ' ' _ _ rfl ih

theorem fields_visible {b : UInt8} (hb : IsVisible b) (s : Text) :
    ∃ rest tokens, fields (b :: s) = (b :: rest) :: tokens := by
  obtain ⟨tokens, h⟩ := exists_tokens (b :: s)
  rw [h.fields_eq]
  generalize hs : b :: s = t at h
  cases h with
  | nil => cases hs
  | blank hc h =>
    obtain ⟨lead, rest, henc, hlead⟩ := not_isVisible_of_blank hc
    rw [henc, List.cons_append, List.cons.injEq] at hs
    rw [← hs.1] at hlead
    exact absurd hb hlead
  | last ht =>
    rw [← hs]
    exact ⟨s, [], rfl⟩
  | @token token c s tokens ht hc h =>
    obtain ⟨first, rest, rfl⟩ := List.exists_cons_of_ne_nil ht.1
    rw [List.cons_append, List.cons.injEq] at hs
    rw [hs.1]
    exact ⟨rest, tokens, rfl⟩

theorem Tokens.isToken (h : Tokens s tokens) (ht : t ∈ tokens) : t.IsToken := by
  induction h with
  | nil => cases ht
  | blank hc h ih => exact ih ht
  | last htoken => rwa [List.mem_singleton.mp ht]
  | token htoken hc h ih =>
    rcases List.mem_cons.mp ht with rfl | ht
    · exact htoken
    · exact ih ht

theorem join_cons_cons (token next : Text) (tokens : List Text) :
    join " " (token :: next :: tokens) = token ++ (utf8EncodeChar ' ' ++ join " " (next :: tokens)) := by
  rw [join, List.intercalate_cons_cons, List.append_assoc]
  rfl

theorem tokens_join (h : ∀ token ∈ tokens, token.IsToken) : Tokens (join " " tokens) tokens := by
  induction tokens with
  | nil => exact .nil
  | cons token tokens ih =>
    rw [List.forall_mem_cons] at h
    cases tokens with
    | nil =>
      rw [join, List.intercalate_singleton]
      exact .last h.1
    | cons next tokens =>
      rw [join_cons_cons]
      exact .token h.1 rfl (ih h.2)

theorem Tokens.length_join_le (h : Tokens s tokens) : (join " " tokens).length ≤ s.length := by
  have hpos (c : Char) : 0 < (utf8EncodeChar c).length := List.length_pos_of_ne_nil (utf8EncodeChar_ne_nil c)
  induction h with
  | nil => exact Nat.le_refl 0
  | blank hc h ih =>
    rw [List.length_append]
    omega
  | last ht => rw [join, List.intercalate_singleton]
  | @token token c s tokens ht hc h ih =>
    have hc := hpos c
    have hspace : (utf8EncodeChar ' ').length = 1 := rfl
    cases tokens with
    | nil =>
      rw [join, List.intercalate_singleton, List.length_append]
      omega
    | cons next tokens =>
      simp only [join_cons_cons, List.length_append, hspace]
      omega

theorem newline_notMem_join (h : ∀ token ∈ tokens, newline ∉ token) : newline ∉ join " " tokens := by
  induction tokens with
  | nil => exact List.not_mem_nil
  | cons token tokens ih =>
    rw [List.forall_mem_cons] at h
    cases tokens with
    | nil =>
      rw [join, List.intercalate_singleton]
      exact h.1
    | cons next tokens =>
      have hspace : newline ∉ utf8EncodeChar ' ' := by decide
      rw [join_cons_cons, List.mem_append, List.mem_append, not_or, not_or]
      exact ⟨h.1, hspace, ih h.2⟩

end Text

end ThreeRegister
