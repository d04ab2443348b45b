import ThreeRegister.Proofs.Generation.Trace
import ThreeRegister.Proofs.RegisterFile.Renaming

/-!
Two runs of code generation side by side, on blocks that differ by a renaming. A relation between their register files
that every change keeps holds all along the two runs, and they write the same code up to the renaming.
-/

namespace ThreeRegister

open Alloc

def Machine.Instruction.rename (σ : Variable → Variable) (τ : Text → Text) : Instruction → Instruction
  | .load dst v => .load dst (σ v)
  | .store v src => .store (σ v) src
  | .operate op dst left right => .operate (τ op) dst left right
  | .undefined kind dst => .undefined kind dst

theorem Machine.Instruction.rename_id : rename id id = id := by
  funext i
  cases i <;> rfl

variable {σ : Variable → Variable} {τ : Text → Text} {R : RegisterFile → RegisterFile → Prop} {f f' : RegisterFile}
  {s s' t t' : Session} {strategy : Strategy} {e e' : NextUse.Entry} {left right v : Variable}
  {d d' l l' r r' i i' : Fin 3}

namespace RegisterFile

/-- Related register files differ by the renaming, and stay related when both are changed in the same way. -/
structure Tracking (σ : Variable → Variable) (R : RegisterFile → RegisterFile → Prop) : Prop where
  injective : Function.Injective σ
  renamed {f f' : RegisterFile} : R f f' → f.Renamed σ f'
  fresh : R .fresh .fresh
  touch {f f' : RegisterFile} (v : Variable) : R f f' → R (f.touch v) (f'.touch (σ v))
  pin {f f' : RegisterFile} (r : Register) : R f f' → R (f.pin r) (f'.pin r)
  unpin {f f' : RegisterFile} : R f f' → R f.unpin f'.unpin
  assignSpillSlot {f f' : RegisterFile} (v : Variable) : R f f' → R (f.assignSpillSlot v) (f'.assignSpillSlot (σ v))
  occupy {f f' : RegisterFile} (v : Variable) (i : Fin 3) : R f f' → R (f.occupy v i) (f'.occupy (σ v) i)
  release {f f' : RegisterFile} (v : Variable) (i : Fin 3) : R f f' → R (f.release v i) (f'.release (σ v) i)

theorem tracking_eq : Tracking id Eq where
  injective := Function.injective_id
  renamed := by
    rintro f _ rfl
    exact .refl f
  fresh := rfl
  touch v h := by rw [h, id_eq]
  pin r h := by rw [h]
  unpin h := by rw [h]
  assignSpillSlot v h := by rw [h, id_eq]
  occupy v i h := by rw [h, id_eq]
  release v i h := by rw [h, id_eq]

theorem tracking_renamed (hσ : Function.Injective σ) : Tracking σ (Renamed σ) where
  injective := hσ
  renamed := id
  fresh := .fresh
  touch v h := h.touch hσ v
  pin r h := h.pin r
  unpin h := h.unpin
  assignSpillSlot v h := h.assignSpillSlot v
  occupy v i h := h.occupy hσ v i
  release v i h := h.release hσ v i

namespace Tracking

variable (hR : Tracking σ R)

include hR

theorem forget (v : Variable) (h : R f f') : R (f.forget v) (f'.forget (σ v)) := by
  unfold RegisterFile.forget
  rw [(hR.renamed h).residency v]
  cases f.residency[v]?.bind Register.index? with
  | none => exact h
  | some i => exact hR.release v i h

theorem clear (i : Fin 3) (h : R f f') : R (f.clear i) (f'.clear i) := by
  unfold RegisterFile.clear
  rw [(hR.renamed h).slots i]
  cases f.slots.get i with
  | free label => exact h
  | held w => exact hR.release w i h

theorem define (v : Variable) (i : Fin 3) (h : R f f') : R (f.define v i) (f'.define (σ v) i) := by
  unfold RegisterFile.define
  rw [(hR.renamed h).residency v]
  split
  · exact hR.touch v h
  · exact hR.touch v (hR.occupy v i (hR.clear i (hR.forget v h)))

end Tracking

theorem Renamed.reusable?_eq (h : f.Renamed σ f') (he : strategy.SeesRenamed σ e e') (v : Variable) :
    reusable? strategy f' (σ v) e' = reusable? strategy f v e := by
  cases strategy with
  | fixedSlot => rfl
  | nextUse => simp only [reusable?, he rfl v, h.residency v]

end RegisterFile

open RegisterFile (Tracking)

structure Session.Tracks (σ : Variable → Variable) (τ : Text → Text) (R : RegisterFile → RegisterFile → Prop)
    (s s' : Session) : Prop where
  file : R s.file s'.file
  code : s'.code = s.code.map (Machine.Instruction.rename σ τ)

theorem Session.Tracks.pin (hR : Tracking σ R) (h : s.Tracks σ τ R s') (i : Fin 3) :
    (s.pin i).Tracks σ τ R (s'.pin i) :=
  ⟨hR.pin _ h.file, h.code⟩

namespace Alloc

theorem Vacated.tracks (hR : Tracking σ R) (he : strategy.SeesRenamed σ e e') (h : Vacated strategy e s i t)
    (h' : Vacated strategy e' s' i' t') (hs : s.Tracks σ τ R s') : i' = i ∧ t.Tracks σ τ R t' := by
  have hfree := (hR.renamed hs.file).firstFree?_eq
  have hvictim := (hR.renamed hs.file).victim?_eq he
  cases h with
  | free h =>
    rw [h] at hfree
    cases h' with
    | free h' =>
      rw [h', Option.some.injEq, Register.ofIndex_inj] at hfree
      exact ⟨hfree, hs⟩
    | evicted hfull' hw' =>
      rw [hfull'] at hfree
      cases hfree
  | evicted hfull hw =>
    rw [hfull] at hfree
    cases h' with
    | free h' =>
      rw [h'] at hfree
      cases hfree
    | evicted hfull' hw' =>
      rw [hw, hw', Option.map_some, Option.some.injEq, Prod.map_apply, Prod.mk.injEq, id_eq, Register.ofIndex_inj]
        at hvictim
      obtain ⟨rfl, rfl⟩ := hvictim
      refine ⟨rfl, hR.release _ _ (hR.assignSpillSlot _ hs.file), ?_⟩
      simp only [hs.code, Array.map_push, Machine.Instruction.rename]

theorem Ensured.tracks (hR : Tracking σ R) (he : strategy.SeesRenamed σ e e') (h : Ensured strategy v e s i t)
    (h' : Ensured strategy (σ v) e' s' i' t') (hs : s.Tracks σ τ R s') : i' = i ∧ t.Tracks σ τ R t' := by
  have hresidency := (hR.renamed hs.file).residency v
  cases h with
  | resident h =>
    rw [h] at hresidency
    cases h' with
    | resident h' =>
      rw [h', Option.some.injEq, Register.ofIndex_inj] at hresidency
      exact ⟨hresidency, hR.touch v hs.file, hs.code⟩
    | loaded h' hvacated' =>
      rw [h'] at hresidency
      cases hresidency
  | loaded h hvacated =>
    rw [h] at hresidency
    cases h' with
    | resident h' =>
      rw [h'] at hresidency
      cases hresidency
    | loaded h' hvacated' =>
      obtain ⟨rfl, ht⟩ := hvacated.tracks hR he hvacated' hs
      refine ⟨rfl, hR.touch v (hR.occupy v _ ht.file), ?_⟩
      simp only [ht.code, Array.map_push, Machine.Instruction.rename]

end Alloc

namespace Generation

theorem Loaded.tracks (hR : Tracking σ R) (he : strategy.SeesRenamed σ e e') (h : Loaded strategy left right e s l r t)
    (h' : Loaded strategy (σ left) (σ right) e' s' l' r' t') (hs : s.Tracks σ τ R s') :
    l' = l ∧ r' = r ∧ t.Tracks σ τ R t' := by
  obtain ⟨hleft, hright⟩ := h
  obtain ⟨hleft', hright'⟩ := h'
  obtain ⟨rfl, ht⟩ := hleft.tracks hR he hleft' hs
  obtain ⟨rfl, hu⟩ := hright.tracks hR he hright' (ht.pin hR l')
  exact ⟨rfl, rfl, hu.pin hR r'⟩

theorem Prepared.tracks (hR : Tracking σ R) (he : strategy.SeesRenamed σ e e')
    (h : Prepared strategy left right e s d l r t) (h' : Prepared strategy (σ left) (σ right) e' s' d' l' r' t')
    (hs : s.Tracks σ τ R s') : d' = d ∧ l' = l ∧ r' = r ∧ t.Tracks σ τ R t' := by
  have hreuse : reusableOperand? strategy s'.file (σ left) (σ right) e' =
      reusableOperand? strategy s.file left right e := by
    simp only [reusableOperand?, (hR.renamed hs.file).reusable?_eq he]
  cases h with
  | reused h hloaded =>
    rw [h] at hreuse
    cases h' with
    | reused h' hloaded' =>
      rw [h', Option.some.injEq, Register.ofIndex_inj] at hreuse
      subst hreuse
      exact ⟨rfl, hloaded.tracks hR he hloaded' ⟨hR.pin _ hs.file, hs.code⟩⟩
    | acquired h' hloaded' hvacated' =>
      rw [h'] at hreuse
      cases hreuse
  | acquired h hloaded hvacated =>
    rw [h] at hreuse
    cases h' with
    | reused h' hloaded' =>
      rw [h'] at hreuse
      cases hreuse
    | acquired h' hloaded' hvacated' =>
      obtain ⟨rfl, rfl, ht⟩ := hloaded.tracks hR he hloaded' ⟨hs.file, hs.code⟩
      obtain ⟨rfl, hu⟩ := hvacated.tracks hR he hvacated' ht
      exact ⟨rfl, rfl, rfl, hu⟩

theorem Written.tracks (hR : Tracking σ R) (he : strategy.SeesRenamed σ e e') {instruction : Source.Instruction}
    (h : Written strategy e s instruction t) (h' : Written strategy e' s' (instruction.rename σ τ) t')
    (hs : s.Tracks σ τ R s') : t.Tracks σ τ R t' := by
  cases h with
  | @move dst src i u _ _ hsrc =>
    cases h' with
    | move hsrc' =>
      obtain ⟨rfl, ht⟩ := hsrc.tracks hR he hsrc' ⟨hs.file, hs.code⟩
      refine ⟨?_, ?_⟩
      · simp only [ne_eq, hR.injective.eq_iff]
        split
        · exact hR.forget dst ht.file
        · exact ht.file
      · simp only [ht.code, Array.map_push, Machine.Instruction.rename]
  | @binary dst left right op d l r u _ _ hprepared =>
    cases h' with
    | binary hprepared' =>
      obtain ⟨rfl, rfl, rfl, ht⟩ := hprepared.tracks hR he hprepared' ⟨hs.file, hs.code⟩
      refine ⟨hR.unpin (hR.define dst _ ht.file), ?_⟩
      simp only [ht.code, Array.map_push, Machine.Instruction.rename]

theorem sessionAfter_tracks (hR : Tracking σ R) (strategy : Strategy) (options options' : Options)
    {block block' : Source.Block} (hb : ∀ f, .foreign f ∉ block) (hb' : ∀ f, .foreign f ∉ block')
    (hblocks : block.rename σ τ <+: block') (hwhole : strategy = .nextUse → block' = block.rename σ τ) {count : Nat}
    (hcount : count ≤ block.length) :
    (sessionAfter strategy options block count).Tracks σ τ R (sessionAfter strategy options' block' count) := by
  obtain ⟨table, htable, hdescribes⟩ := NextUse.Table.ofBlockFrom_ok 0 hb
  obtain ⟨table', htable', hdescribes'⟩ := NextUse.Table.ofBlockFrom_ok 0 hb'
  induction count with
  | zero =>
    rw [sessionAfter_zero strategy options hb, sessionAfter_zero strategy options' hb']
    exact ⟨hR.fresh, by simp [Session.start]⟩
  | succ count ih =>
    have hi := List.getElem?_eq_getElem hcount
    have hi' : block'[count]? = some (block[count].rename σ τ) := by
      obtain ⟨rest, rfl⟩ := hblocks
      rw [List.getElem?_append_left (by rwa [Source.Block.rename, List.length_map]), Source.Block.rename,
        List.getElem?_map, hi, Option.map_some]
    obtain ⟨e, he, hzip⟩ := hdescribes.getElem?_zip hi
    obtain ⟨e', he', hzip'⟩ := hdescribes'.getElem?_zip hi'
    -- What comes later in the second block changes the entries, but only for a strategy that does not look at them.
    have hsees : strategy.SeesRenamed σ e e' := by
      intro hstrategy
      rw [hwhole hstrategy] at hdescribes'
      have hentries := hdescribes.renamed hR.injective hdescribes' count
      rwa [he, he'] at hentries
    have hstep := sessionAfter_written strategy options hb htable hzip
    have hstep' := sessionAfter_written strategy options' hb' htable' hzip'
    exact hstep.tracks hR hsees hstep' (ih (Nat.le_of_succ_le hcount))

end Generation

end ThreeRegister
