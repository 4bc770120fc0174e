import Arbiter.Flow.Fixpoint
import Mathlib.Data.Finset.Card
import Mathlib.Data.Finset.Prod

/-! Sweeping to a fixed point comes to rest. The sets of blocks below `n` have `n * n` members in
all, so that sets which only grow, or only shrink, change in at most so many sweeps. -/

namespace Arbiter.Flow

variable {α : Type} {f : α → α} {a b : α}

/-- Applying `f` from `a` on, for as long as that changes something, ends in `b`. -/
inductive Settles (f : α → α) : α → α → Prop
  | rest {a : α} : f a = a → Settles f a a
  | again {a b : α} : f a ≠ a → Settles f (f a) b → Settles f a b

namespace Settles

theorem fixed (h : Settles f a b) : f b = b := by
  induction h with
  | rest h => exact h
  | again _ _ ih => exact ih

theorem invariant {P : α → Prop} (h : Settles f a b) (keep : ∀ a, P a → P (f a)) (ha : P a) :
    P b := by
  induction h with
  | rest _ => exact ha
  | again _ _ ih => exact ih (keep _ ha)

end Settles

theorem settles_untilStable [DecidableEq α] {P : α → Prop} {μ : α → Nat}
    (keep : ∀ a, P a → P (f a)) (less : ∀ a, P a → f a ≠ a → μ (f a) < μ a) {rounds : Nat}
    (ha : P a) (hμ : μ a < rounds) : Settles f a (untilStable f rounds a) := by
  induction rounds generalizing a with
  | zero => omega
  | succ rounds ih =>
    rw [untilStable]
    split
    · exact .rest ‹f a = a›
    · have := less a ha ‹_›
      exact .again ‹_› (ih (keep a ha) (by omega))

/-- Every block of `s` is in `t`. -/
def BlockSet.Sub (s t : BlockSet) : Prop := ∀ x, s.has x = true → t.has x = true

theorem BlockSet.ext {s t : BlockSet} (h : ∀ x, s.has x = t.has x) : s = t :=
  Nat.eq_of_testBit_eq h

@[simp] theorem BlockSet.has_unions {sets : List BlockSet} {x : Nat} :
    (unions sets).has x = true ↔ ∃ s ∈ sets, s.has x = true := by
  have general : ∀ start : BlockSet, (sets.foldl union start).has x = true ↔
      start.has x = true ∨ ∃ s ∈ sets, s.has x = true := by
    induction sets with
    | nil => simp
    | cons s rest ih =>
      intro start
      simp [ih, or_assoc]
  simpa [unions] using general empty

namespace BlockSets

variable {s t u : BlockSets} {n b c : Nat} {v : BlockSet}

/-- `s` and `t` have sets for the same blocks, and those of `s` are parts of those of `t`. -/
structure Within (s t : BlockSets) : Prop where
  size_eq : s.size = t.size
  sub : ∀ b, (s.get b).Sub (t.get b)

/-- One set for each block below `n`, of blocks below `n`. -/
structure Below (n : Nat) (s : BlockSets) : Prop where
  size_eq : s.size = n
  lt : ∀ b x, (s.get b).has x = true → x < n

theorem Within.refl (s : BlockSets) : s.Within s := ⟨rfl, fun _ _ h => h⟩

theorem get_of_le (h : s.size ≤ b) : s.get b = .empty := by simp [get, Array.getD, Nat.not_lt.mpr h]

theorem get_set (s : BlockSets) (b c : Nat) (v : BlockSet) :
    get (s.setIfInBounds b v) c = if b = c ∧ b < s.size then v else s.get c := by
  simp only [get, Array.getD_eq_getD_getElem?, Array.getElem?_setIfInBounds]
  by_cases hbc : b = c
  · subst hbc
    by_cases hb : b < s.size <;> simp [hb]
  · simp [hbc]

theorem ext (hsize : s.size = t.size) (h : ∀ b, s.get b = t.get b) : s = t := by
  refine Array.ext hsize fun i hs ht => ?_
  have := h i
  simpa [get, Array.getD, hs, ht] using this

/-- The pairs of a block below `n` and a block in its set. -/
def members (n : Nat) (s : BlockSets) : Finset (Nat × Nat) :=
  (Finset.range n ×ˢ Finset.range n).filter fun p => (s.get p.1).has p.2 = true

theorem card_members_le (n : Nat) (s : BlockSets) : (members n s).card ≤ n * n := by
  refine (Finset.card_filter_le _ _).trans ?_
  simp

/-- Sets that are parts of others and not all of them have fewer members. -/
theorem Within.card_lt (h : s.Within t) (ht : t.Below n) (hne : s ≠ t) :
    (members n s).card < (members n t).card := by
  refine Finset.card_lt_card (Finset.ssubset_iff_subset_ne.mpr ⟨fun p hp => ?_, fun heq => hne ?_⟩)
  · simp only [members, Finset.mem_filter] at hp ⊢
    exact ⟨hp.1, h.sub _ _ hp.2⟩
  · refine ext h.size_eq fun b => BlockSet.ext fun x => ?_
    rw [Bool.eq_iff_iff]
    refine ⟨h.sub b x, fun hx => ?_⟩
    have hb : b < n := by
      refine Nat.lt_of_not_le fun hb => ?_
      rw [get_of_le (ht.size_eq ▸ hb)] at hx
      simp at hx
    have hmem : (b, x) ∈ members n s := by
      rw [heq]
      simp [members, hb, ht.lt b x hx, hx]
    exact (Finset.mem_filter.mp hmem).2

end BlockSets

open BlockSets

section Sweep

variable {n : Nat} {update : BlockSets → Nat → BlockSet} {s t : BlockSets}

theorem sweep_succ (n : Nat) (update : BlockSets → Nat → BlockSet) (s : BlockSets) :
    sweep (n + 1) update s = (sweep n update s).setIfInBounds n (update (sweep n update s) n) := by
  rw [sweep, List.range_succ, List.foldl_append]
  rfl

/-- What each update keeps, a sweep keeps. -/
theorem sweep_keeps {P : BlockSets → Prop}
    (keep : ∀ s b, P s → b < n → P (s.setIfInBounds b (update s b))) (hs : P s) :
    P (sweep n update s) := by
  induction n with
  | zero => exact hs
  | succ n ih =>
    rw [sweep_succ]
    exact keep _ n (ih fun s b hs hb => keep s b hs (by omega)) (by omega)

@[simp] theorem size_sweep : (sweep n update s).size = s.size :=
  sweep_keeps (P := fun t => t.size = s.size) (fun t b ht _ => by simpa using ht) rfl

/-- A sweep over the blocks below `n` changes the sets of those alone. -/
theorem get_sweep_of_le {b : Nat} (hb : n ≤ b) : (sweep n update s).get b = s.get b :=
  sweep_keeps (P := fun t => t.get b = s.get b)
    (fun t c ht hc => by rw [get_set, if_neg (by omega), ht]) rfl

theorem get_sweep_of_lt {b m : Nat} (hb : b < n) (hm : n ≤ m) :
    (sweep m update s).get b = (sweep n update s).get b := by
  induction m with
  | zero => omega
  | succ m ih =>
    by_cases hnm : n = m + 1
    · rw [hnm]
    · rw [sweep_succ, get_set, if_neg (by omega), ih (by omega)]

/-- When a sweep changes nothing, no update does: each set is written once in it. -/
theorem update_eq_of_fixed (h : sweep n update s = s) (hsize : s.size = n) {b : Nat} (hb : b < n) :
    update s b = s.get b := by
  have before : sweep b update s = s := by
    refine BlockSets.ext (by simp) fun c => ?_
    by_cases hc : c < b
    · rw [← get_sweep_of_lt hc (Nat.le_of_lt hb), h]
    · exact get_sweep_of_le (by omega)
  have after : (sweep (b + 1) update s).get b = update s b := by
    rw [sweep_succ, before, get_set, if_pos ⟨rfl, by omega⟩]
  rw [← after, ← get_sweep_of_lt (m := n) (by omega) (by omega), h]

theorem BlockSets.Within.set (h : s.Within t) {v w : BlockSet} (hvw : v.Sub w) (b : Nat) :
    BlockSets.Within (s.setIfInBounds b v) (t.setIfInBounds b w) where
  size_eq := by simpa using h.size_eq
  sub c := by
    rw [get_set, get_set, h.size_eq]
    split
    · exact hvw
    · exact h.sub c

theorem sweep_within (hsub : ∀ {s t}, s.Within t → ∀ b, (update s b).Sub (update t b))
    (h : s.Within t) : (sweep n update s).Within (sweep n update t) := by
  induction n with
  | zero => exact h
  | succ n ih =>
    rw [sweep_succ, sweep_succ]
    exact ih.set (hsub ih n) n

/-- Larger sets give larger sets, and sets of blocks below `n` give such sets. -/
structure Isotone (n : Nat) (update : BlockSets → Nat → BlockSet) : Prop where
  sub : ∀ {s t}, s.Within t → ∀ b, (update s b).Sub (update t b)
  lt : ∀ {s}, s.Below n → ∀ b < n, ∀ x, (update s b).has x = true → x < n

theorem Isotone.sweep_below (hiso : Isotone n update) (h : s.Below n) :
    (sweep n update s).Below n := by
  refine sweep_keeps (fun t b ht hb => ⟨by simpa using ht.size_eq, fun c x hx => ?_⟩) h
  rw [get_set] at hx
  split at hx
  · exact hiso.lt ht b hb x hx
  · exact ht.lt c x hx

variable {start : Nat → BlockSet}

theorem tabulate_below (hstart : ∀ b < n, ∀ x, (start b).has x = true → x < n) :
    (BlockSets.tabulate n start).Below n := by
  refine ⟨size_tabulate n start, fun b x hx => ?_⟩
  by_cases hb : b < n
  · exact hstart b hb x (by rwa [get_tabulate start hb] at hx)
  · rw [get_of_le (by simpa using hb)] at hx
    simp at hx

/-- Sets that grow from the start on come to rest. -/
theorem settles_solve_of_grow (hiso : Isotone n update)
    (hstart : ∀ b < n, ∀ x, (start b).has x = true → x < n)
    (hgrow : ∀ t, (BlockSets.tabulate n start).Within t → ∀ b < n, (start b).Sub (update t b)) :
    Settles (sweep n update) (.tabulate n start) (solve n start update) := by
  have first : (BlockSets.tabulate n start).Within (sweep n update (.tabulate n start)) := by
    refine sweep_keeps (fun t b ht hb => ⟨by simpa using ht.size_eq, fun c => ?_⟩) (.refl _)
    rw [get_set]
    split
    · obtain ⟨rfl, -⟩ := ‹b = c ∧ _›
      rw [get_tabulate start hb]
      exact hgrow t ht b hb
    · exact ht.sub c
  refine settles_untilStable (P := fun s => s.Below n ∧ s.Within (sweep n update s))
    (μ := fun s => n * n - (members n s).card) ?_ ?_ ⟨tabulate_below hstart, first⟩ (by omega)
  · exact fun s ⟨hs, hw⟩ => ⟨hiso.sweep_below hs, sweep_within hiso.sub hw⟩
  · intro s ⟨hs, hw⟩ hne
    have := hw.card_lt (hiso.sweep_below hs) (Ne.symm hne)
    have := card_members_le n (sweep n update s)
    omega

/-- Sets that shrink from the start on come to rest. -/
theorem settles_solve_of_shrink (hiso : Isotone n update)
    (hstart : ∀ b < n, ∀ x, (start b).has x = true → x < n)
    (hshrink : ∀ t, t.Within (BlockSets.tabulate n start) → ∀ b < n, (update t b).Sub (start b)) :
    Settles (sweep n update) (.tabulate n start) (solve n start update) := by
  have first : (sweep n update (.tabulate n start)).Within (BlockSets.tabulate n start) := by
    refine sweep_keeps (P := fun t => t.Within (BlockSets.tabulate n start))
      (fun t b ht hb => ⟨by simpa using ht.size_eq, fun c => ?_⟩) (.refl _)
    rw [get_set]
    split
    · obtain ⟨rfl, -⟩ := ‹b = c ∧ _›
      rw [get_tabulate start hb]
      exact hshrink t ht b hb
    · exact ht.sub c
  refine settles_untilStable (P := fun s => s.Below n ∧ (sweep n update s).Within s)
    (μ := fun s => (members n s).card) ?_ ?_ ⟨tabulate_below hstart, first⟩
    (Nat.lt_succ_of_le (card_members_le n _))
  · exact fun s ⟨hs, hw⟩ => ⟨hiso.sweep_below hs, sweep_within hiso.sub hw⟩
  · intro s ⟨hs, hw⟩ hne
    exact hw.card_lt hs hne

variable {sets : BlockSets}

theorem Settles.size_eq (h : Settles (sweep n update) (.tabulate n start) sets) : sets.size = n :=
  h.invariant (P := fun s => s.size = n) (fun s hs => by simpa using hs) (size_tabulate n start)

/-- The sets at rest solve the equations. -/
theorem Settles.update_eq (h : Settles (sweep n update) (.tabulate n start) sets) {b : Nat}
    (hb : b < n) : update sets b = sets.get b :=
  update_eq_of_fixed h.fixed h.size_eq hb

/-- What holds of the sets at the start and is kept by each update holds of the sets at rest. -/
theorem Settles.get_induction {J : Nat → BlockSet → Prop}
    (h : Settles (sweep n update) (.tabulate n start) sets) (hstart : ∀ b < n, J b (start b))
    (hstep : ∀ s, (∀ b < n, J b (s.get b)) → ∀ b < n, J b (update s b)) {b : Nat} (hb : b < n) :
    J b (sets.get b) := by
  have hinit : ∀ c < n, J c ((BlockSets.tabulate n start).get c) := fun c hc => by
    rw [get_tabulate start hc]
    exact hstart c hc
  refine h.invariant (P := fun s => ∀ c < n, J c (s.get c)) (fun s hs => ?_) hinit b hb
  refine sweep_keeps (P := fun s => ∀ c < n, J c (s.get c)) (fun t b ht hb c hc => ?_) hs
  rw [get_set]
  split
  · obtain ⟨rfl, -⟩ := ‹b = c ∧ _›
    exact hstep t ht b hb
  · exact ht c hc

end Sweep

end Arbiter.Flow
