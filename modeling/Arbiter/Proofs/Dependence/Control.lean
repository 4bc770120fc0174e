import Arbiter.Proofs.Dependence.Data
import Arbiter.Proofs.Flow.Sweep
import Arbiter.Proofs.Flow.WellFormed

/-! Control dependence by paths. The sets that the sweeps come to hold the blocks on every path to
the exit, and those that can be reached, so that a block depends on a branch exactly if the branch
leads to it and some way on from it to the exit avoids the branch. -/

namespace Arbiter.Flow.Graph

open Syntax BlockSets

variable {g : Graph} {sets : BlockSets} {a b x : Nat}

section PostDominators

theorem has_foldl_inter {rest : List Nat} {s : BlockSet} :
    (rest.foldl (fun s next => s.inter (sets.get next)) s).has x = true ↔
      s.has x = true ∧ ∀ next ∈ rest, (sets.get next).has x = true := by
  induction rest generalizing s with
  | nil => simp
  | cons next rest ih => simp [ih, and_assoc]

theorem dominatorStep_of_end (h : g.successors b = [] ∨ b = exit) :
    g.dominatorStep sets b = sets.get b := by
  unfold dominatorStep
  split
  · rfl
  · rcases h with h | h
    · simp_all
    · rw [if_pos h]

theorem has_dominatorStep (hsucc : g.successors b ≠ []) (hne : b ≠ exit) :
    (g.dominatorStep sets b).has x = true ↔
      b = x ∨ ∀ next ∈ g.successors b, (sets.get next).has x = true := by
  unfold dominatorStep
  split
  · contradiction
  · rename_i first rest heq
    rw [if_neg hne, BlockSet.has_union, Bool.or_eq_true, has_foldl_inter, heq]
    simp [or_comm]

theorem isotone_dominatorStep (g : Graph) : Isotone g.size g.dominatorStep where
  sub {s t} h b := by
    by_cases hend : g.successors b = [] ∨ b = exit
    · rw [dominatorStep_of_end hend, dominatorStep_of_end hend]
      exact h.sub b
    · obtain ⟨hsucc, hne⟩ := not_or.mp hend
      intro x hx
      rw [has_dominatorStep hsucc hne] at hx ⊢
      exact hx.imp_right fun hall next hnext => h.sub next x (hall next hnext)
  lt {s} h b hb x hx := by
    by_cases hend : g.successors b = [] ∨ b = exit
    · rw [dominatorStep_of_end hend] at hx
      exact h.lt b x hx
    · obtain ⟨hsucc, hne⟩ := not_or.mp hend
      rcases (has_dominatorStep hsucc hne).mp hx with rfl | hall
      · exact hb
      · obtain ⟨next, hnext⟩ := List.exists_mem_of_ne_nil _ hsucc
        exact h.lt next x (hall next hnext)

theorem dominatorStart_lt : ∀ b < g.size, ∀ x, (g.dominatorStart b).has x = true → x < g.size := by
  intro b hb x hx
  unfold dominatorStart at hx
  split at hx
  · obtain rfl : exit = x := by simpa using hx
    exact Nat.lt_of_le_of_lt (Nat.zero_le b) hb
  · simpa using hx

/-- The sweeps for the blocks on every path come to rest. -/
theorem settles_postDominators (g : Graph) :
    Settles (sweep g.size g.dominatorStep) (.tabulate g.size g.dominatorStart)
      g.postDominators := by
  refine settles_solve_of_shrink (isotone_dominatorStep g) dominatorStart_lt fun t ht b hb => ?_
  have hstart : ∀ c, c < g.size → (t.get c).Sub (g.dominatorStart c) := fun c hc => by
    have := ht.sub c
    rwa [get_tabulate _ hc] at this
  by_cases hend : g.successors b = [] ∨ b = exit
  · rw [dominatorStep_of_end hend]
    exact hstart b hb
  · obtain ⟨-, hne⟩ := not_or.mp hend
    have hbelow : t.Below g.size := by
      refine ⟨by simpa using ht.size_eq, fun c y hy => ?_⟩
      exact (tabulate_below dominatorStart_lt).lt c y (ht.sub c y hy)
    intro x hx
    rw [dominatorStart, if_neg hne]
    simpa using (isotone_dominatorStep g).lt hbelow b hb x hx

theorem Path.lt_size (h : g.WellFormed) {blocks : List Nat} (hpath : g.Path a b blocks)
    (ha : a < g.size) : ∀ x ∈ blocks, x < g.size := by
  induction hpath with
  | here a => simpa using ha
  | step hs _ ih =>
    intro x hx
    rcases List.mem_cons.mp hx with rfl | hx
    · exact ha
    · exact ih (h.successor_lt _ _ hs) x hx

/-- The computed set of `a` holds the blocks on every path from `a` to the exit. -/
theorem has_postDominators (h : g.WellFormed) (ha : a < g.size) :
    (g.postDominators.get a).has x = true ↔
      ∀ blocks, g.Path a exit blocks → x ∈ blocks := by
  have hrest := settles_postDominators g
  constructor
  · have hexit : ∀ b < g.size, b = exit →
        ∀ x, (g.postDominators.get b).has x = true → x = exit := by
      intro b hb
      refine hrest.get_induction (J := fun b S => b = exit → ∀ x, S.has x = true → x = exit)
        (fun b _ hexit x hx => ?_) (fun s hs b hb hexit => ?_) hb
      · rw [dominatorStart, if_pos hexit] at hx
        exact (by simpa using hx : exit = x).symm
      · rw [dominatorStep_of_end (.inr hexit)]
        exact hs b hb hexit
    intro hx blocks hpath
    generalize hend : exit = b at hpath
    induction hpath with
    | here a => simp [hexit a ha hend.symm x hx, hend]
    | @step a next b blocks hs _ ih =>
      have hne : a ≠ exit := fun heq => by simp [heq, h.exit_successors] at hs
      have hsucc : g.successors a ≠ [] := List.ne_nil_of_mem hs
      rw [← hrest.update_eq ha, has_dominatorStep hsucc hne] at hx
      rcases hx with rfl | hall
      · exact List.mem_cons_self
      · exact List.mem_cons_of_mem _ (ih (h.successor_lt _ _ hs) (hall next hs) hend)
  · intro hall
    -- Some path leads to the exit, so that `x` is a block and in the sets at the start.
    obtain ⟨blocks, hpath⟩ := h.to_exit a ha
    have hx : x < g.size := hpath.lt_size h ha x (hall blocks hpath)
    refine hrest.get_induction (J := fun b S =>
      (∀ blocks, g.Path b exit blocks → x ∈ blocks) → S.has x = true) (fun b _ hall => ?_)
      (fun s hs b hb hall => ?_) ha hall
    · unfold dominatorStart
      split
      · subst b
        simpa [eq_comm] using hall [exit] (.here exit)
      · simpa using hx
    · by_cases hend : g.successors b = [] ∨ b = exit
      · rw [dominatorStep_of_end hend]
        exact hs b hb hall
      · obtain ⟨hsucc, hne⟩ := not_or.mp hend
        rw [has_dominatorStep hsucc hne]
        refine (Decidable.em (b = x)).imp_right fun hbx next hnext => ?_
        refine hs next (h.successor_lt _ _ hnext) fun blocks hpath => ?_
        exact (List.mem_cons.mp (hall _ (.step hnext hpath))).resolve_left (Ne.symm hbx)

end PostDominators

section Reachable

theorem has_reachStep : (g.reachStep sets b).has x = true ↔
    b = x ∨ ∃ next ∈ g.successors b, (sets.get next).has x = true := by
  simp [reachStep, or_comm]

theorem isotone_reachStep (g : Graph) : Isotone g.size g.reachStep where
  sub {s t} h b x hx := by
    rw [has_reachStep] at hx ⊢
    exact hx.imp_right fun ⟨next, hnext, hx⟩ => ⟨next, hnext, h.sub next x hx⟩
  lt {s} h b hb x hx := by
    rcases has_reachStep.mp hx with rfl | ⟨next, -, hx⟩
    · exact hb
    · exact h.lt next x hx

/-- The sweeps for the blocks that can be reached come to rest. -/
theorem settles_reachable (g : Graph) :
    Settles (sweep g.size g.reachStep) (.tabulate g.size .single) g.reachable := by
  refine settles_solve_of_grow (isotone_reachStep g) (fun b hb x hx => ?_) fun t ht b hb x hx => ?_
  · obtain rfl : b = x := by simpa using hx
    exact hb
  · exact has_reachStep.mpr (.inl (by simpa using hx))

/-- The computed set of `a` holds the blocks that a run can come to from `a`. -/
theorem has_reachable (h : g.WellFormed) (ha : a < g.size) :
    (g.reachable.get a).has x = true ↔ g.Reaches a x := by
  have hrest := settles_reachable g
  constructor
  · refine hrest.get_induction (J := fun b S => S.has x = true → g.Reaches b x)
      (fun b _ hx => ?_) (fun s hs b hb hx => ?_) ha
    · obtain rfl : b = x := by simpa using hx
      exact .refl b
    · rcases has_reachStep.mp hx with rfl | ⟨next, hnext, hx⟩
      · exact .refl b
      · exact (Reaches.single hnext).trans (hs next (h.successor_lt _ _ hnext) hx)
  · rintro ⟨blocks, hpath⟩
    induction hpath with
    | here a =>
      rw [← hrest.update_eq ha]
      exact has_reachStep.mpr (.inl rfl)
    | step hs _ ih =>
      rw [← hrest.update_eq ha]
      exact has_reachStep.mpr (.inr ⟨_, hs, ih (h.successor_lt _ _ hs)⟩)

end Reachable

theorem has_behindBranches (h : g.WellFormed) (hb : b < g.size) :
    (g.behindBranches.get b).has x = true ↔
      1 < (g.successors b).length ∧ ∃ next ∈ g.successors b, g.Reaches next x := by
  rw [behindBranches, get_tabulate _ hb]
  split
  · have hreach : ∀ next ∈ g.successors b,
        ((g.reachable.get next).has x = true ↔ g.Reaches next x) := fun next hnext =>
      has_reachable h (h.successor_lt _ _ hnext)
    simp only [BlockSet.has_unions, List.mem_map, exists_exists_and_eq_and]
    constructor
    · rintro ⟨next, hnext, hx⟩
      exact ⟨‹_›, next, hnext, (hreach next hnext).mp hx⟩
    · rintro ⟨-, next, hnext, hx⟩
      exact ⟨next, hnext, (hreach next hnext).mpr hx⟩
  · simp [*]

/-- The branch `b` leads to block `x`, and some way on from there to the exit avoids `b`. -/
def ControlDependent (g : Graph) (b x : Nat) : Prop :=
  (∃ s ∈ g.successors b, ∃ t ∈ g.successors b, s ≠ t) ∧
  (∃ blocks, g.Path b x blocks ∧ 1 < blocks.length) ∧
  ∃ blocks, g.Path x exit blocks ∧ b ∉ blocks

theorem two_successors_iff (h : g.WellFormed) :
    (∃ s ∈ g.successors b, ∃ t ∈ g.successors b, s ≠ t) ↔ 1 < (g.successors b).length := by
  match g.successors b, h.successors_nodup b with
  | [], _ | [_], _ => simp
  | s :: t :: rest, hnodup =>
    have hne : s ≠ t := fun heq => (List.nodup_cons.mp hnodup).1 (heq ▸ List.mem_cons_self)
    exact ⟨fun _ => by simp, fun _ => ⟨s, by simp, t, by simp, hne⟩⟩

theorem path_with_link_iff : (∃ blocks, g.Path a b blocks ∧ 1 < blocks.length) ↔
    ∃ next ∈ g.successors a, g.Reaches next b := by
  constructor
  · rintro ⟨blocks, hpath, hlen⟩
    cases hpath with
    | here => simp at hlen
    | step hs hrest => exact ⟨_, hs, _, hrest⟩
  · rintro ⟨next, hs, blocks, hpath⟩
    obtain ⟨rest, rfl⟩ := hpath.head
    exact ⟨_, .step hs hpath, by simp⟩

theorem mem_controlPairs (h : g.WellFormed) :
    (b, x) ∈ g.controlPairs ↔ g.ControlDependent b x := by
  rw [controlPairs, mem_pairsBelow, ControlDependent, two_successors_iff h, path_with_link_iff]
  constructor
  · rintro ⟨hb, hx, hp⟩
    obtain ⟨hbehind, hdom⟩ := (Bool.and_eq_true _ _).mp hp
    obtain ⟨hlen, hreach⟩ := (has_behindBranches h hb).mp hbehind
    refine ⟨hlen, hreach, ?_⟩
    have havoid : ¬∀ blocks, g.Path x exit blocks → b ∈ blocks := fun hall => by
      simp [(has_postDominators h hx).mpr hall] at hdom
    simpa using havoid
  · rintro ⟨hlen, ⟨next, hnext, blocks, hpath⟩, avoiding, havoid, hb⟩
    have hlt := lt_of_mem_successors hnext
    have hx := hpath.lt_size h (h.successor_lt _ _ hnext) x hpath.target_mem
    refine ⟨hlt, hx, (Bool.and_eq_true _ _).mpr ⟨?_, ?_⟩⟩
    · exact (has_behindBranches h hlt).mpr ⟨hlen, next, hnext, blocks, hpath⟩
    · rw [Bool.not_eq_true', Bool.eq_false_iff]
      exact fun hdom => hb ((has_postDominators h hx).mp hdom avoiding havoid)

/-- The control edges of a program's dependence graph are exactly the pairs of a branch and a block
that it leads to and that has a way to the exit around it. The sweeps come to rest in the sets of
blocks on every path, and no edge occurs twice. -/
theorem control_edge_iff_path (body : List Stmt) :
    let g := ofProgram body
    Settles (sweep g.size g.dominatorStep) (.tabulate g.size g.dominatorStart) g.postDominators ∧
    Settles (sweep g.size g.reachStep) (.tabulate g.size .single) g.reachable ∧
    (∀ b x, ⟨b, x, .control⟩ ∈ g.dependences.edges ↔
      (∃ s ∈ g.successors b, ∃ t ∈ g.successors b, s ≠ t) ∧
      (∃ blocks, g.Path b x blocks ∧ 1 < blocks.length) ∧
      ∃ blocks, g.Path x exit blocks ∧ b ∉ blocks) ∧
    (∀ a < g.size, ∀ x, (g.postDominators.get a).has x = true ↔
      ∀ blocks, g.Path a exit blocks → x ∈ blocks) ∧
    (g.dependences.edges.filter (·.kind = .control)).Nodup := by
  intro g
  have h : g.WellFormed := wellFormed_ofProgram body
  refine ⟨settles_postDominators g, settles_reachable g, fun b x => ?_, fun a ha x => ?_, ?_⟩
  · rw [mem_edges_control, mem_controlPairs h]
    rfl
  · exact has_postDominators h ha
  · exact (nodup_edges g).filter _

end Arbiter.Flow.Graph
