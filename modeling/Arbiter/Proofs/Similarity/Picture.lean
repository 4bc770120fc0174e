import Arbiter.Proofs.Parsing.Kinds
import Arbiter.Proofs.Similarity.Dice
import Arbiter.Similarity.Report

/-! What a report shows of both graphs. Main statement: it shows every node and edge of the first graph
once, as common where it was matched, and of the second graph those that were not matched, once. -/

namespace Arbiter.Similarity

open Dependence

/-- The entry stands for a node of the named program. -/
def ShownNode.Shows (s : ShownNode) (program : String) (n : Node) : Prop :=
  s.id = shownId program n.id

instance (s : ShownNode) (program : String) (n : Node) : Decidable (s.Shows program n) :=
  inferInstanceAs (Decidable (_ = _))

/-- The entry stands for an edge of the named program. -/
def ShownEdge.Shows (s : ShownEdge) (program : String) (e : Edge) : Prop :=
  s.source = shownId program e.source ∧ s.target = shownId program e.target ∧ s.kind = e.kind

instance (s : ShownEdge) (program : String) (e : Edge) : Decidable (s.Shows program e) :=
  inferInstanceAs (Decidable (_ ∧ _ ∧ _))

section Names

variable {program : String} {a b : Nat} {status : Status}

theorem shownId_inj : shownId program a = shownId program b ↔ a = b := by
  rw [shownId, shownId, String.append_right_inj]
  exact Syntax.toString_injective.eq_iff

/-- The names of both programs differ in their second character. -/
theorem shownId_ne (a b : Nat) : shownId "p1" a ≠ shownId "p2" b := by
  intro same
  have chars := congrArg String.toList same
  simp [shownId] at chars

theorem shows_showNode {n k : Node} : (showNode program status n).Shows program k ↔ n.id = k.id :=
  shownId_inj

theorem shows_showEdge {e f : Edge} : (showEdge program status e).Shows program f ↔ e = f := by
  obtain ⟨source, target, kind⟩ := f
  obtain ⟨source', target', kind'⟩ := e
  simp only [ShownEdge.Shows, showEdge, shownId_inj, Edge.mk.injEq]

end Names

section Lists

variable {α β γ : Type} [DecidableEq γ] {xs ys : List α} {first second : α → β}
  {shows : β → Bool} {x : α}

theorem filter_unshown (never : ∀ y, shows (first y) = false) : (xs.map first).filter shows = [] :=
  List.filter_eq_nil_iff.mpr fun s hs => by
    obtain ⟨y, -, rfl⟩ := List.mem_map.mp hs
    simp [never y]

theorem filter_shown (nodup : xs.Nodup) (here : x ∈ xs)
    (only : ∀ y ∈ xs, shows (first y) = true ↔ y = x) :
    (xs.map first).filter shows = [first x] := by
  classical
  have same : xs.filter (shows ∘ first) = xs.filter (· = x) := List.filter_congr fun y hy => by
    rw [Bool.eq_iff_iff, Function.comp_apply, only y hy, decide_eq_true_iff]
  rw [List.filter_map, same, List.filter_eq, List.count_eq_one_of_mem nodup here]
  rfl

/-- A member of the first list has one entry, if no entry shows two members. -/
theorem filter_shown_first (nodup : xs.Nodup) (here : x ∈ xs)
    (only : ∀ y ∈ xs, shows (first y) = true ↔ y = x) (never : ∀ y, shows (second y) = false) :
    (xs.map first ++ ys.map second).filter shows = [first x] := by
  rw [List.filter_append, filter_shown nodup here only, filter_unshown never, List.append_nil]

/-- A member of the second list has one entry, unless it is left out. -/
theorem filter_shown_second {f : α → γ} {part : List γ} (nodup : ys.Nodup) (here : x ∈ ys)
    (only : ∀ y ∈ ys, shows (second y) = true ↔ y = x) (never : ∀ y, shows (first y) = false) :
    (xs.map first ++ (ys.filter fun y => f y ∉ part).map second).filter shows =
      if f x ∈ part then [] else [second x] := by
  have only_kept : ∀ y ∈ ys.filter fun y => f y ∉ part, shows (second y) = true ↔ y = x :=
    fun y hy => only y (List.mem_filter.mp hy).1
  rw [List.filter_append, filter_unshown never, List.nil_append]
  split
  · rename_i left_out
    refine List.filter_eq_nil_iff.mpr fun s hs shown => ?_
    obtain ⟨y, hy, rfl⟩ := List.mem_map.mp hs
    obtain rfl := (only_kept y hy).mp shown
    exact of_decide_eq_true (List.mem_filter.mp hy).2 left_out
  · rename_i kept
    exact filter_shown (nodup.filter _) (List.mem_filter.mpr ⟨here, decide_eq_true kept⟩) only_kept

/-- Of a list without repetition a part is found as often as it has members. -/
theorem countP_mem_of_subperm {l : List α} {f : α → γ} {part : List γ}
    (nodup : (l.map f).Nodup) (sub : part.Subperm (l.map f)) :
    l.countP (fun x => decide (f x ∈ part)) = part.length := by
  have whole : ((l.map f).filter (· ∈ part)).Perm part := by
    obtain ⟨_, reordered, inside⟩ := sub
    have part_nodup : part.Nodup := reordered.nodup_iff.mp (nodup.sublist inside)
    refine (List.perm_ext_iff_of_nodup (nodup.filter _) part_nodup).mpr fun y => ?_
    rw [List.mem_filter, decide_eq_true_iff]
    exact and_iff_right_of_imp fun hy => inside.subset (reordered.symm.subset hy)
  rw [← whole.length_eq, ← List.countP_eq_length_filter, List.countP_map]
  rfl

/-- The entries of both lists and the members left out of the second are all members. -/
theorem length_shown {f : α → γ} {part : List γ} (nodup : (ys.map f).Nodup)
    (sub : part.Subperm (ys.map f)) :
    (xs.map first ++ (ys.filter fun y => f y ∉ part).map second).length + part.length =
      xs.length + ys.length := by
  have parts := List.length_eq_countP_add_countP (fun y => decide (f y ∈ part)) (l := ys)
  rw [countP_mem_of_subperm nodup sub] at parts
  rw [List.length_append, List.length_map, List.length_map, ← List.countP_eq_length_filter]
  simp only [decide_eq_true_eq] at parts ⊢
  omega

/-- Entries with a mark that those of one part have. -/
theorem countP_shown {f : α → γ} {part : List γ} (nodup : (xs.map f).Nodup)
    (sub : part.Subperm (xs.map f)) (marked : ∀ y, shows (first y) = true ↔ f y ∈ part)
    (never : ∀ y, shows (second y) = false) :
    (xs.map first ++ ys.map second).countP shows = part.length := by
  have none_second : (ys.map second).countP shows = 0 := by
    rw [List.countP_eq_length_filter, filter_unshown never]
    rfl
  have same : shows ∘ first = fun y => decide (f y ∈ part) := funext fun y => by
    rw [Bool.eq_iff_iff, Function.comp_apply, marked, decide_eq_true_iff]
  rw [List.countP_append, none_second, List.countP_map, same,
    countP_mem_of_subperm nodup sub, Nat.add_zero]

end Lists

/-- A picture of two graphs where `keys` and `images` are the nodes matched with each other, and
`firsts` and `seconds` the edges. -/
structure Report.Pictures (r : Report) (g1 g2 : Graph) (keys images : List Nat)
    (firsts seconds : List Edge) : Prop where
  /-- A node of the first graph stands there once. -/
  nodes1 : ∀ n ∈ g1.nodes, r.nodes.filter (·.Shows "p1" n) =
    [showNode "p1" (if n.id ∈ keys then .common else .uniqueFirst) n]
  /-- A node of the second graph stands there once, unless it was matched. -/
  nodes2 : ∀ n ∈ g2.nodes, r.nodes.filter (·.Shows "p2" n) =
    if n.id ∈ images then [] else [showNode "p2" .uniqueSecond n]
  edges1 : ∀ e ∈ g1.edges, r.edges.filter (·.Shows "p1" e) =
    [showEdge "p1" (if e ∈ firsts then .common else .uniqueFirst) e]
  edges2 : ∀ e ∈ g2.edges, r.edges.filter (·.Shows "p2" e) =
    if e ∈ seconds then [] else [showEdge "p2" .uniqueSecond e]
  /-- No other nodes stand there. -/
  nodeCount : r.nodes.length + r.mapping.length = g1.nodes.length + g2.nodes.length
  edgeCount : r.edges.length + r.matchedEdges.length = g1.edges.length + g2.edges.length
  ids : (r.nodes.map (·.id)).Nodup
  commonNodes : r.nodes.countP (·.status = .common) = r.mapping.length
  commonEdges : r.edges.countP (·.status = .common) = r.matchedEdges.length

section Parts

variable {g1 g2 : Graph} {e f : Edge} {n k : Node} {status : Status}

theorem Mapping.isSome_get?_iff {m : Mapping} {key : Nat} :
    (m.get? key).isSome = true ↔ key ∈ m.map (·.1) := by
  induction m with
  | nil => simp [get?]
  | cons q rest ih =>
    rw [get?] at ih ⊢
    rw [List.lookup_cons, List.map_cons, List.mem_cons]
    by_cases here : key = q.1
    · simp [here]
    · simpa only [beq_eq_false_iff_ne.mpr here, here, false_or] using ih

theorem eq_common_iff {p : Prop} [Decidable p] :
    decide ((if p then Status.common else Status.uniqueFirst) = .common) = true ↔ p := by
  split <;> simp_all

/-- Entries of different nodes have different names. -/
theorem nodup_shownIds (program : String) {nodes : List Node} (status : Node → Status)
    (ids : (nodes.map (·.id)).Nodup) :
    (nodes.map fun n => (showNode program (status n) n).id).Nodup := by
  have names := ids.map (f := shownId program) fun a b same => shownId_inj.mp same
  rwa [List.map_map] at names

theorem firstStatus_eq {matched : Bool} {p : Prop} [Decidable p] (h : matched = true ↔ p) :
    firstStatus matched = if p then .common else .uniqueFirst := by
  rw [firstStatus]
  split <;> split <;> simp_all

theorem shownNodes_eq (g1 g2 : Graph) (c : Comparison) : shownNodes g1 g2 c =
    g1.nodes.map (fun n => showNode "p1"
      (if n.id ∈ c.mapping.map (·.1) then .common else .uniqueFirst) n) ++
    (g2.nodes.filter fun n => n.id ∉ c.mapping.images).map (showNode "p2" .uniqueSecond) := by
  have statuses : ∀ n ∈ g1.nodes, showNode "p1" (firstStatus (c.mapping.get? n.id).isSome) n =
      showNode "p1" (if n.id ∈ c.mapping.map (·.1) then .common else .uniqueFirst) n :=
    fun n _ => by rw [firstStatus_eq Mapping.isSome_get?_iff]
  rw [shownNodes, List.map_congr_left statuses]
  congr 2
  exact List.filter_congr fun n _ => by rw [List.contains_eq_mem, decide_not]

theorem shownEdges_eq (g1 g2 : Graph) (c : Comparison) : shownEdges g1 g2 c =
    g1.edges.map (fun e => showEdge "p1"
      (if e ∈ c.edges.map (·.first) then .common else .uniqueFirst) e) ++
    (g2.edges.filter fun e => e ∉ c.edges.map (·.second)).map (showEdge "p2" .uniqueSecond) := by
  have statuses : ∀ e ∈ g1.edges,
      showEdge "p1" (firstStatus ((c.edges.map (·.first)).contains e)) e =
      showEdge "p1" (if e ∈ c.edges.map (·.first) then .common else .uniqueFirst) e :=
    fun e _ => by rw [firstStatus_eq List.contains_iff_mem]
  rw [shownEdges, List.map_congr_left statuses]
  congr 2
  exact List.filter_congr fun e _ => by rw [List.contains_eq_mem, decide_not]

/-- An entry of one program shows no node of the other one. -/
theorem not_shows_first (n k : Node) : ¬(showNode "p2" .uniqueSecond n).Shows "p1" k :=
  fun same => shownId_ne _ _ same.symm

theorem not_shows_second (status : Status) (n k : Node) : ¬(showNode "p1" status n).Shows "p2" k :=
  shownId_ne _ _

theorem not_shows_first_edge (e f : Edge) : ¬(showEdge "p2" .uniqueSecond e).Shows "p1" f :=
  fun same => shownId_ne _ _ same.1.symm

theorem not_shows_second_edge (status : Status) (e f : Edge) :
    ¬(showEdge "p1" status e).Shows "p2" f :=
  fun same => shownId_ne _ _ same.1

theorem nodup_edges (h : g1.Distinct) : (g1.edges.map id).Nodup := by
  rw [List.map_id]
  exact h.edges

theorem firsts_subperm_edges (h2 : g2.Distinct) :
    ((compare g1 g2).edges.map (·.first)).Subperm (g1.edges.map id) := by
  rw [List.map_id]
  exact ((firsts_sublist g1 h2).trans List.filter_sublist).subperm

variable (h1 : g1.Distinct) (h2 : g2.Distinct)

include h1 h2

theorem keys_subperm_ids : ((nodeMapping g1 g2).map (·.1)).Subperm (g1.nodes.map (·.id)) := by
  have all := keys_subperm h1 h2
  rw [comparableIds_of_ids h1.ids] at all
  exact all.trans (List.filter_sublist.map _).subperm

theorem images_subperm_ids : (nodeMapping g1 g2).images.Subperm (g2.nodes.map (·.id)) := by
  have all := images_subperm h1 h2
  rw [comparableIds_of_ids h2.ids] at all
  exact all.trans (List.filter_sublist.map _).subperm

theorem seconds_subperm_edges : ((compare g1 g2).edges.map (·.second)).Subperm (g2.edges.map id) := by
  rw [List.map_id]
  exact (seconds_subperm h1 h2).trans List.filter_sublist.subperm

theorem length_shownNodes : (shownNodes g1 g2 (compare g1 g2)).length + (compare g1 g2).mapping.length =
    g1.nodes.length + g2.nodes.length := by
  have mapped : (compare g1 g2).mapping.images.length = (compare g1 g2).mapping.length :=
    List.length_map _
  rw [shownNodes_eq, ← mapped]
  exact length_shown h2.ids (images_subperm_ids h1 h2)

theorem length_shownEdges : (shownEdges g1 g2 (compare g1 g2)).length + (compare g1 g2).edges.length =
    g1.edges.length + g2.edges.length := by
  have matched : ((compare g1 g2).edges.map (·.second)).length = (compare g1 g2).edges.length :=
    List.length_map _
  rw [shownEdges_eq, ← matched]
  exact length_shown (nodup_edges h2) (seconds_subperm_edges h1 h2)

theorem countP_common_shownNodes :
    (shownNodes g1 g2 (compare g1 g2)).countP (·.status = .common) = (compare g1 g2).mapping.length := by
  have mapped : ((compare g1 g2).mapping.map (·.1)).length = (compare g1 g2).mapping.length :=
    List.length_map _
  rw [shownNodes_eq, ← mapped]
  exact countP_shown h1.ids (keys_subperm_ids h1 h2) (fun n => eq_common_iff) fun n => rfl

theorem countP_common_shownEdges :
    (shownEdges g1 g2 (compare g1 g2)).countP (·.status = .common) = (compare g1 g2).edges.length := by
  have matched : ((compare g1 g2).edges.map (·.first)).length = (compare g1 g2).edges.length :=
    List.length_map _
  rw [shownEdges_eq, ← matched]
  exact countP_shown (nodup_edges h1) (firsts_subperm_edges h2) (fun e => eq_common_iff) fun e => rfl

/-- No two entries for nodes have one name, whatever the comparison. -/
theorem nodup_ids_shownNodes (c : Comparison) : ((shownNodes g1 g2 c).map (·.id)).Nodup := by
  rw [shownNodes_eq, List.map_append, List.map_map, List.map_map, List.nodup_append]
  refine ⟨nodup_shownIds "p1" _ h1.ids,
    nodup_shownIds "p2" _ (h2.ids.sublist (List.filter_sublist.map _)), ?_⟩
  intro a ha b hb
  obtain ⟨n, -, rfl⟩ := List.mem_map.mp ha
  obtain ⟨k, -, rfl⟩ := List.mem_map.mp hb
  exact shownId_ne n.id k.id

end Parts

/-- A report shows each node and edge of the first graph once, as common where it was matched, and each
of the second that was not matched once, under different names; so as many are common as were
matched, and no others are shown. -/
theorem report_pictures {g1 g2 : Graph} (h1 : g1.Distinct) (h2 : g2.Distinct) :
    (Report.of g1 g2).Pictures g1 g2 ((compare g1 g2).mapping.map (·.1))
      (compare g1 g2).mapping.images ((compare g1 g2).edges.map (·.first))
      ((compare g1 g2).edges.map (·.second)) := by
  have nodes : (Report.of g1 g2).nodes = _ := shownNodes_eq g1 g2 (compare g1 g2)
  have edges : (Report.of g1 g2).edges = _ := shownEdges_eq g1 g2 (compare g1 g2)
  have nodup1 : g1.nodes.Nodup := List.Nodup.of_map _ h1.ids
  have nodup2 : g2.nodes.Nodup := List.Nodup.of_map _ h2.ids
  exact {
    nodes1 := fun n hn => by
      rw [nodes]
      refine filter_shown_first nodup1 hn (fun k hk => ?_)
        fun k => decide_eq_false (not_shows_first k n)
      rw [decide_eq_true_iff, shows_showNode]
      exact ⟨List.inj_on_of_nodup_map h1.ids hk hn, congrArg _⟩
    nodes2 := fun n hn => by
      rw [nodes]
      refine filter_shown_second (f := fun k : Node => k.id) nodup2 hn (fun k hk => ?_)
        fun k => decide_eq_false (not_shows_second _ k n)
      rw [decide_eq_true_iff, shows_showNode]
      exact ⟨List.inj_on_of_nodup_map h2.ids hk hn, congrArg _⟩
    edges1 := fun e he => by
      rw [edges]
      refine filter_shown_first h1.edges he (fun f hf => ?_)
        fun f => decide_eq_false (not_shows_first_edge f e)
      rw [decide_eq_true_iff, shows_showEdge]
    edges2 := fun e he => by
      rw [edges]
      refine filter_shown_second (f := id) h2.edges he (fun f hf => ?_)
        fun f => decide_eq_false (not_shows_second_edge _ f e)
      rw [decide_eq_true_iff, shows_showEdge]
    nodeCount := length_shownNodes h1 h2
    edgeCount := length_shownEdges h1 h2
    ids := nodup_ids_shownNodes h1 h2 _
    commonNodes := countP_common_shownNodes h1 h2
    commonEdges := countP_common_shownEdges h1 h2 }

theorem report_pictures_arms : (twoArms.Distinct ∧ threeArms.Distinct) ∧
    (Report.of twoArms threeArms).Pictures twoArms threeArms [1, 2, 3] [4, 6, 5]
      [⟨1, 2, .control⟩] [⟨4, 6, .control⟩] :=
  ⟨⟨distinct_twoArms, distinct_threeArms⟩, report_pictures distinct_twoArms distinct_threeArms⟩

end Arbiter.Similarity
