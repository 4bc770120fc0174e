import Arbiter.Proofs.Similarity.Pairing
import Arbiter.Proofs.Similarity.Renaming

/-! Matched edges, in graphs whose nodes have different numbers and that have no edge twice. Main
statements: the graphs of programs are such; an edge is matched with the edge that its ends are mapped
to; and whichever graph is compared with the other, the same nodes and edges are matched and the
scores are the same. -/

namespace Arbiter

/-- Different nodes have different numbers, and no edge stands twice. -/
structure Dependence.Graph.Distinct (g : Graph) : Prop where
  ids : (g.nodes.map (·.id)).Nodup
  edges : g.edges.Nodup

theorem Flow.Graph.distinct_ofProgram (body : List Syntax.Stmt) :
    (ofProgram body).dependences.Distinct where
  ids := by
    rw [ids_dependences (wellFormed_ofProgram body)]
    exact List.nodup_range
  edges := nodup_edges _

namespace Similarity

open Dependence

/-- The same match, seen from the other graph. -/
def MatchedEdge.swap (q : MatchedEdge) : MatchedEdge := ⟨q.second, q.first⟩

section Edges

variable {m : Mapping} {e f : Edge} {es fs : List Edge} {q : MatchedEdge}

theorem mapEdge?_eq_some_iff : mapEdge? m e = some f ↔
    m.get? e.source = some f.source ∧ m.get? e.target = some f.target ∧ e.kind = f.kind := by
  obtain ⟨source, target, kind⟩ := f
  rw [mapEdge?]
  cases m.get? e.source with
  | none => simp
  | some s =>
    cases m.get? e.target with
    | none => simp
    | some t => simp

/-- An edge is matched with its image if that is an edge of the other graph. -/
theorem matchEdges_eq_filterMap (m : Mapping) (es fs : List Edge) :
    matchEdges m es fs = es.filterMap fun e =>
      ((mapEdge? m e).filter fs.contains).map fun image => ⟨e, image⟩ := by
  refine List.filterMap_congr fun e _ => ?_
  cases mapEdge? m e with
  | none => rfl
  | some image => by_cases h : image ∈ fs <;> simp [Option.filter, h]

theorem mem_matchEdges : q ∈ matchEdges m es fs ↔
    q.first ∈ es ∧ q.second ∈ fs ∧ mapEdge? m q.first = some q.second := by
  obtain ⟨first, second⟩ := q
  rw [matchEdges_eq_filterMap, List.mem_filterMap]
  simp only [Option.map_eq_some_iff, Option.filter_eq_some_iff, List.contains_iff_mem,
    MatchedEdge.mk.injEq]
  constructor
  · rintro ⟨_, he, _, ⟨image, hf⟩, rfl, rfl⟩
    exact ⟨he, hf, image⟩
  · rintro ⟨he, hf, image⟩
    exact ⟨first, he, second, ⟨image, hf⟩, rfl, rfl⟩

/-- Edges are matched in their order, each at most once. -/
theorem map_first_matchEdges (m : Mapping) (es fs : List Edge) :
    ((matchEdges m es fs).map (·.first)).Sublist es := by
  rw [matchEdges_eq_filterMap]
  induction es with
  | nil => exact List.Sublist.refl _
  | cons e es ih =>
    rw [List.filterMap_cons]
    cases (mapEdge? m e).filter fs.contains with
    | none => exact ih.cons e
    | some image => exact ih.cons_cons e

theorem nodup_matchEdges (h : es.Nodup) : (matchEdges m es fs).Nodup :=
  List.Nodup.of_map (·.first) (h.sublist (map_first_matchEdges m es fs))

end Edges

section Distinct

variable {g g1 g2 : Graph}

theorem comparableIds_of_ids (ids : (g.nodes.map (·.id)).Nodup) :
    comparableIds g = (g.nodes.filter comparable).map (·.id) :=
  eraseDups_of_nodup (ids.sublist (List.filter_sublist.map _))

theorem nodup_comparableEdges (h : g.Distinct) : (comparableEdges g).Nodup := h.edges.filter _

theorem eraseDups_comparableEdges (h : g.Distinct) :
    (comparableEdges g).eraseDups = comparableEdges g :=
  eraseDups_of_nodup (nodup_comparableEdges h)

theorem compare_edges (h2 : g2.Distinct) : (compare g1 g2).edges =
    matchEdges (nodeMapping g1 g2) (comparableEdges g1) (comparableEdges g2) := by
  simp only [compare, eraseDups_comparableEdges h2]

theorem nodup_compare_edges (h1 : g1.Distinct) (h2 : g2.Distinct) : (compare g1 g2).edges.Nodup := by
  rw [compare_edges h2]
  exact nodup_matchEdges (nodup_comparableEdges h1)

variable (h1 : g1.Distinct) (h2 : g2.Distinct)

include h1 h2

/-- The mapping from the other side is the inverse one. -/
theorem perm_nodeMapping_swap :
    (nodeMapping g2 g1).Perm ((nodeMapping g1 g2).map Prod.swap) := by
  have there := (perm_nodeMapping h1.ids g2).map Prod.swap
  have back := perm_nodeMapping h2.ids g1
  have pairs := (perm_swap_matchNodes g1.nodes g2.nodes).map idPair
  rw [List.map_map] at there pairs
  exact back.trans (pairs.symm.trans there.symm)

theorem get?_nodeMapping_swap {a b : Nat} : (nodeMapping g2 g1).get? b = some a ↔
    (nodeMapping g1 g2).get? a = some b := by
  rw [Mapping.get?_eq_some_iff (nodup_keys_nodeMapping g2 g1),
    Mapping.get?_eq_some_iff (nodup_keys_nodeMapping g1 g2),
    (perm_nodeMapping_swap h1 h2).mem_iff, List.mem_map]
  constructor
  · rintro ⟨q, hq, hab⟩
    obtain ⟨rfl, rfl⟩ := Prod.mk.inj hab
    exact hq
  · intro hab
    exact ⟨(a, b), hab, rfl⟩

theorem mapEdge?_swap {e f : Edge} : mapEdge? (nodeMapping g2 g1) f = some e ↔
    mapEdge? (nodeMapping g1 g2) e = some f := by
  rw [mapEdge?_eq_some_iff, mapEdge?_eq_some_iff, get?_nodeMapping_swap h1 h2,
    get?_nodeMapping_swap h1 h2, eq_comm (a := f.kind)]

/-- The edges matched from the other side are the same. -/
theorem perm_edges_swap :
    (compare g2 g1).edges.Perm ((compare g1 g2).edges.map MatchedEdge.swap) := by
  have nodup : ((compare g1 g2).edges.map MatchedEdge.swap).Nodup :=
    (nodup_compare_edges h1 h2).map fun p q same =>
      congrArg MatchedEdge.swap same
  rw [List.perm_ext_iff_of_nodup (nodup_compare_edges h2 h1) nodup]
  intro q
  rw [compare_edges h1, compare_edges h2, mem_matchEdges, mapEdge?_swap h1 h2, List.mem_map]
  constructor
  · rintro ⟨first, second, image⟩
    exact ⟨q.swap, mem_matchEdges.mpr ⟨second, first, image⟩, rfl⟩
  · rintro ⟨p, hp, rfl⟩
    obtain ⟨first, second, image⟩ := mem_matchEdges.mp hp
    exact ⟨second, first, image⟩

theorem nodeScore_swap : (compare g2 g1).nodeScore = (compare g1 g2).nodeScore := by
  have matched : (nodeMapping g2 g1).length = (nodeMapping g1 g2).length := by
    rw [(perm_nodeMapping_swap h1 h2).length_eq, List.length_map]
  simp only [compare, matched, dice?, Nat.add_comm (comparableIds g2).length]

theorem edgeScore_swap : (compare g2 g1).edgeScore = (compare g1 g2).edgeScore := by
  have score : ∀ g1 g2, (compare g1 g2).edgeScore =
      ((dice? (compare g1 g2).edges.length (comparableEdges g1).length
        (comparableEdges g2).eraseDups.length).map Ratio.toFloat).getD (compare g1 g2).nodeScore :=
    fun _ _ => rfl
  rw [score, score, (perm_edges_swap h1 h2).length_eq, List.length_map,
    eraseDups_comparableEdges h1, eraseDups_comparableEdges h2, nodeScore_swap h1 h2, dice?, dice?,
    Nat.add_comm]

theorem score_swap : (compare g2 g1).score = (compare g1 g2).score := by
  have score : ∀ g1 g2, (compare g1 g2).score = nodeWeight * (compare g1 g2).nodeScore +
      edgeWeight * (compare g1 g2).edgeScore := fun _ _ => rfl
  rw [score, score, nodeScore_swap h1 h2, edgeScore_swap h1 h2]

end Distinct

/-- The comparison of two graphs and that of both in the other order: the mappings are inverse to
each other, the matched edges the same with their sides swapped, and the scores equal. -/
structure Comparison.Mirrors (c d : Comparison) : Prop where
  inverse : ∀ a b, d.mapping.get? b = some a ↔ c.mapping.get? a = some b
  mapping : d.mapping.Perm (c.mapping.map Prod.swap)
  edges : d.edges.Perm (c.edges.map MatchedEdge.swap)
  nodeScore : d.nodeScore = c.nodeScore
  edgeScore : d.edgeScore = c.edgeScore
  score : d.score = c.score

/-- Similarity does not depend on the order of the graphs, as long as nodes have different numbers and
no edge stands twice. The graphs of all programs are such. -/
theorem compare_mirrors : (∀ body, (Flow.Graph.ofProgram body).dependences.Distinct) ∧
    ∀ {g1 g2 : Graph}, g1.Distinct → g2.Distinct → (compare g1 g2).Mirrors (compare g2 g1) := by
  refine ⟨Flow.Graph.distinct_ofProgram, fun {g1 g2} h1 h2 => ?_⟩
  exact {
    inverse := fun _ _ => get?_nodeMapping_swap h1 h2
    mapping := perm_nodeMapping_swap h1 h2
    edges := perm_edges_swap h1 h2
    nodeScore := nodeScore_swap h1 h2
    edgeScore := edgeScore_swap h1 h2
    score := score_swap h1 h2 }

theorem distinct_twoArms : twoArms.Distinct := ⟨by decide, by decide⟩

theorem distinct_threeArms : threeArms.Distinct := ⟨by decide, by decide⟩

theorem compare_mirrors_arms : (twoArms.Distinct ∧ threeArms.Distinct) ∧
    (compare twoArms threeArms).mapping = [(1, 4), (2, 6), (3, 5)] ∧
    (compare threeArms twoArms).mapping = [(4, 1), (5, 3), (6, 2)] ∧
    (compare twoArms threeArms).Mirrors (compare threeArms twoArms) :=
  ⟨⟨distinct_twoArms, distinct_threeArms⟩, by decide, by decide,
    compare_mirrors.2 distinct_twoArms distinct_threeArms⟩

end Similarity

end Arbiter
