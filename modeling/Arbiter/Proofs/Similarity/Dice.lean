import Arbiter.Proofs.Similarity.MatchedEdges
import Mathlib.Algebra.Order.Field.Basic
import Mathlib.Tactic.Linarith

/-! Scores as fractions. Main statement: at most as many nodes and edges are matched as either graph
has to compare, so every score lies between zero and one, and it is one only where all are matched. -/

namespace Arbiter.Similarity

open Dependence

/-- The exact value of a ratio of counts. -/
def Ratio.value (r : Ratio) : ℚ := r.num / r.den

/-- The ratio that the node score is made of. -/
def nodeRatio? (g1 g2 : Graph) : Option Ratio :=
  dice? (compare g1 g2).mapping.length (comparableIds g1).length (comparableIds g2).length

/-- The ratio that the edge score is made of. -/
def edgeRatio? (g1 g2 : Graph) : Option Ratio :=
  dice? (compare g1 g2).edges.length (comparableEdges g1).length (comparableEdges g2).eraseDups.length

/-- The node score as an exact fraction. -/
def nodeShare (g1 g2 : Graph) : ℚ := ((nodeRatio? g1 g2).map Ratio.value).getD 1

/-- The edge score as an exact fraction. -/
def edgeShare (g1 g2 : Graph) : ℚ := ((edgeRatio? g1 g2).map Ratio.value).getD (nodeShare g1 g2)

/-- The score as an exact fraction. -/
def share (g1 g2 : Graph) : ℚ := 0.4 * nodeShare g1 g2 + 0.6 * edgeShare g1 g2

section Ratio

variable {matched left right : Nat} {other : ℚ}

/-- What is matched on both sides is at most all of both. -/
theorem dice?_value_range (hleft : matched ≤ left) (hright : matched ≤ right)
    (low : 0 ≤ other) (high : other ≤ 1) :
    0 ≤ ((dice? matched left right).map Ratio.value).getD other ∧
      ((dice? matched left right).map Ratio.value).getD other ≤ 1 := by
  rw [dice?]
  split
  · rename_i some_one
    have total : (0 : ℚ) < ((left + right : Nat) : ℚ) := by exact_mod_cast some_one
    have twice : ((2 * matched : Nat) : ℚ) ≤ ((left + right : Nat) : ℚ) := by
      exact_mod_cast (by omega : 2 * matched ≤ left + right)
    rw [Option.map_some, Option.getD_some, Ratio.value]
    exact ⟨div_nonneg (Nat.cast_nonneg _) total.le, (div_le_one total).mpr twice⟩
  · exact ⟨low, high⟩

theorem dice?_value_eq_one (hleft : matched ≤ left) (hright : matched ≤ right)
    (one : ((dice? matched left right).map Ratio.value).getD other = 1) :
    matched = left ∧ matched = right := by
  rw [dice?] at one
  split at one
  · rename_i some_one
    have total : ((left + right : Nat) : ℚ) ≠ 0 := by exact_mod_cast (by omega : left + right ≠ 0)
    rw [Option.map_some, Option.getD_some, Ratio.value, div_eq_one_iff_eq total] at one
    have twice : 2 * matched = left + right := by exact_mod_cast one
    omega
  · omega

end Ratio

section Counts

variable {g1 g2 : Graph} {q : MatchedEdge} {k v : Nat}

theorem mem_comparableIds {g : Graph} (ids : (g.nodes.map (·.id)).Nodup) :
    k ∈ comparableIds g ↔ ∃ n ∈ g.nodes, comparable n = true ∧ n.id = k := by
  rw [comparableIds_of_ids ids, List.mem_map]
  simp only [List.mem_filter, and_assoc]

theorem Pairing.mem_comparableIds {m : Mapping} (h : Pairing g1 g2 m)
    (ids1 : (g1.nodes.map (·.id)).Nodup) (ids2 : (g2.nodes.map (·.id)).Nodup) (hq : (k, v) ∈ m) :
    k ∈ comparableIds g1 ∧ v ∈ comparableIds g2 := by
  obtain ⟨a, ha, b, hb, numbers, same, nonempty⟩ := h.sameHash _ hq
  obtain ⟨rfl, rfl⟩ := Prod.mk.inj numbers
  have left : comparable a = true := by simpa [comparable] using nonempty
  have right : comparable b = true := by simpa [comparable, ← same] using nonempty
  exact ⟨(Similarity.mem_comparableIds ids1).mpr ⟨a, ha, left, rfl⟩,
    (Similarity.mem_comparableIds ids2).mpr ⟨b, hb, right, rfl⟩⟩

theorem mem_edges (h2 : g2.Distinct) : q ∈ (compare g1 g2).edges ↔ q.first ∈ comparableEdges g1 ∧
    q.second ∈ comparableEdges g2 ∧ mapEdge? (compare g1 g2).mapping q.first = some q.second := by
  rw [compare_edges h2]
  exact mem_matchEdges

theorem firsts_sublist (g1 : Graph) (h2 : g2.Distinct) :
    ((compare g1 g2).edges.map (·.first)).Sublist (comparableEdges g1) := by
  rw [compare_edges h2]
  exact map_first_matchEdges _ _ _

variable (h1 : g1.Distinct) (h2 : g2.Distinct)

include h1 h2

theorem keys_subperm : ((nodeMapping g1 g2).map (·.1)).Subperm (comparableIds g1) := by
  refine List.subperm_of_subset (nodup_keys_nodeMapping g1 g2) fun k hk => ?_
  obtain ⟨q, hq, rfl⟩ := List.mem_map.mp hk
  exact ((pairing_nodeMapping h1.ids h2.ids).mem_comparableIds h1.ids h2.ids hq).1

theorem images_subperm : (nodeMapping g1 g2).images.Subperm (comparableIds g2) := by
  have pairing := pairing_nodeMapping h1.ids h2.ids
  refine List.subperm_of_subset pairing.images fun k hk => ?_
  obtain ⟨q, hq, rfl⟩ := List.mem_map.mp hk
  exact (pairing.mem_comparableIds h1.ids h2.ids hq).2

theorem length_mapping_le : (compare g1 g2).mapping.length ≤ (comparableIds g1).length ∧
    (compare g1 g2).mapping.length ≤ (comparableIds g2).length := by
  have left := (keys_subperm h1 h2).length_le
  have right := (images_subperm h1 h2).length_le
  rw [Mapping.images] at right
  rw [List.length_map] at left right
  exact ⟨left, right⟩

/-- Different matched edges have different images: from the other graph they are matched too. -/
theorem seconds_subperm :
    ((compare g1 g2).edges.map (·.second)).Subperm (comparableEdges g2) := by
  have mirrored := (perm_edges_swap h1 h2).map (·.first)
  rw [List.map_map] at mirrored
  exact mirrored.symm.subperm.trans (firsts_sublist g2 h1).subperm

theorem nodup_seconds : ((compare g1 g2).edges.map (·.second)).Nodup := by
  obtain ⟨_, reordered, sub⟩ := seconds_subperm h1 h2
  exact reordered.nodup_iff.mp ((nodup_comparableEdges h2).sublist sub)

theorem length_edges_le : (compare g1 g2).edges.length ≤ (comparableEdges g1).length ∧
    (compare g1 g2).edges.length ≤ (comparableEdges g2).length := by
  have left := (firsts_sublist g1 h2).length_le
  have right := (seconds_subperm h1 h2).length_le
  rw [List.length_map] at left right
  exact ⟨left, right⟩

theorem nodeShare_range : 0 ≤ nodeShare g1 g2 ∧ nodeShare g1 g2 ≤ 1 := by
  obtain ⟨left, right⟩ := length_mapping_le h1 h2
  exact dice?_value_range left right zero_le_one le_rfl

theorem edgeShare_range : 0 ≤ edgeShare g1 g2 ∧ edgeShare g1 g2 ≤ 1 := by
  obtain ⟨left, right⟩ := length_edges_le h1 h2
  obtain ⟨low, high⟩ := nodeShare_range h1 h2
  rw [edgeShare, edgeRatio?, eraseDups_comparableEdges h2]
  exact dice?_value_range left right low high

/-- The whole is one only if both parts are, since neither is more. -/
theorem shares_of_share_eq_one (one : share g1 g2 = 1) :
    nodeShare g1 g2 = 1 ∧ edgeShare g1 g2 = 1 := by
  have node := (nodeShare_range h1 h2).2
  have edge := (edgeShare_range h1 h2).2
  rw [share] at one
  constructor
  · linarith
  · linarith

end Counts

/-- Every node and edge of both graphs that takes part is matched, and no other. -/
structure Comparison.Exhausts (c : Comparison) (g1 g2 : Graph) : Prop where
  nodes1 : (c.mapping.map (·.1)).Perm (comparableIds g1)
  nodes2 : c.mapping.images.Perm (comparableIds g2)
  edges1 : (c.edges.map (·.first)).Perm (comparableEdges g1)
  edges2 : (c.edges.map (·.second)).Perm (comparableEdges g2)

theorem exhausts_of_share {g1 g2 : Graph} (h1 : g1.Distinct) (h2 : g2.Distinct)
    (one : share g1 g2 = 1) : (compare g1 g2).Exhausts g1 g2 := by
  obtain ⟨node, edge⟩ := shares_of_share_eq_one h1 h2 one
  obtain ⟨left, right⟩ := length_mapping_le h1 h2
  obtain ⟨nodes1, nodes2⟩ := dice?_value_eq_one left right node
  obtain ⟨left, right⟩ := length_edges_le h1 h2
  rw [edgeShare, edgeRatio?, eraseDups_comparableEdges h2] at edge
  obtain ⟨edges1, edges2⟩ := dice?_value_eq_one left right edge
  have keys := keys_subperm h1 h2
  have images := images_subperm h1 h2
  have firsts := (firsts_sublist g1 h2).subperm
  have seconds := seconds_subperm h1 h2
  exact {
    nodes1 := keys.perm_of_length_le (by rw [List.length_map]; exact nodes1.ge)
    nodes2 := images.perm_of_length_le (by rw [Mapping.images, List.length_map]; exact nodes2.ge)
    edges1 := firsts.perm_of_length_le (by rw [List.length_map]; exact edges1.ge)
    edges2 := seconds.perm_of_length_le (by rw [List.length_map]; exact edges2.ge) }

/-- The scores are those of the exact fractions, as binary ones. -/
structure Comparison.ScoredBy (c : Comparison) (nodes edges : Option Ratio) : Prop where
  nodeScore : c.nodeScore = (nodes.map Ratio.toFloat).getD 1.0
  edgeScore : c.edgeScore = (edges.map Ratio.toFloat).getD c.nodeScore
  score : c.score = nodeWeight * c.nodeScore + edgeWeight * c.edgeScore

/-- What is matched is part of what either graph has to compare. -/
structure Comparison.Within (c : Comparison) (g1 g2 : Graph) : Prop where
  nodes1 : c.mapping.length ≤ (comparableIds g1).length
  nodes2 : c.mapping.length ≤ (comparableIds g2).length
  matched : ∀ q ∈ c.edges, q.first ∈ comparableEdges g1 ∧ q.second ∈ g2.edges ∧
    q.second.kind = q.first.kind ∧ mapEdge? c.mapping q.first = some q.second
  images : (c.edges.map (·.second)).Nodup
  edges1 : c.edges.length ≤ (comparableEdges g1).length
  edges2 : c.edges.length ≤ (comparableEdges g2).length

/-- At most as many nodes and edges are matched as either graph has to compare, no two edges with the
same one. So the ratios that the scores are made of are fractions from zero to one, and their
weighted sum is one only if all is matched. -/
theorem compare_within {g1 g2 : Graph} (h1 : g1.Distinct) (h2 : g2.Distinct) :
    (compare g1 g2).Within g1 g2 ∧
    (compare g1 g2).ScoredBy (nodeRatio? g1 g2) (edgeRatio? g1 g2) ∧
    (0 ≤ nodeShare g1 g2 ∧ nodeShare g1 g2 ≤ 1) ∧
    (0 ≤ edgeShare g1 g2 ∧ edgeShare g1 g2 ≤ 1) ∧
    (0 ≤ share g1 g2 ∧ share g1 g2 ≤ 1) ∧
    (share g1 g2 = 1 → (compare g1 g2).Exhausts g1 g2) := by
  obtain ⟨nodes1, nodes2⟩ := length_mapping_le h1 h2
  obtain ⟨edges1, edges2⟩ := length_edges_le h1 h2
  have node := nodeShare_range h1 h2
  have edge := edgeShare_range h1 h2
  have matched : ∀ q ∈ (compare g1 g2).edges, q.first ∈ comparableEdges g1 ∧ q.second ∈ g2.edges ∧
      q.second.kind = q.first.kind ∧
        mapEdge? (compare g1 g2).mapping q.first = some q.second := fun q hq => by
    obtain ⟨first, second, image⟩ := (mem_edges h2).mp hq
    exact ⟨first, (List.mem_filter.mp second).1, (mapEdge?_eq_some_iff.mp image).2.2.symm, image⟩
  refine ⟨⟨nodes1, nodes2, matched, nodup_seconds h1 h2, edges1, edges2⟩, ⟨rfl, rfl, rfl⟩, node, edge,
    ⟨?_, ?_⟩, exhausts_of_share h1 h2⟩
  · rw [share]
    linarith
  · rw [share]
    linarith

/-- A graph is all matched in itself. -/
theorem share_twoArms : share twoArms twoArms = 1 := by
  have nodes : nodeRatio? twoArms twoArms = some ⟨6, 6⟩ := rfl
  have edges : edgeRatio? twoArms twoArms = some ⟨4, 4⟩ := rfl
  norm_num [share, edgeShare, nodeShare, nodes, edges, Ratio.value]

theorem compare_within_arms : (twoArms.Distinct ∧ threeArms.Distinct ∧ share twoArms twoArms = 1) ∧
    (compare twoArms threeArms).mapping.length = 3 ∧
    (compare twoArms threeArms).edges = [⟨⟨1, 2, .control⟩, ⟨4, 6, .control⟩⟩] ∧
    (compare twoArms threeArms).Within twoArms threeArms ∧
    (0 ≤ share twoArms threeArms ∧ share twoArms threeArms ≤ 1) ∧
    (compare twoArms twoArms).Exhausts twoArms twoArms := by
  obtain ⟨within, -, -, -, range, -⟩ := compare_within distinct_twoArms distinct_threeArms
  obtain ⟨-, -, -, -, -, exhausts⟩ := compare_within distinct_twoArms distinct_twoArms
  exact ⟨⟨distinct_twoArms, distinct_threeArms, share_twoArms⟩, by decide, by decide, within, range,
    exhausts share_twoArms⟩

end Arbiter.Similarity
