import Arbiter.Proofs.Dependence.Renaming
import Arbiter.Proofs.Similarity.Matching

/-! A program and its renamings cannot be told apart: they have one dependence graph up to labels,
and each is fully similar to the other and to itself. -/

namespace Arbiter

namespace Similarity

/-- The nodes `ids` are matched to themselves, so are those of `edges` that run between them, and
every score is one. -/
structure Comparison.Full (c : Comparison) (ids : List Nat) (edges : List Dependence.Edge) :
    Prop where
  mapping : c.mapping = ids.map fun i => (i, i)
  edges : c.edges = (edges.filter fun e => ids.contains e.source && ids.contains e.target).map
    fun e => ⟨e, e⟩
  nodeScore : c.nodeScore = 1.0
  edgeScore : c.edgeScore = 1.0
  score : c.score = 1.0

theorem Same.full {g1 g2 : Dependence.Graph} (h : Same g1 g2) :
    (compare g1 g2).Full (comparableIds g1) g1.edges := by
  have nodes : (compare g1 g2).nodeScore = 1.0 := by
    simp only [compare, h.nodeMapping_eq, List.length_map, ← h.comparableIds_congr]
    exact dice?_self _
  have matched : (compare g1 g2).edges = (comparableEdges g1).map fun e => ⟨e, e⟩ := by
    simp only [compare, h.eraseDups_edges, h.matchEdges_eq]
  have edges : (compare g1 g2).edgeScore = 1.0 := by
    have score : (compare g1 g2).edgeScore =
        ((dice? (compare g1 g2).edges.length (comparableEdges g1).length
          (comparableEdges g2).eraseDups.length).map Ratio.toFloat).getD
            (compare g1 g2).nodeScore := rfl
    rw [score, matched, nodes, h.eraseDups_edges, List.length_map]
    exact dice?_self _
  have whole : (compare g1 g2).score =
      nodeWeight * (compare g1 g2).nodeScore + edgeWeight * (compare g1 g2).edgeScore := rfl
  rw [nodes, edges, weights] at whole
  exact ⟨h.nodeMapping_eq, matched, nodes, edges, whole⟩

end Similarity

namespace Flow.Graph

open Syntax Similarity

/-- A node for each block, with the hash of its items. -/
theorem nodes_dependences {g : Graph} (h : g.WellFormed) : g.dependences.nodes =
    (List.range g.size).map fun b => ⟨b, g.label b, Canon.contentHash (g.items b)⟩ := by
  refine List.ext_getElem (by simp [dependences, size]) fun i hi _ => ?_
  have hi : i < g.blocks.size := by simpa [dependences] using hi
  have hid := h.id_eq i g.blocks[i] (Array.getElem?_eq_getElem hi)
  simp [dependences, label, items, hi, hid]

theorem ids_dependences {g : Graph} (h : g.WellFormed) :
    g.dependences.nodes.map (·.id) = List.range g.size := by
  simp [nodes_dependences h, Function.comp_def]

/-- The blocks that hold items. -/
def filled (g : Graph) : List Nat := (List.range g.size).filter fun b => !(g.items b).isEmpty

theorem comparableIds_dependences {g : Graph} (h : g.WellFormed)
    (hsame : Same g.dependences g.dependences) : comparableIds g.dependences = g.filled := by
  have comparable_node : ∀ b l, comparable ⟨b, l, Canon.contentHash (g.items b)⟩ =
      !(g.items b).isEmpty := fun b l => by
    rw [Bool.eq_iff_iff]
    simp [comparable, Canon.contentHash_eq_emptyHash]
  rw [hsame.comparableIds_eq, nodes_dependences h, List.filter_map, List.map_map]
  simp only [Function.comp_def, comparable_node, filled, List.map_id']

theorem same_rename (r : Renaming) (body : List Stmt) : Same (ofProgram body).dependences
    (ofProgram (relabelBlock r.relabeling body)).dependences where
  keys := by
    have ids := ids_rename r body
    have hashes := hashes_rename r body
    have keys : ∀ ns : List Dependence.Node,
        ns.map key = (ns.map (·.id)).zip (ns.map (·.hash)) := fun ns => by
      rw [List.zip_map']
      rfl
    rw [keys, keys, ids, hashes]
  edges := (edges_rename r body).symm
  ascending := by
    rw [ids_dependences (wellFormed_ofProgram body)]
    exact List.pairwise_lt_range
  nodup := nodup_edges _

/-- A program and its image under a renaming of names and literals have the same nodes, hashes and
edges. Whichever is compared with the other, and also if the program is compared with itself, each
block with items is matched to itself and every score is one. -/
theorem dependences_rename (r : Renaming) (body : List Stmt) :
    let g := ofProgram body
    let p := g.dependences
    let p' := (ofProgram (relabelBlock r.relabeling body)).dependences
    p'.nodes.map (·.id) = p.nodes.map (·.id) ∧
    p'.nodes.map (·.hash) = p.nodes.map (·.hash) ∧
    p'.edges = p.edges ∧
    (compare p p').Full g.filled p.edges ∧
    (compare p' p).Full g.filled p.edges ∧
    (compare p p).Full g.filled p.edges := by
  intro g p p'
  have same : Same p p' := same_rename r body
  have filled : comparableIds p = g.filled :=
    comparableIds_dependences (wellFormed_ofProgram body) same.refl
  refine ⟨ids_rename r body, hashes_rename r body, edges_rename r body, ?_, ?_, ?_⟩
  · rw [← filled]
    exact same.full
  · rw [← filled, same.comparableIds_congr, same.edges]
    exact same.symm.full
  · rw [← filled]
    exact same.refl.full

end Flow.Graph

end Arbiter
