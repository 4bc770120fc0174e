import Arbiter.Proofs.Canon.Renaming
import Arbiter.Proofs.Dependence.Data
import Arbiter.Proofs.Flow.Relabel
import Arbiter.Proofs.Syntax.Occurrence

/-! A renaming changes no dependence. Control dependence reads the links of the graph alone, and
data dependence asks only whether two names are the same. -/

namespace Arbiter.Flow

open Syntax

theorem Item.occurrences_relabel (r : Relabeling) (item : Item) :
    (item.relabel r).occurrences = item.occurrences.map r.onOccurrence := by
  cases item with
  | stmt s => exact stmtOccurrences_relabel r s
  | expr e => exact exprOccurrences_relabel r e

namespace Graph

section Control

variable (r : Relabeling) (g : Graph)

theorem dominatorStart_relabel : (g.relabel r).dominatorStart = g.dominatorStart := by
  funext b
  simp only [dominatorStart, size_relabel]

theorem dominatorStep_relabel : (g.relabel r).dominatorStep = g.dominatorStep := by
  funext sets b
  simp only [dominatorStep, successors_relabel]

theorem reachStep_relabel : (g.relabel r).reachStep = g.reachStep := by
  funext sets b
  simp only [reachStep, successors_relabel]

theorem controlPairs_relabel : (g.relabel r).controlPairs = g.controlPairs := by
  simp only [controlPairs, postDominators, behindBranches, reachable, size_relabel,
    successors_relabel, dominatorStart_relabel, dominatorStep_relabel, reachStep_relabel]

end Control

section Data

variable {r : Relabeling} {g : Graph} {a b d : Nat} {v : String} {ctx : Context}

theorem path_relabel {blocks : List Nat} : (g.relabel r).Path a b blocks ↔ g.Path a b blocks :=
  ⟨fun h => h.mono fun x y hy => by simpa using hy,
    fun h => h.mono fun x y hy => by simpa using hy⟩

theorem holds_relabel : (g.relabel r).Holds b v ctx ↔ ∃ u, g.Holds b u ctx ∧ r.name u = v := by
  simp only [Holds, items_relabel, List.mem_map, exists_exists_and_eq_and,
    Item.occurrences_relabel]
  constructor
  · rintro ⟨item, hitem, ⟨u, c⟩, hocc, heq⟩
    obtain ⟨rfl, hctx⟩ := Occurrence.mk.inj heq
    obtain rfl : c = ctx := hctx
    exact ⟨u, ⟨item, hitem, hocc⟩, rfl⟩
  · rintro ⟨u, ⟨item, hitem, hocc⟩, rfl⟩
    exact ⟨item, hitem, ⟨u, ctx⟩, hocc, rfl⟩

theorem holds_relabel_name (hr : Function.Injective r.name) :
    (g.relabel r).Holds b (r.name v) ctx ↔ g.Holds b v ctx := by
  rw [holds_relabel]
  constructor
  · rintro ⟨u, hu, heq⟩
    rwa [← hr heq]
  · exact fun h => ⟨v, h, rfl⟩

theorem dataDependent_relabel (hr : Function.Injective r.name) :
    (g.relabel r).DataDependent d b ↔ g.DataDependent d b := by
  constructor
  · rintro ⟨w, hstore, hload, between, hpath, hclear⟩
    obtain ⟨v, hv, rfl⟩ := holds_relabel.mp hstore
    exact ⟨v, hv, (holds_relabel_name hr).mp hload, between, path_relabel.mp hpath,
      fun x hx h => hclear x hx ((holds_relabel_name hr).mpr h)⟩
  · rintro ⟨v, hstore, hload, between, hpath, hclear⟩
    exact ⟨r.name v, (holds_relabel_name hr).mpr hstore, (holds_relabel_name hr).mpr hload, between,
      path_relabel.mpr hpath, fun x hx h => hclear x hx ((holds_relabel_name hr).mp h)⟩

end Data

theorem pairsBelow_congr {n : Nat} {p q : Nat → Nat → Bool}
    (h : ∀ a b, b < n → p a b = q a b) : pairsBelow n p = pairsBelow n q := by
  have rows : ∀ a, (List.range n).filter (p a) = (List.range n).filter (q a) := fun a =>
    List.filter_congr fun b hb => h a b (List.mem_range.mp hb)
  simp only [pairsBelow, rows]

section

variable {r : Relabeling} (body : List Stmt)

theorem dataPairs_relabel (injective : Function.Injective r.name) :
    (ofProgram (relabelBlock r body)).dataPairs = (ofProgram body).dataPairs := by
  have renamed := wellFormed_ofProgram (relabelBlock r body)
  have original := wellFormed_ofProgram body
  rw [ofProgram_relabel] at renamed ⊢
  rw [dataPairs, dataPairs, size_relabel]
  refine pairsBelow_congr fun d b hb => ?_
  rw [Bool.eq_iff_iff, has_dataSources renamed (by simpa using hb), has_dataSources original hb]
  exact dataDependent_relabel injective

/-- Edges ask no more of a relabeling than that different names stay different. -/
theorem edges_relabel (injective : Function.Injective r.name) :
    (ofProgram (relabelBlock r body)).dependences.edges = (ofProgram body).dependences.edges := by
  simp only [dependences, dataPairs_relabel body injective]
  rw [ofProgram_relabel, controlPairs_relabel]

theorem ids_relabel : (ofProgram (relabelBlock r body)).dependences.nodes.map (·.id) =
    (ofProgram body).dependences.nodes.map (·.id) := by
  simp [ofProgram_relabel, dependences, relabel, Block.relabel, Function.comp_def]

end

variable (r : Renaming) (body : List Stmt)

theorem edges_rename : (ofProgram (relabelBlock r.relabeling body)).dependences.edges =
    (ofProgram body).dependences.edges := edges_relabel body r.name_injective

theorem ids_rename : (ofProgram (relabelBlock r.relabeling body)).dependences.nodes.map (·.id) =
    (ofProgram body).dependences.nodes.map (·.id) := ids_relabel body

theorem hashes_rename :
    (ofProgram (relabelBlock r.relabeling body)).dependences.nodes.map (·.hash) =
      (ofProgram body).dependences.nodes.map (·.hash) := by
  simp [ofProgram_relabel, dependences, relabel, Block.relabel, Function.comp_def,
    Canon.contentHash_relabel]

end Graph

end Arbiter.Flow
