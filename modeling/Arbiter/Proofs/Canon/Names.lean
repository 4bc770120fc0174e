import Arbiter.Proofs.Canon.Pass
import Arbiter.Proofs.Canon.Undo
import Arbiter.Proofs.Dependence.Renaming

/-! The names in canonical form. Numbering goes over a tree in an order of its own, but it meets every name
that occurs there. Main statement: the names that occur in a numbered item are the placeholders of those that
occur in the item, each in its place and context, and a block in canonical form stores and loads what one
injective map makes of the names that the block stores and loads. -/

namespace Arbiter.Flow

open Syntax Canon

/-- A name that occurs is numbered. -/
theorem Item.mem_labels_of_mem_occurrences {i : Item} {o : Occurrence} (member : o ∈ i.occurrences) :
    .name o.name ∈ i.labels := by
  classical
  -- To change the names that have no label changes nothing, so none of them occurs.
  let others : Relabeling :=
    { name := fun id => if .name id ∈ i.labels then id else id ++ "'", constant := id, piece := id }
  have spares : others.SparesOthers := ⟨fun _ _ => rfl, rfl⟩
  have fixed : ∀ l ∈ i.labels, others.Fixes l := by
    rintro (id | l) known
    · exact if_pos known
    · exact ⟨rfl, fun _ => rfl⟩
  have same : i.relabel others = i := by
    cases i with
    | stmt s => exact congrArg Item.stmt (relabelStmt_fixed spares s fixed)
    | expr e => exact congrArg Item.expr (relabelExpr_fixed spares e fixed)
  have kept : i.occurrences.map others.onOccurrence = i.occurrences.map id := by
    rw [← Item.occurrences_relabel, same, List.map_id]
  have name : others.name o.name = o.name := congrArg Occurrence.name (List.map_inj_left.1 kept o member)
  by_contra unknown
  rw [show others.name o.name = o.name ++ "'" from if_neg unknown] at name
  exact absurd (congrArg String.length name) (by simp)

namespace Graph

/-- Every block in canonical form. -/
def canonical (g : Graph) : Graph := ⟨g.blocks.map fun b => { b with items := Canon.canonical b.items }⟩

theorem items_canonical (g : Graph) (b : Nat) : g.canonical.items b = Canon.canonical (g.items b) := by
  cases found : g.blocks[b]? with
  | none => simp [items, canonical, found, Canon.canonical]
  | some block => simp [items, canonical, found]

theorem names_canonical (g : Graph) (ctx : Context) (b : Nat) : g.canonical.names ctx b =
    (g.names ctx b).map (Numbering.ofLabels ((g.items b).flatMap Item.labels)).namePlaceholder := by
  rw [names, items_canonical]
  simp only [Canon.canonical, names, List.flatMap_map, Item.occurrences_relabel, ← List.map_flatMap,
    List.filter_map, List.map_map, Function.comp_def, Relabeling.onOccurrence]
  rfl

end Graph

end Arbiter.Flow

namespace Arbiter.Canon

open Syntax Arbiter.Flow

namespace Pass

variable (i : Item) (n : Numbering)

theorem occurrences_item : (item i n).1.occurrences =
    i.occurrences.map fun o => ⟨(item i n).2.namePlaceholder o.name, o.ctx⟩ := by
  rw [(numbers_item i).run, Item.occurrences_relabel]
  rfl

theorem mem_names_item {o : Occurrence} (member : o ∈ i.occurrences) : o.name ∈ (item i n).2.names := by
  rw [(numbers_item i).run]
  exact n.has_after i.labels _ (Item.mem_labels_of_mem_occurrences member)

theorem extends_item : n.Extends (item i n).2 := by
  rw [(numbers_item i).run]
  exact n.extends_after i.labels

/-- The canonical form of a block is what a pass makes that starts without numbers. -/
theorem items_fresh (is : List Item) :
    items is .fresh = (canonical is, Numbering.ofLabels (is.flatMap Item.labels)) := by
  rw [(numbers_items is).run, ← Numbering.ofLabels_eq_after]
  rfl

end Pass

/-- Numbering and the names that occur agree. Whatever has a number already, the names that occur in a
numbered item are those of the item with the placeholders of the numbers at the end, in the same order and
contexts; every one of them has a number, different ones have different placeholders, and what had a
placeholder keeps it. So the names that a block stores and those that it loads become, in canonical form,
their images under one map that is injective on the names of the block. -/
theorem names_of_canonical_form :
    (∀ (n : Numbering) (i : Item),
      let i' := (Pass.item i n).1
      let n' := (Pass.item i n).2
      i'.occurrences = i.occurrences.map (fun o => ⟨n'.namePlaceholder o.name, o.ctx⟩) ∧
      (∀ o ∈ i.occurrences, o.name ∈ n'.names) ∧
      Set.InjOn n'.namePlaceholder {id | id ∈ n'.names} ∧
      n.names <+: n'.names ∧ ∀ id ∈ n.names, n'.namePlaceholder id = n.namePlaceholder id) ∧
    (∀ is : List Item, canonical is = (Pass.items is .fresh).1) ∧
    ∀ (g : Graph) (b : Nat), ∃ f : String → String, Set.InjOn f {v | ∃ ctx, g.Holds b v ctx} ∧
      ∀ ctx, g.canonical.names ctx b = (g.names ctx b).map f := by
  refine ⟨fun n i => ⟨Pass.occurrences_item i n, fun _ => Pass.mem_names_item i n,
    Numbering.namePlaceholder_injOn _, (Pass.extends_item i n).names,
    fun _ known => (Pass.extends_item i n).namePlaceholder_eq known⟩,
    fun is => by rw [Pass.items_fresh], fun g b => ?_⟩
  refine ⟨_, (Numbering.namePlaceholder_injOn _).mono ?_, fun ctx => g.names_canonical ctx b⟩
  rintro v ⟨ctx, i, member, occurs⟩
  rw [Numbering.names_ofLabels]
  exact List.mem_flatMap.2 ⟨i, member, Item.mem_labels_of_mem_occurrences occurs⟩

end Arbiter.Canon
