import Arbiter.Proofs.Canon.Pass
import Arbiter.Proofs.Dependence.Renaming
import Arbiter.Proofs.Parsing.Shape
import Mathlib.Logic.Equiv.Basic

/-! Format texts. An f-string keeps the text of a format as it is written, fields inside of it included, so
no name in it is read or numbered. Main statement: to rename a variable to a fresh name and to change format
texts in any way moves no edge, and no hash but those of blocks in which a format text changes. -/

namespace Arbiter.Syntax

/-- Format texts change by `σ`, and nothing else does. -/
def Relabeling.formats (σ : String → String) : Relabeling where
  name := id
  constant := id
  piece := id
  format := σ

/-- The name `w` becomes `v`, and format texts change by `σ`. -/
def Relabeling.rename (w v : String) (σ : String → String) : Relabeling where
  name id := if id = w then v else id
  constant := id
  piece := id
  format := σ

/-- Two names in each other's place. -/
def Renaming.swap (w v : String) : Renaming where
  name := Equiv.swap w v
  literal _ := id
  name_injective := (Equiv.swap w v).injective
  literal_injective _ := Function.injective_id

@[simp] theorem Renaming.constant_swap (w v : String) (c : Constant) : (swap w v).constant c = c := by
  cases c <;> rfl

variable {w v : String} {σ : String → String}

/-- Where the new name is not there yet, to rename is to swap. -/
theorem Relabeling.rename_agree_swap {labels : List Label} (fresh : .name v ∉ labels) :
    (rename w v σ).Agree ((formats σ).comp (Renaming.swap w v).relabeling) labels where
  name id member := by
    have other : id ≠ v := fun same => fresh (same ▸ member)
    show (if id = w then v else id) = Equiv.swap w v id
    rw [Equiv.swap_apply_def, if_neg other]
  literal c _ _ _ := (Renaming.constant_swap w v c).symm
  piece _ _ := rfl
  other c _ := (Renaming.constant_swap w v c).symm
  format := rfl

theorem relabelBlock_rename {body : List Stmt} (fresh : .name v ∉ blockLabels body) :
    relabelBlock (.rename w v σ) body =
      relabelBlock ((Relabeling.formats σ).comp (Renaming.swap w v).relabeling) body :=
  (Canon.Pass.numbers_block body).reads (Relabeling.rename_agree_swap fresh)

end Arbiter.Syntax

namespace Arbiter.Flow.Graph

open Syntax

theorem hash_node (g : Graph) (b : Nat) :
    (g.dependences.nodes[b]?).map (·.hash) = (g.blocks[b]?).map (Canon.contentHash ·.items) := by
  simp [dependences, Function.comp_def]

theorem hash_of_items {g : Graph} {b : Nat} (filled : g.items b ≠ []) :
    (g.dependences.nodes[b]?).map (·.hash) = some (Digest.sha256Hex (Canon.canonicalText (g.items b))) := by
  rw [hash_node]
  cases found : g.blocks[b]? with
  | none => simp [Graph.items, found] at filled
  | some block =>
    have items : g.items b = block.items := by simp [Graph.items, found]
    rw [items] at filled ⊢
    simp [Canon.contentHash, filled]

/-- A block without format texts that change keeps its hash if names and literals are renamed. -/
theorem hash_relabel_formats (g : Graph) (r : Renaming) {σ : String → String} {b : Nat}
    (keeps : ∀ i ∈ g.items b, i.relabel (.formats σ) = i) :
    ((g.relabel ((Relabeling.formats σ).comp r.relabeling)).dependences.nodes[b]?).map (·.hash) =
      (g.dependences.nodes[b]?).map (·.hash) := by
  rw [hash_node, hash_node, relabel, Array.getElem?_map]
  cases found : g.blocks[b]? with
  | none => rfl
  | some block =>
    have items : g.items b = block.items := by simp [Graph.items, found]
    rw [items] at keeps
    have same : block.items.map (Item.relabel ((Relabeling.formats σ).comp r.relabeling)) =
        block.items.map (Item.relabel r.relabeling) := by
      refine List.map_congr_left fun i member => ?_
      have apart : (Relabeling.formats σ).comp r.relabeling = r.relabeling.comp (.formats σ) := rfl
      rw [apart, ← Canon.relabel_comp, keeps i member]
    simp only [Option.map_some, Block.relabel, same, Canon.contentHash_relabel]

/-- What format texts have to do with dependences, where `g'` is the graph of the program of `g` with another
name for a variable and format texts changed by `σ`. -/
structure FormatsApart (σ : String → String) (g g' : Graph) : Prop where
  edges : g'.dependences.edges = g.dependences.edges
  ids : g'.dependences.nodes.map (·.id) = g.dependences.nodes.map (·.id)
  /-- A block in which no format text changes keeps its hash. -/
  hashes : ∀ b, (∀ i ∈ g.items b, i.relabel (.formats σ) = i) →
    (g'.dependences.nodes[b]?).map (·.hash) = (g.dependences.nodes[b]?).map (·.hash)
  /-- What is read in format texts does not count, and what is read elsewhere does. -/
  reads : ∀ d b, ⟨d, b, .data⟩ ∈ g.dependences.edges ↔ ∃ u, g.Holds d u .store ∧ g.Holds b u .load ∧
    ∃ between, g.Path d b (d :: between ++ [b]) ∧ ∀ x ∈ between, ¬g.Holds x u .store

/-- Format texts stand apart. In every program, to give a variable a name that is not there yet and to
change format texts in any way leaves all edges, and all hashes of blocks in which no format text changes. -/
theorem formats_apart {body : List Stmt} {v : String} (w : String) (σ : String → String)
    (fresh : .name v ∉ blockLabels body) :
    FormatsApart σ (ofProgram body) (ofProgram (relabelBlock (.rename w v σ) body)) := by
  rw [relabelBlock_rename fresh]
  exact
    { edges := edges_relabel body (Renaming.swap w v).name_injective
      ids := ids_relabel body
      hashes := fun b keeps => by
        rw [ofProgram_relabel]
        exact hash_relabel_formats _ _ keeps
      reads := fun d b => by
        rw [mem_edges_data, mem_dataPairs (wellFormed_ofProgram body)]
        rfl }

/-- The width `w` is read in a format of the second block and stored in the first, which leads there. There
is no edge between them. -/
theorem exists_width : ∃ body,
    parseProgram "w = 3\nif c:\n    print(f'\x7bx:\x7bw\x7d\x7d')\n" = .ok body ∧
      .name "v" ∉ blockLabels body ∧
      let g := ofProgram body
      let g' := ofProgram (relabelBlock
        (.rename "w" "v" fun s => if s = "\x7bw\x7d" then "\x7bv\x7d" else s) body)
      (g.items 2).map Item.text = ["print(f\"\x7bx:\x7bw\x7d\x7d\")"] ∧
      (g'.items 2).map Item.text = ["print(f\"\x7bx:\x7bv\x7d\x7d\")"] ∧
      g.names .store 1 = ["w"] ∧ 2 ∈ g.successors 1 ∧ ⟨1, 2, .data⟩ ∉ g.dependences.edges ∧
      Canon.canonicalText (g.items 2) = "VAR_0(f\"\x7bVAR_1:\x7bw\x7d\x7d\")" ∧
      Canon.canonicalText (g'.items 2) = "VAR_0(f\"\x7bVAR_1:\x7bv\x7d\x7d\")" := by
  refine Exists.imp (fun body h => ⟨h.1, of_decide_eq_true h.2⟩) (exists_ok (b := true) ?_)
  decide +kernel

theorem formats_apart_width : ∃ body,
    parseProgram "w = 3\nif c:\n    print(f'\x7bx:\x7bw\x7d\x7d')\n" = .ok body ∧
      .name "v" ∉ blockLabels body ∧
      FormatsApart (fun s => if s = "\x7bw\x7d" then "\x7bv\x7d" else s) (ofProgram body)
        (ofProgram (relabelBlock
          (.rename "w" "v" fun s => if s = "\x7bw\x7d" then "\x7bv\x7d" else s) body)) := by
  obtain ⟨body, read, fresh, -⟩ := exists_width
  exact ⟨body, read, fresh, formats_apart "w" _ fresh⟩

/-- A width in a format is missed. There is no edge to the block that reads it from the one that stores
it, and under another name of the variable the block has another hash. -/
theorem width_in_format_missed : ∃ body,
    parseProgram "w = 3\nif c:\n    print(f'\x7bx:\x7bw\x7d\x7d')\n" = .ok body ∧
      .name "v" ∉ blockLabels body ∧
      let g := ofProgram body
      let g' := ofProgram (relabelBlock
        (.rename "w" "v" fun s => if s = "\x7bw\x7d" then "\x7bv\x7d" else s) body)
      (g.items 2).map Item.text = ["print(f\"\x7bx:\x7bw\x7d\x7d\")"] ∧
      (g'.items 2).map Item.text = ["print(f\"\x7bx:\x7bv\x7d\x7d\")"] ∧
      g.names .store 1 = ["w"] ∧ 2 ∈ g.successors 1 ∧ ⟨1, 2, .data⟩ ∉ g.dependences.edges ∧
      (g'.dependences.nodes[2]?).map (·.hash) ≠ (g.dependences.nodes[2]?).map (·.hash) := by
  obtain ⟨body, read, fresh, old, new, stores, leads, missed, oldForm, newForm⟩ := exists_width
  refine ⟨body, read, fresh, old, new, stores, leads, missed, ?_⟩
  have oldHash : Digest.sha256Hex "VAR_0(f\"\x7bVAR_1:\x7bw\x7d\x7d\")" =
      "e0176426d0dfa32166c9137623702cc672802863b20041dbd29d3a302e4b3e95" := by decide +kernel
  have newHash : Digest.sha256Hex "VAR_0(f\"\x7bVAR_1:\x7bv\x7d\x7d\")" =
      "86443ed53a0c2d5454c7514aa7febdc650fb6112beff7ba9ae4511eaef6b3e48" := by decide +kernel
  rw [hash_of_items fun empty => by simp [empty] at new, hash_of_items fun empty => by simp [empty] at old,
    oldForm, newForm, oldHash, newHash]
  decide

end Arbiter.Flow.Graph
