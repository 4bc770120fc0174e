import Arbiter.Canon.Numbering
import Arbiter.Proofs.Syntax.Relabel
import Arbiter.Proofs.Syntax.Renaming

/-! Canonical form does not see a renaming. The first occurrences of names and literals stay where
they are, so each keeps its number, and the placeholders of both programs are the same. -/

namespace Arbiter

namespace Digest

theorem length_hexWord (w : UInt32) : (hexWord w).length = 8 := by
  have h : (Nat.toDigits 16 w.toNat).length ≤ 8 := by
    rw [Nat.length_toDigits_le_iff (by decide) (by decide)]
    exact w.toNat_lt
  simp only [hexWord, String.length_ofList, List.length_append, List.length_replicate]
  omega

theorem length_sha256Hex (text : String) : (sha256Hex text).length = 64 := by
  simp [sha256Hex, Words.hex, length_hexWord]

end Digest

namespace Canon

open Syntax Arbiter.Flow Function

section

variable {α β : Type} [BEq α] [LawfulBEq α] [BEq β] [LawfulBEq β] {f : α → β}

theorem beq_of_injective (hf : Injective f) (a b : α) : (f a == f b) = (a == b) := by
  rw [Bool.eq_iff_iff, beq_iff_eq, beq_iff_eq]
  exact hf.eq_iff

theorem idxOf_map (hf : Injective f) (a : α) (as : List α) :
    (as.map f).idxOf (f a) = as.idxOf a := by
  induction as with
  | nil => rfl
  | cons b as ih => simp only [List.map_cons, List.idxOf_cons, beq_of_injective hf, ih]

/-- An injective map keeps the first occurrences. -/
theorem eraseDups_map (hf : Injective f) (as : List α) :
    (as.map f).eraseDups = as.eraseDups.map f := by
  match as with
  | [] => rfl
  | a :: as =>
    have rest : (as.map f).filter (fun b => !b == f a) = (as.filter fun b => !b == a).map f := by
      simp only [List.filter_map, Function.comp_def, beq_of_injective hf]
    have : (as.filter fun b => !b == a).length < as.length + 1 :=
      Nat.lt_succ_of_le (List.length_filter_le _ as)
    rw [List.map_cons, List.eraseDups_cons, List.eraseDups_cons, List.map_cons, rest,
      eraseDups_map hf]
termination_by as.length

end

namespace Numbering

/-- The same numbers for the renamed names and literals. -/
def rename (r : Renaming) (n : Numbering) : Numbering :=
  ⟨n.names.map r.name, n.literals.map r.onLiteral⟩

theorem ofLabels_rename (r : Renaming) (labels : List Label) :
    ofLabels (labels.map r.onLabel) = (ofLabels labels).rename r := by
  have names : (labels.map r.onLabel).filterMap nameOf? =
      (labels.filterMap nameOf?).map r.name := by
    rw [List.filterMap_map, List.map_filterMap]
    exact congrArg (List.filterMap · labels) (funext fun l => by cases l <;> rfl)
  have literals : (labels.map r.onLabel).filterMap literalOf? =
      (labels.filterMap literalOf?).map r.onLiteral := by
    rw [List.filterMap_map, List.map_filterMap]
    exact congrArg (List.filterMap · labels) (funext fun l => by cases l <;> rfl)
  rw [ofLabels, names, literals, eraseDups_map r.name_injective,
    eraseDups_map r.onLiteral_injective]
  rfl

theorem namePlaceholder_rename (r : Renaming) (n : Numbering) (name : String) :
    (n.rename r).namePlaceholder (r.name name) = n.namePlaceholder name := by
  rw [namePlaceholder, rename, idxOf_map r.name_injective]
  rfl

theorem literalPlaceholder_rename (r : Renaming) (n : Numbering) (l : Literal) :
    (n.rename r).literalPlaceholder (r.onLiteral l) = n.literalPlaceholder l := by
  rw [literalPlaceholder, rename, idxOf_map r.onLiteral_injective]
  rfl

theorem constantPlaceholder_rename (r : Renaming) (n : Numbering) (c : Constant) :
    (n.rename r).constantPlaceholder (r.constant c) = n.constantPlaceholder c := by
  cases c with
  | int text | float text | str text =>
    exact congrArg (fun s => Constant.str ("'" ++ s ++ "'"))
      (literalPlaceholder_rename r n ⟨_, text⟩)
  | complex _ | bytes _ | bool _ | none | ellipsis => rfl

/-- To rename first and number then is to number at once. -/
theorem relabeling_rename (r : Renaming) (n : Numbering) :
    (n.rename r).relabeling.comp r.relabeling = n.relabeling := by
  rw [Relabeling.comp, relabeling, Relabeling.mk.injEq]
  exact ⟨funext (namePlaceholder_rename r n), funext (constantPlaceholder_rename r n),
    funext fun s => literalPlaceholder_rename r n ⟨.str, s⟩, rfl⟩

end Numbering

theorem labels_relabel (r : Renaming) (item : Item) :
    (item.relabel r.relabeling).labels = item.labels.map r.onLabel := by
  cases item with
  | stmt s => exact r.carries.stmtLabels_relabel s
  | expr e => exact r.carries.exprLabels_relabel e

theorem relabel_comp (r r' : Relabeling) (item : Item) :
    (item.relabel r').relabel r = item.relabel (r.comp r') := by
  cases item with
  | stmt s => exact congrArg Item.stmt (relabelStmt_comp r r' s)
  | expr e => exact congrArg Item.expr (relabelExpr_comp r r' e)

/-- Blocks that differ by a renaming have one canonical form. -/
theorem canonical_relabel (r : Renaming) (items : List Item) :
    canonical (items.map (Item.relabel r.relabeling)) = canonical items := by
  have labels : (items.map (Item.relabel r.relabeling)).flatMap Item.labels =
      (items.flatMap Item.labels).map r.onLabel := by
    simp only [List.flatMap_map, List.map_flatMap, labels_relabel]
  simp only [canonical, labels, Numbering.ofLabels_rename, List.map_map, Function.comp_def,
    relabel_comp, Numbering.relabeling_rename]

theorem contentHash_relabel (r : Renaming) (items : List Item) :
    contentHash (items.map (Item.relabel r.relabeling)) = contentHash items := by
  rw [contentHash, contentHash, List.isEmpty_map, canonicalText, canonical_relabel]
  rfl

/-- No block with items has the hash of the empty block. -/
theorem contentHash_eq_emptyHash (items : List Item) :
    contentHash items = emptyHash ↔ items = [] := by
  constructor
  · intro h
    by_contra hne
    rw [contentHash, if_neg (by simpa using hne)] at h
    have length := Digest.length_sha256Hex (canonicalText items)
    rw [h] at length
    exact absurd length (by decide)
  · rintro rfl
    rfl

end Canon

end Arbiter
