import Arbiter.Digest.Sha256
import Arbiter.Flow.Item

/-! Canonical form. The names of a block become `VAR_0`, `VAR_1`, … and its literals `'CONST_0'`,
`'CONST_1'`, …, numbered by first occurrence, so that blocks which differ in the choice of names and
literals alone have one text and one hash. -/

namespace Arbiter.Canon

open Syntax Arbiter.Flow

/-- The names and literals that have a number, which is their place. -/
structure Numbering where
  names : List String
  literals : List Literal

namespace Numbering

def nameOf? : Label → Option String
  | .name id => some id
  | .literal _ => none

def literalOf? : Label → Option Literal
  | .name _ => none
  | .literal l => some l

/-- Numbers labels by first occurrence. -/
def ofLabels (labels : List Label) : Numbering :=
  ⟨(labels.filterMap nameOf?).eraseDups, (labels.filterMap literalOf?).eraseDups⟩

def namePlaceholder (n : Numbering) (name : String) : String :=
  "VAR_" ++ toString (n.names.idxOf name)

def literalPlaceholder (n : Numbering) (l : Literal) : String :=
  "CONST_" ++ toString (n.literals.idxOf l)

/-- A numbered constant becomes the string of its placeholder. -/
def constantPlaceholder (n : Numbering) (c : Constant) : Constant :=
  match literal? c with
  | some l => .str ("'" ++ n.literalPlaceholder l ++ "'")
  | none => c

def relabeling (n : Numbering) : Relabeling where
  name := n.namePlaceholder
  constant := n.constantPlaceholder
  piece s := n.literalPlaceholder ⟨.str, s⟩

end Numbering

/-- The items of one block in canonical form. -/
def canonical (items : List Item) : List Item :=
  let numbers := Numbering.ofLabels (items.flatMap Item.labels)
  items.map (Item.relabel numbers.relabeling)

def canonicalText (items : List Item) : String :=
  "\n".intercalate ((canonical items).map Item.text)

/-- The hash of a block without items, which matches no other. -/
def emptyHash : String := "empty"

def contentHash (items : List Item) : String :=
  if items.isEmpty then emptyHash else Digest.sha256Hex (canonicalText items)

end Arbiter.Canon
