import Arbiter.Proofs.Canon.Renaming
import Arbiter.Proofs.Parsing.Kinds
import Arbiter.Proofs.Syntax.Relabel
import Mathlib.Data.Set.Function

/-! A numbering can be undone. Main statements: statements can be had back from their canonical form, and
numberings under which statements have one canonical form give bijections of names and of literals. -/

namespace Arbiter.Syntax

/-- Other names and other literals, where a number may become a string. -/
def Relabeling.exchange (names : String → String) (literals : Literal → Literal) : Relabeling where
  name := names
  constant c :=
    match literal? c with
    | some l => (literals l).constant
    | none => c
  piece s := (literals ⟨.str, s⟩).text

/-- No names and no literals, only what is left without them. -/
def Relabeling.blank : Relabeling where
  name _ := ""
  constant c := if (literal? c).isSome then .none else c
  piece _ := ""

theorem Relabeling.blank_comp_exchange (names : String → String) (literals : Literal → Literal) :
    blank.comp (exchange names literals) = blank := by
  have constants : ∀ c : Constant, blank.constant ((exchange names literals).constant c) = blank.constant c := by
    intro c
    cases found : literal? c with
    | none => simp only [exchange, found]
    | some l => simp [exchange, blank, found]
  rw [comp, blank, Relabeling.mk.injEq]
  exact ⟨rfl, funext constants, rfl, rfl⟩

end Arbiter.Syntax

namespace Arbiter.Canon

open Syntax Arbiter.Flow

/-- The names that are numbered. -/
def namesOf (labels : List Label) : Set String := {id | Label.name id ∈ labels}

/-- The literals that are numbered. -/
def literalsOf (labels : List Label) : Set Literal := {l | Label.literal l ∈ labels}

/-! Placeholders back to what they stand for. -/

/-- What stands between the quotes of a string. -/
def unquoted (s : String) : String := .ofList s.toList.tail.dropLast

theorem unquoted_quoted (s : String) : unquoted ("'" ++ s ++ "'") = s := by
  simp [unquoted]

instance : Inhabited Literal := ⟨⟨.int, "0"⟩⟩

namespace Numbering

theorem names_ofLabels (labels : List Label) : {id | id ∈ (ofLabels labels).names} = namesOf labels := by
  ext id
  simp only [ofLabels, List.mem_eraseDups, List.mem_filterMap, namesOf, Set.mem_ofPred_eq]
  constructor
  · rintro ⟨_ | _, member, same⟩ <;> cases same
    exact member
  · exact fun member => ⟨_, member, rfl⟩

theorem literals_ofLabels (labels : List Label) :
    {l | l ∈ (ofLabels labels).literals} = literalsOf labels := by
  ext l
  simp only [ofLabels, List.mem_eraseDups, List.mem_filterMap, literalsOf, Set.mem_ofPred_eq]
  constructor
  · rintro ⟨_ | _, member, same⟩ <;> cases same
    exact member
  · exact fun member => ⟨_, member, rfl⟩

variable (n n' : Numbering)

theorem injOn_numbered {α : Type} [BEq α] [LawfulBEq α] (stem : String) (xs : List α) :
    Set.InjOn (fun x => stem ++ toString (xs.idxOf x)) {x | x ∈ xs} := by
  intro x hx y hy same
  exact (List.idxOf_inj hx).1 (toString_injective ((String.append_right_inj stem).1 same))

theorem namePlaceholder_injOn : Set.InjOn n.namePlaceholder {id | id ∈ n.names} :=
  injOn_numbered "VAR_" n.names

theorem literalPlaceholder_injOn : Set.InjOn n.literalPlaceholder {l | l ∈ n.literals} :=
  injOn_numbered "CONST_" n.literals

/-- The name that has the placeholder. -/
noncomputable def nameAt : String → String := Function.invFunOn n.namePlaceholder {id | id ∈ n.names}

/-- The literal that has the placeholder. -/
noncomputable def literalAt : String → Literal := Function.invFunOn n.literalPlaceholder {l | l ∈ n.literals}

theorem nameAt_namePlaceholder : Set.LeftInvOn n.nameAt n.namePlaceholder {id | id ∈ n.names} :=
  n.namePlaceholder_injOn.leftInvOn_invFunOn

theorem literalAt_literalPlaceholder : Set.LeftInvOn n.literalAt n.literalPlaceholder {l | l ∈ n.literals} :=
  n.literalPlaceholder_injOn.leftInvOn_invFunOn

/-- Puts names and literals where their placeholders are. -/
noncomputable def undo : Relabeling where
  name := n.nameAt
  constant
    | .str s => (n.literalAt (unquoted s)).constant
    | c => c
  piece s := (n.literalAt s).text

/-- To number by one numbering and go back by another is to exchange names and literals. -/
theorem undo_comp_relabeling : n'.undo.comp n.relabeling =
    .exchange (n'.nameAt ∘ n.namePlaceholder) (n'.literalAt ∘ n.literalPlaceholder) := by
  have constants : ∀ c : Constant, n'.undo.constant (n.constantPlaceholder c) =
      match literal? c with
      | some l => (n'.literalAt (n.literalPlaceholder l)).constant
      | none => c := by
    intro c
    cases c with
    | int text | float text | str text =>
      exact congrArg (fun s => (n'.literalAt s).constant) (unquoted_quoted _)
    | complex | bytes | bool | none | ellipsis => rfl
  rw [Relabeling.comp, Relabeling.exchange, Relabeling.mk.injEq]
  exact ⟨rfl, funext constants, rfl, rfl⟩

theorem undo_fixes {labels : List Label} {l : Label} (member : l ∈ labels) :
    ((ofLabels labels).undo.comp (ofLabels labels).relabeling).Fixes l := by
  rw [undo_comp_relabeling]
  cases l with
  | name id => exact nameAt_namePlaceholder _ ((names_ofLabels labels).ge member)
  | literal l =>
    have back := literalAt_literalPlaceholder _ ((literals_ofLabels labels).ge member)
    refine ⟨?_, fun str => ?_⟩
    · simp only [Relabeling.exchange, literal?_constant, Function.comp_apply, back]
    · obtain ⟨kind, text⟩ := l
      obtain rfl : kind = .str := str
      exact congrArg Literal.text back

theorem undo_spares : (n'.undo.comp n.relabeling).SparesOthers := by
  refine ⟨fun c none => ?_, rfl⟩
  rw [undo_comp_relabeling, Relabeling.exchange]
  simp only [none]

/-- Statements can be had back from their canonical form. -/
theorem undo_relabel (body : List Stmt) : relabelBlock (ofLabels (blockLabels body)).undo
    (relabelBlock (ofLabels (blockLabels body)).relabeling body) = body := by
  rw [relabelBlock_comp]
  exact relabelBlock_fixed (undo_spares _ _) body fun l member => undo_fixes member

/-! The labels of canonical form. -/

/-- Takes the quotes off strings. -/
def unquote : Relabeling where
  name := id
  constant
    | .str s => .str (unquoted s)
    | c => c
  piece := id

def onLabel : Label → Label
  | .name id => .name (n.namePlaceholder id)
  | .literal l => .literal ⟨.str, n.literalPlaceholder l⟩

theorem carries : (unquote.comp n.relabeling).Carries n.onLabel := by
  refine ⟨fun _ => rfl, fun c => ?_, fun _ => rfl⟩
  cases c with
  | int text | float text | str text =>
    exact congrArg (fun s => [Label.literal ⟨.str, s⟩]) (unquoted_quoted _)
  | complex | bytes | bool | none | ellipsis => rfl

end Numbering

open Arbiter.Canon.Numbering

section Exchange

/-- Two maps with the same values give a bijection if the second can be undone. -/
theorem bijOn_of_image_eq {α β γ : Type} {s : Set α} {t : Set β} {p : α → γ} {q : β → γ} {back : γ → β}
    (same : p '' s = q '' t) (inj : Set.InjOn p s) (left : Set.LeftInvOn back q t) :
    Set.BijOn (back ∘ p) s t := by
  have forth : Set.BijOn p s (q '' t) := same ▸ inj.bijOn_image
  have back : Set.BijOn back (q '' t) t := left.injOn.bijOn_image.symm ⟨left.rightInvOn_image, left⟩
  exact back.comp forth

theorem image_names (n : Numbering) (labels : List Label) :
    n.namePlaceholder '' namesOf labels = namesOf (labels.map n.onLabel) := by
  ext p
  simp only [namesOf, Set.mem_image, Set.mem_ofPred_eq, List.mem_map]
  constructor
  · rintro ⟨id, member, rfl⟩
    exact ⟨_, member, rfl⟩
  · rintro ⟨_ | _, member, same⟩ <;> cases same
    exact ⟨_, member, rfl⟩

theorem image_literals (n : Numbering) (labels : List Label) :
    n.literalPlaceholder '' literalsOf labels = Literal.text '' literalsOf (labels.map n.onLabel) := by
  ext p
  simp only [literalsOf, Set.mem_image, Set.mem_ofPred_eq, List.mem_map]
  constructor
  · rintro ⟨l, member, rfl⟩
    exact ⟨_, ⟨_, member, rfl⟩, rfl⟩
  · rintro ⟨_, ⟨_ | _, member, same⟩, rfl⟩ <;> cases same
    exact ⟨_, member, rfl⟩

variable {labels labels' : List Label}

theorem bijOn_names (same : labels.map (ofLabels labels).onLabel = labels'.map (ofLabels labels').onLabel) :
    Set.BijOn ((ofLabels labels').nameAt ∘ (ofLabels labels).namePlaceholder) (namesOf labels)
      (namesOf labels') := by
  refine bijOn_of_image_eq ?_ ((namePlaceholder_injOn _).mono (names_ofLabels labels).ge)
    ((nameAt_namePlaceholder _).mono (names_ofLabels labels').ge)
  rw [image_names, image_names, same]

theorem bijOn_literals (same : labels.map (ofLabels labels).onLabel = labels'.map (ofLabels labels').onLabel) :
    Set.BijOn ((ofLabels labels').literalAt ∘ (ofLabels labels).literalPlaceholder) (literalsOf labels)
      (literalsOf labels') := by
  refine bijOn_of_image_eq ?_ ((literalPlaceholder_injOn _).mono (literals_ofLabels labels).ge)
    ((literalAt_literalPlaceholder _).mono (literals_ofLabels labels').ge)
  rw [image_literals, image_literals, same]

theorem map_onLabel {body body' : List Stmt} {n n' : Numbering}
    (same : relabelBlock n.relabeling body = relabelBlock n'.relabeling body') :
    (blockLabels body).map n.onLabel = (blockLabels body').map n'.onLabel := by
  rw [← n.carries.blockLabels_relabel, ← n'.carries.blockLabels_relabel, ← relabelBlock_comp,
    ← relabelBlock_comp, same]

end Exchange

end Arbiter.Canon
