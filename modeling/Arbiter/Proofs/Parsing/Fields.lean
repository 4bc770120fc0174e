import Arbiter.Proofs.Parsing.Regular
import Mathlib.Data.List.Chain

/-! The fields of f-strings. Main statement: the pieces that an f-string is read as hold well-formed
expressions, and their marks end where the marks of a field do. -/

namespace Arbiter.Syntax

/-- The value of a field is well formed, and so are its marks. -/
def FStringPart.Formed : FStringPart → Prop
  | .literal _ => True
  | .formatted value conversion spec =>
    value.Formed ∧ conversion ≠ some '=' ∧ ∀ s ∈ spec, IsFormat s

theorem formed_joinedStr {parts : List FStringPart} (apart : AreApart parts)
    (h : ∀ part ∈ parts, part.Formed) : Expr.Formed (.joinedStr parts) :=
  .joinedStr apart (fun _ _ _ member => (h _ member).1) (fun _ _ _ member => (h _ member).2)
    fun _ _ => trivial

theorem formed_mergeLiterals {parts : List FStringPart} (h : ∀ part ∈ parts, part.Formed) :
    ∀ part ∈ mergeLiterals parts, part.Formed := by
  fun_induction mergeLiterals parts with
  | case1 s t rest ih =>
    have left : ∀ part ∈ FStringPart.literal (s ++ t) :: rest, part.Formed :=
      List.forall_mem_cons.2 ⟨trivial, fun part hp => h part (.tail _ (.tail _ hp))⟩
    exact ih left
  | case2 part rest _ ih =>
    exact List.forall_mem_cons.2 ⟨h part List.mem_cons_self, ih fun p hp => h p (.tail _ hp)⟩
  | case3 => exact h

/-- What is merged begins with a literal piece exactly if the pieces do. -/
theorem isLiteral_head_mergeLiterals (parts : List FStringPart) :
    (mergeLiterals parts).head?.map (·.isLiteral) = parts.head?.map (·.isLiteral) := by
  fun_induction mergeLiterals parts with
  | case1 s t rest ih => exact ih
  | case2 | case3 => rfl

theorem areApart_mergeLiterals (parts : List FStringPart) : AreApart (mergeLiterals parts) := by
  fun_induction mergeLiterals parts with
  | case1 s t rest ih => exact ih
  | case2 part rest single ih =>
    refine List.isChain_cons.2 ⟨fun next found both => ?_, ih⟩
    -- a literal that follows after the merging follows before it, and then the two are merged
    have front := isLiteral_head_mergeLiterals rest
    rw [found, Option.map_some, both.2] at front
    obtain ⟨second, before, literal⟩ := Option.map_eq_some_iff.1 front.symm
    obtain ⟨more, rfl⟩ := List.head?_eq_some_iff.1 before
    cases part with
    | literal s =>
      cases second with
      | literal t => exact single s t more rfl rfl
      | formatted => cases literal
    | formatted => cases both.1
  | case3 => exact .nil

/-! What is found in the text of a field. -/

/-- A field ends at an exclamation mark only where no equals sign follows. -/
theorem fieldLength?_mark (cs : List Char) : ∀ depth quote n, fieldLength? depth quote cs = some n →
    (cs.drop n).head? = some '!' → (cs.drop (n + 1)).head? ≠ some '=' := by
  induction cs with
  | nil =>
    intro depth quote n h
    cases h
  | cons c r ih =>
    intro depth quote n h mark
    have later : ∀ {depth quote}, (fieldLength? depth quote r).map (· + 1) = some n →
        ((c :: r).drop (n + 1)).head? ≠ some '=' := by
      intro depth quote h
      obtain ⟨m, found, rfl⟩ := Option.map_eq_some_iff.1 h
      exact ih depth quote m found mark
    unfold fieldLength? at h
    cases quote with
    | some q => exact later h
    | none =>
      dsimp only at h
      split at h
      · exact later h
      split at h
      · exact later h
      split at h
      · exact later h
      split at h
      · rename_i closing
        split at h
        · cases h
          rw [closing] at mark
          cases mark
        · exact later h
      split at h
      · rename_i ends
        cases h
        obtain rfl : c = '!' := Option.some.inj mark
        exact (ends.2.resolve_left (by decide)).2
      · exact later h

theorem specLength?_front (cs : List Char) : ∀ depth n, specLength? depth cs = some n →
    n < cs.length ∧ ∀ rest, specLength? depth (cs.take n ++ '\x7d' :: rest) = some n := by
  induction cs with
  | nil =>
    intro depth n h
    cases h
  | cons c r ih =>
    intro depth n h
    have later : ∀ {depth'}, (specLength? depth' r).map (· + 1) = some n →
        (∀ s, specLength? depth (c :: s) = (specLength? depth' s).map (· + 1)) →
        n < (c :: r).length ∧
          ∀ rest, specLength? depth ((c :: r).take n ++ '\x7d' :: rest) = some n := by
      intro depth' h goesOn
      obtain ⟨m, found, rfl⟩ := Option.map_eq_some_iff.1 h
      obtain ⟨short, again⟩ := ih depth' m found
      refine ⟨Nat.succ_lt_succ short, fun rest => ?_⟩
      rw [List.take_succ_cons, List.cons_append, goesOn, again rest]
      rfl
    rw [specLength?] at h
    by_cases opening : c = '\x7b'
    · rw [if_pos opening] at h
      exact later h fun s => by rw [specLength?, if_pos opening]
    · rw [if_neg opening] at h
      by_cases closing : c = '\x7d'
      · rw [if_pos closing] at h
        by_cases top : depth = 0
        · rw [if_pos top] at h
          cases h
          refine ⟨Nat.succ_pos _, fun rest => ?_⟩
          rw [List.take_zero, List.nil_append, specLength?, if_neg (by decide), if_pos rfl, if_pos top]
        · rw [if_neg top] at h
          exact later h fun s => by rw [specLength?, if_neg opening, if_pos closing, if_neg top]
      · rw [if_neg closing] at h
        exact later h fun s => by rw [specLength?, if_neg opening, if_neg closing]

/-- The conversion at the front of what follows an expression, and the number of its characters. -/
def conversionMark : List Char → Option Char × Nat
  | '!' :: r => (r.head?, 2)
  | _ => (none, 0)

/-- The field whose expression has `n` characters. -/
def fieldMarks? (n : Nat) (cs : List Char) : Option (RawField × Nat) := do
  let (conversion, marked) := conversionMark (cs.drop n)
  match (cs.drop n).drop marked with
  | ':' :: r =>
    let m ← specLength? 0 r
    return (⟨cs.take n, conversion, some (r.take m)⟩, n + marked + 1 + m + 1)
  | '\x7d' :: _ => return (⟨cs.take n, conversion, none⟩, n + marked + 1)
  | _ => none

theorem exists_fieldMarks {cs : List Char} {field : RawField} {n : Nat}
    (h : rawField? cs = some (field, n)) :
    ∃ m, fieldLength? 0 none cs = some m ∧ fieldMarks? m cs = some (field, n) := by
  unfold rawField? at h
  obtain ⟨m, found, h⟩ := Option.bind_eq_some_iff.1 h
  exact ⟨m, found, h⟩

/-- The marks of a field that is found. -/
theorem rawField?_marks {cs : List Char} {field : RawField} {n : Nat}
    (h : rawField? cs = some (field, n)) :
    field.conversion ≠ some '=' ∧ ∀ s ∈ field.spec, IsFormat (.ofList s) := by
  obtain ⟨m, found, h⟩ := exists_fieldMarks h
  have conversion : (conversionMark (cs.drop m)).1 ≠ some '=' := by
    unfold conversionMark
    split
    · rename_i r same
      have next : (cs.drop (m + 1)).head? = r.head? := by
        rw [← List.drop_drop, same]
        rfl
      rw [← next]
      exact fieldLength?_mark cs 0 none m found (by rw [same]; rfl)
    · nofun
  have format : ∀ {r k}, specLength? 0 r = some k → IsFormat (.ofList (r.take k)) := by
    intro r k found rest
    obtain ⟨short, again⟩ := specLength?_front r 0 k found
    rw [String.toList_ofList, again, List.length_take, Nat.min_eq_left (Nat.le_of_lt short)]
  unfold fieldMarks? at h
  generalize conversionMark (cs.drop m) = mark at h conversion
  dsimp only at h
  split at h
  · obtain ⟨k, spec, h⟩ := Option.bind_eq_some_iff.1 h
    cases h
    refine ⟨conversion, ?_⟩
    rintro s ⟨⟩
    exact format spec
  · cases h
    exact ⟨conversion, nofun⟩
  · cases h

section Pieces

variable {read : String → Except Cause Expr} (sound : ∀ source e, read source = .ok e → e.Formed)
include sound

theorem formed_resolve {field : RawField} {part : FStringPart}
    (marks : field.conversion ≠ some '=' ∧ ∀ s ∈ field.spec, IsFormat (.ofList s))
    (h : field.resolve read = .ok part) : part.Formed := by
  unfold RawField.resolve at h
  dsimp only at h
  split at h
  · cases h
  · cases found : read ("(" ++ Text.trim (.ofList ((documented? field.text).getD field.text)) ++ ")") with
    | error cause =>
      rw [found] at h
      cases h
    | ok value =>
      rw [found] at h
      cases h
      refine ⟨sound _ _ found, ?_, ?_⟩
      · split
        · decide
        · exact marks.1
      · intro s hs
        obtain ⟨t, ht, rfl⟩ := Option.map_eq_some_iff.1 hs
        exact marks.2 t ht

theorem formed_fStringParts (cs : List Char) : ∀ literal parts,
    fStringParts read literal cs = .ok parts → ∀ part ∈ parts, part.Formed := by
  have literalPart_formed : ∀ cs, ∀ part ∈ literalPart cs, part.Formed := by
    intro cs part member
    unfold literalPart at member
    split at member
    · cases member
    · obtain rfl := List.mem_singleton.1 member
      trivial
  intro literal parts h
  fun_induction fStringParts read literal cs generalizing parts with
  | case1 literal =>
    cases h
    exact literalPart_formed literal
  | case2 literal r ih => exact ih parts h
  | case3 literal r ih => exact ih parts h
  | case4 => cases h
  | case5 => cases h
  | case6 literal r field n found _ _ _ ih =>
    cases resolved : field.resolve read with
    | error cause =>
      rw [resolved] at h
      cases h
    | ok part =>
      rw [resolved] at h
      cases more : fStringParts read [] (r.drop n) with
      | error cause =>
        simp only [more] at h
        cases h
      | ok rest =>
        simp only [more] at h
        cases h
        intro p hp
        rcases List.mem_append.1 hp with hp | hp
        · exact literalPart_formed _ p hp
        · rcases List.mem_cons.1 hp with rfl | hp
          · exact formed_resolve sound (rawField?_marks found) resolved
          · exact ih rest more p hp
  | case7 literal c r _ _ _ _ ih => exact ih parts h

theorem formed_parts {piece : StringPiece} {parts : List FStringPart}
    (h : piece.parts read = .ok parts) : ∀ part ∈ parts, part.Formed := by
  unfold StringPiece.parts at h
  split at h
  · cases found : fStringParts read [] piece.body with
    | error cause =>
      rw [found] at h
      cases h
    | ok ps =>
      rw [found] at h
      cases h
      exact formed_fStringParts sound _ _ _ found
  · cases h
    exact List.forall_mem_singleton.2 trivial

/-- The pieces of adjacent string literals, one of which is an f-string. -/
theorem formed_pieces {pieces : List StringPiece} {parts : List (List FStringPart)}
    (h : pieces.mapM (StringPiece.parts read) = .ok parts) :
    ∀ part ∈ parts.flatten, part.Formed := by
  induction pieces generalizing parts with
  | nil =>
    cases h
    nofun
  | cons piece pieces ih =>
    rw [List.mapM_cons] at h
    cases first : piece.parts read with
    | error fault =>
      rw [first] at h
      cases h
    | ok ps =>
      rw [first] at h
      cases more : pieces.mapM (StringPiece.parts read) with
      | error fault =>
        rw [more] at h
        cases h
      | ok rest =>
        rw [more] at h
        cases h
        intro part hp
        rcases List.mem_append.1 (List.flatten_cons ▸ hp) with hp | hp
        · exact formed_parts sound first part hp
        · exact ih more part hp

end Pieces

end Arbiter.Syntax
