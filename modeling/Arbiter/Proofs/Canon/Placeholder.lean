import Arbiter.Proofs.Parsing.Kinds
import Arbiter.Proofs.Parsing.Regular
import Arbiter.Proofs.Parsing.Scanning

/-! Numbered names, which canonical form has for all names and literals, and which stand for the marks
of fields. -/

namespace Arbiter.Syntax

theorem isDigit_toString {n : Nat} {d : Char} (h : d ∈ (toString n).toList) : d.isDigit = true := by
  have digits : (toString n).toList = Nat.toDigits 10 n := by
    simp [toString, Nat.repr_eq_ofList_toDigits]
  rw [digits] at h
  exact Nat.isDigit_of_mem_toDigits (by decide) (by decide) h

theorem toString_ne_nil (n : Nat) : (toString n).toList ≠ [] := by
  have digits : (toString n).toList = Nat.toDigits 10 n := by
    simp [toString, Nat.repr_eq_ofList_toDigits]
  rw [digits]
  exact Nat.toDigits_ne_nil

theorem toLower_of_isDigit {d : Char} (h : d.isDigit = true) : d.toLower = d := by
  have upper : ¬(d.val ≥ 'A'.val ∧ d.val ≤ 'Z'.val) := by
    rintro ⟨low, -⟩
    have low : 65 ≤ d.val.toNat := low
    simp only [Char.isDigit, Bool.and_eq_true, decide_eq_true_eq] at h
    have high : d.val.toNat ≤ 57 := h.2
    omega
  exact dif_neg upper

/-- No keyword has a digit, and no mark of a string. -/
theorem isIdentifier_of_digit {w : String} {c d : Char} {u : List Char} (chars : w.toList = c :: u)
    (start : isNameStart c = true) (more : ∀ d ∈ u, isNameChar d = true) (member : d ∈ w.toList)
    (digit : d.isDigit = true) : IsIdentifier w := by
  have letters : ∀ words : List String, words.all (·.toList.all fun e => !e.isDigit) = true →
      ∀ v : String, d ∈ v.toList → v ∉ words := by
    intro words letters v hd hv
    have none := List.all_eq_true.1 (List.all_eq_true.1 letters v hv) d hd
    rw [digit] at none
    cases none
  have lower : d ∈ w.toLower.toList := by
    show d ∈ (w.map Char.toLower).toList
    rw [String.toList_map]
    exact List.mem_map.2 ⟨d, member, toLower_of_isDigit digit⟩
  have noMark : isStringMark w = false := Bool.eq_false_iff.2 fun mark =>
    letters _ (by decide) _ lower (List.contains_iff_mem.1 mark)
  exact ⟨spells_of_nameChars chars start more noMark, Bool.eq_false_iff.2 fun keyword =>
    letters _ (by decide) _ member (List.contains_iff_mem.1 keyword)⟩

theorem isIdentifier_numbered {stem : String} {c : Char} {u : List Char} (n : Nat)
    (chars : stem.toList = c :: u) (start : isNameStart c = true)
    (more : ∀ d ∈ u, isNameChar d = true) : IsIdentifier (stem ++ toString n) := by
  obtain ⟨d, v, digits⟩ := List.exists_cons_of_ne_nil (toString_ne_nil n)
  have whole : (stem ++ toString n).toList = c :: (u ++ (toString n).toList) := by
    rw [String.toList_append, chars, List.cons_append]
  have first : d ∈ (toString n).toList := digits ▸ List.mem_cons_self
  refine isIdentifier_of_digit (d := d) whole start (fun e he => ?_) ?_ (isDigit_toString first)
  · rcases List.mem_append.1 he with he | he
    · exact more e he
    · rw [isNameChar_ascii (toNat_lt_of_isDigit (isDigit_toString he)), isDigit_toString he,
        Bool.or_true]
  · rw [String.toList_append]
    exact List.mem_append_right _ first

theorem isIdentifier_stem {stem : String} (n : Nat) (h : stem ∈ ["VAR_", "CONST_", "MARK_"]) :
    IsIdentifier (stem ++ toString n) := by
  have known : ∀ stem ∈ ["VAR_", "CONST_", "MARK_"], stem.toList ≠ [] ∧
      stem.toList.head?.all isNameStart = true ∧ stem.toList.tail.all isNameChar = true := by
    decide +kernel
  obtain ⟨some, first, more⟩ := known stem h
  obtain ⟨c, u, chars⟩ := List.exists_cons_of_ne_nil some
  rw [chars] at first more
  exact isIdentifier_numbered n chars first (List.all_eq_true.1 more)

theorem isIdentifier_markName (mark : Option (List Char)) : IsIdentifier (markName mark) :=
  isIdentifier_stem _ (by decide)

/-- The names of canonical form. -/
def IsNamePlaceholder (id : String) : Prop := ∃ n : Nat, id = "VAR_" ++ toString n

/-- The literals of canonical form, as they stand in f-strings. -/
def IsPiecePlaceholder (s : String) : Prop := ∃ n : Nat, s = "CONST_" ++ toString n

theorem IsNamePlaceholder.isIdentifier {id : String} : IsNamePlaceholder id → IsIdentifier id := by
  rintro ⟨n, rfl⟩
  exact isIdentifier_stem n (by decide)

theorem IsPiecePlaceholder.isIdentifier {s : String} : IsPiecePlaceholder s → IsIdentifier s := by
  rintro ⟨n, rfl⟩
  exact isIdentifier_stem n (by decide)

/-- What a tree in canonical form may hold: its numbers are strings, and nothing in it yields. -/
def Leeway.shown : Leeway := 
  ⟨false, fun _ => True, false, false, IsNamePlaceholder, IsPiecePlaceholder⟩

end Arbiter.Syntax
