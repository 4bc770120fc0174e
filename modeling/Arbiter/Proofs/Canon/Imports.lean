import Arbiter.Proofs.Canon.Lines

/-! What is imported: names with points in them, and the points before a module. Main statements: their
texts are read as their tokens, and they are told apart by them. -/

namespace Arbiter.Syntax

open TokenKind (op name)
open Syntax.Parser

/-- The points before the module of an import; three of them are one token. -/
def pointKinds (level : Nat) : List TokenKind :=
  List.replicate (level / 3) (op "...") ++ List.replicate (level % 3) (op ".")

def Alias.kinds (a : Alias) : List TokenKind := textKinds a.name ++ boundKinds a.asName


section Points

variable {rest : List Char} {K K' : List TokenKind}

/-- A point ends before a name. -/
theorem opEnds_point {a : String} {c : Char} (first : a.toList.head? = some c) (start : isNameStart c = true) :
    OpEnds "." (a.toList ++ rest) := by
  intro d hd
  rw [List.head?_append, first] at hd
  cases hd
  refine ⟨fun tail => ?_, fun _ => not_isDigit_of_isNameStart start⟩
  have tails : opTails "." = ['.'] := by decide
  rw [tails, List.mem_singleton] at tail
  have point : isNameStart '.' = false := isNameStart_ascii (by decide)
  rw [tail, point] at start
  cases start

def dottedKinds (first : String) (more : List String) : List TokenKind :=
  name first :: more.flatMap fun w => [op ".", name w]

theorem front_dotted {first : String} (h : IsIdentifier first) (more : List String) :
    ∃ c, (".".intercalate (first :: more)).toList.head? = some c ∧ isNameStart c = true := by
  obtain ⟨c, front, start⟩ := h.spells.isNameStart_front
  refine ⟨c, ?_, start⟩
  cases more with
  | nil => simpa using front
  | cons second more =>
    rw [String.intercalate_cons_cons, String.toList_append, String.toList_append, List.head?_append,
      List.head?_append, front]
    rfl

theorem reads_dotted {R : Reader} {σ : R.State} {first : String} {more : List String}
    (hf : IsIdentifier first) (hm : ∀ w ∈ more, IsIdentifier w) (ends : Ended rest) :
    R.Reads σ (".".intercalate (first :: more)) (dottedKinds first more) σ rest := by
  induction more generalizing first with
  | nil =>
    rw [String.intercalate_singleton]
    exact reads_spelled hf.spells nofun rfl (off_glues_of_apart ends.apart)
  | cons second more ih =>
    have hs := hm second List.mem_cons_self
    have inner := ih hs fun w hw => hm w (.tail _ hw)
    obtain ⟨c, front, start⟩ := front_dotted hs more
    have apart : Off sticks (".".toList ++ ((".".intercalate (second :: more)).toList ++ rest)) :=
      off_cons not_sticks_point _
    rw [String.intercalate_cons_cons]
    exact (((reads_spelled hf.spells nofun rfl (off_glues_of_apart apart)).append
      (reads_op (by decide) (opEnds_point front start) (by decide))).append inner).of_eq (by simp [dottedKinds])

theorem IsDottedName.front {s : String} (h : IsDottedName s) :
    ∃ c, s.toList.head? = some c ∧ isNameStart c = true := by
  obtain ⟨first, more, hf, -, rfl⟩ := h
  exact front_dotted hf more

theorem IsDottedName.exists_kinds {s : String} (h : IsDottedName s) : ∃ first more, IsIdentifier first ∧
    s = ".".intercalate (first :: more) ∧ textKinds s = dottedKinds first more ∧ Legible s (textKinds s) := by
  obtain ⟨first, more, hf, hm, rfl⟩ := h
  have front : Front (".".intercalate (first :: more)) := by
    cases more with
    | nil =>
      rw [String.intercalate_singleton]
      exact hf.spells.isFront nofun
    | cons second more =>
      rw [String.intercalate_cons_cons]
      exact (hf.spells.isFront nofun).append.append
  have kinds : textKinds (".".intercalate (first :: more)) = dottedKinds first more := by
    have reads : Scan.reader.Reads 0 _ _ 0 [] := reads_dotted hf hm (off_nil _)
    obtain ⟨c, u, chars, apart⟩ := hf.spells.front nofun
    have whole : ∃ v, (".".intercalate (first :: more)).toList = c :: v := by
      cases more with
      | nil => exact ⟨u, by rw [String.intercalate_singleton, chars]⟩
      | cons second more => exact ⟨_, by simp only [String.intercalate_cons_cons, String.toList_append, chars]; rfl⟩
    obtain ⟨v, whole⟩ := whole
    have known : [' ', '\t', '\x0c', '\n', '\r', '#'] ⊆
        [' ', '\t', '\x0c', '\n', '\r', '#', '=', '>', '*'] := by decide
    exact Scan.Reads.textKinds reads whole fun member => apart (known member)
  refine ⟨first, more, hf, rfl, kinds, front, fun rest ends => ?_⟩
  rw [kinds]
  exact reads_dotted (R := shownReader) hf hm ends

/-- Two points in a row, which are no part of three. -/
theorem shows_twoPoints (off : OpEnds "." rest) : Shows [] "." [op "."] [] ('.' :: rest) := by
  have found : operatorAt? ('.' :: '.' :: rest) = some "." := by
    cases rest with
    | nil => decide
    | cons d rest =>
      have other : d ≠ '.' := by
        rintro rfl
        exact (off '.' rfl).1 (by decide)
      simp [operatorAt?, operators, other.symm]
  refine Shows.of_lexeme (c := '.') (u := []) rfl ?_ (by simp) (by simp)
  have known : (".").toList = ['.'] := rfl
  rw [List.nil_append, lexeme_symbol (by decide) known (by simp), found]
  rfl

theorem shows_points : ∀ level : Nat, OpEnds "." rest →
    Shows [] (.ofList (List.replicate level '.')) (pointKinds level) [] rest
  | 0, _ => ⟨rfl, nofun⟩
  | 1, off => reads_op (R := shownReader) (by decide) off (by decide)
  | 2, off => Shows.append (shows_twoPoints off) (reads_op (R := shownReader) (by decide) off (by decide))
  | level + 3, off => by
    have text : String.ofList (List.replicate (level + 3) '.') =
        "..." ++ .ofList (List.replicate level '.') := by
      rw [Nat.add_comm, List.replicate_add, String.ofList_append]
      rfl
    have kinds : pointKinds (level + 3) = [op "..."] ++ pointKinds level := by
      simp [pointKinds, Nat.add_div_right, List.replicate_succ]
    rw [text, kinds]
    exact Shows.append (reads_op (R := shownReader) (by decide) (opEnds_of_noTails (by decide) (by decide))
      (by decide)) (shows_points level off)

end Points

/-! Reading. -/

section Reading

variable {rest : List Char} {a : Alias} {s : String}

/-- The text of something imported may end here. -/
def Closes (rest : List Char) : Prop := ∀ c ∈ rest.head?, c ∈ [' ', ',', '\n']

theorem Closes.ended (h : Closes rest) : Ended rest := by
  cases rest with
  | nil => exact off_nil _
  | cons c rest =>
    have known : [' ', ',', '\n'] ⊆ endMarks := by decide
    have apart : Ended ((String.singleton c).toList ++ rest) := ended_append (by simp) (known (h c rfl))
    simpa using apart

theorem textKinds_star : textKinds "*" = [op "*"] := by decide +kernel

/-- A name with points, or everything. -/
theorem reads_imported (h : IsDottedName s ∨ s = "*") (closes : Closes rest) :
    Shows [] s (textKinds s) [] rest := by
  rcases h with dotted | rfl
  · obtain ⟨first, more, -, -, -, legible⟩ := dotted.exists_kinds
    exact legible.reads closes.ended
  · rw [textKinds_star]
    refine reads_op (R := shownReader) (by decide) (fun c hc => ⟨fun tail => ?_, nofun⟩) (by decide)
    have tails : opTails "*" = ['*', '*', '='] := by decide
    rw [tails] at tail
    have apart : ∀ c ∈ [' ', ',', '\n'], c ∉ ['*', '*', '='] := by simp
    exact apart c (closes c hc) tail

theorem Alias.Formed.reads (h : a.Formed) (closes : Closes rest) : Shows [] a.text a.kinds [] rest := by
  obtain ⟨whole, asName⟩ := a
  cases asName with
  | none => exact (reads_imported h.name closes).append (isRead_empty closes.ended)
  | some id =>
    refine (reads_imported h.name fun c hc => ?_).append ((trails_bound h.asName).reads closes.ended)
    have first : ((optionalName " as " (some id)).toList ++ rest).head? = some ' ' := by simp [optionalName]
    cases first.symm.trans hc
    decide

/-- Where something is imported from. -/
theorem reads_module {module : Option String} (h : ∀ s ∈ module, IsDottedName s) (level : Nat) :
    Shows [] (.ofList (List.replicate level '.') ++ module.getD "")
      (pointKinds level ++ textKinds (module.getD "")) [] (" import ".toList ++ rest) := by
  cases module with
  | none =>
    have off : OpEnds "." (" import ".toList ++ rest) := by
      rintro c ⟨⟩
      exact ⟨by decide, fun _ => by decide⟩
    have none : textKinds "" = [] := by decide +kernel
    exact Shows.append (shows_points level off) (none ▸ isRead_empty ended_blank)
  | some s =>
    have dotted := h s rfl
    obtain ⟨c, front, start⟩ := dotted.front
    exact Shows.append (shows_points level (opEnds_point front start))
      (reads_imported (.inl dotted) fun c hc => by cases hc; decide)

/-- What is imported, up to the end of the line. -/
theorem reads_aliases {names : List Alias} (h : ∀ a ∈ names, a.Formed) (ends : LineEnds rest) :
    Shows [] (commaJoined (names.map Alias.text)) (commaKinds (names.map Alias.kinds)) [] rest := by
  have apart : ∀ rest, Closes (", ".toList ++ rest) := by
    rintro rest c ⟨⟩
    decide
  refine reads_commaJoined (R := shownReader) apart (readsAll_map fun a ha _ closes => (h a ha).reads closes) ?_
  intro c hc
  rw [ends c hc]
  decide

end Reading

/-! Cutting. -/

section Cutting

variable {K K' : List TokenKind} {s s' : String} {a a' : Alias}

/-- The token stands for one point or for three. -/
def TokenKind.isPoint (k : TokenKind) : Bool := k == op "..." || k == op "."

theorem count_pointKinds (level : Nat) :
    3 * (pointKinds level).count (op "...") + (pointKinds level).count (op ".") = level := by
  have apart : (op "." == op "...") = false ∧ (op "..." == op ".") = false := by decide
  simp only [pointKinds, List.count_append, List.count_replicate, beq_self_eq_true, apart, if_true,
    Bool.false_eq_true, if_false]
  omega

theorem cut_points {level level' : Nat} (other : (headOf K).isPoint = false) (other' : (headOf K').isPoint = false)
    (same : pointKinds level ++ K = pointKinds level' ++ K') : level = level' ∧ K = K' := by
  have inside : ∀ level, ∀ k ∈ pointKinds level, k.isPoint = true := by
    intro level k hk
    rcases List.mem_append.1 hk with hk | hk <;> rw [List.eq_of_mem_replicate hk] <;> rfl
  have stop : ∀ {K}, (headOf K).isPoint = false → ∀ k ∈ K.head?, k.isPoint = false := by
    rintro (_ | ⟨k, K⟩) other _ ⟨⟩
    exact other
  obtain ⟨points, left⟩ := cut_while (inside level) (inside level') (stop other) (stop other') same
  exact ⟨by rw [← count_pointKinds level, points, count_pointKinds], left⟩

theorem cut_dotted (h : IsDottedName s) (h' : IsDottedName s') :
    Cut textKinds (fun K => headOf K ≠ op ".") s s' := by
  obtain ⟨first, more, -, rfl, kinds, -⟩ := h.exists_kinds
  obtain ⟨first', more', -, rfl, kinds', -⟩ := h'.exists_kinds
  intro K K' last last' same
  rw [kinds, kinds', dottedKinds, dottedKinds, List.cons_append, List.cons_append, List.cons.injEq,
    TokenKind.name.injEq] at same
  obtain ⟨rfl, rest⟩ := same
  obtain ⟨rfl, left⟩ := cut_attributes last last' rest
  exact ⟨rfl, left⟩

theorem cut_imported (h : IsDottedName s ∨ s = "*") (h' : IsDottedName s' ∨ s' = "*") :
    Cut textKinds (fun K => headOf K ≠ op ".") s s' := by
  have apart : ∀ {s : String} {K K'}, IsDottedName s → textKinds s ++ K ≠ textKinds "*" ++ K' := by
    intro s K K' h same
    obtain ⟨first, more, -, -, kinds, -⟩ := h.exists_kinds
    rw [kinds, textKinds_star] at same
    cases congrArg headOf same
  rcases h with dotted | rfl
  · rcases h' with dotted' | rfl
    · exact cut_dotted dotted dotted'
    · exact fun K K' _ _ same => absurd same (apart dotted)
  · rcases h' with dotted' | rfl
    · exact fun K K' _ _ same => absurd same.symm (apart dotted')
    · exact fun K K' _ _ same => ⟨rfl, List.append_cancel_left same⟩

theorem Alias.Formed.cut (h : a.Formed) (h' : a'.Formed) :
    Cut Alias.kinds (fun K => headOf K ≠ op "." ∧ headOf K ≠ .name "as") a a' := by
  intro K K' last last' same
  obtain ⟨whole, asName⟩ := a
  obtain ⟨whole', asName'⟩ := a'
  have point : ∀ {o : Option String} {K}, headOf K ≠ op "." → headOf (boundKinds o ++ K) ≠ op "." := by
    intro o K last
    cases o with
    | none => exact last
    | some id => simp [boundKinds]
  simp only [Alias.kinds, List.append_assoc] at same
  obtain ⟨rfl, rest⟩ := cut_imported h.name h'.name (point last.1) (point last'.1) same
  obtain ⟨rfl, left⟩ := cut_bound last.2 last'.2 rest
  exact ⟨rfl, left⟩

/-- What is imported, up to the end of the line. -/
theorem cut_aliases {names names' : List Alias} (h : ∀ a ∈ names, a.Formed) (h' : ∀ a ∈ names', a.Formed)
    (same : commaKinds (names.map Alias.kinds) = commaKinds (names'.map Alias.kinds)) : names = names' := by
  have front : ∀ {a : Alias} {K}, a.Formed → headOf (a.kinds ++ K) ∉ [TokenKind.endMarker] := by
    intro a K h
    rw [Alias.kinds]
    rcases h.name with dotted | star
    · obtain ⟨first, more, -, -, kinds, -⟩ := dotted.exists_kinds
      rw [kinds]
      simp [dottedKinds]
    · rw [star, textKinds_star]
      simp
  refine (cut_commas [.endMarker] (fun a ha b hb => (h a ha).cut (h' b hb))
    (fun a ha K => front (ha.elim (h a) (h' a))) (by simp) (fun K last => ?_) (by simp) (by simp) (by simp)
    (closed_eq same)).1
  rw [List.mem_singleton.1 last]
  exact ⟨nofun, nofun⟩

end Cutting

end Arbiter.Syntax
