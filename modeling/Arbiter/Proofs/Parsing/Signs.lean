import Arbiter.Proofs.Parsing.Plain
import Arbiter.Proofs.Parsing.Scanning

/-! The words and signs between expressions, and what may follow an expression so that its last token is
the one that it was. -/

namespace Arbiter.Syntax

open TokenKind (op name)

/-! What may follow a text. -/

/-- The characters that go on with a word, a string or an operator. -/
def sticks (c : Char) : Bool := isNameChar c || c == '"' || c == '\'' || c == '='

theorem not_sticks_point : sticks '.' = false := by
  rw [sticks, isNameChar_ascii (by decide)]
  decide

/-- An expression may end here. -/
def Ended (rest : List Char) : Prop := Off (fun c => sticks c || c == '.') rest

/-- The expression may end here; a point may follow one that binds tightest and does not take it. -/
structure Expr.Ends (e : Expr) (rest : List Char) : Prop where
  apart : Off sticks rest
  point : rest.head? = some '.' → e.strength = Strength.atom ∧ e.takesPoint = false

section Ends

variable {e : Expr} {rest : List Char} {a : String} {c : Char}

theorem Ended.apart (h : Ended rest) : Off sticks rest := h.mono fun c hc => by simp [hc]

theorem Ended.ends (h : Ended rest) : e.Ends rest := by
  refine ⟨h.apart, fun point => ?_⟩
  have none := h '.' point
  simp at none

theorem Expr.Ends.ended (h : e.Ends rest) (loose : e.strength < Strength.atom) : Ended rest := by
  intro c hc
  have apart := h.apart c hc
  have point : c ≠ '.' := by
    rintro rfl
    exact Nat.ne_of_lt loose (h.point hc).1
  simp [apart, point]

/-- Characters that may stand right behind an expression. -/
def endMarks : List Char := [' ', '(', '[', ')', ']', '\x7d', ',', ':', '!', '\n']

theorem ended_append (first : a.toList.head? = some c)
    (h : c ∈ endMarks) : Ended (a.toList ++ rest) := by
  have none : (sticks c || c == '.') = false := by
    have known : endMarks.all (fun c => decide (c.toNat < 0xAA ∧
        (c == '_' || c.isAlpha || c.isDigit || c == '"' || c == '\'' || c == '=' || c == '.') =
          false)) = true := by decide
    obtain ⟨low, apart⟩ := of_decide_eq_true (List.all_eq_true.1 known c h)
    unfold sticks
    rw [isNameChar_ascii low]
    exact apart
  intro d hd
  rw [List.head?_append, first] at hd
  cases hd
  exact none

theorem off_glues_of_apart {id : String} (h : Off sticks rest) : Off (name id).glues rest :=
  h.mono fun c hc => by
    simp only [TokenKind.glues, Bool.or_false] at hc
    simp only [sticks, hc, Bool.true_or]

theorem opEnds_append {s : String} (first : a.toList.head? = some c) (apart : c ∉ opTails s)
    (other : s ≠ ".") : OpEnds s (a.toList ++ rest) := by
  intro d hd
  rw [List.head?_append, first] at hd
  cases hd
  exact ⟨apart, fun same => absurd same other⟩

/-- The text begins with no blank and with no character that goes on with an operator before it. -/
def Front (a : String) : Prop := ∃ c, a.toList.head? = some c ∧ c ∉ [' ', '=', '>', '*']

theorem Front.append {b : String} (h : Front a) : Front (a ++ b) := by
  obtain ⟨c, first, other⟩ := h
  refine ⟨c, ?_, other⟩
  rw [String.toList_append, List.head?_append, first]
  rfl

theorem Front.opEnds {s : String} (h : Front a) (tails : opTails s ⊆ ['=', '>', '*'])
    (other : s ≠ ".") : OpEnds s (a.toList ++ rest) := by
  obtain ⟨c, first, apart⟩ := h
  exact opEnds_append first (fun tail => apart (.tail _ (tails tail))) other

theorem Spells.isFront {k : TokenKind} (h : Spells a k) (word : ∀ symbol, k ≠ op symbol) :
    Front a := by
  obtain ⟨c, u, chars, apart⟩ := h.front word
  have known : [' ', '=', '>', '*'] ⊆ [' ', '\t', '\x0c', '\n', '\r', '#', '=', '>', '*'] := by decide
  exact ⟨c, by rw [chars]; rfl, fun member => apart (known member)⟩

end Ends

/-! Words and signs between expressions. -/

section Signs

variable {R : Reader} {σ : R.State} {rest : List Char} {s w : String}

/-- The words of the grammar. -/
def grammarWords : List String := [
  "if", "else", "for", "in", "async", "lambda", "not", "await", "yield", "from", "and", "or", "is",
  "True", "False", "None", "as", "def", "class", "return", "del", "while", "with", "raise", "try",
  "except", "finally", "assert", "import", "global", "nonlocal", "match", "case", "pass", "break",
  "continue"]

theorem spells_word (h : w ∈ grammarWords) : Spells w (.name w) := by
  have known : w.toList ≠ [] ∧ w.toList.all Char.isAlpha = true ∧ isStringMark w = false := by
    revert w
    decide +kernel
  exact spells_of_letters known.1 (List.all_eq_true.1 known.2.1) known.2.2

theorem reads_word (h : w ∈ grammarWords) (off : Off sticks rest) : R.Reads σ w [name w] σ rest :=
  reads_spelled (spells_word h) nofun rfl (off_glues_of_apart off)

theorem ended_blank : Ended (" ".toList ++ rest) := ended_append rfl (by decide)

theorem ended_comma : Ended (",".toList ++ rest) := ended_append rfl (by decide)

theorem ended_colon : Ended (":".toList ++ rest) := ended_append rfl (by decide)

theorem ended_colonBlank : Ended (": ".toList ++ rest) := ended_append rfl (by decide)

theorem ended_padded : Ended ((" " ++ w ++ " ").toList ++ rest) := by
  rw [String.append_assoc, String.toList_append, List.append_assoc]
  exact ended_blank

/-- A word with a blank after it. -/
theorem reads_wordBlank (h : w ∈ grammarWords) : R.Reads σ (w ++ " ") [name w] σ rest :=
  (reads_word h ended_blank.apart).append reads_blank

/-- A word with a blank on either side. -/
theorem reads_padded (h : w ∈ grammarWords) : R.Reads σ (" " ++ w ++ " ") [name w] σ rest :=
  (reads_blank.append (reads_word h ended_blank.apart)).append reads_blank

/-- A sign that goes on with what is at the front of an expression. -/
theorem reads_sign {a : String} (h : s ∈ operators)
    (flat : (s ∉ ["(", "[", "\x7b", ")", "]", "\x7d"] ∧ s ∉ [":", ":="]) ∧ s ≠ ".")
    (tails : opTails s ⊆ ['=', '>', '*']) (front : Front a) :
    R.Reads σ s [op s] σ (a.toList ++ rest) :=
  reads_op h (front.opEnds tails flat.2) flat.1

theorem reads_colon {a : String} (free : R.Free σ) (front : Front a) :
    R.Reads σ ":" [op ":"] σ (a.toList ++ rest) :=
  R.symbol (by decide) (front.opEnds (by decide) (by decide)) (by decide) fun _ => free

theorem reads_comma : R.Reads σ "," [op ","] σ rest :=
  reads_op (by decide) (opEnds_of_noTails rfl (by decide)) (by decide)

theorem reads_colonBlank (free : R.Free σ) : R.Reads σ ": " [op ":"] σ rest := by
  have colon : R.Reads σ ":" [op ":"] σ (" ".toList ++ rest) :=
    R.symbol (by decide) (opEnds_append rfl (by decide) (by decide)) (by decide) fun _ => free
  exact colon.append reads_blank

theorem reads_binaryOp (o : BinaryOp) : R.Reads σ o.symbol [op o.symbol] σ (" ".toList ++ rest) := by
  have known : o.symbol ∈ operators ∧ ' ' ∉ opTails o.symbol ∧
      (o.symbol ∉ ["(", "[", "\x7b", ")", "]", "\x7d"] ∧ o.symbol ∉ [":", ":="]) ∧ o.symbol ≠ "." := by
    cases o <;> decide
  exact reads_op known.1 (opEnds_append rfl known.2.1 known.2.2.2) known.2.2.1

theorem reads_compareOp (o : CompareOp) : R.Reads σ o.symbol o.kinds σ (" ".toList ++ rest) := by
  have sign : ∀ s ∈ ["==", "!=", "<", "<=", ">", ">="],
      R.Reads σ s [op s] σ (" ".toList ++ rest) := by
    intro s hs
    have known : s ∈ operators ∧ ' ' ∉ opTails s ∧
        (s ∉ ["(", "[", "\x7b", ")", "]", "\x7d"] ∧ s ∉ [":", ":="]) ∧ s ≠ "." := by
      revert s
      decide
    exact reads_op known.1 (opEnds_append rfl known.2.1 known.2.2.2) known.2.2.1
  have two : ∀ {w v}, w ∈ grammarWords → v ∈ grammarWords →
      R.Reads σ (w ++ " " ++ v) [name w, name v] σ (" ".toList ++ rest) := fun hw hv =>
    (reads_wordBlank hw).append (reads_word hv ended_blank.apart)
  cases o with
  | is => exact reads_word (by decide) ended_blank.apart
  | isIn => exact reads_word (by decide) ended_blank.apart
  | isNot => exact two (w := "is") (v := "not") (by decide) (by decide)
  | notIn => exact two (w := "not") (v := "in") (by decide) (by decide)
  | _ => exact sign _ (by decide)

/-- A text between brackets. -/
theorem reads_brackets {a left right : String} {ks : List TokenKind}
    (opening : left ∈ ["(", "[", "\x7b"]) (closing : right ∈ [")", "]", "\x7d"])
    (h : ∀ {rest}, Ended rest → R.Reads (R.enter σ) a ks (R.enter σ) rest) :
    R.Reads σ (left ++ a ++ right) (op left :: ks ++ [op right]) σ rest := by
  have known : ∀ right ∈ [")", "]", "\x7d"],
      ∃ c ∈ endMarks, right.toList.head? = some c := by
    intro right h
    simp only [List.mem_cons, List.not_mem_nil, or_false] at h
    rcases h with rfl | rfl | rfl
    · exact ⟨')', by decide, rfl⟩
    · exact ⟨']', by decide, rfl⟩
    · exact ⟨'\x7d', by decide, rfl⟩
  obtain ⟨c, member, first⟩ := known right closing
  exact ((R.opening opening).append (h (ended_append first member))).append (R.closing closing)

theorem front_brackets {a left right : String} (opening : left ∈ ["(", "[", "\x7b"]) :
    Front (left ++ a ++ right) := by
  have known : ∀ left ∈ ["(", "[", "\x7b"], ∃ c, left.toList.head? = some c ∧
      c ∉ [' ', '=', '>', '*'] := by
    intro left h
    simp only [List.mem_cons, List.not_mem_nil, or_false] at h
    rcases h with rfl | rfl | rfl
    · exact ⟨'(', rfl, by decide⟩
    · exact ⟨'[', rfl, by decide⟩
    · exact ⟨'\x7b', rfl, by decide⟩
  exact (Front.append (known left opening)).append

/-- Items between commas. -/
theorem reads_commaJoined {P : List Char → Prop} {texts : List String}
    {kinds : List (List TokenKind)} (apart : ∀ rest, P (", ".toList ++ rest))
    (h : ReadsAll σ P texts kinds) (ends : P rest) :
    R.Reads σ (commaJoined texts) (commaKinds kinds) σ rest := by
  cases h with
  | nil => exact reads_empty
  | cons first more =>
    have separates : ∀ rest, R.Reads σ ", " [op ","] σ rest := fun _ => reads_comma.append reads_blank
    exact reads_intercalate apart separates first more ends

theorem reads_items {texts : List String} {kinds : List (List TokenKind)}
    (h : ReadsAll σ Ended texts kinds) (ends : Ended rest) :
    R.Reads σ (commaJoined texts) (commaKinds kinds) σ rest :=
  reads_commaJoined (fun _ => ended_append rfl (by decide)) h ends

theorem reads_tupleText {texts : List String} {kinds : List (List TokenKind)}
    (h : ReadsAll σ Ended texts kinds) (ends : Ended rest) :
    R.Reads σ (tupleText texts) (tupleKinds kinds) σ rest := by
  unfold tupleText tupleKinds
  rw [h.length_eq]
  split
  · exact (reads_items h ended_comma).append reads_comma
  · exact (reads_items h (by simpa using ends)).append reads_empty

end Signs

end Arbiter.Syntax
