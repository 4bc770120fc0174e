import Arbiter.Proofs.Parsing.Kinds
import Arbiter.Proofs.Parsing.Spelling
import Mathlib.Data.List.Forall2

/-! How the lexer goes on inside a line. Each stretch of text is read as tokens of its own, up to a
character that would make its last token longer; stretches put together are read as their tokens put
together. -/

namespace Arbiter.Syntax

open TokenKind (op name)

/-! Operators. -/

/-- The characters that can follow `s` in a longer operator. -/
def opTails (s : String) : List Char :=
  operators.filterMap fun t =>
    if s.toList.isPrefixOf t.toList then (t.toList.drop s.toList.length).head? else none

theorem mem_opTails {s t : String} {c : Char} {cs : List Char} (h : t ∈ operators)
    (same : t.toList = s.toList ++ c :: cs) : c ∈ opTails s := by
  refine List.mem_filterMap.2 ⟨t, h, ?_⟩
  rw [same, if_pos (by simp), List.drop_left]
  rfl

/-- No operator begins with one that stands before it in the list. -/
theorem operators_ordered : operators.Pairwise fun t s => ¬t.toList <+: s.toList := by decide

theorem operatorAt?_append {s : String} (h : s ∈ operators) {rest : List Char}
    (off : ∀ c, rest.head? = some c → c ∉ opTails s) : operatorAt? (s.toList ++ rest) = some s := by
  obtain ⟨before, after, split⟩ := List.append_of_mem h
  refine List.find?_eq_some_iff_append.2 ⟨by simp, before, after, split, fun t ht => ?_⟩
  rw [Bool.not_eq_true', Bool.eq_false_iff]
  intro front
  have earlier : ¬t.toList <+: s.toList := by
    have ordered := operators_ordered
    rw [split, List.pairwise_append] at ordered
    exact ordered.2.2 t ht s List.mem_cons_self
  rcases List.prefix_or_prefix_of_prefix (List.isPrefixOf_iff_prefix.1 front)
    (List.prefix_append _ rest) with short | ⟨longer, same⟩
  · exact earlier short
  · cases longer with
    | nil =>
      rw [List.append_nil] at same
      exact earlier (same ▸ List.prefix_refl _)
    | cons c cs =>
      have member : t ∈ operators := split ▸ List.mem_append_left _ ht
      have next : rest.head? = some c := by
        rw [List.isPrefixOf_iff_prefix, ← same, List.prefix_append_right_inj] at front
        obtain ⟨more, rfl⟩ := front
        rfl
      exact off c next (mem_opTails member same.symm)

/-- The text does not go on with the operator, nor makes a number of a point. -/
def OpEnds (s : String) (rest : List Char) : Prop :=
  ∀ c, rest.head? = some c → c ∉ opTails s ∧ (s = "." → c.isDigit = false)

/-- What the lexer does at a character that begins an operator. -/
theorem lexeme_symbol {s : String} (h : s ∈ operators) {c : Char} {u : List Char}
    (chars : s.toList = c :: u) {r : List Char} (noNumber : ¬(c = '.' ∧ r.head?.any Char.isDigit)) :
    lexeme c r = match operatorAt? (c :: r) with
      | some s => .ok (.token (.op s), s.length - 1)
      | none => .error (.invalidCharacter c, 0) := by
  have symbols : ∀ s ∈ operators, s.toList.head?.all (fun c =>
      decide (c ∉ [' ', '\t', '\x0c', '\r', '#', '\\', '\n', '"', '\''] ∧ c.isDigit = false ∧
        c.toNat < 0xAA ∧ (c == '_' || c.isAlpha) = false)) = true := by decide
  have first := symbols s h
  rw [chars] at first
  obtain ⟨other, digit, low, letter⟩ := of_decide_eq_true first
  have start : isNameStart c = false := (isNameStart_ascii low).trans letter
  simp only [List.mem_cons, List.not_mem_nil, or_false, not_or] at other
  obtain ⟨h1, h2, h3, h4, h5, h6, h7, h8, h9⟩ := other
  cases found : operatorAt? (c :: r) with
  | none =>
    simp only [lexeme, h1, h2, h3, h4, h5, h6, h7, h8, h9, digit, start, noNumber, or_self, if_false,
      Bool.false_eq_true, found]
  | some s =>
    simp only [lexeme, h1, h2, h3, h4, h5, h6, h7, h8, h9, digit, start, noNumber, or_self, if_false,
      Bool.false_eq_true, found]

theorem lexeme_operator {s : String} (h : s ∈ operators) {rest : List Char} (off : OpEnds s rest) :
    ∃ c u, s.toList = c :: u ∧ lexeme c (u ++ rest) = .ok (.token (op s), u.length) := by
  have points : ∀ s ∈ operators,
      s.toList ≠ [] ∧ (s.toList.head? = some '.' → s = "." ∨ s = "...") := by decide
  obtain ⟨c, u, chars⟩ := List.exists_cons_of_ne_nil (points s h).1
  have noNumber : ¬(c = '.' ∧ (u ++ rest).head?.any Char.isDigit = true) := by
    rintro ⟨rfl, digit⟩
    rcases (points s h).2 (by rw [chars]; rfl) with rfl | rfl
    · obtain ⟨-, rfl⟩ := List.cons.inj (chars : ['.'] = '.' :: u)
      cases rest with
      | nil => cases digit
      | cons d rest =>
        have none := (off d rfl).2 rfl
        exact absurd (digit : d.isDigit = true) (by simp [none])
    · obtain ⟨-, rfl⟩ := List.cons.inj (chars : ['.', '.', '.'] = '.' :: u)
      cases digit
  refine ⟨c, u, chars, ?_⟩
  rw [lexeme_symbol h chars noNumber, ← List.cons_append, ← chars,
    operatorAt?_append h fun c hc => (off c hc).1]
  simp [← String.length_toList, chars]

/-! Words and the first characters of tokens. -/

/-- A word that does not mark a string. -/
theorem spells_of_nameChars {w : String} {c : Char} {u : List Char} (chars : w.toList = c :: u)
    (start : isNameStart c = true) (more : ∀ d ∈ u, isNameChar d = true)
    (noMark : isStringMark w = false) : Spells w (.name w) := by
  refine ⟨c, u, chars, fun rest off => ?_⟩
  have word : (u ++ rest).takeWhile isNameChar = u :=
    takeWhile_append_off more ((off_glues off).mono fun d hd => by simp [hd])
  have whole : String.ofList (c :: u) = w := by rw [← chars, String.ofList_toList]
  rw [lexeme_word start]
  unfold wordLexeme
  simp only [word, spelling_append, whole, noMark]

/-- A word of letters that does not mark a string. -/
theorem spells_of_letters {w : String} (some : w.toList ≠ [])
    (letters : ∀ c ∈ w.toList, c.isAlpha = true) (noMark : isStringMark w = false) :
    Spells w (.name w) := by
  obtain ⟨c, u, chars⟩ := List.exists_cons_of_ne_nil some
  refine spells_of_nameChars chars ?_ (fun d hd => ?_) noMark
  · have letter := letters c (by rw [chars]; exact List.mem_cons_self)
    simp [isNameStart, Text.isAlphabetic_of_isAlpha letter]
  · exact isNameChar_of_isAlpha (letters d (by rw [chars]; exact .tail c hd))

/-- A name, a number or a string begins with a character that is no blank and no part of a longer
operator. -/
theorem Spells.front {text : String} {k : TokenKind} (h : Spells text k)
    (word : ∀ symbol, k ≠ op symbol) : ∃ c u, text.toList = c :: u ∧
      c ∉ [' ', '\t', '\x0c', '\n', '\r', '#', '=', '>', '*'] := by
  obtain ⟨c, u, chars, found⟩ := h
  refine ⟨c, u, chars, fun member => ?_⟩
  have found := found [] (off_nil _)
  rw [List.append_nil] at found
  have noBlank : ∀ {l n}, lexeme c u = .ok (l, n) → (∀ k, l ≠ .token k) → False := by
    intro l n blank other
    rw [blank] at found
    exact other k (Prod.mk.inj (Except.ok.inj found)).1
  have noSymbol : ∀ s ∈ operators, s.toList = [c] → c ≠ '.' → False := by
    intro s hs single point
    rw [lexeme_symbol hs single fun number => point number.1] at found
    split at found
    · exact word _ (Lexeme.token.inj (Prod.mk.inj (Except.ok.inj found)).1).symm
    · cases found
  simp only [List.mem_cons, List.not_mem_nil, or_false] at member
  rcases member with rfl | rfl | rfl | rfl | rfl | rfl | rfl | rfl | rfl
  · exact noBlank rfl nofun
  · exact noBlank rfl nofun
  · exact noBlank rfl nofun
  · exact noBlank rfl nofun
  · exact noBlank rfl nofun
  · exact noBlank rfl nofun
  · exact noSymbol "=" (by decide) rfl (by decide)
  · exact noSymbol ">" (by decide) rfl (by decide)
  · exact noSymbol "*" (by decide) rfl (by decide)

/-- The token is a string with fields inside. -/
def TokenKind.hasFields : TokenKind → Bool
  | .string text => (StringPiece.mk text .start).isFString
  | _ => false

/-- A way to read a text inside a line. It is up to the reader what its states say and what becomes of
strings with fields. -/
structure Reader where
  State : Type
  /-- From the first state, the text before the rest is read as the tokens, up to the second state. -/
  Reads : State → String → List TokenKind → State → List Char → Prop
  /-- The state inside of a further bracket. -/
  enter : State → State
  /-- A colon ends nothing. -/
  Free : State → Prop
  free_enter : ∀ σ, Free (enter σ)
  empty : ∀ {σ rest}, Reads σ "" [] σ rest
  append : ∀ {σ σ' σ'' a b ks ls rest}, Reads σ a ks σ' (b.toList ++ rest) → Reads σ' b ls σ'' rest →
    Reads σ (a ++ b) (ks ++ ls) σ'' rest
  blank : ∀ {σ rest}, Reads σ " " [] σ rest
  /-- A name, a number or a string without fields. -/
  token : ∀ {σ rest a k c u}, a.toList = c :: u → lexeme c (u ++ rest) = .ok (.token k, u.length) →
    (∀ symbol, k ≠ op symbol) → k.hasFields = false → Reads σ a [k] σ rest
  symbol : ∀ {σ rest s}, s ∈ operators → OpEnds s rest → s ∉ ["(", "[", "\x7b", ")", "]", "\x7d"] →
    (s ∈ [":", ":="] → Free σ) → Reads σ s [op s] σ rest
  opening : ∀ {σ rest s}, s ∈ ["(", "[", "\x7b"] → Reads σ s [op s] (enter σ) rest
  closing : ∀ {σ rest s}, s ∈ [")", "]", "\x7d"] → Reads (enter σ) s [op s] σ rest

section Reading

variable {R : Reader} {σ σ' σ'' : R.State} {a b : String} {ks ls : List TokenKind} {rest : List Char}

theorem Reader.Reads.append (ha : R.Reads σ a ks σ' (b.toList ++ rest)) (hb : R.Reads σ' b ls σ'' rest) :
    R.Reads σ (a ++ b) (ks ++ ls) σ'' rest :=
  Reader.append R ha hb

theorem Reader.Reads.of_eq (h : R.Reads σ a ks σ' rest) (same : ks = ls) : R.Reads σ a ls σ' rest :=
  same ▸ h

theorem reads_empty : R.Reads σ "" [] σ rest := R.empty

theorem reads_blank : R.Reads σ " " [] σ rest := R.blank

/-- A name, a number or a string. -/
theorem reads_spelled {k : TokenKind} (h : Spells a k) (word : ∀ symbol, k ≠ op symbol)
    (plain : k.hasFields = false) (off : Off k.glues rest) : R.Reads σ a [k] σ rest := by
  obtain ⟨c, u, chars, found⟩ := h
  exact R.token chars (found rest off) word plain

/-- An operator that is neither a bracket nor a colon. -/
theorem reads_op {s : String} (h : s ∈ operators) (off : OpEnds s rest)
    (flat : s ∉ ["(", "[", "\x7b", ")", "]", "\x7d"] ∧ s ∉ [":", ":="]) : R.Reads σ s [op s] σ rest :=
  R.symbol h off flat.1 fun colon => absurd colon flat.2

theorem opEnds_of_noTails {s : String} (h : opTails s = []) (other : s ≠ ".") : OpEnds s rest := by
  intro c _
  rw [h]
  exact ⟨List.not_mem_nil, fun same => absurd same other⟩

/-- The texts are read as the token lists, one by one, before whatever `P` holds of. -/
abbrev ReadsAll (σ : R.State) (P : List Char → Prop) (texts : List String)
    (kinds : List (List TokenKind)) : Prop :=
  List.Forall₂ (fun a ks => ∀ rest, P rest → R.Reads σ a ks σ rest) texts kinds

theorem readsAll_map {α : Type} {P : List Char → Prop} {text : α → String}
    {kinds : α → List TokenKind} {xs : List α}
    (h : ∀ x ∈ xs, ∀ rest, P rest → R.Reads σ (text x) (kinds x) σ rest) :
    ReadsAll σ P (xs.map text) (xs.map kinds) := by
  rw [ReadsAll, List.forall₂_map_left_iff, List.forall₂_map_right_iff, List.forall₂_same]
  exact h

/-- Texts between separators. -/
theorem reads_intercalate {sep : String} {between : List TokenKind} {P : List Char → Prop}
    (apart : ∀ rest, P (sep.toList ++ rest)) (separates : ∀ rest, R.Reads σ sep between σ rest)
    {texts : List String} {kinds : List (List TokenKind)}
    (first : ∀ rest, P rest → R.Reads σ a ks σ rest) (more : ReadsAll σ P texts kinds) (ends : P rest) :
    R.Reads σ (sep.intercalate (a :: texts)) (ks ++ kinds.flatMap (between ++ ·)) σ rest := by
  induction more generalizing a ks with
  | nil => simpa using first rest ends
  | cons second more ih =>
    rw [String.intercalate_cons_cons]
    exact (((first _ (apart _)).append (separates _)).append (ih second)).of_eq (by simp)

end Reading

/-! The lexer as a reader. -/

namespace Scan

/-- Inside a line and `d` brackets, the text `a` before `rest` is read as the tokens `ks`, up to inside
`d'` brackets. -/
structure Reads (d : Nat) (a : String) (ks : List TokenKind) (d' : Nat) (rest : List Char) : Prop where
  short : ks.length ≤ a.length
  runs : ∀ s : Scan, s.lineStart = false → s.depth = d → s.rest = a.toList ++ rest →
    ∃ t : Scan, s.run = t.run ∧ t.lineStart = false ∧ t.depth = d' ∧ t.rest = rest ∧
      t.indents = s.indents ∧ t.tokens.map (·.kind) = ks.reverse ++ s.tokens.map (·.kind)

variable {d d' d'' : Nat} {a b : String} {ks ls : List TokenKind} {rest : List Char}

theorem Reads.append (ha : Reads d a ks d' (b.toList ++ rest)) (hb : Reads d' b ls d'' rest) :
    Reads d (a ++ b) (ks ++ ls) d'' rest := by
  refine ⟨?_, fun s start depth chars => ?_⟩
  · have := ha.short
    have := hb.short
    rw [List.length_append, String.length_append]
    omega
  · rw [String.toList_append, List.append_assoc] at chars
    obtain ⟨t, run, start, depth, chars, indents, tokens⟩ := ha.runs s start depth chars
    obtain ⟨u, run', start, depth, chars, indents', tokens'⟩ := hb.runs t start depth chars
    refine ⟨u, run.trans run', start, depth, chars, indents'.trans indents, ?_⟩
    rw [tokens', tokens, List.reverse_append, List.append_assoc]

theorem reads_nothing : Reads d "" [] d rest :=
  ⟨Nat.le_refl 0, fun s start depth chars => ⟨s, rfl, start, depth, chars, rfl, rfl⟩⟩

theorem reads_space : Reads d " " [] d rest := by
  refine ⟨Nat.zero_le _, fun s start depth chars => ?_⟩
  refine ⟨s.skip 1, ?_, start, depth, ?_, rfl, rfl⟩
  · rw [run_readLexeme start chars]
    rfl
  · rw [rest_skip, chars]
    rfl

/-- One token, which leaves the number of open brackets to `depthAfter`. -/
theorem reads_token {k : TokenKind} {c : Char} {u : List Char} (chars : a.toList = c :: u)
    (found : lexeme c (u ++ rest) = .ok (.token k, u.length))
    (brackets : ∀ s : Scan, s.depth = d → s.depthAfter k = .ok d') : Reads d a [k] d' rest := by
  have long : a.length = u.length + 1 := by rw [← String.length_toList, chars, List.length_cons]
  refine ⟨by rw [long]; exact Nat.succ_le_succ (Nat.zero_le _), fun s start depth front => ?_⟩
  rw [chars] at front
  refine ⟨{ s.skip (u.length + 1) with depth := d', tokens := ⟨k, s.pos⟩ :: s.tokens }, ?_, start, rfl,
    ?_, rfl, rfl⟩
  · rw [run_readLexeme start front, readLexeme, List.append_eq, found]
    show (s.take u.length (.token k)) >>= Scan.run = _
    rw [take, brackets s depth]
    rfl
  · show s.rest.drop (u.length + 1) = rest
    rw [front]
    simp

theorem depthAfter_flat (s : Scan) {k : TokenKind}
    (h : ∀ b ∈ ["(", "[", "\x7b", ")", "]", "\x7d"], k ≠ op b) : s.depthAfter k = .ok s.depth := by
  have opening : ¬(k = op "(" ∨ k = op "[" ∨ k = op "\x7b") := by
    rintro (same | same | same)
    · exact h "(" (by decide) same
    · exact h "[" (by decide) same
    · exact h "\x7b" (by decide) same
  have closing : [")", "]", "\x7d"].find? (k = .op ·) = none := by
    rw [List.find?_eq_none]
    intro b hb
    simpa using h b (List.mem_append_right ["(", "[", "\x7b"] hb)
  unfold depthAfter
  rw [if_neg opening, closing]

theorem reads_open {s : String} (h : s ∈ ["(", "[", "\x7b"]) : Reads d s [op s] (d + 1) rest := by
  have known : s ∈ operators ∧ opTails s = [] ∧ s ≠ "." := by
    revert s
    decide
  obtain ⟨c, u, chars, found⟩ := lexeme_operator known.1 (opEnds_of_noTails known.2.1 known.2.2)
  refine reads_token chars found fun s' depth => ?_
  unfold depthAfter
  rw [if_pos (by simpa using h), depth]

theorem reads_close {s : String} (h : s ∈ [")", "]", "\x7d"]) : Reads (d + 1) s [op s] d rest := by
  have known : s ∈ operators ∧ opTails s = [] ∧ s ≠ "." ∧
      ¬(op s = op "(" ∨ op s = op "[" ∨ op s = op "\x7b") ∧
      [")", "]", "\x7d"].find? (op s = .op ·) = some s := by
    revert s
    decide
  obtain ⟨member, tails, other, closing, self⟩ := known
  obtain ⟨c, u, chars, found⟩ := lexeme_operator member (opEnds_of_noTails tails other)
  refine reads_token chars found fun s' depth => ?_
  unfold depthAfter
  rw [if_neg closing, self]
  show (if s'.depth = 0 then _ else _) = _
  rw [depth, if_neg (Nat.succ_ne_zero d)]
  rfl

abbrev reader : Reader where
  State := Nat
  Reads := Reads
  enter := Nat.succ
  Free _ := True
  free_enter _ := trivial
  empty := reads_nothing
  append := Reads.append
  blank := reads_space
  token chars found word _ := reads_token chars found fun s depth => by
    rw [depthAfter_flat s fun b _ => word b, depth]
  symbol h off flat _ := by
    obtain ⟨c, u, chars, found⟩ := lexeme_operator h off
    refine reads_token chars found fun s' depth => ?_
    rw [depthAfter_flat s', depth]
    rintro b hb ⟨⟩
    exact flat hb
  opening := reads_open
  closing := reads_close

/-- Reading begins inside the first line if that begins with a token. -/
theorem run_start {source : String} {c : Char} {u : List Char} (chars : source.toList = c :: u)
    (h : c ∉ [' ', '\t', '\x0c', '\n', '\r', '#']) :
    (Scan.start source).run = { Scan.start source with lineStart := false }.run := by
  simp only [List.mem_cons, List.not_mem_nil, or_false, not_or] at h
  obtain ⟨h1, h2, h3, h4, h5, h6⟩ := h
  have blanks : (Scan.start source).rest.takeWhile (fun c => c = ' ' || c = '\t' || c = '\x0c') =
      [] := by
    rw [Scan.start, chars, List.takeWhile_cons_of_neg (by simp [h1, h2, h3])]
  have front : ((Scan.start source).skip 0).rest = c :: u := chars
  rw [run_startLine rfl]
  unfold startLine
  simp only [blanks, List.length_nil]
  rw [front]
  split
  · rename_i same
    cases same
  · rename_i same
    exact absurd (List.cons.inj same).1 h4
  · rename_i same
    exact absurd (List.cons.inj same).1 h5
  · rename_i same
    exact absurd (List.cons.inj same).1 h6
  · rfl

theorem Reads.textKinds (h : Reads 0 a ks 0 []) {c : Char} {u : List Char} (chars : a.toList = c :: u)
    (first : c ∉ [' ', '\t', '\x0c', '\n', '\r', '#']) : textKinds a = ks := by
  obtain ⟨t, run, start, -, rest, -, tokens⟩ :=
    h.runs { Scan.start a with lineStart := false } rfl rfl (by rw [List.append_nil]; rfl)
  unfold Syntax.textKinds
  rw [run_start chars first, run, run_end start rest]
  show t.tokens.reverse.map (·.kind) = ks
  rw [List.map_reverse, tokens]
  simp [Scan.start]

end Scan

end Arbiter.Syntax
