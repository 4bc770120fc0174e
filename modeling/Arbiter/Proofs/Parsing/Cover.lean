import Arbiter.Proofs.Parsing.Spelling
import Mathlib.Data.List.Induction

/-! All of a source is in its tokens or between them. Main statement: the texts of the tokens, in order
and with nothing but blanks, line breaks and comments between them, are the source, and each token is
placed where its text begins. -/

namespace Arbiter.Syntax

/-- The place behind the characters `cs`, which are all that stands before it. -/
def Position.behind (cs : List Char) : Position :=
  ⟨1 + cs.count '\n', (cs.reverse.takeWhile (· != '\n')).length⟩

theorem Position.advance_start (cs : List Char) : start.advance cs = behind cs := by
  induction cs using List.reverseRecOn with
  | nil => rfl
  | append_singleton cs c ih =>
    rw [advance_append, ih]
    by_cases feed : c = '\n'
    · simp [feed, step, behind, Nat.add_assoc]
    · simp [feed, step, behind]

/-- The text that stands in the source for a token, if any does. -/
def TokenKind.text? : TokenKind → Option String
  | name text | number text | string text | op text => some text
  | _ => none

def Token.isWritten (t : Token) : Bool := t.kind.text?.isSome

/-- The text `rest`, which stands behind `before`, is that of the tokens with gaps between them. -/
inductive Covers : List Char → List Char → List Token → Prop
  | done {before : List Char} : Covers before [] []
  | blank {before rest : List Char} {c : Char} {ts : List Token}
    (isBlank : c ∈ [' ', '\t', '\x0c', '\r', '\n']) (after : Covers (before ++ [c]) rest ts) :
    Covers before (c :: rest) ts
  /-- A comment goes on to the end of the line. -/
  | comment {before body rest : List Char} {ts : List Token} (line : '\n' ∉ body)
    (ends : rest = [] ∨ ∃ r, rest = '\n' :: r) (after : Covers (before ++ '#' :: body) rest ts) :
    Covers before ('#' :: body ++ rest) ts
  /-- A backslash hides a line break. -/
  | hidden {before lineEnd rest : List Char} {ts : List Token}
    (isEnd : lineEnd = ['\n'] ∨ lineEnd = ['\r', '\n'])
    (after : Covers (before ++ '\\' :: lineEnd) rest ts) : Covers before ('\\' :: lineEnd ++ rest) ts
  | token {before rest : List Char} {t : Token} {text : String} {ts : List Token}
    (written : t.kind.text? = some text) (place : t.pos = .behind before)
    (after : Covers (before ++ text.toList) rest ts) : Covers before (text.toList ++ rest) (t :: ts)

/-- Between tokens, `gap` may stand before `rest`. -/
def IsGap (gap rest : List Char) : Prop :=
  ∀ before ts, Covers (before ++ gap) rest ts → Covers before (gap ++ rest) ts

section Gaps

variable {gap more rest : List Char}

theorem isGap_nil : IsGap [] rest := fun before ts after => by rwa [List.append_nil] at after

theorem IsGap.append (h : IsGap gap (more ++ rest)) (h' : IsGap more rest) : IsGap (gap ++ more) rest := by
  intro before ts after
  rw [← List.append_assoc] at after
  rw [List.append_assoc]
  exact h before ts (h' _ ts after)

theorem isGap_blank {c : Char} (h : c ∈ [' ', '\t', '\x0c', '\r', '\n']) : IsGap [c] rest :=
  fun _ _ => .blank h

theorem isGap_blanks (h : ∀ c ∈ gap, c ∈ [' ', '\t', '\x0c', '\r', '\n']) : IsGap gap rest := by
  induction gap with
  | nil => exact isGap_nil
  | cons c gap ih =>
    obtain ⟨first, others⟩ := List.forall_mem_cons.1 h
    exact (isGap_blank first).append (ih others)

/-- What is left behind a comment that is as long as it can be. -/
theorem line_ends (r : List Char) : r.drop (r.takeWhile (· != '\n')).length = [] ∨
    ∃ s, r.drop (r.takeWhile (· != '\n')).length = '\n' :: s := by
  have off := off_takeWhile_drop (· != '\n') r
  cases left : r.drop (r.takeWhile (· != '\n')).length with
  | nil => exact .inl rfl
  | cons c s =>
    have feed : c = '\n' := by simpa using off c (by rw [left]; rfl)
    exact .inr ⟨s, by rw [feed]⟩

theorem isGap_comment (r : List Char) :
    IsGap ('#' :: r.takeWhile (· != '\n')) (r.drop (r.takeWhile (· != '\n')).length) := by
  refine fun before ts => .comment (fun feed => ?_) (line_ends r)
  have := mem_takeWhile feed
  simp at this

/-- A comment with the line break behind it, if there is one. -/
theorem isGap_commentLine {body left : List Char} (comment : IsGap ('#' :: body) left)
    (ends : left = [] ∨ ∃ r, left = '\n' :: r) :
    IsGap (('#' :: (body ++ left)).take (body.length + 1 + left.length.min 1))
      (('#' :: (body ++ left)).drop (body.length + 1 + left.length.min 1)) := by
  rcases ends with rfl | ⟨r, rfl⟩
  · simpa using comment
  · have line : IsGap ('#' :: body ++ ['\n']) r := comment.append (isGap_blank (by decide))
    have long : body.length + 1 + ('\n' :: r).length.min 1 = ('#' :: body ++ ['\n']).length := by
      simp
    have split : '#' :: (body ++ '\n' :: r) = ('#' :: body ++ ['\n']) ++ r := by simp
    rwa [split, long, List.take_left, List.drop_left]

end Gaps

/-! What the lexer finds at the front of a text. -/

/-- What the lexer can find at the front of a text, and how many characters it takes after the first. -/
inductive Found : Char → List Char → Lexeme → Nat → Prop
  | blank {c : Char} {r : List Char} (isBlank : c ∈ [' ', '\t', '\x0c', '\r']) : Found c r .space 0
  | comment (r : List Char) : Found '#' r .space (r.takeWhile (· != '\n')).length
  | hidden (r : List Char) : Found '\\' ('\n' :: r) .space 1
  | hiddenReturn (r : List Char) : Found '\\' ('\r' :: '\n' :: r) .space 2
  | lineBreak (r : List Char) : Found '\n' r .lineBreak 0
  | token {c : Char} {r : List Char} {k : TokenKind} {n : Nat}
    (text : k.text? = some (spelling c r n)) : Found c r (.token k) n

theorem toList_of_operatorAt {c : Char} {r : List Char} {s : String}
    (h : operatorAt? (c :: r) = some s) : s.toList = c :: r.take (s.length - 1) := by
  have front : s.toList <+: c :: r := by simpa using List.find?_some h
  have known : ∀ s ∈ operators, s.toList ≠ [] := by decide
  obtain ⟨d, u, chars⟩ := List.exists_cons_of_ne_nil (known s (List.mem_of_find?_eq_some h))
  rw [chars] at front
  obtain ⟨rfl, others⟩ := List.cons_prefix_cons.1 front
  rw [← String.length_toList, chars, List.length_cons, Nat.add_sub_cancel,
    ← List.prefix_iff_eq_take.1 others]

theorem found_of_word {c : Char} {r : List Char} {l : Lexeme} {n : Nat}
    (h : wordLexeme c r = .ok (l, n)) : Found c r l n := by
  unfold wordLexeme at h
  dsimp only at h
  split at h
  · split at h
    · split at h <;> cases h
      exact .token rfl
    · cases h
      exact .token rfl
  · cases h
    exact .token rfl

/-- A token has the text that the lexer takes for it. -/
theorem found_of_lexeme {c : Char} {r : List Char} {l : Lexeme} {n : Nat}
    (h : lexeme c r = .ok (l, n)) : Found c r l n := by
  unfold lexeme at h
  split at h
  · rename_i isBlank
    cases h
    exact .blank (by simpa using isBlank)
  split at h
  · rename_i mark
    cases h
    subst mark
    exact .comment r
  split at h
  · rename_i mark
    subst mark
    split at h <;> cases h
    · exact .hidden _
    · exact .hiddenReturn _
  split at h
  · rename_i feed
    cases h
    subst feed
    exact .lineBreak r
  split at h
  · split at h <;> cases h
    exact .token rfl
  split at h
  · cases h
    exact .token rfl
  split at h
  · exact found_of_word h
  · split at h
    · rename_i s symbol
      cases h
      refine .token ?_
      rw [spelling, ← toList_of_operatorAt symbol, String.ofList_toList]
      rfl
    · cases h

theorem Found.isGap {c : Char} {r : List Char} {n : Nat} (h : Found c r .space n) :
    IsGap (c :: r.take n) (r.drop n) := by
  cases h with
  | blank isBlank => exact isGap_blank (List.mem_append_left ['\n'] isBlank)
  | comment r =>
    have front := List.prefix_iff_eq_take.1 (List.takeWhile_prefix (· != '\n') : _ <+: r)
    rw [← front]
    exact isGap_comment r
  | hidden => exact fun _ _ => .hidden (.inl rfl)
  | hiddenReturn => exact fun _ _ => .hidden (.inr rfl)

namespace Scan

/-- What was read of the source is covered by the tokens found in it, whatever covers the rest. -/
def Covering (source : List Char) (s : Scan) : Prop :=
  ∃ seen, s.pos = .behind seen ∧ source = seen ++ s.rest ∧
    ∀ later, Covers seen s.rest later →
      Covers [] source (s.tokens.reverse.filter Token.isWritten ++ later)

variable {source : List Char} {s t : Scan}

theorem covering_start (source : String) : Covering source.toList (start source) :=
  ⟨[], rfl, rfl, fun _ after => after⟩

/-- Whether the tokens cover what was read does not hang on the layout. -/
theorem Covering.congr (h : Covering source s) (rest : t.rest = s.rest) (pos : t.pos = s.pos)
    (tokens : t.tokens.filter Token.isWritten = s.tokens.filter Token.isWritten) :
    Covering source t := by
  obtain ⟨seen, place, split, covers⟩ := h
  rw [List.filter_reverse, ← tokens, ← List.filter_reverse, ← rest] at covers
  exact ⟨seen, pos.trans place, by rw [split, rest], covers⟩

theorem Position.behind_append (seen cs : List Char) :
    (Position.behind seen).advance cs = .behind (seen ++ cs) := by
  rw [← Position.advance_start, ← Position.advance_start, Position.advance_append]

theorem place_skip {seen : List Char} (place : s.pos = .behind seen) (n : Nat) :
    (s.skip n).pos = .behind (seen ++ s.rest.take n) := by
  show s.pos.advance _ = _
  rw [place, Position.behind_append]

theorem Covering.skip {n : Nat} (h : Covering source s) (isGap : IsGap (s.rest.take n) (s.rest.drop n)) :
    Covering source (s.skip n) := by
  obtain ⟨seen, place, split, covers⟩ := h
  rw [← List.take_append_drop n s.rest] at split covers
  exact ⟨seen ++ s.rest.take n, place_skip place n, by rw [split, List.append_assoc]; rfl,
    fun later after => covers later (isGap seen later after)⟩

theorem filter_dedents (widths : List Nat) (pos : Position) :
    (widths.map fun _ => Token.mk .dedent pos).filter Token.isWritten = [] := by
  refine List.filter_eq_nil_iff.2 fun t member => ?_
  obtain ⟨_, -, rfl⟩ := List.mem_map.1 member
  exact Bool.false_ne_true

theorem tokens_setIndent {width : Nat} (h : s.setIndent width = .ok t) :
    t.pos = s.pos ∧ t.tokens.filter Token.isWritten = s.tokens.filter Token.isWritten := by
  unfold setIndent at h
  dsimp only at h
  split at h
  · cases h
    exact ⟨rfl, rfl⟩
  · split at h <;> cases h
    refine ⟨rfl, ?_⟩
    rw [List.filter_append, filter_dedents, List.nil_append]

theorem Covering.startLine (h : Covering source s) (step : s.startLine = .ok t) : Covering source t := by
  unfold Scan.startLine at step
  dsimp only at step
  generalize found : (s.rest.takeWhile fun c => c = ' ' || c = '\t' || c = '\x0c') = blanks at step
  have front : blanks = s.rest.take blanks.length :=
    List.prefix_iff_eq_take.1 (found ▸ List.takeWhile_prefix _)
  have begun : Covering source (s.skip blanks.length) := by
    refine h.skip (front ▸ isGap_blanks fun c hc => ?_)
    have blank := mem_takeWhile (found ▸ hc)
    simp only [Bool.or_eq_true, decide_eq_true_eq] at blank
    rcases blank with (rfl | rfl) | rfl <;> decide
  split at step
  · cases step
    exact begun.congr rfl rfl rfl
  · rename_i r rest
    cases step
    refine begun.skip ?_
    rw [rest]
    exact isGap_blank (by decide)
  · rename_i r rest
    cases step
    have lineEnd : IsGap ['\r', '\n'] r := isGap_blanks (by simp)
    refine begun.skip ?_
    rw [rest]
    exact lineEnd
  · rename_i r rest
    cases step
    refine begun.skip ?_
    rw [rest]
    have split := List.prefix_iff_eq_append.1 (List.takeWhile_prefix (· != '\n') : _ <+: r)
    have line := isGap_commentLine (isGap_comment r) (line_ends r)
    rwa [split] at line
  · cases width : (s.skip blanks.length).setIndent (indentWidth blanks) with
    | error fault =>
      rw [width] at step
      cases step
    | ok u =>
      rw [width] at step
      cases step
      obtain ⟨pos, tokens⟩ := tokens_setIndent width
      have rest := rest_setIndent width
      exact begun.congr rest pos tokens

/-- A token covers the text that was taken for it. -/
theorem Covering.token {k : TokenKind} {c : Char} {r : List Char} {n depth : Nat}
    (h : Covering source s) (rest : s.rest = c :: r) (text : k.text? = some (spelling c r n)) :
    Covering source { s.skip (n + 1) with depth, tokens := ⟨k, s.pos⟩ :: s.tokens } := by
  obtain ⟨seen, place, split, covers⟩ := h
  have front : (spelling c r n).toList = s.rest.take (n + 1) := by
    rw [rest, spelling, String.toList_ofList, List.take_succ_cons]
  have whole : s.rest = (spelling c r n).toList ++ s.rest.drop (n + 1) := by
    rw [front, List.take_append_drop]
  refine ⟨seen ++ s.rest.take (n + 1), place_skip place _, ?_, fun later after => ?_⟩
  · rw [List.append_assoc]
    exact split.trans (congrArg (seen ++ ·) (List.take_append_drop _ _).symm)
  · have written : Token.isWritten ⟨k, s.pos⟩ = true := by simp [Token.isWritten, text]
    rw [List.reverse_cons, List.filter_append, List.append_assoc]
    rw [List.filter_cons_of_pos written, List.filter_nil, List.singleton_append]
    refine covers _ ?_
    rw [whole]
    rw [← front] at after
    exact .token text place after

theorem Covering.readLexeme {c : Char} {r : List Char} (h : Covering source s) (rest : s.rest = c :: r)
    (step : s.readLexeme c r = .ok t) : Covering source t := by
  unfold Scan.readLexeme at step
  cases read : lexeme c r with
  | error fault =>
    rw [read] at step
    cases step
  | ok x =>
    obtain ⟨l, n⟩ := x
    rw [read] at step
    have found := found_of_lexeme read
    cases l with
    | space =>
      cases step
      exact h.skip (by rw [rest]; exact found.isGap)
    | lineBreak =>
      cases found
      have passed : Covering source (s.skip 1) := h.skip (by rw [rest]; exact isGap_blank (by decide))
      simp only [take] at step
      split at step <;> cases step
      · exact passed.congr rfl rfl rfl
      · exact passed
    | token k =>
      cases found with
      | token text =>
        simp only [take] at step
        cases after : s.depthAfter k with
        | error fault =>
          rw [after] at step
          cases step
        | ok depth =>
          rw [after] at step
          cases step
          exact h.token rest text

/-- What the end of the text adds is layout. -/
theorem isWritten_finish {ts : List Token} (finish : s.finish = .ok ts) :
    ts.filter Token.isWritten = s.tokens.reverse.filter Token.isWritten := by
  have layout : ∀ k : TokenKind, k.text? = none → ∀ (rest : List Token) (pos : Position),
      (Token.mk k pos :: rest).filter Token.isWritten = rest.filter Token.isWritten := by
    intro k none rest pos
    exact List.filter_cons_of_neg (by simp [Token.isWritten, none])
  unfold Scan.finish at finish
  split at finish
  · cases finish
  · cases finish
    simp only [List.filter_append, filter_dedents, layout .endMarker rfl, List.filter_nil, List.append_nil,
      List.filter_reverse]
    split
    · rfl
    · rfl
    · rfl
    · rw [layout .newline rfl]

theorem Covering.finish {ts : List Token} (h : Covering source s) (rest : s.rest = [])
    (finish : s.finish = .ok ts) : Covers [] source (ts.filter Token.isWritten) := by
  obtain ⟨seen, -, -, covers⟩ := h
  have whole := covers [] (by rw [rest]; exact .done)
  rwa [List.append_nil, ← isWritten_finish finish] at whole

end Scan

/-- The tokens of a source that has any cover all of it. -/
theorem covers_of_tokenize {source : String} {ts : List Token} (h : tokenize source = .ok ts) :
    Covers [] source.toList (ts.filter Token.isWritten) := by
  obtain ⟨s, run, finish⟩ := Scan.exists_run_of_tokenize h
  obtain ⟨covering, -, rest⟩ := Scan.invariant_rounds (P := Scan.Covering source.toList)
    (fun _ _ covering _ => covering.startLine) (fun _ _ _ _ covering _ => covering.readLexeme)
    (Scan.covering_start source) run
  exact covering.finish rest finish

/-- A number before two points, a hidden line break, a comment and a string on two lines. -/
theorem covers_twoPoints : ∃ ts, tokenize "1..2\\\r\n3 # c\n\"\"\"\n\"\"\"" = .ok ts ∧
    (ts.filter Token.isWritten).map (fun t => (t.kind, t.pos.line, t.pos.col)) =
      [(.number "1", 1, 0), (.op ".", 1, 1), (.number ".2", 1, 2), (.number "3", 2, 0),
        (.string "\"\"\"\n\"\"\"", 3, 0)] ∧
    Covers [] "1..2\\\r\n3 # c\n\"\"\"\n\"\"\"".toList (ts.filter Token.isWritten) := by
  have known : (tokenize "1..2\\\r\n3 # c\n\"\"\"\n\"\"\"").toOption.map (fun ts =>
      (ts.filter Token.isWritten).map fun t => (t.kind, t.pos.line, t.pos.col)) =
        some [(.number "1", 1, 0), (.op ".", 1, 1), (.number ".2", 1, 2), (.number "3", 2, 0),
          (.string "\"\"\"\n\"\"\"", 3, 0)] := by decide +kernel
  cases read : tokenize "1..2\\\r\n3 # c\n\"\"\"\n\"\"\"" with
  | error fault =>
    rw [read] at known
    cases known
  | ok ts =>
    rw [read] at known
    exact ⟨ts, rfl, Option.some.inj known, covers_of_tokenize read⟩

end Arbiter.Syntax
