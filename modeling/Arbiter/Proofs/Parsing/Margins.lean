import Arbiter.Proofs.Parsing.BlankLine
import Arbiter.Proofs.Parsing.Cover
import Arbiter.Proofs.Parsing.Layout
import Mathlib.Data.List.Chain

/-! Indented lines. A line is passed over if nothing, a comment or a line break stands behind its
indentation, so that a line which opens a block shows something. Main statement: this something is a
token unless it is a carriage return or a backslash. -/

namespace Arbiter.Syntax

/-- Behind every `indent` there is a token that the line shows. -/
def Seated (ts : List Token) : Prop :=
  ∀ t rest, t :: rest <:+ ts → t.kind = .indent → (headKind rest).isLayout = false

/-- A line begins behind the text. -/
def EndsFeed (cs : List Char) : Prop := cs = [] ∨ ['\n'] <:+ cs

/-- No line of the text has a backslash or a carriage return right behind its indentation, if it is not
the one of a line break. -/
def ClearMargins (cs : List Char) : Prop :=
  ∀ before blanks c rest, cs = before ++ (blanks ++ c :: rest) → EndsFeed before →
    (∀ b ∈ blanks, Scan.isIndentation b = true) → c ≠ '\\' ∧ (c = '\r' → rest.head? = some '\n')

/-- A text without backslashes and carriage returns has clear margins. -/
theorem clearMargins_of_forall {cs : List Char} (h : ∀ c ∈ cs, c ≠ '\\' ∧ c ≠ '\r') : ClearMargins cs := by
  rintro before blanks c rest rfl - -
  obtain ⟨backslash, lone⟩ := h c (by simp)
  exact ⟨backslash, fun same => absurd same lone⟩

/-- What opens a block is followed by what a line shows, as far as anything follows. -/
def Followed (ts : List Token) : Prop := ts.IsChain fun t u => t.kind = .indent → u.kind.isLayout = false

section Followed

variable {ts us : List Token}

theorem followed_of_no_indent (h : ∀ t ∈ ts, t.kind ≠ .indent) : Followed ts :=
  (List.pairwise_of_forall_mem_list fun t ht _ _ opens => absurd opens (h t ht)).isChain

/-- Tokens that are found later, where `ts` are the earlier ones, last first. -/
theorem Followed.append (h : Followed ts.reverse) (h' : Followed us)
    (next : headKind ts = .indent → (headKind us).isLayout = false) : Followed (ts.reverse ++ us) := by
  refine List.isChain_append.2 ⟨h, h', fun t last u first opens => ?_⟩
  rw [List.getLast?_reverse] at last
  obtain ⟨older, rfl⟩ := List.head?_eq_some_iff.1 last
  obtain ⟨newer, rfl⟩ := List.head?_eq_some_iff.1 first
  exact next opens

theorem Followed.seated (h : Followed ts) (ended : ∀ t ∈ ts.getLast?, t.kind ≠ .indent) : Seated ts := by
  intro t rest part opens
  have chain := List.IsChain.suffix h part
  cases rest with
  | nil =>
    obtain ⟨front, rfl⟩ := part
    exact absurd opens (ended t (by simp))
  | cons u rest => exact (List.isChain_cons_cons.1 chain).1 opens

end Followed

/-- The text has a token at its front. -/
def TokenAhead (cs : List Char) : Prop :=
  ∃ c r, cs = c :: r ∧ ∀ l n, lexeme c r = .ok (l, n) → ∃ k, l = .token k

namespace Scan

/-- How far the text is read, and what follows the lines that were indented. -/
structure IsSeated (source : List Char) (s : Scan) : Prop where
  place : ∃ seen, source = seen ++ s.rest ∧ (s.lineStart = true → s.rest = [] ∨ EndsFeed seen)
  followed : Followed s.tokens.reverse
  ahead : headKind s.tokens = .indent → s.lineStart = false ∧ TokenAhead s.rest

variable {source : List Char} {s t : Scan}

/-- What a line shows behind its indentation is a token if the margin is clear. -/
theorem tokenAhead_margin (margins : ClearMargins source) {seen blanks r : List Char} {c : Char}
    (place : source = seen ++ (blanks ++ c :: r)) (line : EndsFeed seen)
    (indentation : ∀ b ∈ blanks, isIndentation b = true) (first : isIndentation c = false)
    (feed : c ≠ '\n') (alone : c = '\r' → r.head? ≠ some '\n') (hash : c ≠ '#') : TokenAhead (c :: r) := by
  obtain ⟨backslash, paired⟩ := margins seen blanks c r place line indentation
  refine ⟨c, r, rfl, fun l n h => ?_⟩
  cases found_of_lexeme h with
  | blank isBlank =>
    simp only [List.mem_cons, List.not_mem_nil, or_false] at isBlank
    rcases isBlank with rfl | rfl | rfl | rfl
    · cases first
    · cases first
    · cases first
    · exact absurd (paired rfl) (alone rfl)
  | comment => exact absurd rfl hash
  | hidden | hiddenReturn => exact absurd rfl backslash
  | lineBreak => exact absurd rfl feed
  | token => exact ⟨_, rfl⟩

theorem headKind_append_ne {ts us : List Token} (h : ∀ t ∈ ts, t.kind ≠ .indent)
    (h' : headKind us ≠ .indent) : headKind (ts ++ us) ≠ .indent := by
  cases ts with
  | nil => exact h'
  | cons t ts => exact h t List.mem_cons_self

theorem kind_dedents (widths : List Nat) (pos : Position) :
    ∀ t ∈ widths.map fun _ => Token.mk .dedent pos, t.kind ≠ .indent := by
  intro t ht
  obtain ⟨_, -, rfl⟩ := List.mem_map.1 ht
  exact TokenKind.noConfusion

/-- At the start of a line nothing is open in front of it. -/
theorem IsSeated.closed (h : s.IsSeated source) (start : s.lineStart = true) :
    headKind s.tokens ≠ .indent := fun opens => by simp [(h.ahead opens).1] at start

section Line

variable {u : Scan} {before : List Char} (followed : Followed u.tokens.reverse)
  (closed : headKind u.tokens ≠ .indent) (place : source = before ++ u.rest)
include followed closed place

/-- Opening or closing blocks in front of a token. -/
theorem isSeated_setIndent {width : Nat} (ahead : TokenAhead u.rest) (step : u.setIndent width = .ok t) :
    IsSeated source { t with lineStart := false } := by
  unfold setIndent at step
  dsimp only at step
  split at step
  · cases step
    refine ⟨⟨before, place, nofun⟩, ?_, fun _ => ⟨rfl, ahead⟩⟩
    rw [List.reverse_cons]
    exact followed.append (.singleton _) fun opens => absurd opens closed
  · split at step <;> cases step
    have dedents := kind_dedents (u.indents.takeWhile (· > width)) u.pos
    refine ⟨⟨before, place, nofun⟩, ?_, fun opens => absurd opens (headKind_append_ne dedents closed)⟩
    rw [List.reverse_append]
    refine followed.append (followed_of_no_indent fun v hv => ?_) fun opens => absurd opens closed
    exact dedents v (List.mem_reverse.1 hv)

theorem isSeated_settleLine {blanks seen : List Char} (margins : ClearMargins source)
    (indentation : ∀ b ∈ blanks, isIndentation b = true) (split : before = seen ++ blanks)
    (line : u.rest = [] ∨ EndsFeed seen) (off : ∀ c ∈ u.rest.head?, isIndentation c = false)
    (step : u.settleLine blanks = .ok t) : t.IsSeated source := by
  have pass : ∀ {n : Nat}, ((u.skip n).rest = [] ∨ EndsFeed (before ++ u.rest.take n)) →
      (u.skip n).IsSeated source := fun {n} ends =>
    ⟨⟨before ++ u.rest.take n, by simp [place], fun _ => ends⟩, followed, fun opens => absurd opens closed⟩
  unfold settleLine at step
  split at step
  · cases step
    exact ⟨⟨before, place, nofun⟩, followed, fun opens => absurd opens closed⟩
  · rename_i r rest
    cases step
    exact pass (.inr (.inr (by simp [rest])))
  · rename_i r rest
    cases step
    exact pass (.inr (.inr ⟨before ++ ['\r'], by simp [rest]⟩))
  · rename_i r rest
    cases step
    refine pass ?_
    rcases line_ends r with none | ⟨left, feed⟩
    · refine .inl ?_
      rw [rest_skip, rest, none]
      simpa using none
    · refine .inr (.inr ⟨before ++ '#' :: r.take (r.takeWhile (· != '\n')).length, ?_⟩)
      have last : r[(r.takeWhile (· != '\n')).length]? = some '\n' := by
        rw [← List.head?_drop, feed]
        rfl
      have line : r.take ((r.takeWhile (· != '\n')).length + 1) =
          r.take (r.takeWhile (· != '\n')).length ++ ['\n'] := by
        rw [List.take_add_one, last]
        rfl
      have one : ('\n' :: left).length.min 1 = 1 := Nat.min_eq_right (Nat.succ_le_succ (Nat.zero_le _))
      rw [rest, feed, one, List.take_succ_cons, line, List.append_assoc, List.cons_append]
  · rename_i c r noFeed noReturn noHash rest
    have ahead : TokenAhead u.rest := by
      rw [rest] at off line place ⊢
      have line := line.resolve_left (List.cons_ne_nil c r)
      refine tokenAhead_margin margins (by rw [place, split, List.append_assoc]) line indentation (off c rfl)
        noFeed (fun lone next => ?_) noHash
      obtain ⟨more, feed⟩ := List.head?_eq_some_iff.1 next
      exact noReturn more lone feed
    cases found : u.setIndent (indentWidth blanks) with
    | error fault =>
      rw [found] at step
      cases step
    | ok v =>
      rw [found] at step
      cases step
      exact isSeated_setIndent followed closed place ahead found

end Line

theorem IsSeated.startLine (margins : ClearMargins source) (h : s.IsSeated source)
    (start : s.lineStart = true) (step : s.startLine = .ok t) : t.IsSeated source := by
  obtain ⟨seen, place, line⟩ := h.place
  have indentation : ∀ b ∈ s.rest.takeWhile isIndentation, isIndentation b = true := fun b => mem_takeWhile
  have front : s.rest.takeWhile isIndentation ++ s.rest.drop (s.rest.takeWhile isIndentation).length = s.rest :=
    List.prefix_iff_eq_append.1 (List.takeWhile_prefix _)
  have split : source = (seen ++ s.rest.takeWhile isIndentation) ++
      s.rest.drop (s.rest.takeWhile isIndentation).length := by rw [List.append_assoc, front, place]
  have behind : s.rest.drop (s.rest.takeWhile isIndentation).length = [] ∨ EndsFeed seen :=
    (line start).imp_left fun none => by rw [none, List.drop_nil]
  rw [startLine_eq] at step
  exact isSeated_settleLine (u := s.skip _) h.followed (h.closed start) split margins indentation rfl behind
    (off_takeWhile_drop _ _) step

theorem IsSeated.readLexeme {c : Char} {r : List Char} (h : s.IsSeated source)
    (inLine : s.lineStart = false) (rest : s.rest = c :: r) (step : s.readLexeme c r = .ok t) :
    t.IsSeated source := by
  obtain ⟨seen, place, -⟩ := h.place
  have split : ∀ n, source = (seen ++ s.rest.take n) ++ s.rest.drop n := fun n => by
    rw [List.append_assoc, List.take_append_drop, place]
  unfold Scan.readLexeme at step
  cases read : lexeme c r with
  | error fault =>
    rw [read] at step
    cases step
  | ok x =>
    obtain ⟨l, n⟩ := x
    rw [read] at step
    have token : headKind s.tokens = .indent → ∃ k, l = .token k := fun opens => by
      obtain ⟨c', r', same, ahead⟩ := (h.ahead opens).2
      rw [rest] at same
      cases same
      exact ahead l n read
    cases l with
    | space =>
      cases step
      refine ⟨⟨_, split _, fun start => absurd start (by simp [inLine])⟩, h.followed, fun opens => ?_⟩
      obtain ⟨k, same⟩ := token opens
      cases same
    | lineBreak =>
      have closed : headKind s.tokens ≠ .indent := fun opens => by
        obtain ⟨k, same⟩ := token opens
        cases same
      cases found_of_lexeme read
      simp only [take] at step
      split at step <;> cases step
      · refine ⟨⟨_, split 1, fun _ => .inr (.inr ?_)⟩, ?_, fun opens => TokenKind.noConfusion opens⟩
        · rw [rest]
          exact List.suffix_append _ _
        · rw [List.reverse_cons]
          exact h.followed.append (.singleton _) fun opens => absurd opens closed
      · exact ⟨⟨_, split 1, fun start => absurd start (by simp [inLine])⟩, h.followed,
          fun opens => absurd opens closed⟩
    | token k =>
      have written := isLayout_of_lexeme read
      simp only [take] at step
      cases after : s.depthAfter k with
      | error fault =>
        rw [after] at step
        cases step
      | ok depth =>
        rw [after] at step
        cases step
        refine ⟨⟨_, split _, fun start => absurd start (by simp [inLine])⟩, ?_, fun opens => ?_⟩
        · rw [List.reverse_cons]
          exact h.followed.append (.singleton _) fun _ => written
        · rw [headKind] at opens
          subst opens
          cases written

/-- What closes a text opens nothing. -/
theorem seated_append {us : List Token} (followed : Followed s.tokens.reverse)
    (closed : headKind s.tokens ≠ .indent) (h : ∀ t ∈ us, t.kind ≠ .indent) :
    Seated (s.tokens.reverse ++ us) := by
  refine (followed.append (followed_of_no_indent h) fun opens => absurd opens closed).seated fun t last => ?_
  rw [List.getLast?_append, List.getLast?_reverse] at last
  cases found : us.getLast? with
  | some u =>
    rw [found] at last
    cases last
    exact h t (List.mem_of_getLast? found)
  | none =>
    rw [found] at last
    obtain ⟨older, same⟩ := List.head?_eq_some_iff.1 last
    rw [same] at closed
    exact closed

theorem IsSeated.finish {ts : List Token} (h : s.IsSeated source) (rest : s.rest = [])
    (finish : s.finish = .ok ts) : Seated ts := by
  have closed : headKind s.tokens ≠ .indent := by
    intro opens
    obtain ⟨c, r, same, -⟩ := (h.ahead opens).2
    rw [rest] at same
    cases same
  have closing : ∀ t ∈ s.indents.map (fun _ => Token.mk .dedent s.pos) ++ [⟨.endMarker, s.pos⟩],
      t.kind ≠ .indent :=
    List.forall_mem_append.2 ⟨kind_dedents _ _, List.forall_mem_singleton.2 TokenKind.noConfusion⟩
  unfold Scan.finish at finish
  split at finish
  · cases finish
  · cases finish
    rw [List.append_assoc]
    split
    · exact seated_append h.followed closed closing
    · exact seated_append h.followed closed closing
    · exact seated_append h.followed closed closing
    · rw [List.reverse_cons, List.append_assoc]
      exact seated_append h.followed closed (List.forall_mem_cons.2 ⟨TokenKind.noConfusion, closing⟩)

end Scan

/-- Where the margins of a source are clear, every indented line shows a token. -/
theorem seated_of_tokenize {source : String} {ts : List Token} (margins : ClearMargins source.toList)
    (h : tokenize source = .ok ts) : Seated ts := by
  obtain ⟨s, run, finish⟩ := Scan.exists_run_of_tokenize h
  have start : (Scan.start source).IsSeated source.toList :=
    ⟨⟨[], rfl, fun _ => .inr (.inl rfl)⟩, .nil, nofun⟩
  obtain ⟨seated, -, rest⟩ := Scan.invariant_rounds
    (fun s t seated start step => seated.startLine margins start step)
    (fun s t c r seated inLine rest step => seated.readLexeme inLine rest step) start run
  exact seated.finish rest finish

end Arbiter.Syntax
