import Arbiter.Syntax.Token.Lexer

/-! What a round of the lexer can do. Main statements: each round is one of a few steps, and what every
step keeps holds of a text read to its end. -/

namespace Arbiter.Syntax.Scan

theorem run_startLine {s : Scan} (start : s.lineStart = true) :
    s.run = s.startLine >>= Scan.run := by
  rw [Scan.run, dif_pos start]
  split
  · rename_i found
    exact (congrArg (fun x : Except Fault Scan => x >>= Scan.run) found).symm
  · rename_i found
    exact (congrArg (fun x : Except Fault Scan => x >>= Scan.run) found).symm

theorem run_end {s : Scan} (start : s.lineStart = false) (rest : s.rest = []) : s.run = .ok s := by
  rw [Scan.run, dif_neg (by simp [start])]
  split
  · rfl
  · rename_i found
    rw [rest] at found
    cases found

theorem run_readLexeme {s : Scan} {c : Char} {r : List Char} (start : s.lineStart = false)
    (rest : s.rest = c :: r) : s.run = s.readLexeme c r >>= Scan.run := by
  rw [Scan.run, dif_neg (by simp [start])]
  split
  · rename_i found
    rw [rest] at found
    cases found
  · rename_i found
    rw [rest] at found
    cases found
    split
    · rename_i step
      exact (congrArg (fun x : Except Fault Scan => x >>= Scan.run) step).symm
    · rename_i step
      exact (congrArg (fun x : Except Fault Scan => x >>= Scan.run) step).symm

/-- What a round of the lexer can do. -/
inductive Step (s : Scan) : Scan → Prop
  /-- A blank, a comment, a blank line or a hidden line break is read past. -/
  | pass (n : Nat) : Step s (s.skip n)
  /-- The text ends at the start of a line. -/
  | settle (start : s.lineStart = true) (n : Nat) : Step s { s.skip n with lineStart := false }
  /-- A line that is indented further opens a block. -/
  | enter (start : s.lineStart = true) (n width : Nat) : Step s
      { s.skip n with
        lineStart := false
        indents := width :: s.indents
        tokens := ⟨.indent, (s.skip n).pos⟩ :: s.tokens }
  /-- A line that is indented less closes blocks, if any. -/
  | leave (start : s.lineStart = true) (n : Nat) {closed kept : List Nat}
      (indents : s.indents = closed ++ kept) : Step s
      { s.skip n with
        lineStart := false
        indents := kept
        tokens := closed.map (fun _ => ⟨.dedent, (s.skip n).pos⟩) ++ s.tokens }
  | lineBreak (inLine : s.lineStart = false) (flat : s.depth = 0) (n : Nat) : Step s
      { s.skip n with lineStart := true, tokens := ⟨.newline, s.pos⟩ :: s.tokens }
  | token (inLine : s.lineStart = false) {c : Char} {r : List Char} {kind : TokenKind} {n depth : Nat}
      (found : lexeme c r = .ok (.token kind, n)) (after : s.depthAfter kind = .ok depth) : Step s
      { s.skip (n + 1) with depth, tokens := ⟨kind, s.pos⟩ :: s.tokens }

theorem skip_skip (s : Scan) (m n : Nat) : (s.skip m).skip n = s.skip (m + n) := by
  simp [skip, List.drop_drop, ← Position.advance_append, ← List.take_add]

theorem step_setIndent {s t : Scan} {n width : Nat} (start : s.lineStart = true)
    (h : (s.skip n).setIndent width = .ok t) : Step s { t with lineStart := false } := by
  simp only [setIndent] at h
  split at h
  · cases h
    exact .enter start n width
  · split at h
    · cases h
      have cut : s.indents = s.indents.takeWhile (· > width) ++
          s.indents.drop (s.indents.takeWhile (· > width)).length :=
        (List.prefix_iff_eq_append.1 (List.takeWhile_prefix _)).symm
      exact .leave start n cut
    · cases h

theorem step_startLine {s t : Scan} (start : s.lineStart = true) (h : s.startLine = .ok t) :
    Step s t := by
  simp only [startLine, skip_skip] at h
  split at h
  · cases h
    exact .settle start _
  · cases h
    exact .pass _
  · cases h
    exact .pass _
  · cases h
    exact .pass _
  · cases found : (s.skip _).setIndent (indentWidth _) with
    | error fault =>
      rw [found] at h
      cases h
    | ok u =>
      rw [found] at h
      cases h
      exact step_setIndent start found

theorem step_readLexeme {s t : Scan} {c : Char} {r : List Char} (inLine : s.lineStart = false)
    (h : s.readLexeme c r = .ok t) : Step s t := by
  unfold readLexeme at h
  cases found : lexeme c r with
  | error fault =>
    rw [found] at h
    cases h
  | ok x =>
    obtain ⟨l, n⟩ := x
    rw [found] at h
    cases l with
    | space =>
      cases h
      exact .pass _
    | lineBreak =>
      simp only [take] at h
      split at h
      · rename_i flat
        cases h
        exact .lineBreak inLine flat _
      · cases h
        exact .pass _
    | token kind =>
      simp only [take] at h
      cases after : s.depthAfter kind with
      | error fault =>
        rw [after] at h
        cases h
      | ok depth =>
        rw [after] at h
        cases h
        exact .token inLine found after

/-- What every round keeps holds at the end of the text, where no line is left to begin. -/
theorem invariant_rounds {P : Scan → Prop}
    (line : ∀ s t, P s → s.lineStart = true → s.startLine = .ok t → P t)
    (inside : ∀ s t c r, P s → s.lineStart = false → s.rest = c :: r → s.readLexeme c r = .ok t → P t)
    {s t : Scan} (first : P s) (run : s.run = .ok t) : P t ∧ t.lineStart = false ∧ t.rest = [] := by
  induction s using Scan.run.induct with
  | case1 s start u step _ ih =>
    rw [run_startLine start, step] at run
    exact ih (line s u first start step) run
  | case2 s start fault step =>
    rw [run_startLine start, step] at run
    cases run
  | case3 s start rest =>
    have inLine : s.lineStart = false := by simpa using start
    rw [run_end inLine rest] at run
    cases run
    exact ⟨first, inLine, rest⟩
  | case4 s start c r rest u step _ ih =>
    have inLine : s.lineStart = false := by simpa using start
    rw [run_readLexeme inLine rest, step] at run
    exact ih (inside s u c r first inLine rest step) run
  | case5 s start c r rest fault step =>
    rw [run_readLexeme (by simpa using start) rest, step] at run
    cases run

/-- What every step keeps holds at the end of the text, where no line is left to begin. -/
theorem invariant_run {P : Scan → Prop} (keeps : ∀ s t, P s → Step s t → P t) {s t : Scan} (first : P s)
    (run : s.run = .ok t) : P t ∧ t.lineStart = false := by
  obtain ⟨kept, inLine, -⟩ := invariant_rounds
    (fun s t first start step => keeps s t first (step_startLine start step))
    (fun s t _ _ first inLine _ step => keeps s t first (step_readLexeme inLine step)) first run
  exact ⟨kept, inLine⟩

/-- Tokens are found by reading the text to its end and closing what is open there. -/
theorem exists_run_of_tokenize {source : String} {ts : List Token} (h : tokenize source = .ok ts) :
    ∃ s, (start source).run = .ok s ∧ s.finish = .ok ts := by
  unfold tokenize at h
  cases run : (start source).run with
  | error fault =>
    rw [run] at h
    cases h
  | ok s =>
    rw [run] at h
    exact ⟨s, rfl, h⟩

end Arbiter.Syntax.Scan
