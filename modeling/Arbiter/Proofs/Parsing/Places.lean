import Arbiter.Proofs.Parsing.Cover
import Mathlib.Data.List.TakeWhile

/-! Where the lexer stands. Main statements: all tokens of a source are placed in it, and so is what the
lexer finds fault with; a place in a source is on one of its lines. -/

namespace Arbiter.Syntax

/-! Places in a text. -/

/-- The characters of a text behind its last line break. -/
def lastLine (cs : List Char) : List Char := (cs.reverse.takeWhile (· != '\n')).reverse

theorem lastLine_of_notMem {cs : List Char} (h : '\n' ∉ cs) : lastLine cs = cs := by
  have all : ∀ c ∈ cs.reverse, (c != '\n') = true := fun c member =>
    bne_iff_ne.2 fun feed => h (feed ▸ List.mem_reverse.1 member)
  rw [lastLine, List.takeWhile_eq_self_iff.2 all, List.reverse_reverse]

/-- Behind a line break it does not matter what stands before. -/
theorem lastLine_cons {c : Char} {cs : List Char} (h : c = '\n' ∨ '\n' ∈ cs) :
    lastLine (c :: cs) = lastLine cs := by
  rw [lastLine, lastLine, List.reverse_cons, List.takeWhile_append]
  split
  · rename_i whole
    have none : '\n' ∉ cs := fun member => by
      have all := List.takeWhile_eq_self_iff.1 ((List.takeWhile_prefix _).eq_of_length whole)
      exact absurd (all '\n' (List.mem_reverse.2 member)) (by decide)
    rw [h.resolve_right none, (List.takeWhile_prefix _).eq_of_length whole]
    simp
  · rfl

/-- The line of a text in which a front of it ends begins with the last line of the front. -/
theorem getD_splitOn (front rest : List Char) :
    ((front ++ rest).splitOn '\n').getD (front.count '\n') [] =
      lastLine front ++ (rest.splitOn '\n').headD [] := by
  induction front with
  | nil =>
    show (rest.splitOn '\n').getD 0 [] = (rest.splitOn '\n').headD []
    cases rest.splitOn '\n' with
    | nil => rfl
    | cons line lines => rfl
  | cons c front ih =>
    rw [List.cons_append, List.splitOn_cons_eq_if_modifyHead]
    by_cases feed : c = '\n'
    · rw [lastLine_cons (.inl feed), ← ih, feed, List.count_cons_self]
      rfl
    · rw [if_neg (by simpa using feed), List.count_cons_of_ne feed]
      obtain ⟨line, lines, split⟩ := List.exists_cons_of_ne_nil (List.splitOn_ne_nil '\n' (front ++ rest))
      rw [split] at ih ⊢
      by_cases single : '\n' ∈ front
      · obtain ⟨n, later⟩ := Nat.exists_eq_add_of_le' (List.count_pos_iff.2 single)
        rw [lastLine_cons (.inr single), ← ih, later]
        rfl
      · have whole : '\n' ∉ c :: front := by simp [single, Ne.symm feed]
        rw [List.count_eq_zero.2 single, lastLine_of_notMem single] at ih
        rw [List.count_eq_zero.2 single, lastLine_of_notMem whole, List.cons_append, ← ih]
        rfl

namespace Position

/-- All that stands before the place is a front of the text. -/
def IsIn (text : List Char) (p : Position) : Prop := ∃ front, front <+: text ∧ p = behind front

variable {text : List Char} {p : Position}

theorem IsIn.line_le (h : p.IsIn text) : 1 ≤ p.line ∧ p.line ≤ 1 + text.count '\n' := by
  obtain ⟨front, part, rfl⟩ := h
  exact ⟨Nat.le_add_right _ _, Nat.add_le_add_left (part.sublist.count_le _) 1⟩

theorem IsIn.col_le (h : p.IsIn text) :
    p.col ≤ ((text.splitOn '\n').getD (p.line - 1) []).length := by
  obtain ⟨front, ⟨rest, rfl⟩, rfl⟩ := h
  have line : (behind front).line - 1 = front.count '\n' := Nat.add_sub_cancel_left _ _
  have col : (behind front).col = (lastLine front).length := (List.length_reverse).symm
  rw [line, col, getD_splitOn, List.length_append]
  exact Nat.le_add_right _ _

end Position

/-! The lexer. -/

/-- The cause lies in the tokens at hand: not inside an f-string, and not in the number of levels. -/
def Cause.isOuter : Cause → Bool
  | .tooDeep | .inFString _ => false
  | _ => true

theorem isOuter_of_wordLexeme {c : Char} {r : List Char} {cause : Cause} {n : Nat}
    (h : wordLexeme c r = .error (cause, n)) : cause.isOuter = true := by
  unfold wordLexeme at h
  dsimp only at h
  split at h
  · split at h
    · split at h <;> cases h
      rfl
    · cases h
  · cases h

theorem isOuter_of_lexeme {c : Char} {r : List Char} {cause : Cause} {n : Nat}
    (h : lexeme c r = .error (cause, n)) : cause.isOuter = true := by
  unfold lexeme at h
  split at h
  · cases h
  split at h
  · cases h
  split at h
  · split at h <;> cases h
    rfl
  split at h
  · cases h
  split at h
  · split at h <;> cases h
    rfl
  split at h
  · cases h
  split at h
  · exact isOuter_of_wordLexeme h
  · split at h <;> cases h
    rfl

namespace Scan

variable {text : List Char} {s t : Scan}

/-- A run that fails does so in a round that everything holds before that rounds keep. -/
theorem fault_of_run {P : Scan → Prop} {Q : Fault → Prop}
    (keeps : ∀ s t, P s → Step s t → P t)
    (line : ∀ s f, P s → s.startLine = .error f → Q f)
    (inside : ∀ s f c r, P s → s.rest = c :: r → s.readLexeme c r = .error f → Q f)
    {f : Fault} (first : P s) (run : s.run = .error f) : Q f := by
  induction s using Scan.run.induct with
  | case1 s start u step _ ih =>
    rw [run_startLine start, step] at run
    exact ih (keeps s u first (step_startLine start step)) run
  | case2 s start fault step =>
    rw [run_startLine start, step] at run
    cases run
    exact line s _ first step
  | case3 s start rest =>
    rw [run_end (by simpa using start) rest] at run
    cases run
  | case4 s start c r rest u step _ ih =>
    have inLine : s.lineStart = false := by simpa using start
    rw [run_readLexeme inLine rest, step] at run
    exact ih (keeps s u first (step_readLexeme inLine step)) run
  | case5 s start c r rest fault step =>
    rw [run_readLexeme (by simpa using start) rest, step] at run
    cases run
    exact inside s _ c r first rest step

/-- The lexer stands in the text, and the tokens found so far do. -/
structure Within (text : List Char) (s : Scan) : Prop where
  here : ∃ seen, text = seen ++ s.rest ∧ s.pos = .behind seen
  tokens : ∀ t ∈ s.tokens, t.pos.IsIn text

theorem within_start (source : String) : (start source).Within source.toList :=
  ⟨⟨[], rfl, rfl⟩, nofun⟩

/-- Every place that the lexer can come to is in the text. -/
theorem Within.advance (h : s.Within text) (n : Nat) : (s.pos.advance (s.rest.take n)).IsIn text := by
  obtain ⟨seen, split, place⟩ := h.here
  refine ⟨seen ++ s.rest.take n, ?_, place_skip place n⟩
  rw [split]
  exact (List.prefix_append_right_inj seen).2 (List.take_prefix n s.rest)

theorem Within.pos (h : s.Within text) : s.pos.IsIn text := h.advance 0

theorem Within.here_skip (h : s.Within text) (n : Nat) :
    ∃ seen, text = seen ++ (s.skip n).rest ∧ (s.skip n).pos = .behind seen := by
  obtain ⟨seen, split, place⟩ := h.here
  refine ⟨seen ++ s.rest.take n, ?_, place_skip place n⟩
  rw [split, List.append_assoc]
  exact congrArg (seen ++ ·) (List.take_append_drop n s.rest).symm

theorem Within.step (h : s.Within text) (step : Step s t) : t.Within text := by
  have found : ∀ {k : TokenKind} {p : Position}, p.IsIn text →
      ∀ t ∈ Token.mk k p :: s.tokens, t.pos.IsIn text :=
    fun place => List.forall_mem_cons.2 ⟨place, h.tokens⟩
  cases step with
  | pass n => exact ⟨h.here_skip n, h.tokens⟩
  | settle _ n => exact ⟨h.here_skip n, h.tokens⟩
  | enter _ n => exact ⟨h.here_skip n, found (h.advance n)⟩
  | leave _ n =>
    refine ⟨h.here_skip n, List.forall_mem_append.2 ⟨?_, h.tokens⟩⟩
    exact List.forall_mem_map.2 fun _ _ => h.advance n
  | lineBreak _ _ n => exact ⟨h.here_skip n, found h.pos⟩
  | @token _ _ _ _ n => exact ⟨h.here_skip (n + 1), found h.pos⟩

theorem Within.fault_startLine {f : Fault} (h : s.Within text) (step : s.startLine = .error f) :
    f.cause.isOuter = true ∧ f.pos.IsIn text := by
  unfold startLine at step
  dsimp only at step
  split at step
  · cases step
  · cases step
  · cases step
  · cases step
  · unfold setIndent at step
    dsimp only at step
    split at step
    · cases step
    · split at step <;> cases step
      exact ⟨rfl, h.advance _⟩

theorem Within.fault_readLexeme {f : Fault} {c : Char} {r : List Char} (h : s.Within text)
    (rest : s.rest = c :: r) (step : s.readLexeme c r = .error f) :
    f.cause.isOuter = true ∧ f.pos.IsIn text := by
  unfold readLexeme at step
  split at step
  · rename_i found further _
    cases found with
    | space => cases step
    | lineBreak =>
      simp only [take] at step
      split at step <;> cases step
    | token kind =>
      simp only [take, depthAfter] at step
      split at step
      · cases step
      · split at step
        · split at step <;> cases step
          exact ⟨rfl, h.pos⟩
        · cases step
  · rename_i cause before found
    cases step
    exact ⟨isOuter_of_lexeme found, rest ▸ h.advance before⟩

theorem Within.finish {ts : List Token} (h : s.Within text) (finish : s.finish = .ok ts) :
    ∀ t ∈ ts, t.pos.IsIn text := by
  unfold Scan.finish at finish
  split at finish
  · cases finish
  · cases finish
    have closed : ∀ t ∈ s.indents.map (fun _ => Token.mk .dedent s.pos), t.pos.IsIn text :=
      List.forall_mem_map.2 fun _ _ => h.pos
    refine List.forall_mem_append.2 ⟨List.forall_mem_append.2 ⟨fun t member => ?_, closed⟩, ?_⟩
    · rw [List.mem_reverse] at member
      split at member
      · exact h.tokens t member
      · exact h.tokens t member
      · exact h.tokens t member
      · exact (List.mem_cons.1 member).elim (fun same => same ▸ h.pos) (h.tokens t)
    · exact List.forall_mem_singleton.2 h.pos

end Scan

/-- All tokens of a source are placed in it. -/
theorem places_of_tokenize {source : String} {ts : List Token} (h : tokenize source = .ok ts) :
    ∀ t ∈ ts, t.pos.IsIn source.toList := by
  obtain ⟨s, run, finish⟩ := Scan.exists_run_of_tokenize h
  have within := (Scan.invariant_run (P := Scan.Within source.toList) (fun _ _ within => within.step)
    (Scan.within_start source) run).1
  exact within.finish finish

/-- What the lexer finds fault with is placed in the source. -/
theorem fault_of_tokenize {source : String} {f : Fault} (h : tokenize source = .error f) :
    f.cause.isOuter = true ∧ f.pos.IsIn source.toList := by
  unfold tokenize at h
  cases run : (Scan.start source).run with
  | error fault =>
    rw [run] at h
    cases h
    exact Scan.fault_of_run (P := Scan.Within source.toList) (fun _ _ within => within.step)
      (fun _ _ within => within.fault_startLine) (fun _ _ _ _ within => within.fault_readLexeme)
      (Scan.within_start source) run
  | ok s =>
    rw [run] at h
    have h : s.finish = .error f := h
    have within := (Scan.invariant_run (P := Scan.Within source.toList) (fun _ _ within => within.step)
      (Scan.within_start source) run).1
    unfold Scan.finish at h
    split at h <;> cases h
    exact ⟨rfl, within.pos⟩

end Arbiter.Syntax
