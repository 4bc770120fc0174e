import Arbiter.Dependence.OfFlow
import Arbiter.Proofs.Parsing.LineBreak
import Arbiter.Proofs.Parsing.StmtAgree

/-! Lines without tokens. Behind lines that end, the scan stands at the start of a line whatever follows, a
blank line or a comment leaves it there, and where in the text it stands changes nothing but positions.
Main statement: a text has tokens of the same kinds and the same dependence graph with such a line and
without it. -/

namespace Arbiter.Syntax

/-- Nothing, or lines the last of which ends with a line break that no backslash hides. -/
def IsLines (cs : List Char) : Prop := cs = [] ∨ ∃ front, cs = front ++ ['\n'] ∧ LeavesBreak front

theorem LeavesBreak.suffix {cs ds : List Char} (h : LeavesBreak cs) (part : ds <:+ cs) : LeavesBreak ds :=
  ⟨fun hidden => h.1 (hidden.trans part), fun hidden => h.2 (hidden.trans part)⟩

theorem IsLines.suffix {cs ds : List Char} (h : IsLines cs) (part : ds <:+ cs) : IsLines ds := by
  rcases h with rfl | ⟨front, rfl, leaves⟩
  · exact .inl (List.suffix_nil.1 part)
  · cases ds using List.reverseRecOn with
    | nil => exact .inl rfl
    | append_singleton ds d =>
      obtain ⟨left, split⟩ := part
      rw [← List.append_assoc] at split
      obtain ⟨rfl, last⟩ := List.append_inj' split rfl
      exact .inr ⟨ds, by rw [last], leaves.suffix (List.suffix_append _ _)⟩

/-- A line of blanks, or of blanks and a comment, with its line break. -/
def IsBlankLine (cs : List Char) : Prop :=
  ∃ blanks comment, cs = blanks ++ comment ++ ['\n'] ∧ (∀ c ∈ blanks, c = ' ' ∨ c = '\t' ∨ c = '\x0c') ∧
    (comment = [] ∨ ∃ body, comment = '#' :: body ∧ '\n' ∉ body)

namespace Scan

/-- The scan with more text behind what is left. -/
def followed (s : Scan) (x : List Char) : Scan := { s with rest := s.rest ++ x }

variable {s t : Scan} {x : List Char}

theorem skip_followed {n : Nat} (short : n ≤ s.rest.length) :
    (s.followed x).skip n = (s.skip n).followed x := by
  unfold skip followed
  dsimp only
  rw [List.drop_append_of_le_length short, List.take_append_of_le_length short]

theorem setIndent_followed (width : Nat) :
    (s.followed x).setIndent width = (s.setIndent width).map (·.followed x) := by
  unfold setIndent followed
  dsimp only
  split
  · rfl
  · split <;> rfl

theorem take_followed {n : Nat} (l : Lexeme) (short : n + 1 ≤ s.rest.length) :
    (s.followed x).take n l = (s.take n l).map (·.followed x) := by
  have same : ∀ k, (s.followed x).depthAfter k = s.depthAfter k := fun _ => rfl
  cases l with
  | space => exact congrArg Except.ok (skip_followed short)
  | lineBreak =>
    unfold take
    dsimp only
    rw [skip_followed short]
    show (if s.depth = 0 then _ else _) = _
    split <;> rfl
  | token k =>
    unfold take
    dsimp only
    rw [skip_followed short, same]
    cases s.depthAfter k <;> rfl

theorem rest_take {n : Nat} {l : Lexeme} (h : s.take n l = .ok t) : t.rest = s.rest.drop (n + 1) := by
  cases l with
  | space => cases h; rfl
  | lineBreak =>
    unfold take at h
    dsimp only at h
    split at h <;> cases h <;> rfl
  | token k =>
    unfold take at h
    dsimp only at h
    cases after : s.depthAfter k with
    | error fault =>
      rw [after] at h
      cases h
    | ok depth =>
      rw [after] at h
      cases h
      rfl

def isIndentation (c : Char) : Bool := c = ' ' || c = '\t' || c = '\x0c'

/-- The start of a line behind its indentation, which is `blanks`. -/
def settleLine (s : Scan) (blanks : List Char) : Except Fault Scan :=
  match s.rest with
  | [] => .ok { s with lineStart := false }
  | '\n' :: _ => .ok (s.skip 1)
  | '\r' :: '\n' :: _ => .ok (s.skip 2)
  | '#' :: r =>
    let n := (r.takeWhile (· != '\n')).length
    .ok (s.skip (n + 1 + (r.drop n).length.min 1))
  | _ :: _ => (s.setIndent (indentWidth blanks)).map fun t => { t with lineStart := false }

theorem startLine_eq (s : Scan) : s.startLine =
    (s.skip (s.rest.takeWhile isIndentation).length).settleLine (s.rest.takeWhile isIndentation) := rfl

/-- A line that ends is settled alike whatever stands behind it. -/
theorem settleLine_followed {front blanks : List Char} (rest : s.rest = front ++ ['\n'])
    (start : s.lineStart = true) (h : s.settleLine blanks = .ok t) :
    (∀ x, (s.followed x).settleLine blanks = .ok (t.followed x)) ∧ t.rest <:+ s.rest ∧
      (t.rest = [] → t.lineStart = true) := by
  have wider : ∀ x, (s.followed x).rest = s.rest ++ x := fun _ => rfl
  have skipped : ∀ n, (s.skip n).rest <:+ s.rest ∧ ((s.skip n).rest = [] → (s.skip n).lineStart = true) :=
    fun n => ⟨List.drop_suffix _ _, fun _ => start⟩
  unfold settleLine at h ⊢
  simp only [wider]
  split at h
  · rename_i none
    rw [none] at rest
    simp at rest
  · rename_i r line
    cases h
    refine ⟨fun x => ?_, skipped _⟩
    rw [line]
    refine congrArg Except.ok (skip_followed ?_)
    rw [line]
    exact Nat.succ_le_succ (Nat.zero_le _)
  · rename_i r line
    cases h
    refine ⟨fun x => ?_, skipped _⟩
    rw [line]
    refine congrArg Except.ok (skip_followed ?_)
    rw [line]
    exact Nat.succ_le_succ (Nat.succ_le_succ (Nat.zero_le _))
  · rename_i r line
    cases h
    refine ⟨fun x => ?_, skipped _⟩
    obtain ⟨body, rfl⟩ : ∃ body, r = body ++ ['\n'] := by
      cases front with
      | nil => cases line.symm.trans rest
      | cons c front => exact ⟨front, (List.cons.inj (line.symm.trans rest)).2⟩
    have long : ∀ y, ((body ++ '\n' :: y).takeWhile (· != '\n')).length + 1 +
        ((body ++ '\n' :: y).drop ((body ++ '\n' :: y).takeWhile (· != '\n')).length).length.min 1 =
          (body.takeWhile (· != '\n')).length + 2 := by
      intro y
      rw [takeWhile_break body y (by decide), drop_break body y (List.takeWhile_prefix _),
        List.length_append, List.length_cons]
      exact congrArg (_ + 1 + ·) (Nat.min_eq_right (by omega))
    have further : body ++ ['\n'] ++ x = body ++ '\n' :: x := by rw [List.append_assoc]; rfl
    have short : (body.takeWhile (· != '\n')).length + 2 ≤ s.rest.length := by
      rw [line, List.length_cons, List.length_append]
      exact Nat.succ_le_succ (Nat.succ_le_succ (List.takeWhile_prefix _).length_le)
    rw [line, List.cons_append, further]
    refine congrArg Except.ok ?_
    rw [long x, long [], skip_followed short]
  · rename_i d r noBreak noReturn noComment line
    cases found : s.setIndent (indentWidth blanks) with
    | error fault =>
      rw [found] at h
      cases h
    | ok u =>
      rw [found] at h
      cases h
      have same := rest_setIndent found
      refine ⟨fun x => ?_, same ▸ List.suffix_refl _, fun none => ?_⟩
      · rw [line, List.cons_append]
        split
        · rename_i none
          cases none
        · rename_i same
          exact absurd (List.cons.inj same).1 noBreak
        · rename_i same
          obtain ⟨mark, behind⟩ := List.cons.inj same
          cases r with
          | nil =>
            rw [line, mark] at rest
            have last := congrArg List.getLast? rest
            rw [List.getLast?_append] at last
            cases last
          | cons e r => exact absurd (congrArg (· :: r) (List.cons.inj behind).1) (noReturn r mark)
        · rename_i same
          exact absurd (List.cons.inj same).1 noComment
        · rw [setIndent_followed, found]
          rfl
      · rw [← same, none] at line
        cases line

/-- What the start of a line does with a line that ends hangs on nothing behind it. -/
theorem startLine_followed {front : List Char} (rest : s.rest = front ++ ['\n'])
    (start : s.lineStart = true) (h : s.startLine = .ok t) :
    (∀ x, (s.followed x).startLine = .ok (t.followed x)) ∧ t.rest <:+ s.rest ∧
      (t.rest = [] → t.lineStart = true) := by
  have stop : isIndentation '\n' = false := by decide
  have blanks := fun x => takeWhile_break front x stop
  have short : (front.takeWhile isIndentation).length ≤ s.rest.length := by
    rw [rest, List.length_append]
    exact Nat.le_trans (List.takeWhile_prefix _).length_le (Nat.le_add_right _ _)
  have left : (s.skip (front.takeWhile isIndentation).length).rest =
      front.drop (front.takeWhile isIndentation).length ++ ['\n'] := by
    rw [rest_skip, rest, drop_break _ _ (List.takeWhile_prefix _)]
  rw [startLine_eq, rest, blanks] at h
  obtain ⟨same, part, settled⟩ := settleLine_followed left start h
  refine ⟨fun x => ?_, part.trans (List.drop_suffix _ _), settled⟩
  have wider : (s.followed x).rest = front ++ '\n' :: x := by
    show s.rest ++ x = _
    rw [rest, List.append_assoc]
    rfl
  rw [startLine_eq, wider, blanks, skip_followed short, same]

/-- A lexeme before the end of a line is taken alike whatever stands behind the line. -/
theorem readLexeme_followed {c : Char} {r : List Char} {front : List Char} (rest : s.rest = c :: r)
    (lines : c :: r = front ++ ['\n']) (leaves : LeavesBreak front)
    (h : s.readLexeme c r = .ok t) :
    (∀ x, (s.followed x).readLexeme c (r ++ x) = .ok (t.followed x)) ∧ t.rest <:+ s.rest ∧
      (t.rest = [] → t.lineStart = true ∨ 0 < t.depth) := by
  unfold readLexeme at h ⊢
  cases found : lexeme c r with
  | error fault =>
    rw [found] at h
    cases h
  | ok y =>
    obtain ⟨l, n⟩ := y
    rw [found] at h
    have h : s.take n l = .ok t := h
    obtain ⟨goes, short, later⟩ : (∀ x, lexeme c (r ++ x) = .ok (l, n)) ∧ n ≤ r.length ∧
        (r.drop n = [] → c = '\n' ∧ l = .lineBreak) := by
      by_cases feed : c = '\n'
      · subst feed
        have found : Except.ok (Lexeme.lineBreak, 0) = .ok (l, n) := found
        cases found
        exact ⟨fun x => rfl, Nat.zero_le _, fun _ => ⟨rfl, rfl⟩⟩
      · cases front with
        | nil => exact absurd (List.cons.inj lines).1 feed
        | cons d cs =>
          obtain ⟨rfl, split⟩ := List.cons.inj lines
          have split : r = cs ++ ['\n'] := split
          subst split
          obtain ⟨short, again⟩ := lexeme_break feed leaves found
          refine ⟨fun x => ?_, ?_, fun none => ?_⟩
          · rw [List.append_assoc]
            exact again x
          · rw [List.length_append]
            exact Nat.le_add_right_of_le short
          · rw [List.drop_append_of_le_length short] at none
            simp at none
    have left : t.rest = r.drop n := by rw [rest_take h, rest, List.drop_succ_cons]
    refine ⟨fun x => ?_, ?_, fun none => ?_⟩
    · rw [goes x]
      refine (take_followed l ?_).trans (by rw [h]; rfl)
      rw [rest]
      exact Nat.succ_le_succ short
    · rw [left, rest]
      exact (List.drop_suffix _ _).trans (List.suffix_cons _ _)
    · obtain ⟨-, rfl⟩ := later (left ▸ none)
      unfold take at h
      dsimp only at h
      split at h <;> cases h
      · exact .inl rfl
      · exact .inr (Nat.pos_of_ne_zero ‹_›)

/-- Lines that end leave a scan at the start of a line, whatever follows. -/
theorem run_followed (lines : IsLines s.rest) (settled : s.rest = [] → s.lineStart = true ∨ 0 < s.depth)
    (run : s.run = .ok t) (flat : t.depth = 0) :
    ∃ u : Scan, u.lineStart = true ∧ u.rest = [] ∧ ∀ x, (s.followed x).run = (u.followed x).run := by
  induction s using Scan.run.induct with
  | case1 s start u step _ ih =>
    rcases lines with none | ⟨front, rest, leaves⟩
    · exact ⟨s, start, none, fun _ => rfl⟩
    · obtain ⟨again, part, later⟩ := startLine_followed rest start step
      rw [run_startLine start, step] at run
      obtain ⟨v, start', none, same⟩ :=
        ih (IsLines.suffix (.inr ⟨front, rest, leaves⟩) part) (fun none => .inl (later none)) run
      refine ⟨v, start', none, fun x => ?_⟩
      rw [run_startLine (s := s.followed x) start, again x]
      exact same x
  | case2 s start fault step =>
    rw [run_startLine start, step] at run
    cases run
  | case3 s start rest =>
    have inLine : s.lineStart = false := by simpa using start
    rw [run_end inLine rest] at run
    cases run
    rcases settled rest with atStart | deep
    · exact absurd atStart start
    · omega
  | case4 s start c r rest u step _ ih =>
    have inLine : s.lineStart = false := by simpa using start
    rw [run_readLexeme inLine rest, step] at run
    rcases lines with none | ⟨front, split, leaves⟩
    · rw [rest] at none
      cases none
    · obtain ⟨again, part, later⟩ := readLexeme_followed rest (rest ▸ split) leaves step
      obtain ⟨v, start', none, same⟩ := ih (IsLines.suffix (.inr ⟨front, split, leaves⟩) part) later run
      refine ⟨v, start', none, fun x => ?_⟩
      have wider : (s.followed x).rest = c :: (r ++ x) := congrArg (· ++ x) rest
      rw [run_readLexeme (s := s.followed x) inLine wider, again x]
      exact same x
  | case5 s start c r rest fault step =>
    rw [run_readLexeme (by simpa using start) rest, step] at run
    cases run

/-- A blank line is passed over at the start of a line. -/
theorem startLine_blankLine {line : List Char} (blank : IsBlankLine line) (rest : s.rest = line ++ x) :
    s.startLine = .ok (s.skip line.length) := by
  obtain ⟨blanks, comment, rfl, indent, remark⟩ := blank
  have all : ∀ c ∈ blanks, isIndentation c = true := by
    intro c member
    rcases indent c member with rfl | rfl | rfl <;> rfl
  have stop : Off isIndentation (comment ++ '\n' :: x) := by
    rcases remark with rfl | ⟨body, rfl, -⟩
    · exact off_cons (by decide) _
    · exact off_cons (by decide) _
  have split : s.rest = blanks ++ (comment ++ '\n' :: x) := by rw [rest]; simp
  have left : (s.skip blanks.length).rest = comment ++ '\n' :: x := by
    rw [rest_skip, split, List.drop_left]
  rw [startLine_eq, split, takeWhile_append_off all stop]
  unfold settleLine
  rw [left]
  rcases remark with rfl | ⟨body, rfl, onLine⟩
  · refine congrArg Except.ok ?_
    rw [skip_skip]
    simp
  · have whole : (body ++ '\n' :: x).takeWhile (· != '\n') = body := by
      refine takeWhile_append_off (fun c member => ?_) (off_cons (by decide) _)
      have other : c ≠ '\n' := by
        rintro rfl
        exact onLine member
      simpa using other
    have one : ('\n' :: x).length.min 1 = 1 := Nat.min_eq_right (by simp)
    have long : ((body ++ '\n' :: x).takeWhile (· != '\n')).length + 1 +
        ((body ++ '\n' :: x).drop ((body ++ '\n' :: x).takeWhile (· != '\n')).length).length.min 1 =
          body.length + 2 := by
      rw [whole, List.drop_left, one]
    refine congrArg Except.ok ((congrArg _ long).trans ?_)
    rw [skip_skip]
    simp [Nat.add_assoc]

/-! Where a scan stands. -/

/-- The scans differ in positions only. -/
structure SameShape (s t : Scan) : Prop where
  rest : s.rest = t.rest
  indents : s.indents = t.indents
  depth : s.depth = t.depth
  lineStart : s.lineStart = t.lineStart
  kinds : kindsOf s.tokens = kindsOf t.tokens

theorem SameShape.skip (h : SameShape s t) (n : Nat) : SameShape (s.skip n) (t.skip n) :=
  ⟨congrArg (List.drop n) h.rest, h.indents, h.depth, h.lineStart, h.kinds⟩

theorem SameShape.settle (h : SameShape s t) (atStart : Bool) :
    SameShape { s with lineStart := atStart } { t with lineStart := atStart } :=
  ⟨h.rest, h.indents, h.depth, rfl, h.kinds⟩

theorem kindsOf_cons {ts us : List Token} (h : kindsOf ts = kindsOf us) (k : TokenKind) (p q : Position) :
    kindsOf (⟨k, p⟩ :: ts) = kindsOf (⟨k, q⟩ :: us) := congrArg (k :: ·) h

theorem sameOutcome_setIndent (h : SameShape s t) (width : Nat) :
    SameOutcome SameShape (s.setIndent width) (t.setIndent width) := by
  unfold setIndent
  dsimp only
  rw [h.indents]
  split
  · exact .ok ⟨h.rest, rfl, h.depth, h.lineStart, kindsOf_cons h.kinds _ _ _⟩
  · split
    · refine .ok ⟨h.rest, rfl, h.depth, h.lineStart, ?_⟩
      have kinds := h.kinds
      simp only [kindsOf, List.map_append, List.map_map] at kinds ⊢
      exact congrArg₂ (· ++ ·) rfl kinds
    · exact .error rfl

theorem sameOutcome_startLine (h : SameShape s t) : SameOutcome SameShape s.startLine t.startLine := by
  have settle : ∀ blanks {s t}, SameShape s t →
      SameOutcome SameShape (s.settleLine blanks) (t.settleLine blanks) := by
    intro blanks s t h
    unfold settleLine
    rw [h.rest]
    split
    · exact .ok (h.rest ▸ h.settle false)
    · exact .ok (h.skip _)
    · exact .ok (h.skip _)
    · exact .ok (h.skip _)
    · exact (sameOutcome_setIndent h _).bind fun _ _ same => .ok (same.settle false)
  rw [startLine_eq, startLine_eq, h.rest]
  exact settle _ (h.skip _)

theorem sameOutcome_depthAfter (h : SameShape s t) (k : TokenKind) :
    SameOutcome Eq (s.depthAfter k) (t.depthAfter k) := by
  unfold depthAfter
  rw [h.depth]
  split
  · exact .ok rfl
  · split
    · split
      · exact .error rfl
      · exact .ok rfl
    · exact .ok rfl

theorem sameOutcome_take (h : SameShape s t) (n : Nat) (l : Lexeme) :
    SameOutcome SameShape (s.take n l) (t.take n l) := by
  have past := h.skip (n + 1)
  cases l with
  | space => exact .ok past
  | lineBreak =>
    unfold take
    dsimp only
    rw [h.depth]
    split
    · exact .ok ⟨past.rest, past.indents, past.depth, rfl, kindsOf_cons h.kinds _ _ _⟩
    · exact .ok past
  | token k =>
    refine (sameOutcome_depthAfter h k).bind fun d e same => ?_
    exact .ok ⟨past.rest, past.indents, same, past.lineStart, kindsOf_cons h.kinds _ _ _⟩

theorem sameOutcome_readLexeme (h : SameShape s t) (c : Char) (r : List Char) :
    SameOutcome SameShape (s.readLexeme c r) (t.readLexeme c r) := by
  unfold readLexeme
  split
  · exact sameOutcome_take h _ _
  · exact .error rfl

theorem sameOutcome_run (h : SameShape s t) : SameOutcome SameShape s.run t.run := by
  induction s using Scan.run.induct generalizing t with
  | case1 s start u step _ ih =>
    have line := sameOutcome_startLine h
    rw [run_startLine start, run_startLine (h.lineStart ▸ start), step]
    rw [step] at line
    generalize t.startLine = y at line ⊢
    cases line with
    | ok same => exact ih same
  | case2 s start fault step =>
    have line := sameOutcome_startLine h
    rw [run_startLine start, run_startLine (h.lineStart ▸ start), step]
    rw [step] at line
    generalize t.startLine = y at line ⊢
    cases line with
    | error cause => exact .error cause
  | case3 s start rest =>
    have inLine : s.lineStart = false := by simpa using start
    rw [run_end inLine rest, run_end (h.lineStart ▸ inLine) (h.rest ▸ rest)]
    exact .ok h
  | case4 s start c r rest u step _ ih =>
    have inLine : s.lineStart = false := by simpa using start
    have read := sameOutcome_readLexeme h c r
    rw [run_readLexeme inLine rest, run_readLexeme (h.lineStart ▸ inLine) (h.rest ▸ rest), step]
    rw [step] at read
    generalize t.readLexeme c r = y at read ⊢
    cases read with
    | ok same => exact ih same
  | case5 s start c r rest fault step =>
    have inLine : s.lineStart = false := by simpa using start
    have read := sameOutcome_readLexeme h c r
    rw [run_readLexeme inLine rest, run_readLexeme (h.lineStart ▸ inLine) (h.rest ▸ rest), step]
    rw [step] at read
    generalize t.readLexeme c r = y at read ⊢
    cases read with
    | error cause => exact .error cause

theorem sameOutcome_finish (h : SameShape s t) :
    SameOutcome (fun ts us => kindsOf ts = kindsOf us) s.finish t.finish := by
  have kinds := h.kinds
  unfold finish
  rw [h.depth]
  split
  · exact .error rfl
  · refine .ok ?_
    rw [h.indents]
    generalize s.tokens = ts at kinds ⊢
    generalize t.tokens = us at kinds ⊢
    cases ts with
    | nil =>
      cases us with
      | nil => simp [kindsOf]
      | cons u us => cases kinds
    | cons v ts =>
      cases us with
      | nil => cases kinds
      | cons u us =>
        obtain ⟨k, p⟩ := v
        obtain ⟨k', q⟩ := u
        obtain ⟨rfl, later⟩ := List.cons.inj kinds
        cases k <;> simp [kindsOf, later]

end Scan

/-- A blank line behind lines that end changes no token but its place. -/
theorem sameOutcome_tokenize {a c b : String} {ts : List Token} (before : tokenize a = .ok ts)
    (lines : IsLines a.toList) (blank : IsBlankLine c.toList) :
    SameOutcome (fun ts us => kindsOf ts = kindsOf us) (tokenize (a ++ c ++ b)) (tokenize (a ++ b)) := by
  obtain ⟨s, run, finish⟩ := Scan.exists_run_of_tokenize before
  have flat : s.depth = 0 := by
    unfold Scan.finish at finish
    split at finish
    · cases finish
    · omega
  obtain ⟨u, start, none, same⟩ := Scan.run_followed (s := Scan.start a) lines (fun _ => .inl rfl) run flat
  have split : ∀ x : String, (Scan.start (a ++ x)).run = (u.followed x.toList).run := by
    intro x
    rw [← same x.toList]
    refine congrArg Scan.run ?_
    unfold Scan.start Scan.followed
    rw [String.toList_append]
  have rest : (u.followed (c ++ b).toList).rest = c.toList ++ b.toList := by
    show u.rest ++ _ = _
    rw [none, String.toList_append, List.nil_append]
  have shape : ((u.followed (c ++ b).toList).skip c.toList.length).SameShape (u.followed b.toList) := by
    refine ⟨?_, rfl, rfl, rfl, rfl⟩
    rw [Scan.rest_skip, rest, List.drop_left]
    show _ = u.rest ++ _
    rw [none, List.nil_append]
  unfold tokenize
  rw [String.append_assoc, split, split, Scan.run_startLine (s := u.followed _) start,
    Scan.startLine_blankLine blank rest]
  exact (Scan.sameOutcome_run shape).bind fun _ _ => Scan.sameOutcome_finish

end Arbiter.Syntax

namespace Arbiter.Dependence

open Arbiter.Syntax

/-- Texts with tokens of the same kinds have the same graph, or none for the same reason. -/
theorem sameOutcome_ofSource {source source' : String}
    (tokens : SameOutcome (fun ts us => kindsOf ts = kindsOf us) (tokenize source) (tokenize source')) :
    SameOutcome Eq (Graph.ofSource source) (Graph.ofSource source') := by
  have parsed := sameOutcome_parseProgram tokens
  unfold Graph.ofSource
  generalize parseProgram source = x at parsed ⊢
  generalize parseProgram source' = y at parsed ⊢
  cases parsed with
  | ok value => exact .ok (by rw [value])
  | error cause => exact .error cause

/-- A blank line or a comment behind lines that end goes unseen. -/
theorem blankLine_unseen {a c b : String} {ts : List Token} (before : tokenize a = .ok ts)
    (lines : IsLines a.toList) (blank : IsBlankLine c.toList) :
    SameOutcome (fun ts us => kindsOf ts = kindsOf us) (tokenize (a ++ c ++ b)) (tokenize (a ++ b)) ∧
      SameOutcome Eq (Graph.ofSource (a ++ c ++ b)) (Graph.ofSource (a ++ b)) :=
  have tokens := sameOutcome_tokenize before lines blank
  ⟨tokens, sameOutcome_ofSource tokens⟩

/-- A comment that is indented. -/
theorem blankLine_unseen_indented : ∃ ts, tokenize "1\n" = .ok ts ∧
    (tokenize ("1\n" ++ "2\n")).toOption.isSome = true ∧
    SameOutcome (fun ts us => kindsOf ts = kindsOf us)
      (tokenize ("1\n" ++ " \t# end?\n" ++ "2\n")) (tokenize ("1\n" ++ "2\n")) ∧
    SameOutcome Eq (Graph.ofSource ("1\n" ++ " \t# end?\n" ++ "2\n")) (Graph.ofSource ("1\n" ++ "2\n")) := by
  have known : (tokenize "1\n").toOption.isSome = true := by decide +kernel
  have lines : IsLines "1\n".toList := .inr ⟨['1'], rfl, by decide, by decide⟩
  have blank : IsBlankLine " \t# end?\n".toList :=
    ⟨[' ', '\t'], "# end?".toList, rfl, by simp, .inr ⟨" end?".toList, rfl, by decide⟩⟩
  cases read : tokenize "1\n" with
  | error fault =>
    rw [read] at known
    cases known
  | ok ts => exact ⟨ts, rfl, by decide +kernel, blankLine_unseen read lines blank⟩

end Arbiter.Dependence
