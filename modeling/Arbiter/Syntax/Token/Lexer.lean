import Arbiter.Syntax.Token.Lexeme

/-! The tokens of a source text. Indentation becomes `indent` and `dedent` tokens, line breaks
inside brackets vanish, and so do blank lines. -/

namespace Arbiter.Syntax

/-- A scan in progress. -/
structure Scan where
  /-- The characters not read yet. -/
  rest : List Char
  pos : Position
  /-- The widths of the open indented blocks, innermost first. -/
  indents : List Nat
  /-- The number of open brackets. -/
  depth : Nat
  /-- The indentation of the current line has not been read yet. -/
  lineStart : Bool
  /-- The tokens found so far, last first. -/
  tokens : List Token

namespace Scan

def start (source : String) : Scan := ⟨source.toList, .start, [], 0, true, []⟩

/-- The work left: the characters, and whether the indentation of the line has to be read. -/
def size (s : Scan) : Nat := 2 * s.rest.length + s.lineStart.toNat

/-- Reads past the next `n` characters. -/
def skip (s : Scan) (n : Nat) : Scan :=
  { s with rest := s.rest.drop n, pos := s.pos.advance (s.rest.take n) }

/-- The column behind the blanks `cs`: a tab goes to the next multiple of eight and a form feed back
to the margin. -/
def indentWidth (cs : List Char) : Nat :=
  cs.foldl (fun w c => if c = '\t' then (w / 8 + 1) * 8 else if c = '\x0c' then 0 else w + 1) 0

/-- Opens or closes blocks so that the innermost one is `width` wide. -/
def setIndent (s : Scan) (width : Nat) : Except Fault Scan :=
  let current := s.indents.headD 0
  if width > current then
    .ok { s with indents := width :: s.indents, tokens := ⟨.indent, s.pos⟩ :: s.tokens }
  else
    let closed := s.indents.takeWhile (· > width)
    let kept := s.indents.drop closed.length
    if kept.headD 0 = width then
      .ok { s with
        indents := kept
        tokens := closed.map (fun _ => ⟨.dedent, s.pos⟩) ++ s.tokens }
    else .error ⟨.badUnindent, s.pos⟩

/-- Reads the indentation of a line. A line without tokens is passed over with its line break, and
the next one is then at its start. -/
def startLine (s : Scan) : Except Fault Scan :=
  let blanks := s.rest.takeWhile fun c => c = ' ' || c = '\t' || c = '\x0c'
  let s' := s.skip blanks.length
  match s'.rest with
  | [] => .ok { s' with lineStart := false }
  | '\n' :: _ => .ok (s'.skip 1)
  | '\r' :: '\n' :: _ => .ok (s'.skip 2)
  | '#' :: r =>
    let n := (r.takeWhile (· != '\n')).length
    .ok (s'.skip (n + 1 + (r.drop n).length.min 1))
  | _ :: _ => (s'.setIndent (indentWidth blanks)).map fun t => { t with lineStart := false }

/-- The number of open brackets behind a token. -/
def depthAfter (s : Scan) (kind : TokenKind) : Except Fault Nat :=
  if kind = .op "(" ∨ kind = .op "[" ∨ kind = .op "\x7b" then .ok (s.depth + 1)
  else
    match [")", "]", "\x7d"].find? (kind = .op ·) with
    | some bracket =>
      if s.depth = 0 then .error ⟨.unmatchedBracket bracket, s.pos⟩ else .ok (s.depth - 1)
    | none => .ok s.depth

/-- Takes in a lexeme that starts here and has `further` characters after its first. -/
def take (s : Scan) (further : Nat) : Lexeme → Except Fault Scan
  | .space => .ok (s.skip (further + 1))
  | .lineBreak =>
    if s.depth = 0 then
      .ok { s.skip (further + 1) with lineStart := true, tokens := ⟨.newline, s.pos⟩ :: s.tokens }
    else .ok (s.skip (further + 1))
  | .token kind =>
    (s.depthAfter kind).map fun depth =>
      { s.skip (further + 1) with depth, tokens := ⟨kind, s.pos⟩ :: s.tokens }

/-- Takes in the lexeme at the front of the text, which is not at its end. -/
def readLexeme (s : Scan) (c : Char) (r : List Char) : Except Fault Scan :=
  match lexeme c r with
  | .ok (found, further) => s.take further found
  | .error (cause, before) => .error ⟨cause, s.pos.advance ((c :: r).take before)⟩

@[simp] theorem rest_skip (s : Scan) (n : Nat) : (s.skip n).rest = s.rest.drop n := rfl

@[simp] theorem lineStart_skip (s : Scan) (n : Nat) : (s.skip n).lineStart = s.lineStart := rfl

theorem rest_setIndent {s t : Scan} {width : Nat} (h : s.setIndent width = .ok t) :
    t.rest = s.rest := by
  simp only [setIndent] at h
  split at h
  · cases h; rfl
  · split at h
    · cases h; rfl
    · cases h

theorem length_skip_lt {s : Scan} {c : Char} {r : List Char} {n : Nat} (hs : s.rest = c :: r)
    (hn : 0 < n) : (s.skip n).rest.length < s.rest.length := by
  rw [rest_skip, List.length_drop, hs, List.length_cons]
  omega

theorem length_skip_le (s : Scan) (n : Nat) : (s.skip n).rest.length ≤ s.rest.length := by
  rw [rest_skip, List.length_drop]
  omega

/-- Work shrinks with the text, whether or not another line is begun. -/
theorem size_lt_of_rest {s t : Scan} (h : t.rest.length < s.rest.length) : t.size < s.size := by
  have := t.lineStart.toNat_le
  simp only [size]
  omega

/-- Work shrinks once the indentation of the line is settled. -/
theorem size_lt_of_lineStart {s t : Scan} (hs : s.lineStart = true) (ht : t.lineStart = false)
    (h : t.rest.length ≤ s.rest.length) : t.size < s.size := by
  simp only [size, hs, ht, Bool.toNat_true, Bool.toNat_false]
  omega

theorem size_startLine {s t : Scan} (hs : s.lineStart = true) (h : s.startLine = .ok t) :
    t.size < s.size := by
  simp only [startLine] at h
  generalize (s.rest.takeWhile fun c => c = ' ' || c = '\t' || c = '\x0c').length = n at h
  have hn := s.length_skip_le n
  split at h
  · cases h
    exact size_lt_of_lineStart hs rfl hn
  · rename_i hr
    cases h
    exact size_lt_of_rest (Nat.lt_of_lt_of_le (length_skip_lt hr (by decide)) hn)
  · rename_i hr
    cases h
    exact size_lt_of_rest (Nat.lt_of_lt_of_le (length_skip_lt hr (by decide)) hn)
  · rename_i hr
    cases h
    exact size_lt_of_rest (Nat.lt_of_lt_of_le (length_skip_lt hr (by omega)) hn)
  · cases hi : (s.skip n).setIndent
      (indentWidth (s.rest.takeWhile fun c => c = ' ' || c = '\t' || c = '\x0c')) with
    | error e =>
      rw [hi] at h
      cases h
    | ok u =>
      rw [hi] at h
      cases h
      exact size_lt_of_lineStart hs rfl (rest_setIndent hi ▸ hn)

theorem size_take {s t : Scan} {c : Char} {r : List Char} {further : Nat} {found : Lexeme}
    (hs : s.rest = c :: r) (h : s.take further found = .ok t) : t.size < s.size := by
  have shorter := length_skip_lt hs further.succ_pos
  cases found with
  | space =>
    cases h
    exact size_lt_of_rest shorter
  | lineBreak =>
    simp only [take] at h
    split at h <;> cases h <;> exact size_lt_of_rest shorter
  | token kind =>
    simp only [take] at h
    cases hd : s.depthAfter kind with
    | error e =>
      rw [hd] at h
      cases h
    | ok d =>
      rw [hd] at h
      cases h
      exact size_lt_of_rest shorter

theorem size_readLexeme {s t : Scan} {c : Char} {r : List Char} (hs : s.rest = c :: r)
    (h : s.readLexeme c r = .ok t) : t.size < s.size := by
  simp only [readLexeme] at h
  split at h
  · exact size_take hs h
  · cases h

/-- Reads the rest of the text: every round takes a character or settles the indentation of a
line. -/
def run (s : Scan) : Except Fault Scan :=
  if hs : s.lineStart = true then
    match h : s.startLine with
    | .ok t =>
      have := size_startLine hs h
      run t
    | .error fault => .error fault
  else
    match hr : s.rest with
    | [] => .ok s
    | c :: r =>
      match h : s.readLexeme c r with
      | .ok t =>
        have := size_readLexeme hr h
        run t
      | .error fault => .error fault
termination_by s.size

/-- Closes the last line and the open blocks. -/
def finish (s : Scan) : Except Fault (List Token) :=
  if s.depth > 0 then .error ⟨.endInBrackets, s.pos⟩
  else
    let tokens :=
      match s.tokens with
      | [] | ⟨.newline, _⟩ :: _ | ⟨.dedent, _⟩ :: _ => s.tokens
      | _ => ⟨.newline, s.pos⟩ :: s.tokens
    .ok (tokens.reverse ++ s.indents.map (fun _ => ⟨.dedent, s.pos⟩) ++ [⟨.endMarker, s.pos⟩])

end Scan

/-- The tokens of a source text; the last one is its end marker. -/
def tokenize (source : String) : Except Fault (List Token) :=
  (Scan.start source).run >>= Scan.finish

end Arbiter.Syntax
