import Arbiter.Proofs.Parsing.Spelling

/-! How the tokens of a source lie. Main statement: blocks and brackets are opened and closed in turn,
lines and blocks begin and end outside brackets and where a line does, and no token stands before the
one that it follows. -/

namespace Arbiter.Syntax

/-- `p` is not behind `q`. -/
def Position.le (p q : Position) : Prop := p.line < q.line ∨ p.line = q.line ∧ p.col ≤ q.col

namespace Position

theorem le_refl (p : Position) : p.le p := .inr ⟨rfl, Nat.le_refl _⟩

theorem le_trans {p q r : Position} (h : p.le q) (h' : q.le r) : p.le r := by
  unfold le at *
  omega

theorem le_step (p : Position) (c : Char) : p.le (p.step c) := by
  unfold step
  split
  · exact .inl (Nat.lt_succ_self _)
  · exact .inr ⟨rfl, Nat.le_succ _⟩

theorem le_advance (p : Position) (cs : List Char) : p.le (p.advance cs) := by
  induction cs generalizing p with
  | nil => exact p.le_refl
  | cons c cs ih => exact le_trans (p.le_step c) (ih _)

end Position

namespace TokenKind

def opensBracket (k : TokenKind) : Bool := k = op "(" ∨ k = op "[" ∨ k = op "\x7b"

def closesBracket (k : TokenKind) : Bool := k = op ")" ∨ k = op "]" ∨ k = op "\x7d"

/-- The token is not written in the source, but comes from its lines. -/
def isLayout : TokenKind → Bool
  | newline | indent | dedent | endMarker => true
  | _ => false

end TokenKind

namespace Token

def opensBlock (t : Token) : Bool := t.kind = .indent

def closesBlock (t : Token) : Bool := t.kind = .dedent

def opensBracket (t : Token) : Bool := t.kind.opensBracket

def closesBracket (t : Token) : Bool := t.kind.closesBracket

end Token

/-- As many as `n` more tokens open something than close it, and no fewer do on the way. -/
structure Pending (opens closes : Token → Bool) (n : Nat) (ts : List Token) : Prop where
  never_below : ∀ before, before <+: ts → before.countP closes ≤ before.countP opens
  total : ts.countP opens = ts.countP closes + n

/-- What tokens open is closed in the opposite order, all of it. -/
inductive Nested (opens closes : Token → Bool) : List Token → Prop
  | nil : Nested opens closes []
  | other {t : Token} {ts : List Token} (noOpen : opens t = false) (noClose : closes t = false)
      (rest : Nested opens closes ts) : Nested opens closes (t :: ts)
  | pair {first last : Token} {inner rest : List Token} (opening : opens first = true)
      (closing : closes last = true) (inside : Nested opens closes inner)
      (after : Nested opens closes rest) : Nested opens closes (first :: (inner ++ last :: rest))

/-- The place of a token behind those before it. -/
structure Fits (before : List Token) (t : Token) : Prop where
  flat : t.kind.isLayout = true → Pending Token.opensBracket Token.closesBracket 0 before
  indent : t.kind = .indent → before = [] ∨ ∃ u ∈ before.getLast?, u.kind = .newline
  dedent : t.kind = .dedent → ∃ u ∈ before.getLast?, u.kind = .newline ∨ u.kind = .dedent
  later : ∀ u ∈ before, u.pos.le t.pos

/-- Every token has its place behind those before it. -/
def AllFit (ts : List Token) : Prop := ∀ before t after, ts = before ++ t :: after → Fits before t

/-- Tokens as the lexer lays them out. -/
structure WellLaid (ts : List Token) : Prop where
  ended : ∃ body pos, ts = body ++ [⟨.endMarker, pos⟩] ∧ ∀ t ∈ body, t.kind ≠ .endMarker
  blocks : Nested Token.opensBlock Token.closesBlock ts
  brackets : Pending Token.opensBracket Token.closesBracket 0 ts
  fit : AllFit ts

section Nesting

variable {opens closes : Token → Bool} {n m : Nat} {t : Token} {ts : List Token}

theorem pending_nil : Pending opens closes 0 [] :=
  ⟨fun _ h => by rw [List.prefix_nil.1 h]; exact Nat.le_refl _, rfl⟩

/-- One more token opens, closes or does neither. -/
theorem Pending.concat (h : Pending opens closes n ts)
    (change : n + (opens t).toNat = m + (closes t).toNat) : Pending opens closes m (ts ++ [t]) := by
  have total : (ts ++ [t]).countP opens = (ts ++ [t]).countP closes + m := by
    have before := h.total
    have one : ∀ f : Token → Bool, [t].countP f = (f t).toNat := by
      intro f
      cases last : f t <;> simp [last]
    simp only [List.countP_append, one]
    omega
  refine ⟨fun before front => ?_, total⟩
  rcases List.prefix_concat_iff.1 front with rfl | front
  · omega
  · exact h.never_below before front

/-- Tokens that close `n` things opened before them. -/
inductive Closing (opens closes : Token → Bool) : Nat → List Token → Prop
  | done {ts : List Token} (nested : Nested opens closes ts) : Closing opens closes 0 ts
  | close {n : Nat} {last : Token} {inner rest : List Token} (inside : Nested opens closes inner)
      (closing : closes last = true) (after : Closing opens closes n rest) :
      Closing opens closes (n + 1) (inner ++ last :: rest)

theorem Closing.other (noOpen : opens t = false) (noClose : closes t = false)
    (h : Closing opens closes n ts) : Closing opens closes n (t :: ts) := by
  cases h with
  | done nested => exact .done (.other noOpen noClose nested)
  | close inside closing after => exact .close (.other noOpen noClose inside) closing after

/-- A token that opens something makes one pair with the first that closes it. -/
theorem Closing.pair (opening : opens t = true) (h : Closing opens closes (n + 1) ts) :
    Closing opens closes n (t :: ts) := by
  cases h with
  | close inside closing after =>
    cases after with
    | done nested => exact .done (.pair opening closing inside nested)
    | @close _ last inner rest inside' closing' after =>
      have joined := Closing.close (.pair opening closing inside inside') closing' after
      simpa using joined

theorem closing_of_counts (apart : ∀ t, opens t = true → closes t = false)
    (below : ∀ before, before <+: ts → before.countP closes ≤ before.countP opens + n)
    (total : ts.countP opens + n = ts.countP closes) : Closing opens closes n ts := by
  induction ts generalizing n with
  | nil =>
    obtain rfl : n = 0 := by simpa using total
    exact .done .nil
  | cons t ts ih =>
    have inner : ∀ before, before <+: ts → (t :: before).countP closes ≤ (t :: before).countP opens + n :=
      fun before front => below _ (List.cons_prefix_cons.2 ⟨rfl, front⟩)
    simp only [List.countP_cons] at inner total
    cases opening : opens t with
    | true =>
      simp only [opening, apart t opening, if_true, Bool.false_eq_true, if_false] at inner total
      refine .pair opening (ih (fun before front => ?_) (by omega))
      have := inner before front
      omega
    | false =>
      cases closing : closes t with
      | false =>
        simp only [opening, closing, Bool.false_eq_true, if_false] at inner total
        exact .other opening closing (ih inner total)
      | true =>
        simp only [opening, closing, if_true, Bool.false_eq_true, if_false] at inner total
        obtain ⟨m, rfl⟩ : ∃ m, n = m + 1 := by
          have first := inner [] List.nil_prefix
          simp only [List.countP_nil] at first
          exact ⟨n - 1, by omega⟩
        refine .close .nil closing (ih (fun before front => ?_) (by omega))
        have := inner before front
        omega

/-- Counts are enough where there is one kind of brackets. -/
theorem Pending.nested (apart : ∀ t, opens t = true → closes t = false)
    (h : Pending opens closes 0 ts) : Nested opens closes ts := by
  have closing : Closing opens closes 0 ts := closing_of_counts apart h.never_below h.total
  cases closing with
  | done nested => exact nested

end Nesting

theorem AllFit.concat {ts : List Token} {t : Token} (h : AllFit ts) (last : Fits ts t) :
    AllFit (ts ++ [t]) := by
  intro before u after same
  rcases List.eq_nil_or_concat after with rfl | ⟨after, v, rfl⟩
  · obtain ⟨rfl, one⟩ := List.append_inj' same rfl
    obtain rfl := List.singleton_inj.1 one
    exact last
  · have same : ts ++ [t] = (before ++ u :: after) ++ [v] := by simpa using same
    exact h before u after (List.append_inj' same rfl).1

/-- Tokens laid out up to a place, where `blocks` blocks and `brackets` brackets are open. -/
structure Laid (ts : List Token) (blocks brackets : Nat) (pos : Position) : Prop where
  blocks : Pending Token.opensBlock Token.closesBlock blocks ts
  brackets : Pending Token.opensBracket Token.closesBracket brackets ts
  body : ∀ t ∈ ts, t.kind ≠ .endMarker
  fit : AllFit ts
  early : ∀ t ∈ ts, t.pos.le pos

/-- The last token, if there is one, ends a line or a block. -/
def EndsLine (ts : List Token) : Prop := ∀ u ∈ ts.getLast?, u.kind = .newline ∨ u.kind = .dedent

namespace Laid

variable {ts : List Token} {n n' d d' : Nat} {p q : Position} {k : TokenKind}

theorem later (h : Laid ts n d p) (le : p.le q) : Laid ts n d q :=
  { h with early := fun t ht => Position.le_trans (h.early t ht) le }

theorem fits (h : Laid ts n d p) (flat : k.isLayout = true → d = 0)
    (indent : k = .indent → ∀ u ∈ ts.getLast?, u.kind = .newline)
    (dedent : k = .dedent → EndsLine ts ∧ 0 < n) : Fits ts ⟨k, p⟩ := by
  refine ⟨fun layout => flat layout ▸ h.brackets, fun same => ?_, fun same => ?_, h.early⟩
  · cases last : ts.getLast? with
    | none => exact .inl (List.getLast?_eq_none_iff.1 last)
    | some u => exact .inr ⟨u, rfl, indent same u last⟩
  · obtain ⟨line, some⟩ := dedent same
    cases last : ts.getLast? with
    | none =>
      have counts := h.blocks.total
      rw [List.getLast?_eq_none_iff.1 last] at counts
      simp only [List.countP_nil] at counts
      omega
    | some u => exact ⟨u, rfl, line u last⟩

theorem concat (h : Laid ts n d p) (fits : Fits ts ⟨k, p⟩) (noEnd : k ≠ .endMarker)
    (blocks : n + (Token.opensBlock ⟨k, p⟩).toNat = n' + (Token.closesBlock ⟨k, p⟩).toNat)
    (brackets : d + k.opensBracket.toNat = d' + k.closesBracket.toNat) :
    Laid (ts ++ [⟨k, p⟩]) n' d' p := by
  refine ⟨h.blocks.concat blocks, h.brackets.concat brackets, ?_, h.fit.concat fits, ?_⟩
  · simpa [or_imp, forall_and] using ⟨h.body, noEnd⟩
  · simpa [or_imp, forall_and] using ⟨h.early, p.le_refl⟩

theorem newline (h : Laid ts n 0 p) : Laid (ts ++ [⟨.newline, p⟩]) n 0 p :=
  h.concat (h.fits (fun _ => rfl) nofun nofun) nofun rfl rfl

theorem indent (h : Laid ts n 0 p) (line : ∀ u ∈ ts.getLast?, u.kind = .newline) :
    Laid (ts ++ [⟨.indent, p⟩]) (n + 1) 0 p :=
  h.concat (h.fits (fun _ => rfl) (fun _ => line) nofun) nofun rfl rfl

/-- Blocks are closed one after the other. -/
theorem dedents {count : Nat} (h : Laid ts (count + n) 0 p) (line : EndsLine ts) :
    Laid (ts ++ List.replicate count ⟨.dedent, p⟩) n 0 p := by
  induction count generalizing ts with
  | zero => simpa using h
  | succ count ih =>
    have one : Laid (ts ++ [⟨.dedent, p⟩]) (count + n) 0 p := by
      refine h.concat (h.fits (fun _ => rfl) nofun fun _ => ⟨line, by omega⟩) nofun ?_ rfl
      show count + 1 + n + 0 = count + n + 1
      omega
    have more := ih one (by simp [EndsLine])
    rwa [List.append_assoc, List.singleton_append, ← List.replicate_succ] at more

/-- The end marker stands behind all of it. -/
theorem wellLaid (h : Laid ts 0 0 p) : WellLaid (ts ++ [⟨.endMarker, p⟩]) := by
  have fits : Fits ts ⟨.endMarker, p⟩ := h.fits (fun _ => rfl) nofun nofun
  refine ⟨⟨ts, p, rfl, h.body⟩, Pending.nested ?_ (h.blocks.concat rfl), h.brackets.concat rfl,
    h.fit.concat fits⟩
  intro t opening
  simp only [Token.opensBlock, decide_eq_true_eq] at opening
  simp [Token.closesBlock, opening]

end Laid

namespace Scan

/-- The tokens found so far are laid out. A line starts outside brackets, behind the end of another. -/
structure IsLaid (s : Scan) : Prop where
  laid : Laid s.tokens.reverse s.indents.length s.depth s.pos
  start : s.lineStart = true → s.depth = 0 ∧ ∀ u ∈ s.tokens.head?, u.kind = .newline

@[simp] theorem indents_skip (s : Scan) (n : Nat) : (s.skip n).indents = s.indents := rfl

@[simp] theorem depth_skip (s : Scan) (n : Nat) : (s.skip n).depth = s.depth := rfl

theorem le_skip (s : Scan) (n : Nat) : s.pos.le (s.skip n).pos := Position.le_advance _ _

theorem depthAfter_change {s : Scan} {k : TokenKind} {d : Nat} (h : s.depthAfter k = .ok d) :
    s.depth + k.opensBracket.toNat = d + k.closesBracket.toNat := by
  unfold depthAfter at h
  split at h
  · rename_i opening
    cases h
    rcases opening with rfl | rfl | rfl <;> rfl
  · rename_i noOpen
    have noOpen : k.opensBracket = false := decide_eq_false noOpen
    split at h
    · rename_i bracket found
      have closing : k.closesBracket = true := by
        have same : k = .op bracket := by simpa using List.find?_some found
        have member := List.mem_of_find?_eq_some found
        subst same
        simpa [TokenKind.closesBracket] using member
      split at h
      · cases h
      · cases h
        simp only [noOpen, closing, Bool.toNat_false, Bool.toNat_true]
        omega
    · rename_i found
      have noClose : k.closesBracket = false := by
        simpa [TokenKind.closesBracket] using found
      cases h
      simp [noOpen, noClose]

/-- What the lexer finds in the text is no layout. -/
theorem isLayout_of_lexeme {c : Char} {r : List Char} {k : TokenKind} {n : Nat}
    (h : lexeme c r = .ok (.token k, n)) : k.isLayout = false := by
  rcases lexeme_cases h with quote | number | word | ⟨s, rfl⟩
  · rw [lexeme_quote quote] at h
    split at h <;> cases h
    rfl
  · rw [lexeme_number number] at h
    cases h
    rfl
  · rw [lexeme_word word] at h
    unfold wordLexeme at h
    dsimp only at h
    split at h
    · split at h
      · split at h <;> cases h
        rfl
      · cases h
        rfl
    · cases h
      rfl
  · rfl

theorem IsLaid.step {s t : Scan} (h : s.IsLaid) (step : Step s t) : t.IsLaid := by
  cases step with
  | pass n => exact ⟨h.laid.later (s.le_skip n), h.start⟩
  | settle start n => exact ⟨h.laid.later (s.le_skip n), nofun⟩
  | enter start n width =>
    obtain ⟨flat, line⟩ := h.start start
    have here := h.laid.later (s.le_skip n)
    rw [flat] at here
    refine ⟨?_, nofun⟩
    simpa [flat] using here.indent (by simpa using line)
  | @leave start n closed kept indents =>
    obtain ⟨flat, line⟩ := h.start start
    have here := h.laid.later (s.le_skip n)
    rw [flat, indents, List.length_append] at here
    refine ⟨?_, nofun⟩
    have ended : EndsLine s.tokens.reverse := fun u hu => .inl (line u (by simpa using hu))
    simpa [flat, List.map_const'] using here.dedents ended
  | lineBreak inLine flat n =>
    have here := h.laid
    rw [flat] at here
    refine ⟨?_, fun _ => ⟨flat, by simp⟩⟩
    simpa [flat] using here.newline.later (s.le_skip n)
  | @token inLine c r k n depth found after =>
    have solid := isLayout_of_lexeme found
    refine ⟨?_, fun start => absurd (inLine.symm.trans start) nofun⟩
    have fits : Fits s.tokens.reverse ⟨k, s.pos⟩ := by
      refine h.laid.fits (fun layout => ?_) ?_ ?_
      · rw [solid] at layout
        cases layout
      · rintro rfl
        cases solid
      · rintro rfl
        cases solid
    have noEnd : k ≠ .endMarker := by
      rintro rfl
      cases solid
    have blocks : (Token.opensBlock ⟨k, s.pos⟩).toNat = (Token.closesBlock ⟨k, s.pos⟩).toNat := by
      cases k <;> first | rfl | cases solid
    have more := h.laid.concat fits noEnd (congrArg _ blocks) (depthAfter_change after)
    simpa using more.later (s.le_skip (n + 1))

theorem isLaid_start (source : String) : (start source).IsLaid :=
  ⟨⟨pending_nil, pending_nil, nofun, fun _ _ _ same => by simp [start] at same, nofun⟩,
    fun _ => ⟨rfl, nofun⟩⟩

theorem IsLaid.finish {s : Scan} {ts : List Token} (h : s.IsLaid) (finish : s.finish = .ok ts) :
    WellLaid ts := by
  unfold Scan.finish at finish
  split at finish
  · cases finish
  · rename_i flat
    have flat : s.depth = 0 := by omega
    cases finish
    have whole : Laid s.tokens.reverse (s.indents.length + 0) 0 s.pos := by
      have here := h.laid
      rwa [flat] at here
    rw [List.map_const']
    split
    · rename_i none
      refine (whole.dedents ?_).wellLaid
      rw [none]
      nofun
    · rename_i last
      refine (whole.dedents ?_).wellLaid
      simp [EndsLine, last]
    · rename_i last
      refine (whole.dedents ?_).wellLaid
      simp [EndsLine, last]
    · rw [List.reverse_cons]
      refine (whole.newline.dedents ?_).wellLaid
      simp [EndsLine]

end Scan

/-- The tokens of every source that has any are laid out well. -/
theorem wellLaid_of_tokenize {source : String} {ts : List Token} (h : tokenize source = .ok ts) :
    WellLaid ts := by
  obtain ⟨s, run, finish⟩ := Scan.exists_run_of_tokenize h
  have kept := Scan.invariant_run (fun _ _ => Scan.IsLaid.step) (Scan.isLaid_start source) run
  exact kept.1.finish finish

/-- Two blocks end with the text, and a line is broken within brackets. -/
theorem wellLaid_twoBlocks : ∃ ts, tokenize "if a:\n  # b\n  if c: \\\n\n\td = [1,\n2]" = .ok ts ∧
    ts.map (·.kind) = [.name "if", .name "a", .op ":", .newline, .indent, .name "if", .name "c", .op ":",
      .newline, .indent, .name "d", .op "=", .op "[", .number "1", .op ",", .number "2", .op "]",
      .newline, .dedent, .dedent, .endMarker] ∧ WellLaid ts := by
  have known : (tokenize "if a:\n  # b\n  if c: \\\n\n\td = [1,\n2]").toOption.map
      (·.map (·.kind)) = some [.name "if", .name "a", .op ":", .newline, .indent, .name "if", .name "c",
        .op ":", .newline, .indent, .name "d", .op "=", .op "[", .number "1", .op ",", .number "2",
        .op "]", .newline, .dedent, .dedent, .endMarker] := by decide +kernel
  cases read : tokenize "if a:\n  # b\n  if c: \\\n\n\td = [1,\n2]" with
  | error fault =>
    rw [read] at known
    cases known
  | ok ts =>
    rw [read] at known
    exact ⟨ts, rfl, Option.some.inj known, wellLaid_of_tokenize read⟩

end Arbiter.Syntax
