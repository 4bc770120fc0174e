import Arbiter.Proofs.Parsing.BlankLine
import Arbiter.Proofs.Parsing.StmtHalts

/-! Termination of the front end. Main statement: the rounds of the lexer use up the text, the loops of the
parser use up the tokens, and every other call goes to lighter tokens or to a shorter text, so that neither
the levels of the grammar nor the rounds of its loops run out. -/

namespace Arbiter.Syntax

/-! The lexer. -/

namespace Scan

/-- What the next round of the lexer does; at the end of the text there is none. -/
def round? (s : Scan) : Option (Except Fault Scan) :=
  if s.lineStart then some s.startLine
  else match s.rest with
    | [] => none
    | c :: r => some (s.readLexeme c r)

/-- A text is read round by round. -/
theorem run_eq_round (s : Scan) : s.run = match s.round? with
    | none => .ok s
    | some x => x >>= run := by
  unfold round?
  by_cases start : s.lineStart = true
  · rw [if_pos start, run_startLine start]
  · have inLine : s.lineStart = false := by simpa using start
    rw [if_neg start]
    split
    · rename_i none
      split at none
      · rename_i rest
        exact run_end inLine rest
      · cases none
    · rename_i some
      split at some
      · cases some
      · rename_i rest
        cases some
        exact run_readLexeme inLine rest

/-- Reading past characters leaves fewer, unless there are none to read past. -/
theorem rest_skip_le (s : Scan) (n : Nat) :
    (s.skip n).rest.length < s.rest.length ∨ (s.skip n).rest = s.rest := by
  cases n with
  | zero => exact .inr rfl
  | succ n =>
    cases rest : s.rest with
    | nil =>
      right
      rw [rest_skip, rest]
      rfl
    | cons c r =>
      left
      rw [← rest]
      exact length_skip_lt rest n.succ_pos

/-- Each round reads a character, or only settles that the line has begun. -/
theorem rest_round {s t : Scan} (h : s.round? = some (.ok t)) :
    t.rest.length < s.rest.length ∨ (t.rest = s.rest ∧ s.lineStart = true ∧ t.lineStart = false) := by
  unfold round? at h
  split at h
  · rename_i start
    have step := Option.some.inj h
    simp only [startLine] at step
    generalize (s.rest.takeWhile fun c => c = ' ' || c = '\t' || c = '\x0c').length = n at step
    have blanks := s.rest_skip_le n
    have shorter : ∀ {c r m}, (s.skip n).rest = c :: r → 0 < m →
        ((s.skip n).skip m).rest.length < s.rest.length := fun rest some =>
      Nat.lt_of_lt_of_le (length_skip_lt rest some) (s.length_skip_le n)
    split at step
    · cases step
      exact blanks.imp_right fun same => ⟨same, start, rfl⟩
    · rename_i rest
      cases step
      exact .inl (shorter rest (by decide))
    · rename_i rest
      cases step
      exact .inl (shorter rest (by decide))
    · rename_i rest
      cases step
      exact .inl (shorter rest (by omega))
    · cases found : (s.skip n).setIndent
        (indentWidth (s.rest.takeWhile fun c => c = ' ' || c = '\t' || c = '\x0c')) with
      | error fault =>
        rw [found] at step
        cases step
      | ok u =>
        rw [found] at step
        cases step
        show u.rest.length < _ ∨ u.rest = _ ∧ _
        rw [rest_setIndent found]
        exact blanks.imp_right fun same => ⟨same, start, rfl⟩
  · split at h
    · cases h
    · rename_i c r rest
      have step := Option.some.inj h
      unfold readLexeme at step
      split at step
      · rename_i found further _
        rw [rest_take step]
        exact .inl (length_skip_lt rest further.succ_pos)
      · cases step

theorem size_round {s t : Scan} (h : s.round? = some (.ok t)) : t.size < s.size := by
  rcases rest_round h with shorter | ⟨same, start, inLine⟩
  · exact size_lt_of_rest shorter
  · exact size_lt_of_lineStart start inLine (Nat.le_of_eq (congrArg List.length same))

/-- There is no end to no rounds. -/
theorem wellFounded_round : WellFounded fun t s : Scan => s.round? = some (.ok t) :=
  Subrelation.wf size_round (measure size).wf

end Scan

/-! The loops of the parser. -/

open Syntax.Parser

namespace Grammar

/-- The items that stand in lists with commas, each with what says that no further one follows a comma. -/
inductive Listed (g : Grammar) : {α : Type} → Parser Bool → Parser α → Prop
  | items : Listed g (not <$> atExpr) (starOr g.bitOr g.test)
  | heads : Listed g (not <$> atExpr) (starOr g.bitOr g.bitOr)
  | values : Listed g (not <$> atExpr) (starOr g.bitOrRule g.testRule)
  | targets : Listed g (not <$> atExpr) (starOr g.bitOrRule g.bitOrRule)
  | display (closing : String) : Listed g (atOp closing) (starOr g.bitOr g.test)
  | entries : Listed g (atOp "\x7d") g.dictItem
  | arguments : Listed g (atOp ")") g.callItem
  | subscripts : Listed g (atOp "]") g.subscriptItem
  | params (closing : String) (annotations : Bool) : Listed g (atOp closing) (g.param closing annotations)
  | patterns (closing : String) : Listed g (atOp closing) (sequenceItem g.pattern)
  | casePatterns :
    Listed g (do return (← atOp ":") || (← atWord "if")) (sequenceItem g.patternRule)
  | imported : Listed g (atOp ")") (aliasOf expectName)
  | importedOpen : Listed g (pure false) (aliasOf expectName)
  | modules : Listed g (pure false) (aliasOf dottedName)
  | names : Listed g (pure false) expectName
  | contexts : Listed g (pure false) g.withItem

/-- The items that stand behind a mark, any number of times. -/
inductive Marked (g : Grammar) : {α : Type} → TokenKind → Parser α → Prop
  | conditions : Marked g (.name "if") g.orTest
  | conjuncts : Marked g (.name "and") g.notTestRule
  | disjuncts : Marked g (.name "or") (boolChain .and "and" g.notTestRule)
  | members : Marked g (.op ".") expectName
  | alternatives : Marked g (.op "|") g.closedPatternRule
  | values : Marked g (.op "=") g.itemsOrYield
  | handlers : Marked g (.name "except") g.handler

/-- What the loops of the rules do in a round. -/
inductive Loop (g : Grammar) : {α : Type} → Parser (Option α) → Prop
  | commas {α : Type} {stop : Parser Bool} {item : Parser α} (listed : g.Listed stop item) :
    Loop g (afterComma stop item)
  | marks {α : Type} {k : TokenKind} {item : Parser α} (behind : g.Marked k item) : Loop g (marked k item)
  | generators : Loop g g.nextGenerator
  | trailers : Loop g g.trailer?
  | operators (ops : List BinaryOp) (tighter : List (List BinaryOp)) :
    Loop g (chainNext g.factorRule ops tighter)
  | comparisons : Loop g g.nextComparison
  | strings : Loop g nextPiece
  | classItems (before : List ClassItem) : Loop g (g.nextClassItem before)
  | mappingParts (before : List MappingPart) : Loop g (g.nextMappingPart before)
  | points : Loop g nextPoints
  | line : Loop g g.nextSmall
  | block : Loop g (nextPart g.statement)
  | cases : Loop g (nextPart g.oneCase)
  | decorators : Loop g g.nextDecorator
  | statements : Loop g g.nextStatement

section Loops

variable {w : Nat} {g : Grammar} (halting : Halting w g)
include halting

theorem Listed.ends {α : Type} {stop : Parser Bool} {item : Parser α} (h : g.Listed stop item) :
    Ends w w stop ∧ Ends w w item := by
  have upper := Nat.le_succ w
  have operand := (advances_bitOrRule halting).ends.lower upper
  have noExpr : Ends w w (not <$> atExpr) := ends_atExpr.map
  cases h with
  | items => exact ⟨noExpr, (advances_item halting).ends⟩
  | heads => exact ⟨noExpr, halts_starOr halting.bitOr.ends halting.bitOr⟩
  | values => exact ⟨noExpr, halts_starOr operand ((advances_testRule halting).lower upper)⟩
  | targets => exact ⟨noExpr, halts_starOr operand ((advances_bitOrRule halting).lower upper)⟩
  | display closing => exact ⟨ends_at _, (advances_item halting).ends⟩
  | entries => exact ⟨ends_at _, ends_dictItem halting⟩
  | arguments => exact ⟨ends_at _, ends_callItem halting⟩
  | subscripts => exact ⟨ends_at _, ends_subscriptItem halting⟩
  | params closing annotations => exact ⟨ends_at _, ends_param halting closing annotations⟩
  | patterns closing => exact ⟨ends_at _, halts_sequenceItem halting.pattern⟩
  | casePatterns =>
    refine ⟨(ends_at _).bind fun _ => (ends_at _).bind fun _ => ends_pure _, ?_⟩
    exact halts_sequenceItem ((advances_patternRule halting).lower upper)
  | imported => exact ⟨ends_at _, ends_aliasOf advances_expectName.ends⟩
  | importedOpen => exact ⟨ends_pure false, ends_aliasOf advances_expectName.ends⟩
  | modules => exact ⟨ends_pure false, ends_aliasOf ends_dottedName⟩
  | names => exact ⟨ends_pure false, advances_expectName.ends⟩
  | contexts => exact ⟨ends_pure false, (ends_withItem halting).lower upper⟩

theorem Marked.rounds {α : Type} {k : TokenKind} {item : Parser α} (h : g.Marked k item) :
    Rounds w w (marked k item) := by
  have upper := Nat.le_succ w
  have operand := advances_notTestRule halting
  cases h with
  | conditions => exact rounds_marked nofun halting.orTest.ends
  | conjuncts => exact (rounds_marked (k := .name "and") nofun operand.ends).lower upper
  | disjuncts => exact (rounds_marked (k := .name "or") nofun (halts_boolChain .and "and" operand)).lower upper
  | members => exact rounds_marked nofun advances_expectName.ends
  | alternatives =>
    exact (rounds_marked (k := .op "|") nofun (advances_closedPatternRule halting).ends).lower upper
  | values => exact (rounds_marked (k := .op "=") nofun (advances_itemsOrYield halting).ends).lower upper
  | handlers => exact (rounds_marked (k := .name "except") nofun (ends_handler halting)).lower upper

/-- Every round of a loop takes a token, or is the last. -/
theorem Loop.rounds {α : Type} {next : Parser (Option α)} (h : g.Loop next) : Rounds w w next := by
  have upper := Nat.le_succ w
  cases h with
  | commas listed => exact rounds_afterComma (listed.ends halting).1 (listed.ends halting).2
  | marks behind => exact behind.rounds halting
  | generators => exact rounds_nextGenerator halting
  | trailers => exact (rounds_trailer halting).lower upper
  | operators ops tighter => exact (rounds_chainNext ops (advances_binaryChain halting tighter)).lower upper
  | comparisons => exact (rounds_nextComparison halting).lower upper
  | strings => exact rounds_nextPiece
  | classItems before => exact rounds_nextClassItem halting before
  | mappingParts before => exact rounds_nextMappingPart halting before
  | points => exact rounds_nextPoints
  | line => exact (rounds_nextSmall halting).lower upper
  | block => exact rounds_nextPart halting.statement
  | cases => exact (rounds_nextPart (advances_oneCase halting)).lower upper
  | decorators => exact (rounds_nextDecorator halting).lower upper
  | statements => exact rounds_nextStatement halting

end Loops

/-! The header of a `match`, which is read twice if it is none. -/

/-- The grammar without the statements that are nested in others. -/
def flat (g : Grammar) : Grammar := { g with statement := fail .tooDeep, branch := fail .tooDeep }

/-- No rule but those of statements reads a nested one. -/
theorem flat_rules (g : Grammar) : g.flat.rules.flat = g.rules.flat := by
  have test : g.flat.testRule = g.testRule := rfl
  have orTest : g.flat.orTestRule = g.orTestRule := rfl
  have notTest : g.flat.notTestRule = g.notTestRule := rfl
  have bitOr : g.flat.bitOrRule = g.bitOrRule := rfl
  have factor : g.flat.factorRule = g.factorRule := rfl
  have standalone : g.flat.standaloneRule = g.standaloneRule := rfl
  have pattern : g.flat.patternRule = g.patternRule := rfl
  have closedPattern : g.flat.closedPatternRule = g.closedPatternRule := rfl
  unfold rules flat
  dsimp only
  unfold flat at test orTest notTest bitOr factor standalone pattern closedPattern
  rw [test, orTest, notTest, bitOr, factor, standalone, pattern, closedPattern]

end Grammar

/-- The grammar of single lines, which has no nested statement, and so no `match`, on any level. -/
def lineGrammar : Nat → Grammar
  | 0 => .empty
  | n + 1 => (lineGrammar n).rules.flat

theorem lineGrammar_eq (n : Nat) : lineGrammar n = (grammar n).flat := by
  induction n with
  | zero => rfl
  | succ n ih =>
    rw [lineGrammar, ih]
    exact Grammar.flat_rules (grammar n)

namespace Grammar

/-- Without a header the tokens are read again as a line, in which there is no further header to read. -/
theorem statementRule_eq_line {n : Nat} {ts : List Token} (here : headKind ts = .name "match")
    (missed : (grammar n).matchSubject? ts = .ok (none, ts)) :
    (grammar n).statementRule ts = (lineGrammar n).line ts := by
  have line : (grammar n).flat.line = (grammar n).line := rfl
  have word : peek ts = .ok (.name "match", ts) := by
    show Except.ok (headKind ts, ts) = _
    rw [here]
  rw [lineGrammar_eq, line]
  unfold statementRule
  rw [bind_apply word]
  exact bind_apply missed

end Grammar

/-- What a string is read as depends on its fields only, whose texts are shorter. -/
theorem parts_congr {read read' : String → Except Cause Expr} {p : StringPiece}
    (same : ∀ source, source.length < p.text.length → read source = read' source) :
    p.parts read = p.parts read' := by
  unfold StringPiece.parts
  split
  · rename_i marked
    rw [fStringParts_body_congr same marked (Nat.le_refl _)]
  · rfl

/-- All that is called to read a text comes to its end. -/
structure FrontEndEnds (source : String) : Prop where
  /-- Each round of the lexer reads a character, or only settles that the line has begun. -/
  round : ∀ s t : Scan, s.round? = some (.ok t) →
    t.rest.length < s.rest.length ∨ (t.rest = s.rest ∧ s.lineStart = true ∧ t.lineStart = false)
  /-- The lexer goes from one round to the next, and cannot do so for ever. -/
  rounds : (∀ s : Scan, s.run = match s.round? with
      | none => .ok s
      | some x => x >>= Scan.run) ∧
    WellFounded fun t s : Scan => s.round? = some (.ok t)
  /-- The tokens end with their marker, and weigh no more than the text. -/
  tokens : ∀ ts, tokenize source = .ok ts → IsEnded ts ∧ weight ts < source.length + 1
  /-- Every parser, that of statements among them, takes a token, or finds fault with one. -/
  calls : ∀ n, source.length < n → Grammar.Halting (source.length + 1) (grammar n)
  /-- Every round of every loop takes a token, or is the last. -/
  loops : ∀ n, source.length < n → ∀ (α : Type) (next : Parser (Option α)), (grammar n).Loop next →
    Parser.Rounds (source.length + 1) (source.length + 1) next
  /-- Rules that stand on a level go to the next one only with lighter tokens. -/
  levels : ∀ w g h, Grammar.Alike w g h → Grammar.AlikeAt (w + 1) g.rules h.rules
  /-- The header of a `match` is taken as a whole, or nothing is. -/
  header : ∀ n ts, (grammar n).matchSubject? ts = .ok (none, ts) ∨
    ∃ subject ts', (grammar n).matchSubject? ts = .ok (some subject, ts')
  /-- Without a header, the tokens are read again by a grammar that has no headers. -/
  rewind : ∀ n ts, headKind ts = .name "match" → (grammar n).matchSubject? ts = .ok (none, ts) →
    (grammar n).statementRule ts = (lineGrammar n).line ts
  /-- In the fields of a string, shorter texts are read. -/
  fields : ∀ (p : StringPiece) (read read' : String → Except Cause Expr),
    (∀ source, source.length < p.text.length → read source = read' source) → p.parts read = p.parts read'
  /-- It does not matter how many levels there are, if there are enough. -/
  depth : ∀ m n, source.length < m → source.length < n →
    Grammar.AlikeAt (source.length + 1) (grammar m) (grammar n)
  /-- Neither the levels nor the rounds run out, on this text or in the fields of its strings. -/
  genuine : ∀ fault, parseProgram source = .error fault → fault.cause.isGenuine = true

theorem frontEnd_ends (source : String) : FrontEndEnds source where
  round _ _ := Scan.rest_round
  rounds := ⟨Scan.run_eq_round, Scan.wellFounded_round⟩
  tokens _ found := ⟨isEnded_of_tokenize found, Nat.lt_succ_of_le (weight_le_of_tokenize found)⟩
  calls _ deep := Grammar.halting_grammar deep
  loops _ deep _ _ loop := loop.rounds (Grammar.halting_grammar deep)
  levels _ _ _ := Grammar.alikeAt_rules
  header n := (grammar n).matchSubject?_cases
  rewind _ _ := Grammar.statementRule_eq_line
  fields _ _ _ := parts_congr
  depth m n deep deep' := Grammar.alikeAt_grammar _ m n deep deep'
  genuine fault found := by
    rcases concerns_of_parseProgram found with lexed | ⟨ts, -, concerns⟩
    · exact Cause.isGenuine_of_isOuter (fault_of_tokenize lexed).1
    · exact concerns.genuine

end Arbiter.Syntax
