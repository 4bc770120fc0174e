import Arbiter.Proofs.Parsing.ExprHalts
import Arbiter.Proofs.Parsing.StmtAgree

/-! Patterns and statements come to an end. Main statement: every fault of a program is placed on a line of
the source, where the lexer stood or where one of the tokens is. -/

namespace Arbiter.Syntax

open Syntax.Parser

namespace Grammar

variable {w : Nat} {g : Grammar}

/-! Patterns. -/

/-- The next argument of a class pattern, after the arguments `before`. -/
def nextClassItem (g : Grammar) (before : List ClassItem) : Parser (Option ClassItem) := do
  if !(← separated before) then return none
  else if ← atOp ")" then return none
  else some <$> g.classItem before

/-- The next part of a mapping pattern, after the parts `before`. -/
def nextMappingPart (g : Grammar) (before : List MappingPart) : Parser (Option MappingPart) := do
  if !(← separated before) then return none
  else if before.any (·.rest?.isSome) then return none
  else if ← atOp "\x7d" then return none
  else some <$> g.mappingPart

theorem halts_sequenceItem {D : Pattern → Prop} {p : Parser Pattern} (h : Advances w w p) :
    Halts w w D (sequenceItem p) :=
  halts_of_eat nofun (advances_expectName.ends.bind fun _ => ends_pure _) (h.weaken fun _ _ => trivial)

section Patterns

variable (halting : Halting w g)
include halting

theorem ends_bracketed (closing : String) : Ends w w (g.bracketed closing) := by
  refine (ends_commaList (halts_sequenceItem halting.pattern)).bind fun ps => ?_
  exact (advances_expectOp _).ends.bind fun _ => ends_pure ps

theorem advances_groupPattern : Advances (w + 1) w g.groupPattern := by
  have item : Ends w w (sequenceItem g.pattern) := halts_sequenceItem halting.pattern
  refine (advances_takeOp (by decide)).next fun _ => halts_of_eat nofun (ends_pure _) ?_
  refine item.bind fun first => halts_of_at (Halts.haltsAt ?_) ?_
  · refine (ends_afterCommas (ends_at _) item).bind fun rest => ?_
    exact (advances_expectOp _).ends.bind fun _ => ends_pure _
  · exact (advances_expectOp _).ends.bind fun _ => ends_pure _

theorem advances_classItem (before : List ClassItem) : Advances w w (g.classItem before) := by
  refine halts_of_peek fun k => haltsAt_of_peekSecond fun k' => ?_
  split
  · exact haltsAtBoth_named nofun fun attr => halting.pattern.ends.bind fun p => ends_pure _
  · exact (halts_ite (halts_fail rfl) (halting.pattern.next fun p => ends_pure _)).haltsAt.both

theorem rounds_nextClassItem (before : List ClassItem) : Rounds w w (g.nextClassItem before) := by
  have item : Rounds w w (do
      if ← atOp ")" then return none
      else some <$> g.classItem before) :=
    halts_of_at rounds_none.haltsAt (advances_classItem halting before).map
  cases before with
  | nil => exact (ends_pure true).bind fun _ => halts_ite rounds_none item
  | cons a before => exact halts_eat (haltsAt_advance nofun item.ends) rounds_none

theorem ends_classPattern (head : Expr) : Ends w w (g.classPattern head) :=
  (ends_collect (rounds_nextClassItem halting)).bind fun _ => ends_pure _

theorem advances_namePattern : Advances (w + 1) (w + 1) g.namePattern := by
  refine advances_expectName.next fun id => ?_
  refine (ends_many (rounds_marked (k := .op ".") nofun advances_expectName.ends)).bind fun attrs => ?_
  refine halts_of_taken (by decide) ?_ (halts_ite (ends_pure _) (ends_pure _))
  exact (ends_classPattern halting _).bind fun p => (advances_expectOp _).ends.bind fun _ => ends_return p

theorem advances_mappingKey : Advances w w g.mappingKey := by
  refine halting.closedPattern.next fun p => ?_
  split
  · exact ends_pure _
  · exact ends_pure _
  · exact halts_fail rfl

theorem advances_mappingPart : Advances w w g.mappingPart := by
  refine halts_of_eat nofun (advances_expectName.ends.bind fun id => ends_pure _) ?_
  refine (advances_mappingKey halting).next fun key => (advances_expectOp _).ends.bind fun _ => ?_
  exact halting.pattern.ends.bind fun p => ends_pure _

theorem rounds_nextMappingPart (before : List MappingPart) : Rounds w w (g.nextMappingPart before) := by
  have part : Rounds w w (do
      if before.any (·.rest?.isSome) then return none
      else if ← atOp "\x7d" then return none
      else some <$> g.mappingPart) :=
    halts_ite rounds_none (halts_of_at rounds_none.haltsAt (advances_mappingPart halting).map)
  cases before with
  | nil => exact (ends_pure true).bind fun _ => halts_ite rounds_none part
  | cons a before => exact halts_eat (haltsAt_advance nofun part.ends) rounds_none

theorem advances_mappingPattern : Advances (w + 1) w g.mappingPattern := by
  refine (advances_takeOp (by decide)).next fun _ => ?_
  refine (ends_collect (rounds_nextMappingPart halting)).bind fun parts => ?_
  exact (advances_expectOp _).ends.bind fun _ => ends_pure _

theorem advances_closedPatternRule : Advances (w + 1) (w + 1) g.closedPatternRule := by
  have upper := Nat.le_succ w
  have value : Advances (w + 1) (w + 1) (Pattern.value <$> g.arithmetic) :=
    (advances_binaryChain halting _).map
  refine halts_of_peek fun k => ?_
  split
  · exact value.haltsAt
  · exact value.haltsAt
  · exact HaltsAt.map (haltsAt_strings fun source short cause => halting.read short)
  · exact ((advances_groupPattern halting).mono (Nat.le_refl _) upper).haltsAt
  · exact haltsAt_take (by decide) ((ends_bracketed halting _).bind fun ps => ends_return _)
  · exact ((advances_mappingPattern halting).mono (Nat.le_refl _) upper).haltsAt
  · exact haltsAt_advance nofun (ends_pure _)
  · split
    · exact haltsAt_advance nofun (ends_pure _)
    · exact (advances_namePattern halting).haltsAt
  · exact (halts_fail rfl).haltsAt

theorem advances_patternRule : Advances (w + 1) (w + 1) g.patternRule := by
  have closed := advances_closedPatternRule halting
  refine closed.next fun first => ?_
  refine (ends_many (rounds_marked (k := .op "|") nofun closed.ends)).bind fun rest => ?_
  refine halts_of_eat nofun (advances_expectName.ends.bind fun id => ?_) (ends_pure _)
  exact halts_ite (halts_fail rfl) (ends_pure _)

theorem ends_casePattern : Ends (w + 1) (w + 1) g.casePattern := by
  have item : Ends (w + 1) (w + 1) (sequenceItem g.patternRule) :=
    halts_sequenceItem (advances_patternRule halting)
  refine item.bind fun first => halts_of_at (Halts.haltsAt ?_) (halts_ite (halts_fail rfl) (ends_pure first))
  refine (ends_afterCommas ?stop item).bind fun rest => ends_pure _
  exact (ends_at _).bind fun _ => (ends_at _).bind fun _ => ends_pure _

end Patterns

end Grammar

/-! Statements that end with their line. -/

namespace Parser

variable {w : Nat}

theorem ends_dottedName : Ends w w dottedName := by
  refine advances_expectName.ends.bind fun _ => ?_
  exact (ends_many (rounds_marked (k := .op ".") nofun advances_expectName.ends)).bind fun _ => ends_pure _

theorem ends_aliasOf {p : Parser String} (h : Ends w w p) : Ends w w (aliasOf p) :=
  h.bind fun _ => ends_of_optionally nofun advances_expectName.ends fun _ => ends_pure _

/-- The next points before the name of a module. -/
def nextPoints : Parser (Option Nat) := do
  if ← eatOp "." then return some 1
  else if ← eatOp "..." then return some 3
  else return none

theorem rounds_nextPoints : Rounds w w nextPoints :=
  halts_of_eat nofun (ends_pure _) (halts_of_eat nofun (ends_pure _) rounds_none)

theorem ends_relativeLevel : Ends w w relativeLevel :=
  (ends_many rounds_nextPoints).bind fun _ => ends_pure _

theorem ends_importedNames : Ends w w importedNames := by
  have item : Ends w w (aliasOf expectName) := ends_aliasOf advances_expectName.ends
  refine halts_of_eat nofun (ends_pure _) (halts_of_eat nofun ?_ (ends_commas (ends_pure false) item ends_pure))
  exact ends_commas (ends_at _) item fun names => (advances_expectOp _).ends.bind fun _ => ends_pure names

theorem advances_importFrom : Advances w w importFrom := by
  refine (advances_expectWord _).next fun _ => ends_relativeLevel.bind fun level => ?_
  refine (ends_at _).bind fun b => (ends_optionally _ ends_dottedName).bind fun module => ?_
  refine halts_ite (halts_fail rfl) ((advances_expectWord _).ends.bind fun _ => ?_)
  exact ends_importedNames.bind fun names => ends_pure _

theorem ends_nameList : Ends w w nameList :=
  ends_commas (ends_pure false) advances_expectName.ends ends_pure

theorem ends_eatAugmented : Ends w w eatAugmented? := by
  refine halts_of_peek fun k => ?_
  split
  · split
    · exact haltsAt_advance nofun (ends_pure _)
    · exact (ends_pure none).haltsAt
  · exact (ends_pure none).haltsAt

end Parser

namespace Grammar

variable {w : Nat} {g : Grammar}

/-- The next statement of a line. -/
def nextSmall (g : Grammar) : Parser (Option Stmt) := do
  if !(← eatOp ";") then return none
  else if ← at? .newline then return none
  else some <$> g.smallStmt

section Simple

variable (halting : Halting w g)
include halting

theorem advances_exprStmt : Advances (w + 1) (w + 1) g.exprStmt := by
  have value := advances_itemsOrYield halting
  refine value.next fun first => ends_eatAugmented.bind fun o => ?_
  cases o with
  | some o => exact (ends_target _ first).bind fun head => value.ends.bind fun v => ends_pure _
  | none =>
    refine halts_of_eat nofun ?_ ((ends_many (rounds_marked (k := .op "=") nofun value.ends)).bind fun more => ?_)
    · refine (ends_target _ first).bind fun head => (advances_testRule halting).ends.bind fun annotated => ?_
      exact ends_of_optionally nofun value.ends fun v => ends_pure _
    · cases more with
      | nil => exact ends_pure _
      | cons second more => exact (ends_targets _ _).bind fun heads => ends_pure _

theorem ends_deletion : Ends (w + 1) (w + 1) g.deletion := by
  refine (advances_targetItems halting).ends.bind fun e => ?_
  cases e with
  | tuple elts ctx => exact (ends_targets _ elts).bind fun found => ends_pure _
  | _ => exact (ends_targets _ _).bind fun found => ends_pure _

theorem ends_raiseStmt : Ends (w + 1) (w + 1) g.raiseStmt := by
  refine ends_atExpr.bind fun b => (ends_optionally b (advances_testRule halting).ends).bind fun o => ?_
  cases o with
  | none => exact ends_pure _
  | some exc => exact ends_of_optionally nofun (advances_testRule halting).ends fun cause => ends_pure _

theorem advances_smallStmt : Advances (w + 1) (w + 1) g.smallStmt := by
  have after : ∀ {word : String} {p : Parser Stmt}, Ends (w + 1) (w + 1) p →
      HaltsAt (.name word) (w + 1) (w + 1) (fun _ => True) (smallStmt.after p) := fun h => haltsAt_advance nofun h
  have test := (advances_testRule halting).ends
  refine halts_of_peek fun k => ?_
  split
  · exact after (ends_pure _)
  · exact after (ends_pure _)
  · exact after (ends_pure _)
  · exact after (ends_atExpr.bind fun b =>
      (ends_optionally b (advances_itemsRule halting).ends).bind fun v => ends_pure _)
  · exact after (ends_raiseStmt halting)
  · exact after ends_nameList.map
  · exact after ends_nameList.map
  · exact after (ends_deletion halting)
  · exact after (test.bind fun _ => ends_of_optionally nofun test fun message => ends_pure _)
  · exact after (ends_commas (ends_pure false) (ends_aliasOf ends_dottedName) fun names => ends_pure _)
  · exact advances_importFrom.haltsAt
  · exact (advances_exprStmt halting).haltsAt

theorem rounds_nextSmall : Rounds (w + 1) (w + 1) g.nextSmall := by
  refine halts_eat (haltsAt_advance nofun ?_) rounds_none
  exact halts_of_at (ends_pure none).haltsAt (advances_smallStmt halting).map

theorem advances_line : Advances (w + 1) (w + 1) g.line := by
  refine (advances_smallStmt halting).next fun first => ?_
  refine (ends_many (rounds_nextSmall halting)).bind fun rest => ?_
  exact advances_expectNewline.ends.bind fun _ => ends_pure _

end Simple

/-! Statements that hold blocks. -/

/-- The next part of an indented block. -/
def nextPart {α : Type} (part : Parser (List α)) : Parser (Option (List α)) := do
  match ← peek with
  | .dedent => do
    advance
    return none
  | .endMarker => return none
  | .newline => do
    advance
    return some []
  | _ => some <$> part

theorem rounds_nextPart {α : Type} {p : Parser (List α)} (h : Advances w w p) : Rounds w w (nextPart p) := by
  refine halts_of_peek fun k => ?_
  split
  · exact haltsAt_advance nofun (ends_pure none)
  · exact rounds_none.haltsAt
  · exact haltsAt_advance nofun (ends_pure _)
  · exact h.map.haltsAt

theorem ends_indented {α : Type} {p : Parser (List α)} (h : Advances w w p) : Ends w w (indented p) :=
  (ends_many (rounds_nextPart h)).bind fun _ => ends_pure _

/-- The next line of decorators. -/
def nextDecorator (g : Grammar) : Parser (Option Expr) := do
  if ← eatOp "@" then
    let e ← g.testRule
    expectNewline
    return some e
  else return none

/-- A clause of a `match`. -/
def oneCase (g : Grammar) : Parser (List MatchCase) := do
  if ← atWord "case" then return [← g.matchCase] else fail .expectedCase

/-- The next statements of a program. -/
def nextStatement (g : Grammar) : Parser (Option (List Stmt)) := do
  match ← peek with
  | .endMarker => return none
  | .newline => do
    advance
    return some []
  | _ => some <$> g.statement

theorem advances_expectIndent : Advances w w expectIndent := halts_expect nofun rfl

/-- A header is taken as a whole, or nothing is taken and nothing is wrong. -/
theorem matchSubject?_cases (g : Grammar) (ts : List Token) :
    g.matchSubject? ts = .ok (none, ts) ∨ ∃ subject ts', g.matchSubject? ts = .ok (some subject, ts') := by
  unfold matchSubject?
  split
  · split
    · exact .inr ⟨_, _, rfl⟩
    · exact .inl rfl
  · exact .inl rfl

section Compound

variable (halting : Halting w g)
include halting

/-- A block takes at least its colon. -/
theorem advances_block : Advances (w + 1) w g.block := by
  have line := (advances_line halting).ends.lower (Nat.le_succ w)
  refine (advances_takeOp (by decide)).next fun _ => halts_of_eat nofun ?_ line
  exact advances_expectIndent.ends.bind fun _ => ends_indented halting.statement

theorem ends_block : Ends (w + 1) (w + 1) g.block :=
  (advances_block halting).ends.mono (Nat.le_refl _) (Nat.le_succ w)

theorem ends_elseBlock : Ends (w + 1) (w + 1) g.elseBlock :=
  halts_of_eat nofun (ends_block halting) (ends_pure [])

theorem haltsAt_branchRule (word : String) :
    HaltsAt (.name word) (w + 1) (w + 1) (fun _ => True) g.branchRule := by
  have lower := Nat.le_succ w
  refine haltsAt_advance nofun ((advances_testRule halting).ends.bind fun test => ?_)
  refine (advances_block halting).ends.bind fun body => halts_of_at ?_ ?_
  · exact HaltsAt.next (halting.branch "elif") fun s => ends_return _
  · exact ((ends_elseBlock halting).lower lower).bind fun orelse => ends_return _

theorem advances_whileStmt : Advances (w + 1) (w + 1) g.whileStmt := by
  refine (advances_expectWord _).next fun _ => (advances_testRule halting).ends.bind fun test => ?_
  refine (ends_block halting).bind fun body => ?_
  exact (ends_elseBlock halting).bind fun orelse => ends_pure _

theorem advances_forStmt (isAsync : Bool) : Advances (w + 1) (w + 1) (g.forStmt isAsync) := by
  refine (advances_expectWord _).next fun _ => (advances_targetItems halting).ends.bind fun head => ?_
  refine (ends_target _ head).bind fun head => (advances_expectWord _).ends.bind fun _ => ?_
  refine (advances_itemsRule halting).ends.bind fun iter => (ends_block halting).bind fun body => ?_
  exact (ends_elseBlock halting).bind fun orelse => ends_pure _

theorem ends_handler : Ends (w + 1) (w + 1) g.handler := by
  refine halts_of_at (Halts.haltsAt ((ends_block halting).bind fun body => ends_pure _)) ?_
  refine (advances_testRule halting).ends.bind fun type => ?_
  refine ends_of_optionally nofun advances_expectName.ends fun id => ?_
  exact (ends_block halting).bind fun body => ends_pure _

theorem advances_tryStmt : Advances (w + 1) (w + 1) g.tryStmt := by
  refine (advances_expectWord _).next fun _ => (ends_block halting).bind fun body => ?_
  refine (ends_many (rounds_marked (k := .name "except") nofun (ends_handler halting))).bind fun handlers => ?_
  have rest : ∀ orelse, Ends (w + 1) (w + 1)
      (do
        let finalbody ← if ← eatWord "finally" then g.block else pure []
        if handlers.isEmpty && finalbody.isEmpty then fail .expectedHandler
        return Stmt.tryBlock body handlers orelse finalbody) := by
    intro orelse
    refine halts_of_eat nofun ((ends_block halting).bind fun finalbody => ?_) ?_
    · exact halts_ite (halts_fail rfl) (ends_pure _)
    · exact halts_ite (halts_fail rfl) (ends_pure _)
  exact halts_ite (rest []) ((ends_elseBlock halting).bind rest)

theorem ends_withItem : Ends (w + 1) (w + 1) g.withItem := by
  have operand := advances_bitOrRule halting
  refine (advances_testRule halting).ends.bind fun context => halts_of_eat nofun ?_ (ends_pure _)
  refine Halts.bind (halts_starOr operand.ends operand) fun vars => ?_
  exact (ends_target _ vars).bind fun t => ends_pure _

theorem advances_withStmt (isAsync : Bool) : Advances (w + 1) (w + 1) (g.withStmt isAsync) := by
  have item := ends_withItem halting
  refine (advances_expectWord _).next fun _ => item.bind fun first => ?_
  refine (ends_afterCommas (ends_pure false) item).bind fun rest => ?_
  exact (ends_block halting).bind fun body => ends_pure _

theorem advances_functionDef (decorators : List Expr) (isAsync : Bool) :
    Advances (w + 1) (w + 1) (g.functionDef decorators isAsync) := by
  refine (advances_expectWord _).next fun _ => advances_expectName.ends.bind fun id => ?_
  refine (advances_takeOp (by decide)).ends.bind fun _ => (ends_params halting _ _).bind fun ps => ?_
  refine ((advances_expectOp _).ends.mono (Nat.le_refl w) (Nat.le_succ w)).bind fun _ => ?_
  refine ends_of_optionally nofun (advances_testRule halting).ends fun returns => ?_
  exact (ends_block halting).bind fun body => ends_pure _

theorem advances_classDef (decorators : List Expr) : Advances (w + 1) (w + 1) (g.classDef decorators) := by
  refine (advances_expectWord _).next fun _ => advances_expectName.ends.bind fun id => ?_
  have rest : ∀ bases keywords, Ends (w + 1) (w + 1)
      (do return Stmt.classDef id bases keywords (← g.block) decorators) := fun _ _ =>
    (ends_block halting).bind fun body => ends_pure _
  refine halts_of_taken (by decide) ?_ (rest [] [])
  refine (ends_callArgs halting).bind fun args => ?_
  exact ((advances_expectOp _).ends.mono (Nat.le_refl w) (Nat.le_succ w)).bind fun _ => rest args.1 args.2

theorem rounds_nextDecorator : Rounds (w + 1) (w + 1) g.nextDecorator := by
  refine halts_of_eat nofun ((advances_testRule halting).ends.bind fun e => ?_) rounds_none
  exact advances_expectNewline.ends.bind fun _ => ends_pure _

theorem advances_decorated : Advances (w + 1) (w + 1) g.decorated := by
  refine (ends_many (rounds_nextDecorator halting)).bind fun decorators => ?_
  refine halts_of_at (advances_functionDef halting _ _).haltsAt ?_
  refine halts_of_at (advances_classDef halting _).haltsAt ?_
  exact halts_of_eat nofun (advances_functionDef halting _ _).ends (halts_fail rfl)

theorem advances_matchCase : Advances (w + 1) (w + 1) g.matchCase := by
  refine (advances_expectWord _).next fun _ => (ends_casePattern halting).bind fun p => ?_
  refine ends_of_optionally nofun (advances_testRule halting).ends fun guard => ?_
  exact (ends_block halting).bind fun body => ends_pure _

/-- A header is taken as a whole or not at all, and no fault is found in it. -/
theorem haltsAt_matchSubject :
    HaltsAt (.name "match") (w + 1) (w + 1) (fun o => o.isSome = true) g.matchSubject? := by
  intro ts here ended light
  obtain ⟨later, shorter⟩ := ended.tail (here ▸ nofun)
  have run := advances_itemsRule halting ts.tail later (Nat.lt_of_le_of_lt (weight_tail_le ts) light)
  unfold matchSubject?
  generalize g.itemsRule ts.tail = x at run ⊢
  cases run with
  | error => exact rounds_none ts ended light
  | ok part ended' light' taken =>
    dsimp only
    split
    · refine .ok (part.trans (List.tail_suffix ts)) ended' light' fun _ => ?_
      exact Nat.lt_trans (taken trivial) shorter
    · exact rounds_none ts ended light

theorem advances_oneCase : Advances (w + 1) (w + 1) g.oneCase := by
  refine halts_of_at (Halts.haltsAt ?_) (halts_fail rfl)
  exact (advances_matchCase halting).next fun c => ends_pure _

theorem ends_matchCases : Ends (w + 1) (w + 1) g.matchCases := by
  refine (advances_expectOp _).ends.bind fun _ => advances_expectNewline.ends.bind fun _ => ?_
  refine advances_expectIndent.ends.bind fun _ => ?_
  refine (ends_indented (advances_oneCase halting)).bind fun cases => ?_
  exact halts_ite (halts_fail rfl) (ends_pure cases)

theorem advances_statementRule : Advances (w + 1) (w + 1) g.statementRule := by
  have one : ∀ {p : Parser Stmt}, Advances (w + 1) (w + 1) p →
      Advances (w + 1) (w + 1) (statementRule.one p) := fun h => h.next fun s => ends_pure _
  have line := advances_line halting
  refine halts_of_peek fun k => ?_
  split
  · exact (one (advances_decorated halting)).haltsAt
  · exact HaltsAt.next (haltsAt_branchRule halting "if") fun s => ends_pure _
  · exact (one (advances_whileStmt halting)).haltsAt
  · exact (one (advances_forStmt halting _)).haltsAt
  · exact (one (advances_tryStmt halting)).haltsAt
  · exact (one (advances_withStmt halting _)).haltsAt
  · exact (one (advances_functionDef halting _ _)).haltsAt
  · exact (one (advances_classDef halting _)).haltsAt
  · refine (haltsAt_matchSubject halting).item (fun subject => ?_) line
    exact (ends_matchCases halting).bind fun cases => ends_pure _
  · refine haltsAt_advance nofun (ends_peek.bind fun k => ?_)
    split
    · exact (one (advances_functionDef halting _ _)).ends
    · exact (one (advances_forStmt halting _)).ends
    · exact (one (advances_withStmt halting _)).ends
    · exact halts_fail rfl
  · exact line.haltsAt

end Compound

/-- A level more halts on tokens that weigh one more. -/
theorem halting_rules (halting : Halting w g) : Halting (w + 1) g.rules where
  test := advances_testRule halting
  orTest := advances_orTestRule halting
  notTest := advances_notTestRule halting
  bitOr := advances_bitOrRule halting
  factor := advances_factorRule halting
  standalone := advances_standaloneRule halting
  pattern := advances_patternRule halting
  closedPattern := advances_closedPatternRule halting
  statement := advances_statementRule halting
  branch := haltsAt_branchRule halting

/-- A grammar halts on all tokens for which it is deep enough. -/
theorem halting_grammar : ∀ {w n : Nat}, w ≤ n → Halting w (grammar n) := by
  intro w
  induction w with
  | zero =>
    exact fun _ => ⟨halts_zero, halts_zero, halts_zero, halts_zero, halts_zero, halts_zero, halts_zero,
      halts_zero, halts_zero, fun _ => halts_zero.haltsAt⟩
  | succ w ih =>
    intro n deep
    obtain ⟨n, rfl⟩ := Nat.exists_eq_add_of_le' (Nat.one_le_of_lt deep)
    exact halting_rules (ih (Nat.le_of_succ_le_succ deep))

theorem rounds_nextStatement (halting : Halting w g) : Rounds w w g.nextStatement := by
  refine halts_of_peek fun k => ?_
  split
  · exact rounds_none.haltsAt
  · exact haltsAt_advance nofun (ends_pure _)
  · exact halting.statement.map.haltsAt

theorem ends_program (halting : Halting w g) : Ends w w g.program :=
  (ends_many (rounds_nextStatement halting)).bind fun _ => ends_pure _

end Grammar

/-- A fault in a program is one of the lexer, or one with its tokens. -/
theorem concerns_of_parseProgram {source : String} {fault : Fault} (h : parseProgram source = .error fault) :
    tokenize source = .error fault ∨ ∃ ts, tokenize source = .ok ts ∧ fault.Concerns ts := by
  unfold parseProgram at h
  cases tokens : tokenize source with
  | error found =>
    rw [tokens] at h
    cases h
    exact .inl rfl
  | ok ts =>
    rw [tokens] at h
    have light : weight ts < source.length + 1 := Nat.lt_succ_of_le (weight_le_of_tokenize tokens)
    have halting : Grammar.Halting (source.length + 1) (grammarFor source) :=
      Grammar.halting_grammar (Nat.le_refl _)
    have run := Grammar.ends_program halting ts (isEnded_of_tokenize tokens) light
    have h : ((grammarFor source).program ts >>= fun x => Except.ok x.1) = .error fault := h
    generalize (grammarFor source).program ts = x at run h
    cases run with
    | ok => cases h
    | error concerns =>
      cases h
      exact .inr ⟨ts, rfl, concerns⟩

/-- The line of a fault is one of the source, and its column is on that line. It is placed where the lexer
found it, or at a token of the source; if it lies inside of an f-string, at a string. -/
theorem fault_in_source {source : String} {fault : Fault} (h : parseProgram source = .error fault) :
    1 ≤ fault.pos.line ∧ fault.pos.line ≤ 1 + source.toList.count '\n' ∧
      fault.pos.col ≤ ((source.toList.splitOn '\n').getD (fault.pos.line - 1) []).length ∧
      (tokenize source = .error fault ∨ ∃ ts, tokenize source = .ok ts ∧ ∃ t ∈ ts, t.pos = fault.pos ∧
        (fault.cause.isOuter = true ∨ ∃ text, t.kind = .string text)) := by
  have origin := concerns_of_parseProgram h
  have place : fault.pos.IsIn source.toList := by
    rcases origin with lexed | ⟨ts, tokens, concerns⟩
    · exact (fault_of_tokenize lexed).2
    · obtain ⟨t, member, same, -⟩ := concerns.placed
      exact same ▸ places_of_tokenize tokens t member
  refine ⟨place.line_le.1, place.line_le.2, place.col_le, origin.imp_right ?_⟩
  exact fun ⟨ts, tokens, concerns⟩ => ⟨ts, tokens, concerns.placed⟩

/-- The fault is found in the text of a field, and placed at the string on the third line. -/
theorem fault_in_source_field :
    ∃ fault, parseProgram "a = 1\nb = [a,\n  f'\x7ba + (b:\x7d\x7d']\n" = .error fault ∧
      fault.pos = ⟨3, 2⟩ ∧ fault.cause.isOuter = false ∧ fault.pos.line ≤ 4 ∧
      ∃ ts, tokenize "a = 1\nb = [a,\n  f'\x7ba + (b:\x7d\x7d']\n" = .ok ts ∧
        ∃ t ∈ ts, t.pos = ⟨3, 2⟩ ∧ ∃ text, t.kind = .string text := by
  have known : (match parseProgram "a = 1\nb = [a,\n  f'\x7ba + (b:\x7d\x7d']\n" with
    | .ok _ => false
    | .error fault => fault.pos == ⟨3, 2⟩ && !fault.cause.isOuter) = true := by decide +kernel
  have lexed : (tokenize "a = 1\nb = [a,\n  f'\x7ba + (b:\x7d\x7d']\n").toOption.isSome = true := by
    decide +kernel
  cases read : parseProgram "a = 1\nb = [a,\n  f'\x7ba + (b:\x7d\x7d']\n" with
  | ok body =>
    rw [read] at known
    cases known
  | error fault =>
    rw [read] at known
    simp only [Bool.and_eq_true, beq_iff_eq, Bool.not_eq_true'] at known
    obtain ⟨place, inner⟩ := known
    obtain ⟨-, line, -, origin⟩ := fault_in_source read
    refine ⟨fault, rfl, place, inner, line.trans (by decide), ?_⟩
    rcases origin with found | ⟨ts, tokens, t, member, at', outer | string⟩
    · rw [found] at lexed
      cases lexed
    · rw [inner] at outer
      cases outer
    · exact ⟨ts, tokens, t, member, at'.trans place, string⟩

end Arbiter.Syntax
