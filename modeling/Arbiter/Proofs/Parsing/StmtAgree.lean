import Arbiter.Proofs.Parsing.ExprAgree
import Arbiter.Syntax.Parser

/-! Grammars that agree on patterns and statements. Main statement: a program is read alike from any two
texts with tokens of the same kinds. -/

namespace Arbiter.Syntax

open Syntax.Parser

namespace Grammar

variable {w : Nat} {g h : Grammar}

/-! Patterns. -/

theorem agree_sequenceItem {p q : Parser Pattern} (h : Agree w w p q) :
    Agree w w (sequenceItem p) (sequenceItem q) :=
  agree_of_eat (agree_expectName.then fun _ => agree_pure _) h

section Patterns

variable (alike : AlikeAt w g h)
include alike

theorem agree_bracketed (closing : String) : Agree w w (g.bracketed closing) (h.bracketed closing) := by
  refine (agree_commaList _ (agree_sequenceItem alike.pattern)).then fun ps => ?_
  exact (agree_expectOp _).then fun _ => agree_pure ps

theorem agree_groupPattern : Agree (w + 1) w g.groupPattern h.groupPattern := by
  have item := agree_sequenceItem alike.pattern
  refine (agree_takeOp (by decide)).then fun _ => agree_of_eat (agree_pure _) (item.then fun first => agree_of_at ?_ ?_)
  · refine (agree_afterCommas (agree_at _) item).then fun rest => ?_
    exact (agree_expectOp _).then fun _ => agree_pure _
  · exact (agree_expectOp _).then fun _ => agree_pure _

theorem agree_classItem (before : List ClassItem) : Agree w w (g.classItem before) (h.classItem before) := by
  refine agree_peek.then fun _ => agree_peekSecond.then fun _ => ?_
  split
  · refine agree_expectName.then fun attr => agree_advance.then fun _ => ?_
    exact alike.pattern.then fun p => agree_pure _
  · exact agree_ite (agree_fail _) (alike.pattern.then fun p => agree_pure _)

theorem agree_classPattern (head : Expr) : Agree w w (g.classPattern head) (h.classPattern head) := by
  refine (agree_collect fun before => ?_).then fun found => agree_pure _
  refine (agree_separated before).then fun _ => agree_ite (agree_pure none) (agree_of_at (agree_pure none) ?_)
  exact (agree_classItem alike before).map some

theorem agree_namePattern : Agree (w + 1) (w + 1) g.namePattern h.namePattern := by
  refine agree_expectName.then fun id => (agree_many_optionally agree_expectName).then fun attrs => ?_
  refine agree_of_taken (by decide) ?_ (agree_ite (agree_pure _) (agree_pure _))
  exact (agree_classPattern alike _).then fun p => (agree_expectOp _).then fun _ => agree_return p

theorem agree_mappingKey : Agree w w g.mappingKey h.mappingKey := by
  refine alike.closedPattern.then fun p => ?_
  split
  · exact agree_pure _
  · exact agree_pure _
  · exact agree_fail _

theorem agree_mappingPart : Agree w w g.mappingPart h.mappingPart := by
  refine agree_of_eat (agree_expectName.then fun id => agree_pure _) ?_
  refine (agree_mappingKey alike).then fun key => (agree_expectOp _).then fun _ => ?_
  exact alike.pattern.then fun p => agree_pure _

theorem agree_mappingPattern : Agree (w + 1) w g.mappingPattern h.mappingPattern := by
  refine (agree_takeOp (by decide)).then fun _ => (agree_collect fun before => ?_).then fun parts => ?_
  · refine (agree_separated before).then fun _ => agree_ite (agree_pure none) ?_
    exact agree_ite (agree_pure none) (agree_of_at (agree_pure none) ((agree_mappingPart alike).map some))
  · exact (agree_expectOp _).then fun _ => agree_pure _

theorem agree_closedPatternRule : Agree (w + 1) (w + 1) g.closedPatternRule h.closedPatternRule := by
  have upper := Nat.le_succ w
  have value : Agree (w + 1) (w + 1) (Pattern.value <$> g.arithmetic) (Pattern.value <$> h.arithmetic) :=
    (agree_binaryChain alike _).map _
  refine agree_of_peek fun k => ?_
  split
  · exact value.agreeIf
  · exact value.agreeIf
  · exact ((agree_strings fun source short => alike.read_congr short).map _).agreeIf
  · exact ((agree_groupPattern alike).mono (Nat.le_refl _) upper).agreeIf
  · exact agreeIf_advance (by decide) ((agree_bracketed alike _).then fun ps => agree_return _)
  · exact ((agree_mappingPattern alike).mono (Nat.le_refl _) upper).agreeIf
  · exact (agree_advance.then fun _ => agree_pure _).agreeIf
  · split
    · exact (agree_advance.then fun _ => agree_pure _).agreeIf
    · exact (agree_namePattern alike).agreeIf
  · exact (agree_fail _).agreeIf

theorem agree_patternRule : Agree (w + 1) (w + 1) g.patternRule h.patternRule := by
  have closed := agree_closedPatternRule alike
  refine closed.then fun first => (agree_many_optionally closed).then fun rest => ?_
  refine agree_of_eat (agree_expectName.then fun id => ?_) (agree_pure _)
  exact agree_ite (agree_fail _) (agree_pure _)

theorem agree_casePattern : Agree (w + 1) (w + 1) g.casePattern h.casePattern := by
  have item := agree_sequenceItem (agree_patternRule alike)
  refine item.then fun first => agree_of_at ?_ (agree_ite (agree_fail _) (agree_pure first))
  refine (agree_afterCommas ?stop item).then fun rest => agree_pure _
  exact (agree_at _).then fun _ => (agree_at _).then fun _ => agree_pure _

end Patterns

end Grammar

/-! Statements that end with their line. -/

namespace Parser

variable {w : Nat}

theorem agree_dottedName : Agree w w dottedName dottedName :=
  agree_expectName.then fun _ => (agree_many_optionally agree_expectName).then fun _ => agree_pure _

theorem agree_aliasOf {p : Parser String} (h : Agree w w p p) : Agree w w (aliasOf p) (aliasOf p) :=
  h.then fun _ => agree_of_optionally agree_expectName fun _ => agree_pure _

theorem agree_relativeLevel : Agree w w relativeLevel relativeLevel := by
  refine (agree_many ?_).then fun steps => agree_pure _
  exact agree_of_eat (agree_pure _) (agree_of_eat (agree_pure _) (agree_pure _))

theorem agree_importedNames : Agree w w importedNames importedNames := by
  have item : Agree w w (aliasOf expectName) (aliasOf expectName) := agree_aliasOf agree_expectName
  refine agree_of_eat (agree_pure _) (agree_of_eat ?_ (agree_commas (agree_pure false) item agree_pure))
  exact agree_commas (agree_at _) item fun names => (agree_expectOp _).then fun _ => agree_pure names

theorem agree_importFrom : Agree w w importFrom importFrom := by
  refine (agree_expectWord _).then fun _ => agree_relativeLevel.then fun level => ?_
  refine (agree_at _).then fun b => (agree_optionally _ agree_dottedName).then fun module => ?_
  refine agree_ite (agree_fail _) ((agree_expectWord _).then fun _ => ?_)
  exact agree_importedNames.then fun names => agree_pure _

theorem agree_nameList : Agree w w nameList nameList :=
  agree_commas (agree_pure false) agree_expectName agree_pure

theorem agree_eatAugmented : Agree w w eatAugmented? eatAugmented? := by
  refine agree_peek.then fun k => ?_
  split
  · split
    · exact agree_advance.then fun _ => agree_pure _
    · exact agree_pure none
  · exact agree_pure none

end Parser

namespace Grammar

variable {w : Nat} {g h : Grammar}

section Simple

variable (alike : AlikeAt w g h)
include alike

theorem agree_exprStmt : Agree (w + 1) (w + 1) g.exprStmt h.exprStmt := by
  have value := agree_itemsOrYield alike
  refine value.then fun first => agree_eatAugmented.then fun o => ?_
  cases o with
  | some o => exact (agree_target _ first).then fun head => value.then fun v => agree_pure _
  | none =>
    refine agree_of_eat ?_ ((agree_many_optionally value).then fun more => ?_)
    · refine (agree_target _ first).then fun head => (agree_testRule alike).then fun annotated => ?_
      exact agree_of_optionally value fun v => agree_pure _
    · cases more with
      | nil => exact agree_pure _
      | cons second more => exact (agree_targets _ _).then fun heads => agree_pure _

theorem agree_deletion : Agree (w + 1) (w + 1) g.deletion h.deletion := by
  refine (agree_targetItems alike).then fun e => ?_
  cases e with
  | tuple elts ctx => exact (agree_targets _ elts).then fun found => agree_pure _
  | _ => exact (agree_targets _ _).then fun found => agree_pure _

theorem agree_raiseStmt : Agree (w + 1) (w + 1) g.raiseStmt h.raiseStmt := by
  refine agree_atExpr.then fun b => (agree_optionally b (agree_testRule alike)).then fun o => ?_
  cases o with
  | none => exact agree_pure _
  | some exc => exact agree_of_optionally (agree_testRule alike) fun cause => agree_pure _

theorem agree_smallStmt : Agree (w + 1) (w + 1) g.smallStmt h.smallStmt := by
  have after : ∀ {p q : Parser Stmt}, Agree (w + 1) (w + 1) p q →
      Agree (w + 1) (w + 1) (smallStmt.after p) (smallStmt.after q) := fun h => agree_advance.then fun _ => h
  refine agree_peek.then fun k => ?_
  split
  · exact after (agree_pure _)
  · exact after (agree_pure _)
  · exact after (agree_pure _)
  · exact after (agree_atExpr.then fun b =>
      (agree_optionally b (agree_itemsRule alike)).then fun v => agree_pure _)
  · exact after (agree_raiseStmt alike)
  · exact after (agree_nameList.map _)
  · exact after (agree_nameList.map _)
  · exact after (agree_deletion alike)
  · exact after ((agree_testRule alike).then fun test =>
      agree_of_optionally (agree_testRule alike) fun message => agree_pure _)
  · exact after (agree_commas (agree_pure false) (agree_aliasOf agree_dottedName) fun names => agree_pure _)
  · exact agree_importFrom
  · exact agree_exprStmt alike

theorem agree_line : Agree (w + 1) (w + 1) g.line h.line := by
  have stmt := agree_smallStmt alike
  refine stmt.then fun first => (agree_many ?next).then fun rest => ?_
  case next =>
    refine (agree_eat _).then fun b => agree_ite (agree_pure none) (agree_of_at (agree_pure none) ?_)
    exact stmt.map some
  exact agree_expectNewline.then fun _ => agree_pure _

end Simple

/-! Statements that hold blocks. -/

theorem agree_indented {α : Type} {p q : Parser (List α)} (h : Agree w w p q) :
    Agree w w (indented p) (indented q) := by
  refine (agree_many (agree_peek.then fun k => ?_)).then fun parts => agree_pure _
  split
  · exact agree_advance.then fun _ => agree_pure none
  · exact agree_pure none
  · exact agree_advance.then fun _ => agree_pure _
  · exact h.map some

theorem agree_expectIndent : Agree w w expectIndent expectIndent :=
  (agree_eat _).then fun _ => agree_ite (agree_fail _) (agree_pure ())

/-- The parsers of two grammars agree on tokens that weigh less than `w`, and on lighter ones leave
lighter ones. -/
def Alike (w : Nat) (g h : Grammar) : Prop := ∀ v ≤ w, AlikeAt v g h

section Compound

variable (alike : Alike w g h)
include alike

theorem Alike.here : AlikeAt w g h := alike w (Nat.le_refl w)

theorem Alike.line : Agree w w g.line h.line := by
  cases w with
  | zero => exact agreeUpTo_zero
  | succ w => exact agree_line (alike w (Nat.le_succ w))

/-- A block takes at least its colon. -/
theorem agree_block : Agree (w + 1) w g.block h.block := by
  refine (agree_takeOp (by decide)).then fun _ => agree_of_eat ?_ alike.line
  exact agree_expectIndent.then fun _ => agree_indented alike.here.statement

theorem agree_wholeBlock : Agree (w + 1) (w + 1) g.block h.block :=
  (agree_block alike).mono (Nat.le_refl _) (Nat.le_succ w)

theorem agree_elseBlock : Agree (w + 1) (w + 1) g.elseBlock h.elseBlock :=
  agree_of_eat (agree_wholeBlock alike) (agree_pure [])

theorem agree_branchRule : Agree (w + 1) (w + 1) g.branchRule h.branchRule := by
  have lower := Nat.le_succ w
  refine agree_advance.then fun _ => (agree_testRule alike.here).then fun test => ?_
  refine (agree_block alike).then fun body => agree_of_at ?_ ?_
  · exact alike.here.branch.then fun s => agree_return _
  · exact ((agree_elseBlock alike).then fun orelse => agree_pure _).mono lower (Nat.le_refl _)

theorem agree_whileStmt : Agree (w + 1) (w + 1) g.whileStmt h.whileStmt := by
  refine (agree_expectWord _).then fun _ => (agree_testRule alike.here).then fun test => ?_
  refine (agree_wholeBlock alike).then fun body => ?_
  exact (agree_elseBlock alike).then fun orelse => agree_pure _

theorem agree_forStmt (isAsync : Bool) : Agree (w + 1) (w + 1) (g.forStmt isAsync) (h.forStmt isAsync) := by
  refine (agree_expectWord _).then fun _ => (agree_targetItems alike.here).then fun head => ?_
  refine (agree_target _ head).then fun head => (agree_expectWord _).then fun _ => ?_
  refine (agree_itemsRule alike.here).then fun iter => (agree_wholeBlock alike).then fun body => ?_
  exact (agree_elseBlock alike).then fun orelse => agree_pure _

theorem agree_handler : Agree (w + 1) (w + 1) g.handler h.handler := by
  refine agree_of_at ((agree_wholeBlock alike).then fun body => agree_pure _) ?_
  refine (agree_testRule alike.here).then fun type => agree_of_optionally agree_expectName fun id => ?_
  exact (agree_wholeBlock alike).then fun body => agree_pure _

theorem agree_tryStmt : Agree (w + 1) (w + 1) g.tryStmt h.tryStmt := by
  refine (agree_expectWord _).then fun _ => (agree_wholeBlock alike).then fun body => ?_
  refine (agree_many_optionally (agree_handler alike)).then fun handlers => ?_
  have rest : ∀ orelse, Agree (w + 1) (w + 1)
      (do
        let finalbody ← if ← eatWord "finally" then g.block else pure []
        if handlers.isEmpty && finalbody.isEmpty then fail .expectedHandler
        return Stmt.tryBlock body handlers orelse finalbody)
      (do
        let finalbody ← if ← eatWord "finally" then h.block else pure []
        if handlers.isEmpty && finalbody.isEmpty then fail .expectedHandler
        return Stmt.tryBlock body handlers orelse finalbody) := by
    intro orelse
    refine agree_of_eat ((agree_wholeBlock alike).then fun finalbody => ?_) ?_
    · exact agree_ite (agree_fail _) (agree_pure _)
    · exact agree_ite (agree_fail _) (agree_pure _)
  exact agree_ite (rest []) ((agree_elseBlock alike).then rest)

theorem agree_withItem : Agree (w + 1) (w + 1) g.withItem h.withItem := by
  have operand := agree_bitOrRule alike.here
  refine (agree_testRule alike.here).then fun context => agree_of_eat ?_ (agree_pure _)
  exact (agree_starOr operand operand).then fun vars => (agree_target _ vars).then fun t => agree_pure _

theorem agree_withStmt (isAsync : Bool) :
    Agree (w + 1) (w + 1) (g.withStmt isAsync) (h.withStmt isAsync) := by
  have item := agree_withItem alike
  refine (agree_expectWord _).then fun _ => item.then fun first => ?_
  refine (agree_afterCommas (agree_pure false) item).then fun rest => ?_
  exact (agree_wholeBlock alike).then fun body => agree_pure _

theorem agree_functionDef (decorators : List Expr) (isAsync : Bool) :
    Agree (w + 1) (w + 1) (g.functionDef decorators isAsync) (h.functionDef decorators isAsync) := by
  refine (agree_expectWord _).then fun _ => agree_expectName.then fun id => ?_
  refine (agree_takeOp (by decide)).then fun _ => (agree_params alike.here _ _).then fun ps => ?_
  refine ((agree_expectOp _).mono (Nat.le_refl w) (Nat.le_succ w)).then fun _ => ?_
  refine agree_of_optionally (agree_testRule alike.here) fun returns => ?_
  exact (agree_wholeBlock alike).then fun body => agree_pure _

theorem agree_classDef (decorators : List Expr) :
    Agree (w + 1) (w + 1) (g.classDef decorators) (h.classDef decorators) := by
  refine (agree_expectWord _).then fun _ => agree_expectName.then fun id => ?_
  have rest : ∀ bases keywords, Agree (w + 1) (w + 1)
      (do return Stmt.classDef id bases keywords (← g.block) decorators)
      (do return Stmt.classDef id bases keywords (← h.block) decorators) := fun _ _ =>
    (agree_wholeBlock alike).then fun body => agree_pure _
  refine agree_of_taken (by decide) ?_ (rest [] [])
  refine (agree_callArgs alike.here).then fun args => ?_
  exact ((agree_expectOp _).mono (Nat.le_refl w) (Nat.le_succ w)).then fun _ => rest args.1 args.2

theorem agree_decorated : Agree (w + 1) (w + 1) g.decorated h.decorated := by
  refine (agree_many ?next).then fun decorators => ?_
  case next =>
    refine agree_of_eat ((agree_testRule alike.here).then fun e => ?_) (agree_pure none)
    exact agree_expectNewline.then fun _ => agree_pure _
  refine agree_of_at (agree_functionDef alike _ _) (agree_of_at (agree_classDef alike _) ?_)
  exact agree_of_eat (agree_functionDef alike _ _) (agree_fail _)

theorem agree_matchCase : Agree (w + 1) (w + 1) g.matchCase h.matchCase := by
  refine (agree_expectWord _).then fun _ => (agree_casePattern alike.here).then fun p => ?_
  refine agree_of_optionally (agree_testRule alike.here) fun guard => ?_
  exact (agree_wholeBlock alike).then fun body => agree_pure _

theorem agree_matchSubject : Agree (w + 1) (w + 1) g.matchSubject? h.matchSubject? := by
  intro ts us kinds light
  have run := agree_itemsRule alike.here ts.tail us.tail (kindsOf_tail kinds)
    (Nat.lt_of_le_of_lt (weight_tail_le ts) light)
  unfold matchSubject?
  generalize g.itemsRule ts.tail = x at run ⊢
  generalize h.itemsRule us.tail = y at run ⊢
  cases run with
  | error => exact .ok ⟨rfl, kinds, light⟩
  | ok left =>
    dsimp only
    rw [left.value, headKind_congr left.kinds, headKind_congr (kindsOf_tail left.kinds)]
    split
    · exact .ok ⟨rfl, left.kinds, left.light⟩
    · exact .ok ⟨rfl, kinds, light⟩

theorem agree_matchCases : Agree (w + 1) (w + 1) g.matchCases h.matchCases := by
  refine (agree_expectOp _).then fun _ => agree_expectNewline.then fun _ => ?_
  refine agree_expectIndent.then fun _ => (agree_indented ?_).then fun cases => ?_
  · exact agree_of_at ((agree_matchCase alike).then fun c => agree_pure _) (agree_fail _)
  · exact agree_ite (agree_fail _) (agree_pure cases)

theorem agree_statementRule : Agree (w + 1) (w + 1) g.statementRule h.statementRule := by
  have one : ∀ {p q : Parser Stmt}, Agree (w + 1) (w + 1) p q →
      Agree (w + 1) (w + 1) (statementRule.one p) (statementRule.one q) := fun h =>
    h.then fun s => agree_pure _
  have line := agree_line alike.here
  refine agree_peek.then fun k => ?_
  split
  · exact one (agree_decorated alike)
  · exact one (agree_branchRule alike)
  · exact one (agree_whileStmt alike)
  · exact one (agree_forStmt alike _)
  · exact one (agree_tryStmt alike)
  · exact one (agree_withStmt alike _)
  · exact one (agree_functionDef alike _ _)
  · exact one (agree_classDef alike _)
  · refine (agree_matchSubject alike).then fun o => ?_
    cases o with
    | none => exact line
    | some subject => exact (agree_matchCases alike).then fun cases => agree_pure _
  · refine agree_advance.then fun _ => agree_peek.then fun k => ?_
    split
    · exact one (agree_functionDef alike _ _)
    · exact one (agree_forStmt alike _)
    · exact one (agree_withStmt alike _)
    · exact agree_fail _
  · exact line

end Compound

/-- The grammar one level deeper. -/
def rules (g : Grammar) : Grammar where
  test := g.testRule
  orTest := g.orTestRule
  notTest := g.notTestRule
  bitOr := g.bitOrRule
  factor := g.factorRule
  standalone := g.standaloneRule
  pattern := g.patternRule
  closedPattern := g.closedPatternRule
  statement := g.statementRule
  branch := g.branchRule

/-- A level more agrees on tokens that weigh one more. -/
theorem alikeAt_rules (alike : Alike w g h) : AlikeAt (w + 1) g.rules h.rules where
  test := agree_testRule alike.here
  orTest := agree_orTestRule alike.here
  notTest := agree_notTestRule alike.here
  bitOr := agree_bitOrRule alike.here
  factor := agree_factorRule alike.here
  standalone := agree_standaloneRule alike.here
  pattern := agree_patternRule alike.here
  closedPattern := agree_closedPatternRule alike.here
  statement := agree_statementRule alike
  branch := agree_branchRule alike

/-- Grammars that are deep enough agree. -/
theorem alikeAt_grammar (w : Nat) : ∀ m n, w ≤ m → w ≤ n → AlikeAt w (grammar m) (grammar n) := by
  induction w using Nat.strongRecOn with
  | ind w ih =>
    intro m n deep deep'
    cases w with
    | zero =>
      exact ⟨agreeUpTo_zero, agreeUpTo_zero, agreeUpTo_zero, agreeUpTo_zero, agreeUpTo_zero,
        agreeUpTo_zero, agreeUpTo_zero, agreeUpTo_zero, agreeUpTo_zero, agreeUpTo_zero⟩
    | succ w =>
      obtain ⟨m, rfl⟩ := Nat.exists_eq_add_of_le' (Nat.one_le_of_lt deep)
      obtain ⟨n, rfl⟩ := Nat.exists_eq_add_of_le' (Nat.one_le_of_lt deep')
      exact alikeAt_rules fun v le =>
        ih v (Nat.lt_succ_of_le le) m n (Nat.le_trans le (Nat.le_of_succ_le_succ deep))
          (Nat.le_trans le (Nat.le_of_succ_le_succ deep'))

theorem agree_program (alike : AlikeAt w g h) : Agree w w g.program h.program := by
  refine (agree_many (agree_peek.then fun k => ?_)).then fun parts => agree_pure _
  split
  · exact agree_pure none
  · exact agree_advance.then fun _ => agree_pure _
  · exact alike.statement.map some

end Grammar

/-- Programs with tokens of the same kinds are read alike, up to the place of a fault. -/
theorem sameOutcome_parseProgram {source source' : String}
    (tokens : SameOutcome (fun ts us => kindsOf ts = kindsOf us) (tokenize source) (tokenize source')) :
    SameOutcome Eq (parseProgram source) (parseProgram source') := by
  unfold parseProgram
  cases found : tokenize source with
  | error fault =>
    rw [found] at tokens
    generalize tokenize source' = y at tokens ⊢
    cases tokens with
    | error cause => exact .error cause
  | ok ts =>
    cases found' : tokenize source' with
    | error fault =>
      rw [found, found'] at tokens
      cases tokens
    | ok us =>
      rw [found, found'] at tokens
      cases tokens with
      | ok same =>
        have deep := weight_le_of_tokenize found
        have deep' := weight_le_of_tokenize found'
        have equal : weight ts = weight us := by rw [weight, weight, same]
        have alike := Grammar.alikeAt_grammar (weight ts + 1) (source.length + 1) (source'.length + 1)
          (Nat.succ_le_succ deep) (Nat.succ_le_succ (equal ▸ deep'))
        have run := Grammar.agree_program alike ts us same (Nat.lt_succ_self _)
        exact run.bind fun _ _ left => .ok left.value

end Arbiter.Syntax
