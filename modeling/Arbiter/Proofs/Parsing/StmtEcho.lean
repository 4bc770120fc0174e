import Arbiter.Proofs.Parsing.ExprEcho
import Arbiter.Proofs.Parsing.StmtHalts

/-! Statements with another name in the place of `match`. Main statement: a program in which there is no
`match` statement is read as it is, with that name in it. -/

namespace Arbiter.Syntax

open Syntax.Parser Respelling

namespace Respelling

variable {r : Respelling}

/-! Imports and names. -/

theorem echoesUpTo_dottedName : r.EchoesUpTo r.Dotted dottedName dottedName := by
  have all : ∀ {as bs : List String}, List.Forall₂ (fun a b => b = r.word a ∧ r.isWord a) as bs →
      bs = as.map r.word ∧ ∀ a ∈ as, r.isWord a := by
    intro as bs alike
    induction alike with
    | nil => exact ⟨rfl, nofun⟩
    | cons first _ ih => exact ⟨by rw [first.1, ih.1, List.map_cons], List.forall_mem_cons.2 ⟨first.2, ih.2⟩⟩
  have next : r.EchoesUpTo (Option.Rel fun a b => b = r.word a ∧ r.isWord a)
      (do optionally (← eatOp ".") expectName) (do optionally (← eatOp ".") expectName) :=
    (echoes_eat (r.keeps_op ".")).then fun b => echoesUpTo_optionally b echoesUpTo_expectName
  refine echoesUpTo_expectName.bindUpTo fun first first' one => ?_
  refine (echoesUpTo_many next).bindUpTo fun rest rest' more => ?_
  obtain ⟨same, words⟩ := all (.cons one more)
  exact echoesUnless_pure (same ▸ .intro (first :: rest) words)

theorem echoesUpTo_module : r.EchoesUpTo r.ImportedModule (aliasOf dottedName) (aliasOf dottedName) :=
  echoesUpTo_dottedName.bindUpTo fun _ _ dotted =>
    echoes_of_optionally (r.keeps_word rfl) echoes_expectName fun _ => echoesUnless_pure ⟨dotted, rfl⟩

theorem echoes_importedName : r.Echoes r.importedName (aliasOf expectName) (aliasOf expectName) :=
  echoes_expectName.then fun _ =>
    echoes_of_optionally (r.keeps_word rfl) echoes_expectName fun _ => echoes_pure rfl

theorem echoes_relativeLevel : r.Echoes id relativeLevel relativeLevel := by
  have next : r.Echoes (Option.map id) nextPoints nextPoints :=
    echoes_of_eat (r.keeps_op _) (echoes_pure rfl)
      (echoes_of_eat (r.keeps_op _) (echoes_pure rfl) (echoes_pure rfl))
  exact (echoes_many next).then fun steps => echoes_pure (by rw [List.map_id]; rfl)

theorem echoes_importedNames : r.Echoes (List.map r.importedName) importedNames importedNames := by
  have stop : r.Echoes id (pure false) (pure false) := echoes_pure rfl
  refine echoes_of_eat (r.keeps_op _) (echoes_pure rfl) (echoes_of_eat (r.keeps_op _) ?_ ?_)
  · refine echoes_importedName.then fun first => ?_
    refine (echoes_afterCommas (echoes_at (r.keeps_op _)) echoes_importedName).then fun rest => ?_
    exact (echoes_expectOp _).then fun _ => echoes_pure rfl
  · exact echoes_commas stop echoes_importedName fun names => echoes_pure rfl

theorem echoes_importFrom : r.EchoesUpTo r.Respelled importFrom importFrom := by
  refine (echoes_expectWord rfl).then fun _ => echoes_relativeLevel.then fun level => ?_
  refine (echoes_at (r.keeps_word rfl)).then fun b => ?_
  refine (echoesUpTo_optionally _ echoesUpTo_dottedName).bindUpTo fun module module' dotted => ?_
  have isNone : module'.isNone = module.isNone := by cases dotted <;> rfl
  rw [isNone]
  refine echoes_ite (echoesUnless_fail _) ((echoes_expectWord rfl).then fun _ => ?_)
  exact echoes_importedNames.then fun names => echoesUnless_pure (.importFrom names level dotted)

theorem echoes_nameList : r.Echoes (List.map r.word) nameList nameList :=
  echoes_commas (echoes_pure rfl) echoes_expectName fun _ => echoes_pure rfl

theorem echoes_eatAugmented : r.Echoes id eatAugmented? eatAugmented? := by
  refine echoes_of_peek (fun k _ => ?_) (fun _ _ _ => rfl) (echoes_pure rfl)
  split
  · split
    · exact echoes_advance.then fun _ => echoes_pure rfl
    · exact echoes_pure rfl
  · exact echoes_pure rfl

end Respelling

namespace Grammar

variable {r : Respelling} {g : Grammar} (echoing : g.Echoing r)
include echoing

/-! Statements that end with their line. -/

theorem echoes_exprStmt : r.EchoesUpTo r.Respelled g.exprStmt g.exprStmt := by
  have value := echoes_itemsOrYield echoing
  refine value.then fun first => echoes_eatAugmented.then fun o => ?_
  cases o with
  | some o =>
    exact (echoes_target _ first).then fun head => value.then fun v => echoesUnless_pure (.augAssign head o v)
  | none =>
    refine echoes_of_eat (r.keeps_op _) ?_ ((echoes_many_marked (r.keeps_op _) value).then fun more => ?_)
    · refine (echoes_target _ first).then fun head => (echoes_testRule echoing).then fun annotation => ?_
      exact echoes_of_optionally (r.keeps_op _) value fun v => echoesUnless_pure (.annAssign head annotation v)
    · cases more with
      | nil => exact echoesUnless_pure (.expr first)
      | cons second more =>
        have heads := echoes_targets (r := r) .store (first :: second :: more).dropLast
        rw [List.map_dropLast] at heads
        have last : (more.map r.expr).getLastD (r.expr second) = r.expr (more.getLastD second) := by
          simp [List.getLastD_eq_getLast?, List.getLast?_map, Option.getD_map]
        show r.EchoesUpTo _ _ (do
          let heads ← targets .store ((first :: second :: more).map r.expr).dropLast
          return Stmt.assign heads ((more.map r.expr).getLastD (r.expr second)))
        rw [last]
        exact heads.then fun heads => echoesUnless_pure (.assign heads _)

theorem echoes_deletion : r.EchoesUpTo r.Respelled g.deletion g.deletion := by
  refine (echoes_targetItems echoing).then fun e => ?_
  cases e with
  | tuple elts ctx =>
    show r.EchoesUpTo _ _ (do
      let found ← targets .del (r.exprs elts)
      return Stmt.delete found)
    rw [exprs_eq_map]
    exact (echoes_targets _ elts).then fun found => echoesUnless_pure (.delete found)
  | _ => exact (echoes_targets _ [_]).then fun found => echoesUnless_pure (.delete found)

theorem echoes_raiseStmt : r.EchoesUpTo r.Respelled g.raiseStmt g.raiseStmt := by
  refine echoes_atExpr.then fun b => (echoes_optionally b (echoes_testRule echoing)).then fun o => ?_
  cases o with
  | none => exact echoesUnless_pure (.raise none none)
  | some exc =>
    exact echoes_of_optionally (r.keeps_word rfl) (echoes_testRule echoing) fun cause =>
      echoesUnless_pure (.raise (some exc) cause)

theorem echoes_smallStmt : r.EchoesUpTo r.Respelled g.smallStmt g.smallStmt := by
  have after : ∀ {p : Parser Stmt}, r.EchoesUpTo r.Respelled p p →
      r.EchoesUpTo r.Respelled (smallStmt.after p) (smallStmt.after p) := fun h => echoes_advance.then fun _ => h
  have test := echoes_testRule echoing
  have stop : r.Echoes id (pure false) (pure false) := echoes_pure rfl
  refine echoes_of_peek (A := fun _ => g.exprStmt) (fun k _ => ?_) (fun w plain _ => ?_)
    (echoes_exprStmt echoing)
  · split
    · exact after (echoesUnless_pure .pass)
    · exact after (echoesUnless_pure .breakLoop)
    · exact after (echoesUnless_pure .continueLoop)
    · exact after (echoes_atExpr.then fun b =>
        (echoes_optionally b (echoes_itemsRule echoing)).then fun v => echoesUnless_pure (.ret v))
    · exact after (echoes_raiseStmt echoing)
    · exact after (EchoesUnless.map echoes_nameList (fun _ => id) fun names _ same => same ▸ .global names)
    · exact after (EchoesUnless.map echoes_nameList (fun _ => id) fun names _ same => same ▸ .nonlocal names)
    · exact after (echoes_deletion echoing)
    · exact after (test.then fun test' =>
        echoes_of_optionally (r.keeps_op _) test fun message => echoesUnless_pure (.assert test' message))
    · refine after (echoesUpTo_module.bindUpTo fun first first' one => ?_)
      refine (echoesUpTo_afterCommas stop echoesUpTo_module).bindUpTo fun rest rest' more => ?_
      exact echoesUnless_pure (.imports (.cons one more))
    · exact echoes_importFrom
    · exact echoes_exprStmt echoing
  · split
    all_goals first
      | rfl
      | rename_i word
        cases word
        exact absurd plain (by decide)

theorem echoes_line : r.EchoesUpTo (List.Forall₂ r.Respelled) g.line g.line := by
  have small := echoes_smallStmt echoing
  have next : r.EchoesUpTo (Option.Rel r.Respelled) g.nextSmall g.nextSmall := by
    have none : r.EchoesUpTo (Option.Rel r.Respelled) (pure none) (pure none) := echoesUnless_pure .none
    refine (echoes_eat (r.keeps_op _)).then fun _ => echoes_ite none (echoes_of_at r.keeps_newline none ?_)
    exact small.map (fun _ => id) fun _ _ => .some
  refine small.bindUpTo fun first first' one => (echoesUpTo_many next).bindUpTo fun rest rest' more => ?_
  exact echoes_expectNewline.then fun _ => echoesUnless_pure (.cons one more)

end Grammar

/-! Statements that hold blocks. What is read as one with a `match` in it is left out of account. -/

/-- A block echoes another one unless there is a `match` in it. -/
abbrev Respelling.EchoesBlock (r : Respelling) (p q : Parser (List Stmt)) : Prop :=
  r.EchoesUnless (fun ss => holdMatch ss = true) (List.Forall₂ r.Respelled) p q

abbrev Respelling.EchoesStmt (r : Respelling) (p q : Parser Stmt) : Prop :=
  r.EchoesUnless (fun s => s.holdsMatch = true) r.Respelled p q

/-- The same of the lines that come next in a block, if there are any. -/
abbrev Respelling.EchoesPart (r : Respelling) (p q : Parser (Option (List Stmt))) : Prop :=
  r.EchoesUnless (fun o => ∃ ss ∈ o, holdMatch ss = true) (Option.Rel (List.Forall₂ r.Respelled)) p q

namespace Grammar

variable {r : Respelling} {g : Grammar}

theorem echoes_part {p : Parser (List Stmt)} (h : r.EchoesBlock p p) : r.EchoesPart (some <$> p) (some <$> p) :=
  h.map (fun ss held => ⟨ss, rfl, held⟩) fun _ _ => .some

theorem echoes_flatten {next : Parser (Option (List Stmt))} (h : r.EchoesPart next next) :
    r.EchoesBlock (do return (← many next).flatten) (do return (← many next).flatten) := by
  refine (echoesUnless_many h).bind (fun parts parts' alike => ?_) fun parts held => ?_
  · exact echoesUnless_pure (List.rel_flatten alike)
  · obtain ⟨ss, member, held⟩ := held
    exact gives_pure (holdMatch_flatten member held)

theorem echoes_indented {p : Parser (List Stmt)} (h : r.EchoesBlock p p) :
    r.EchoesBlock (indented p) (indented p) := by
  have next : r.EchoesPart (nextPart p) (nextPart p) := by
    refine echoes_of_peek (A := fun _ => some <$> p) (fun k _ => ?_) (fun _ _ _ => rfl) (echoes_part h)
    split
    · exact echoes_advance.then fun _ => echoesUnless_pure .none
    · exact echoesUnless_pure .none
    · exact echoes_advance.then fun _ => echoesUnless_pure (.some .nil)
    · exact echoes_part h
  exact echoes_flatten next

theorem echoes_expectIndent : r.Echoes id expectIndent expectIndent :=
  (echoes_eat r.keeps_indent).then fun _ => echoes_ite (echoesUnless_fail _) (echoes_pure rfl)

section Compound

variable (echoing : g.Echoing r)
include echoing

theorem echoes_wholeLine : r.EchoesBlock g.line g.line := (echoes_line echoing).upTo fun _ _ => id

theorem echoes_block : r.EchoesBlock g.block g.block := by
  refine (echoes_expectOp _).then fun _ => echoes_of_eat r.keeps_newline ?_ (echoes_wholeLine echoing)
  exact echoes_expectIndent.then fun _ => echoes_indented echoing.statement

theorem echoes_elseBlock : r.EchoesBlock g.elseBlock g.elseBlock :=
  echoes_of_eat (r.keeps_word rfl) (echoes_block echoing) (echoesUnless_pure .nil)

/-- A block, and what is made of it. -/
theorem echoes_of_block {α β : Type} {E : α → Prop} {R : α → β → Prop} {make : List Stmt → α}
    {make' : List Stmt → β}
    (alike : ∀ body body', List.Forall₂ r.Respelled body body' → R (make body) (make' body'))
    (held : ∀ body, holdMatch body = true → E (make body)) :
    r.EchoesUnless E R (do return make (← g.block)) (do return make' (← g.block)) :=
  (echoes_block echoing).bind (fun _ _ same => echoesUnless_pure (alike _ _ same))
    fun _ found => gives_pure (held _ found)

/-- A block and the one after `else`, and what is made of them. -/
theorem echoes_of_blocks {make make' : List Stmt → List Stmt → Stmt}
    (alike : ∀ body body' orelse orelse', List.Forall₂ r.Respelled body body' →
      List.Forall₂ r.Respelled orelse orelse' → r.Respelled (make body orelse) (make' body' orelse'))
    (held : ∀ body orelse, (make body orelse).holdsMatch = (holdMatch body || holdMatch orelse)) :
    r.EchoesStmt (do
        let body ← g.block
        return make body (← g.elseBlock))
      (do
        let body ← g.block
        return make' body (← g.elseBlock)) := by
  refine (echoes_block echoing).bind (fun body body' inside => ?_) fun body found => ?_
  · refine (echoes_elseBlock echoing).bind (fun orelse orelse' otherwise => ?_) fun orelse found => ?_
    · exact echoesUnless_pure (alike _ _ _ _ inside otherwise)
    · exact gives_pure (by rw [held, found, Bool.or_true])
  · exact gives_bind fun orelse => gives_pure (by rw [held, found, Bool.true_or])

theorem echoes_branchRule : r.EchoesStmt g.branchRule g.branchRule := by
  refine echoes_advance.then fun _ => (echoes_testRule echoing).then fun test => ?_
  refine (echoes_block echoing).bind (fun body body' inside => ?_) fun body found => ?_
  · refine echoes_of_at (r.keeps_word rfl) ?_ ?_
    · refine echoing.branch.bind (fun s s' same => ?_) fun s found => ?_
      · exact echoesUnless_pure (.branch test inside (.cons same .nil))
      · exact gives_pure (by simp [Stmt.holdsMatch, holdMatch, found])
    · refine (echoes_elseBlock echoing).bind (fun orelse orelse' otherwise => ?_) fun orelse found => ?_
      · exact echoesUnless_pure (.branch test inside otherwise)
      · exact gives_pure (by simp [Stmt.holdsMatch, found])
  · have held : ∀ orelse, (Stmt.branch test body orelse).holdsMatch = true := fun orelse => by
      simp [Stmt.holdsMatch, found]
    exact gives_bind fun _ =>
      gives_ite (gives_bind fun _ => gives_pure (held _)) (gives_bind fun _ => gives_pure (held _))

theorem echoes_whileStmt : r.EchoesStmt g.whileStmt g.whileStmt := by
  refine (echoes_expectWord rfl).then fun _ => (echoes_testRule echoing).then fun test => ?_
  exact echoes_of_blocks echoing (fun _ _ _ _ => .whileLoop test) fun _ _ => rfl

theorem echoes_forStmt (isAsync : Bool) : r.EchoesStmt (g.forStmt isAsync) (g.forStmt isAsync) := by
  refine (echoes_expectWord rfl).then fun _ => (echoes_targetItems echoing).then fun head => ?_
  refine (echoes_target _ head).then fun head => (echoes_expectWord rfl).then fun _ => ?_
  refine (echoes_itemsRule echoing).then fun iter => ?_
  exact echoes_of_blocks echoing (fun _ _ _ _ => .forLoop head iter isAsync) fun _ _ => rfl

theorem echoes_handler :
    r.EchoesUnless (fun h => h.holdsMatch = true) r.RespelledHandler g.handler g.handler := by
  refine echoes_of_at (r.keeps_op _) ?_ ?_
  · exact echoes_of_block echoing (fun _ _ => .intro none none) fun _ => id
  · refine (echoes_testRule echoing).then fun type => ?_
    refine echoes_of_optionally (r.keeps_word rfl) echoes_expectName fun name => ?_
    exact echoes_of_block echoing (fun _ _ => .intro (some type) name) fun _ => id

/-- What comes after the handlers of a `try`, and after its `else`. -/
theorem echoes_finally (unhandled : Bool) (make make' : List Stmt → Stmt)
    (alike : ∀ body body', List.Forall₂ r.Respelled body body' → r.Respelled (make body) (make' body'))
    (held : ∀ body, holdMatch body = true → (make body).holdsMatch = true) :
    r.EchoesStmt
      (do
        let finalbody ← if ← eatWord "finally" then g.block else pure []
        if unhandled && finalbody.isEmpty then fail .expectedHandler
        return make finalbody)
      (do
        let finalbody ← if ← eatWord "finally" then g.block else pure []
        if unhandled && finalbody.isEmpty then fail .expectedHandler
        return make' finalbody) := by
  have ends : ∀ finalbody finalbody', List.Forall₂ r.Respelled finalbody finalbody' →
      r.EchoesStmt
        (do
          if unhandled && finalbody.isEmpty then fail .expectedHandler
          return make finalbody)
        (do
          if unhandled && finalbody'.isEmpty then fail .expectedHandler
          return make' finalbody') := by
    intro finalbody finalbody' last
    have unfinished : finalbody'.isEmpty = finalbody.isEmpty := by cases last <;> rfl
    rw [unfinished]
    exact echoes_ite (echoesUnless_fail _) (echoesUnless_pure (alike _ _ last))
  refine echoes_of_eat (r.keeps_word rfl) ((echoes_block echoing).bind ends fun finalbody found => ?_)
    (ends _ _ .nil)
  exact gives_ite (gives_fail _) (gives_pure (held _ found))

omit echoing in
theorem gives_finally (unhandled : Bool) {make : List Stmt → Stmt}
    (held : ∀ body, (make body).holdsMatch = true) :
    Gives (fun s => s.holdsMatch = true)
      (do
        let finalbody ← if ← eatWord "finally" then g.block else pure []
        if unhandled && finalbody.isEmpty then fail .expectedHandler
        return make finalbody) := by
  have ends : ∀ finalbody, Gives (fun s => s.holdsMatch = true)
      (do
        if unhandled && finalbody.isEmpty then fail .expectedHandler
        return make finalbody) := fun finalbody => gives_ite (gives_fail _) (gives_pure (held _))
  exact gives_bind fun _ => gives_ite (gives_bind ends) (ends [])

theorem echoes_tryStmt : r.EchoesStmt g.tryStmt g.tryStmt := by
  refine (echoes_expectWord rfl).then fun _ => ?_
  refine (echoes_block echoing).bind (fun body body' inside => ?_) fun body found => ?_
  · have next : r.EchoesUnless (fun o => ∃ h ∈ o, h.holdsMatch = true) (Option.Rel r.RespelledHandler)
        (do optionally (← eatWord "except") g.handler) (do optionally (← eatWord "except") g.handler) :=
      echoes_of_eat (r.keeps_word rfl)
        ((echoes_handler echoing).map (fun h held => ⟨h, rfl, held⟩) fun _ _ => .some) (echoesUnless_pure .none)
    refine (echoesUnless_many next).bind (fun handlers handlers' handled => ?_) fun handlers found => ?_
    · have unhandled : handlers'.isEmpty = handlers.isEmpty := by cases handled <;> rfl
      have rest : ∀ orelse orelse', List.Forall₂ r.Respelled orelse orelse' → _ :=
        fun orelse orelse' otherwise => echoes_finally echoing handlers.isEmpty
          (.tryBlock body handlers orelse) (.tryBlock body' handlers' orelse')
          (fun _ _ => .tryBlock inside handled otherwise) fun _ found => by simp [Stmt.holdsMatch, found]
      rw [unhandled]
      refine echoes_ite (rest _ _ .nil) ((echoes_elseBlock echoing).bind rest fun orelse found => ?_)
      exact gives_finally _ fun _ => by simp [Stmt.holdsMatch, found]
    · have held : ∀ orelse finalbody, (Stmt.tryBlock body handlers orelse finalbody).holdsMatch = true :=
        fun orelse finalbody => by
          simp only [Stmt.holdsMatch, handlersHoldMatch_eq_any, List.any_eq_true.2 found, Bool.or_true,
            Bool.true_or]
      exact gives_ite (gives_finally _ (held _)) (gives_bind fun orelse => gives_finally _ (held _))
  · have held : ∀ handlers orelse finalbody, (Stmt.tryBlock body handlers orelse finalbody).holdsMatch = true :=
      fun handlers orelse finalbody => by simp only [Stmt.holdsMatch, found, Bool.true_or]
    exact gives_bind fun handlers =>
      gives_ite (gives_finally _ (held _ _)) (gives_bind fun orelse => gives_finally _ (held _ _))

theorem echoes_withItem : r.Echoes r.withItem g.withItem g.withItem := by
  have operand := echoes_bitOrRule echoing
  refine (echoes_testRule echoing).then fun context => echoes_of_eat (r.keeps_word rfl) ?_ (echoes_pure rfl)
  exact (echoes_starOr operand operand).then fun vars => (echoes_target _ vars).then fun t => echoes_pure rfl

theorem echoes_withStmt (isAsync : Bool) : r.EchoesStmt (g.withStmt isAsync) (g.withStmt isAsync) := by
  have item := echoes_withItem echoing
  refine (echoes_expectWord rfl).then fun _ => item.then fun first => ?_
  refine (echoes_afterCommas (echoes_pure rfl) item).then fun rest => ?_
  exact echoes_of_block echoing (fun _ _ => .withBlock (first :: rest) isAsync) fun _ => id

theorem echoes_functionDef (decorators : List Expr) (isAsync : Bool) :
    r.EchoesStmt (g.functionDef decorators isAsync) (g.functionDef (decorators.map r.expr) isAsync) := by
  refine (echoes_expectWord rfl).then fun _ => echoes_expectName.then fun name => ?_
  refine (echoes_expectOp _).then fun _ => (echoes_params echoing _ _).then fun ps => ?_
  refine (echoes_expectOp _).then fun _ => ?_
  refine echoes_of_optionally (r.keeps_op _) (echoes_testRule echoing) fun returns => ?_
  exact echoes_of_block echoing (fun _ _ => .functionDef name ps decorators returns isAsync) fun _ held => held

theorem echoes_classDef (decorators : List Expr) :
    r.EchoesStmt (g.classDef decorators) (g.classDef (decorators.map r.expr)) := by
  refine (echoes_expectWord rfl).then fun _ => echoes_expectName.then fun name => ?_
  have rest : ∀ bases keywords, r.EchoesStmt
      (do return Stmt.classDef name bases keywords (← g.block) decorators)
      (do
        let body ← g.block
        let bases' := bases.map r.expr
        return Stmt.classDef (r.word name) bases' (keywords.map r.keyword) body (decorators.map r.expr)) :=
    fun bases keywords =>
      echoes_of_block echoing (fun _ _ => .classDef name bases keywords decorators) fun _ => id
  refine echoes_of_eat (r.keeps_op _) ?_ (rest [] [])
  exact (echoes_callArgs echoing).then fun args => (echoes_expectOp _).then fun _ => rest args.1 args.2

theorem echoes_decorated : r.EchoesStmt g.decorated g.decorated := by
  have next : r.Echoes (Option.map r.expr) g.nextDecorator g.nextDecorator := by
    refine echoes_of_eat (r.keeps_op _) ((echoes_testRule echoing).then fun e => ?_) (echoes_pure rfl)
    exact echoes_expectNewline.then fun _ => echoes_pure rfl
  refine (echoes_many next).then fun decorators => ?_
  refine echoes_of_at (r.keeps_word rfl) (echoes_functionDef echoing _ _) ?_
  refine echoes_of_at (r.keeps_word rfl) (echoes_classDef echoing _) ?_
  exact echoes_of_eat (r.keeps_word rfl) (echoes_functionDef echoing _ _) (echoesUnless_fail _)

/-- What starts with `match` is a line that starts with another name, or a statement that is left out of
account. -/
theorem echoes_softLine : r.EchoesBlock
    (do
      match ← g.matchSubject? with
      | some subject => return [.matchBlock subject (← g.matchCases)]
      | none => g.line)
    g.line := by
  intro ts worded ss ts' run
  obtain ⟨o, ts₁, header, run⟩ := exists_of_bind (p := g.matchSubject?) run
  rcases g.matchSubject?_cases ts with missed | ⟨subject, ts₂, found⟩
  · cases header.symm.trans missed
    exact echoes_wholeLine echoing ts worded ss ts' run
  · cases header.symm.trans found
    obtain ⟨cases, ts₃, -, run⟩ := exists_of_bind (p := g.matchCases) run
    cases run
    -- A `match` has been read, so nothing is asked of the other tokens.
    exact .inl rfl

theorem echoes_statementRule : r.EchoesBlock g.statementRule g.statementRule := by
  have one : ∀ {p q : Parser Stmt}, r.EchoesStmt p q →
      r.EchoesBlock (statementRule.one p) (statementRule.one q) := fun h =>
    h.bind (fun s s' same => echoesUnless_pure (.cons same .nil)) fun s found =>
      gives_pure (by rw [holdMatch, found, Bool.true_or])
  refine echoes_of_peek (A := fun _ => g.line) (fun k notMatch => ?_) (fun w plain notMatch => ?_)
    (echoes_softLine echoing)
  · split
    · exact one (echoes_decorated echoing)
    · exact one (echoes_branchRule echoing)
    · exact one (echoes_whileStmt echoing)
    · exact one (echoes_forStmt echoing _)
    · exact one (echoes_tryStmt echoing)
    · exact one (echoes_withStmt echoing _)
    · exact one (echoes_functionDef echoing _ _)
    · exact one (echoes_classDef echoing _)
    · exact absurd rfl notMatch
    · refine echoes_advance.then fun _ => ?_
      refine echoes_of_peek (A := fun _ => fail .expectedAfterAsync) (fun k _ => ?_) (fun w plain _ => ?_)
        (echoesUnless_fail _)
      · split
        · exact one (echoes_functionDef echoing _ _)
        · exact one (echoes_forStmt echoing _)
        · exact one (echoes_withStmt echoing _)
        · exact echoesUnless_fail _
      · split
        all_goals first
          | rfl
          | rename_i word
            cases word
            exact absurd plain (by decide)
    · exact echoes_wholeLine echoing
  -- All words that start a statement of their own are keywords, but for `match`.
  · split
    all_goals first
      | rfl
      | contradiction
      | rename_i word
        exact absurd (TokenKind.name.inj word) notMatch
      | rename_i word
        cases word
        exact absurd plain (by decide)

end Compound

/-- However deep a grammar is, it echoes itself. -/
theorem echoing_grammar : ∀ d, (grammar d).Echoing r
  | 0 =>
    ⟨echoesUnless_fail _, echoesUnless_fail _, echoesUnless_fail _, echoesUnless_fail _, echoesUnless_fail _,
      echoesUnless_fail _, echoesUnless_fail _⟩
  | d + 1 =>
    have echoing := echoing_grammar d
    { test := echoes_testRule echoing
      orTest := echoes_orTestRule echoing
      notTest := echoes_notTestRule echoing
      bitOr := echoes_bitOrRule echoing
      factor := echoes_factorRule echoing
      statement := echoes_statementRule echoing
      branch := echoes_branchRule echoing }

theorem echoes_program (echoing : g.Echoing r) : r.EchoesBlock g.program g.program := by
  have statement := echoes_part echoing.statement
  have next : r.EchoesPart g.nextStatement g.nextStatement := by
    refine echoes_of_peek (A := fun _ => some <$> g.statement) (fun k _ => ?_) (fun _ _ _ => rfl) statement
    split
    · exact echoesUnless_pure .none
    · exact echoes_advance.then fun _ => echoesUnless_pure (.some .nil)
    · exact statement
  exact echoes_flatten next

end Grammar

/-- The name stands in the place of `match` among these tokens. -/
def Respelling.among (ts : List Token) (name : String) (notKeyword : isKeyword name = false)
    (notMatch : name ≠ "match") : Respelling where
  name
  notKeyword
  notMatch
  isWord w := ∃ t ∈ ts, t.kind = .name w

/-- `match` may stand for a name wherever it does not start a statement of its own: with any other name in
its place among the tokens, the same program is read, with that name in the place of all the identifiers. -/
theorem program_respelled {d : Nat} {ts rest : List Token} {body : List Stmt}
    (read : (grammar d).program ts = .ok (body, rest)) (noMatch : holdMatch body = false)
    (name : String) (notKeyword : isKeyword name = false) (notMatch : name ≠ "match") :
    let r := Respelling.among ts name notKeyword notMatch
    ∃ body', (grammar d).program (r.tokens ts) = .ok (body', r.tokens rest) ∧
      List.Forall₂ r.Respelled body body' := by
  intro r
  have worded : r.Worded ts := fun t member w same => ⟨t, member, same⟩
  rcases Grammar.echoes_program (Grammar.echoing_grammar d) ts worded body rest read with
    held | ⟨-, body', echo, related⟩
  · exact absurd (noMatch.symm.trans held) Bool.false_ne_true
  · exact ⟨body', echo, related⟩

/-- The name of a module, of a function, of a keyword argument and of an attribute, and at the start of a
line of which a `match` statement could be made. -/
theorem program_respelled_anywhere :
    ∃ ts body rest, tokenize "import a.match\nmatch (match)\nmatch[0] = match(match=match.match)\n" = .ok ts ∧
      (grammar 30).program ts = .ok (body, rest) ∧ body.length = 3 ∧
      ∃ body', (grammar 30).program ((Respelling.among ts "m" rfl (by decide)).tokens ts) =
          .ok (body', (Respelling.among ts "m" rfl (by decide)).tokens rest) ∧
        List.Forall₂ (Respelling.among ts "m" rfl (by decide)).Respelled body body' := by
  have known : (match tokenize "import a.match\nmatch (match)\nmatch[0] = match(match=match.match)\n" with
    | .error _ => false
    | .ok ts => match (grammar 30).program ts with
      | .error _ => false
      | .ok (body, _) => body.length == 3 && !holdMatch body) = true := by decide +kernel
  cases lexed : tokenize "import a.match\nmatch (match)\nmatch[0] = match(match=match.match)\n" with
  | error fault =>
    rw [lexed] at known
    cases known
  | ok ts =>
    cases read : (grammar 30).program ts with
    | error fault =>
      simp only [lexed, read] at known
      cases known
    | ok found =>
      simp only [lexed, read, Bool.and_eq_true, beq_iff_eq, Bool.not_eq_true'] at known
      exact ⟨ts, found.1, found.2, rfl, read, known.1, program_respelled read known.2 "m" rfl (by decide)⟩

end Arbiter.Syntax
