import Arbiter.Proofs.Parsing.PatternSound

/-! Soundness of the grammar of statements. Main statement: every statement of a program that is
accepted is well formed. -/

namespace Arbiter.Syntax

/-- The blocks of a statement that its heads demand: after the head of a compound statement, of a
handler and of a case. -/
def Stmt.bodies : Stmt → List (List Stmt)
  | .functionDef _ _ body _ _ _ | .classDef _ _ _ body _ | .forLoop _ _ body _ _ | .whileLoop _ body _
  | .branch _ body _ | .withBlock _ body _ => [body]
  | .tryBlock body handlers _ _ => body :: handlers.map (·.body)
  | .matchBlock _ cases => cases.map (·.body)
  | _ => []

/-- The blocks of a statement that may be missing. -/
def Stmt.tails : Stmt → List (List Stmt)
  | .forLoop _ _ _ orelse _ | .whileLoop _ _ orelse | .branch _ _ orelse => [orelse]
  | .tryBlock _ _ orelse finalbody => [orelse, finalbody]
  | _ => []

/-- A well-formed statement without blocks. -/
structure Stmt.FormedSimple (s : Stmt) : Prop where
  formed : s.Formed .source
  blocks : s.bodies ++ s.tails = []

open TokenKind (op name)
open Syntax.Parser

namespace Parser

variable {α β : Type} {I : Inputs} {Q : α → Prop}

theorem yields_targets {ctx : Context} (es : List Expr) :
    Yields (targets ctx es) fun ts => asTargets? ctx es = some ts := by
  unfold targets
  split
  · exact yields_pure ‹_›
  · exact yields_fail _

/-- The items of an alternative, or none. -/
theorem yields_many_optionally {k : TokenKind} {p : Parser α} (h : I.Yields p Q) :
    I.Yields (many do optionally (← eat? k) p) fun as => ∀ a ∈ as, Q a :=
  yields_many ((yields_eat _).bind fun b _ => yields_optionally b h)

/-- What follows a mark that may be missing. -/
theorem yields_of_optionally {k : TokenKind} {p : Parser α} {f : Option α → Parser β} {R : β → Prop}
    (h : I.Yields p Q) (hf : ∀ o, (∀ a ∈ o, Q a) → I.Yields (f o) R) :
    I.Yields (do
      let o ← optionally (← eat? k) p
      f o) R :=
  (yields_eat _).bind fun b _ => (yields_optionally b h).bind hf

/-! Imports and names. -/

theorem yields_dottedName : Yields dottedName IsDottedName :=
  yields_expectName.bind fun first hf => (yields_many_optionally yields_expectName).bind fun rest hr =>
    yields_pure ⟨first, rest, hf, hr, rfl⟩

theorem isDottedName {id : String} (h : IsIdentifier id) : IsDottedName id :=
  ⟨id, [], h, by simp, by simp⟩

theorem yields_aliasOf {p : Parser String} (h : Yields p IsDottedName) :
    Yields (aliasOf p) Alias.Formed :=
  h.bind fun _ hn => yields_of_optionally yields_expectName fun _ ha => yields_pure ⟨.inl hn, ha⟩

theorem yields_commas {p : Parser α} {stop : Parser Bool} (hs : Yields stop fun _ => True)
    (h : Yields p Q) : Yields (do
      let first ← p
      let rest ← afterCommas stop p
      return first :: rest) fun as => (∀ a ∈ as, Q a) ∧ as ≠ [] :=
  h.bind fun _ hf => (yields_afterCommas hs h).bind fun _ hr =>
    yields_pure ⟨List.forall_mem_cons.2 ⟨hf, hr⟩, List.cons_ne_nil _ _⟩

theorem yields_importedNames : Yields importedNames fun names => (∀ a ∈ names, a.Formed) ∧ names ≠ [] := by
  have item : Yields (aliasOf expectName) Alias.Formed :=
    yields_aliasOf (yields_expectName.mono fun _ => isDottedName)
  refine yields_of_eat (yields_pure ?_) (yields_of_eat ?_ (yields_commas (yields_pure trivial) item))
  · exact ⟨List.forall_mem_singleton.2 ⟨.inr rfl, by simp⟩, List.cons_ne_nil _ _⟩
  · refine item.bind fun first hf => (yields_afterCommas (yields_at _) item).bind fun rest hr => ?_
    exact (yields_expectOp _).bind fun _ _ =>
      yields_pure ⟨List.forall_mem_cons.2 ⟨hf, hr⟩, List.cons_ne_nil _ _⟩

theorem yields_relativeLevel : Yields relativeLevel fun _ => True := by
  refine (yields_many (Q := fun _ => True) ?_).bind fun _ _ => yields_pure trivial
  exact yields_of_eat (yields_pure (by simp)) (yields_of_eat (yields_pure (by simp)) (yields_pure (by simp)))

theorem yields_importFrom : Yields importFrom Stmt.FormedSimple := by
  refine (yields_expectWord _).bind fun _ _ => yields_relativeLevel.bind fun level _ => ?_
  refine (yields_at _).bind fun b _ => (yields_optionally _ yields_dottedName).bind fun module hm => ?_
  refine yields_unless fun origin => (yields_expectWord _).bind fun _ _ => ?_
  refine yields_importedNames.bind fun names h => yields_pure ⟨.importFrom hm h.1 ?_ h.2, rfl⟩
  cases module with
  | none => exact .inr (by simpa [Nat.pos_iff_ne_zero] using origin)
  | some => exact .inl rfl

theorem yields_nameList : Yields nameList fun names => (∀ id ∈ names, Leeway.source.Binds id) ∧ names ≠ [] :=
  (yields_commas (yields_pure trivial) yields_expectName).mono fun _ h =>
    h.imp_left fun identifiers id hid => binds (identifiers id hid)

theorem yields_eatAugmented : Yields eatAugmented? fun _ => True := by
  refine yields_peek.bind fun _ _ => ?_
  split
  · split
    · exact yields_advance.bind fun _ _ => yields_pure trivial
    · exact yields_pure trivial
  · exact yields_pure trivial

end Parser

/-- What a clause of a `try` is read as. -/
structure Handler.Formed (h : Handler) : Prop where
  type : ∀ e ∈ h.type, e.Formed
  binds : ∀ id ∈ h.name, Leeway.source.Binds id
  body : ∀ s ∈ h.body, s.Formed .source

structure MatchCase.Formed (c : MatchCase) : Prop where
  pattern : c.pattern.FormedAlone
  guard : ∀ e ∈ c.guard, e.Formed
  body : ∀ s ∈ c.body, s.Formed .source

namespace Grammar

/-! Simple statements. -/

section Simple

variable {g : Grammar} (sound : g.Sound)
include sound

theorem yields_itemsRule : Yields g.itemsRule Expr.Formed :=
  yields_itemOrTuple (yields_starOr (yields_binaryChain sound binaryLevels) (yields_testRule sound))

theorem yields_targetItems : Yields g.targetItems Expr.Formed :=
  yields_itemOrTuple (yields_starOr (yields_binaryChain sound binaryLevels) (yields_binaryChain sound binaryLevels))

theorem yields_itemsOrYield : Yields g.itemsOrYield Expr.Formed :=
  yields_of_at (yields_yieldExpr sound) (yields_itemsRule sound)

omit sound in
theorem yields_head {ctx : Context} {head : Expr} (h : head.Formed) :
    Yields (target ctx head) (Targets .source ctx head) :=
  (yields_target head).mono fun _ same => ⟨h, same⟩

theorem yields_exprStmt : Yields g.exprStmt Stmt.FormedSimple := by
  have value := yields_itemsOrYield sound
  refine value.bind fun first hf => yields_eatAugmented.bind fun o _ => ?_
  cases o with
  | some o =>
    refine (yields_head hf).bind fun head ht => ?_
    exact value.bind fun v hv => yields_pure ⟨.augAssign ht hv, rfl⟩
  | none =>
    refine yields_of_eat ?_ ?_
    · refine (yields_head hf).bind fun head ht => (yields_testRule sound).bind fun annotation ha => ?_
      exact yields_of_optionally value fun v hv => yields_pure ⟨.annAssign ht ha hv, rfl⟩
    · refine (yields_many_optionally value).bind fun more hm => ?_
      cases more with
      | nil => exact yields_pure ⟨.expr hf, rfl⟩
      | cons second more =>
        have all : ∀ e ∈ first :: second :: more, e.Formed := List.forall_mem_cons.2 ⟨hf, hm⟩
        refine (yields_targets _).bind fun heads ht => yields_pure ?_
        refine ⟨.assign ?_ (fun e he => all e (List.mem_of_mem_dropLast he)) ht ?_, rfl⟩
        · simp
        · exact all _ (.tail _ (List.getLastD_mem_cons ..))

theorem yields_deletion : Yields g.deletion Stmt.FormedSimple := by
  refine (yields_targetItems sound).bind fun e he => ?_
  have heads : ∀ es : List Expr, (∀ e ∈ es, e.Formed) →
      Yields (targets .del es >>= fun found => pure (Stmt.delete found)) Stmt.FormedSimple := fun es h =>
    (yields_targets es).bind fun _ ht => yields_pure ⟨.delete h ht, rfl⟩
  cases e with
  | tuple elts ctx =>
    refine heads elts fun x hx => ?_
    cases he with
    | tuple h =>
      cases h x hx with
      | starred h => exact .strayed rfl h
      | item h => exact h
  | _ => exact heads _ (List.forall_mem_singleton.2 he)

theorem yields_raiseStmt : Yields g.raiseStmt Stmt.FormedSimple := by
  refine yields_atExpr.bind fun b _ => (yields_optionally b (yields_testRule sound)).bind fun o ho => ?_
  cases o with
  | none => exact yields_pure ⟨.raise (by simp) (by simp), rfl⟩
  | some exc =>
    exact yields_of_optionally (yields_testRule sound) fun cause hc => yields_pure ⟨.raise ho hc, rfl⟩

theorem yields_smallStmt : Yields g.smallStmt Stmt.FormedSimple := by
  have after : ∀ {p : Parser Stmt}, Yields p Stmt.FormedSimple →
      Yields (smallStmt.after p) Stmt.FormedSimple := fun h => yields_advance.bind fun _ _ => h
  refine yields_peek.bind fun k _ => ?_
  split
  · exact after (yields_pure ⟨.pass, rfl⟩)
  · exact after (yields_pure ⟨.breakLoop, rfl⟩)
  · exact after (yields_pure ⟨.continueLoop, rfl⟩)
  · refine after (yields_atExpr.bind fun b _ => ?_)
    exact (yields_optionally b (yields_itemsRule sound)).bind fun _ h => yields_pure ⟨.ret h, rfl⟩
  · exact after (yields_raiseStmt sound)
  · exact after (yields_nameList.map _ fun _ h => ⟨.global h.1 h.2, rfl⟩)
  · exact after (yields_nameList.map _ fun _ h => ⟨.nonlocal h.1 h.2, rfl⟩)
  · exact after (yields_deletion sound)
  · refine after ((yields_testRule sound).bind fun test ht => ?_)
    exact yields_of_optionally (yields_testRule sound) fun _ hm => yields_pure ⟨.assert ht hm, rfl⟩
  · refine after ?_
    have item := yields_aliasOf yields_dottedName
    refine item.bind fun first hf => (yields_afterCommas (yields_pure trivial) item).bind fun rest hr => ?_
    exact yields_pure ⟨.imports (List.forall_mem_cons.2 ⟨hf, hr⟩) (List.cons_ne_nil _ _), rfl⟩
  · exact yields_importFrom
  · exact yields_exprStmt sound

theorem yields_simpleLine : Yields g.line fun ss => ss ≠ [] ∧ ∀ s ∈ ss, s.FormedSimple := by
  have none : Yields (pure none : Parser (Option Stmt)) fun o => ∀ s ∈ o, s.FormedSimple :=
    yields_pure (by simp)
  refine (yields_smallStmt sound).bind fun first hf => ?_
  refine (yields_many (Q := Stmt.FormedSimple) ?_).bind fun rest hr => ?_
  · refine (yields_eat _).bind fun _ _ => yields_ite none (yields_of_at none ?_)
    exact (yields_smallStmt sound).map some fun s hs => by simpa using hs
  · exact yields_expectNewline.bind fun _ _ =>
      yields_pure ⟨List.cons_ne_nil _ _, List.forall_mem_cons.2 ⟨hf, hr⟩⟩

theorem yields_line : Yields g.line fun ss => ∀ s ∈ ss, s.Formed .source :=
  (yields_simpleLine sound).mono fun _ h s hs => (h.2 s hs).formed

end Simple

/-! Statements that hold blocks. -/

/-- All parsers of parts inside of others give well-formed ones. -/
structure SoundStatements (g : Grammar) : Prop extends g.SoundPatterns where
  statement : Yields g.statement fun ss => ∀ s ∈ ss, s.Formed .source
  branch : Yields g.branch (Stmt.Formed .source)

section Indented

variable {α : Type} {I : Inputs} {Q : α → Prop} {part : Parser (List α)}

/-- What a block goes on with. -/
theorem yields_indentedRound (h : I.Yields part fun as => ∀ a ∈ as, Q a) :
    I.Yields (do
      match ← peek with
      | .dedent => do
        advance
        return none
      | .endMarker => return none
      | .newline => do
        advance
        return some []
      | _ => some <$> part) fun o => ∀ as ∈ o, ∀ a ∈ as, Q a := by
  refine yields_peek.bind fun _ _ => ?_
  split
  · exact yields_advance.bind fun _ _ => yields_pure (by simp)
  · exact yields_pure (by simp)
  · exact yields_advance.bind fun _ _ => yields_pure (by simp)
  · exact h.map some fun as has => by simpa using has

theorem yields_indented (h : I.Yields part fun as => ∀ a ∈ as, Q a) :
    I.Yields (indented part) fun as => ∀ a ∈ as, Q a := by
  refine (yields_many (yields_indentedRound h)).bind fun parts hp => yields_pure fun a ha => ?_
  obtain ⟨as, has, member⟩ := List.mem_flatten.1 ha
  exact hp as has a member

end Indented

theorem yields_expectIndent : Yields expectIndent fun _ => True :=
  (yields_eat _).bind fun _ _ => yields_ite (yields_fail _) (yields_pure trivial)

section Compound

variable {g : Grammar} (sound : g.SoundStatements)
include sound

theorem yields_block : Yields g.block fun ss => ∀ s ∈ ss, s.Formed .source := by
  refine (yields_expectOp _).bind fun _ _ => yields_of_eat ?_ (yields_line sound.toSound)
  exact yields_expectIndent.bind fun _ _ => yields_indented sound.statement

theorem yields_elseBlock : Yields g.elseBlock fun ss => ∀ s ∈ ss, s.Formed .source :=
  yields_of_eat (yields_block sound) (yields_pure (by simp))

theorem yields_branchRule : Yields g.branchRule (Stmt.Formed .source) := by
  refine yields_advance.bind fun _ _ => (yields_testRule sound.toSound).bind fun test ht => ?_
  refine (yields_block sound).bind fun body hb => yields_of_at ?_ ?_
  · exact sound.branch.bind fun s hs => yields_pure (.branch ht hb (List.forall_mem_singleton.2 hs))
  · exact (yields_elseBlock sound).bind fun orelse ho => yields_pure (.branch ht hb ho)

theorem yields_whileStmt : Yields g.whileStmt (Stmt.Formed .source) := by
  refine (yields_expectWord _).bind fun _ _ => (yields_testRule sound.toSound).bind fun test ht => ?_
  refine (yields_block sound).bind fun body hb => ?_
  exact (yields_elseBlock sound).bind fun orelse ho => yields_pure (.whileLoop ht hb ho)

theorem yields_forStmt (isAsync : Bool) : Yields (g.forStmt isAsync) (Stmt.Formed .source) := by
  refine (yields_expectWord _).bind fun _ _ => (yields_targetItems sound.toSound).bind fun head hh => ?_
  refine (yields_head hh).bind fun target ht => (yields_expectWord _).bind fun _ _ => ?_
  refine (yields_itemsRule sound.toSound).bind fun iter hi => (yields_block sound).bind fun body hb => ?_
  exact (yields_elseBlock sound).bind fun orelse ho => yields_pure (.forLoop ht hi hb ho)

theorem yields_handler : Yields g.handler Handler.Formed := by
  refine yields_of_at ?_ ?_
  · exact (yields_block sound).bind fun body hb => yields_pure ⟨by simp, by simp, hb⟩
  · refine (yields_testRule sound.toSound).bind fun type ht => ?_
    refine yields_of_optionally yields_expectName fun id hi => (yields_block sound).bind fun body hb => ?_
    exact yields_pure ⟨by simpa using ht, fun x hx => binds (hi x hx), hb⟩

theorem yields_tryStmt : Yields g.tryStmt (Stmt.Formed .source) := by
  refine (yields_expectWord _).bind fun _ _ => (yields_block sound).bind fun body hb => ?_
  refine (yields_many_optionally (yields_handler sound)).bind fun handlers hh => ?_
  have last : ∀ {orelse finalbody : List Stmt}, (∀ s ∈ orelse, s.Formed .source) →
      (orelse ≠ [] → handlers ≠ []) → (∀ s ∈ finalbody, s.Formed .source) → Yields (do
        if handlers.isEmpty && finalbody.isEmpty then fail .expectedHandler
        return Stmt.tryBlock body handlers orelse finalbody) (Stmt.Formed .source) := by
    intro orelse finalbody ho guarded hf
    refine yields_unless fun ends => yields_pure (.tryBlock hb ?_ ?_ ?_ ho hf ?_ guarded)
    · exact fun h hm => (hh h hm).type
    · exact fun h hm => (hh h hm).binds
    · exact fun h hm => (hh h hm).body
    · simpa [Classical.or_iff_not_imp_left] using ends
  have rest : ∀ {orelse : List Stmt}, (∀ s ∈ orelse, s.Formed .source) →
      (orelse ≠ [] → handlers ≠ []) → Yields (do
      let finalbody ← if ← eatWord "finally" then g.block else pure []
      if handlers.isEmpty && finalbody.isEmpty then fail .expectedHandler
      return Stmt.tryBlock body handlers orelse finalbody) (Stmt.Formed .source) := by
    intro orelse ho guarded
    refine yields_of_eat ((yields_block sound).bind fun finalbody hf => last ho guarded hf) ?_
    exact (yields_pure (Q := fun ss => ∀ s ∈ ss, s.Formed .source) (by simp)).bind fun _ hf =>
      last ho guarded hf
  cases handlers with
  | nil =>
    refine (yields_pure (Q := (· = [])) rfl).bind fun orelse none => ?_
    exact rest (by simp [none]) fun some => absurd none some
  | cons => exact (yields_elseBlock sound).bind fun orelse ho => rest ho fun _ => List.cons_ne_nil _ _

theorem yields_withItem : Yields g.withItem (WithItem.Formed .source) := by
  refine (yields_testRule sound.toSound).bind fun context hc => yields_of_eat ?_ ?_
  · have operand := yields_binaryChain sound.toSound binaryLevels
    refine (yields_starOr operand operand).bind fun vars hv => (yields_head hv).bind fun t ht => ?_
    refine yields_pure ⟨hc, ?_⟩
    rintro _ ⟨⟩
    exact ⟨vars, ht⟩
  · exact yields_pure ⟨hc, by simp⟩

theorem yields_withStmt (isAsync : Bool) : Yields (g.withStmt isAsync) (Stmt.Formed .source) := by
  have item := yields_withItem sound
  refine (yields_expectWord _).bind fun _ _ => item.bind fun first hf => ?_
  refine (yields_afterCommas (yields_pure trivial) item).bind fun rest hr => ?_
  exact (yields_block sound).bind fun body hb =>
    yields_pure (.withBlock (List.forall_mem_cons.2 ⟨hf, hr⟩) hb)

theorem yields_argument : Yields (g.argument true) fun a =>
    IsIdentifier a.name ∧ ∀ e ∈ a.annotation, e.Formed :=
  yields_expectName.bind fun _ hi => yields_of_optionally sound.test fun _ ha => yields_pure ⟨hi, ha⟩

theorem yields_annotatedParam (closing : String) :
    Yields (g.param closing true) (Param.Formed .source) := by
  have argument := yields_argument sound
  refine yields_of_eat (yields_pure ⟨?_, ?_, ?_⟩) (yields_of_eat ?_ (yields_of_eat ?_ ?_))
  · simp [Param.name?]
  · simp [Param.annotation?]
  · simp [Param.default?]
  · refine argument.bind fun a ha => yields_pure ⟨?_, ?_, ?_⟩
    · rintro _ ⟨⟩
      exact binds ha.1
    · exact ha.2
    · simp [Param.default?]
  · refine (yields_at _).bind fun _ _ => (yields_at _).bind fun _ _ => ?_
    refine (yields_optionally _ argument).bind fun o ho => yields_pure ?_
    cases o with
    | none => exact ⟨by simp [Param.name?], by simp [Param.annotation?], by simp [Param.default?]⟩
    | some a =>
      refine ⟨?_, (ho a rfl).2, by simp [Param.default?]⟩
      rintro _ ⟨⟩
      exact binds (ho a rfl).1
  · refine argument.bind fun a ha => yields_of_optionally sound.test fun d hd => yields_pure ⟨?_, ha.2, hd⟩
    rintro _ ⟨⟩
    exact binds ha.1

theorem yields_functionDef {decorators : List Expr} (isAsync : Bool) (hd : ∀ e ∈ decorators, e.Formed) :
    Yields (g.functionDef decorators isAsync) (Stmt.Formed .source) := by
  refine (yields_expectWord _).bind fun _ _ => yields_expectName.bind fun id hi => ?_
  refine (yields_expectOp _).bind fun _ _ => (yields_commaList _ (yields_annotatedParam sound _)).bind fun ps hp => ?_
  refine (yields_expectOp _).bind fun _ _ => ?_
  refine yields_of_optionally (yields_testRule sound.toSound) fun returns hr => ?_
  exact (yields_block sound).bind fun body hb => yields_pure (.functionDef (binds hi) hp hb hd hr)

theorem yields_classDef {decorators : List Expr} (hd : ∀ e ∈ decorators, e.Formed) :
    Yields (g.classDef decorators) (Stmt.Formed .source) := by
  refine (yields_expectWord _).bind fun _ _ => yields_expectName.bind fun id hi => ?_
  have rest : ∀ {bases : List Expr} {keywords : List Keyword}, (∀ e ∈ bases, e.Formed) →
      (∀ k ∈ keywords, k.value.Formed ∧ ∀ arg ∈ k.arg, IsIdentifier arg) →
      Yields (do return Stmt.classDef id bases keywords (← g.block) decorators) (Stmt.Formed .source) := by
    intro bases keywords hb hk
    refine (yields_block sound).bind fun body hs => yields_pure (.classDef ?_ hs hd)
    exact .call (.name hi trivial) (Regular.items hb) (fun k h => (hk k h).1) fun k h => (hk k h).2
  refine yields_of_eat ?_ (rest (by simp) (by simp))
  refine (yields_callArgs sound.toSound).bind fun args ha => (yields_expectOp _).bind fun _ _ => ?_
  exact rest ha.1 ha.2

theorem yields_decorated : Yields g.decorated (Stmt.Formed .source) := by
  refine (yields_many (Q := Expr.Formed) ?_).bind fun decorators hd => ?_
  · refine yields_of_eat ((yields_testRule sound.toSound).bind fun e he => ?_) (yields_pure (by simp))
    exact yields_expectNewline.bind fun _ _ => yields_pure (by simpa using he)
  · refine yields_of_at (yields_functionDef sound _ hd) (yields_of_at (yields_classDef sound hd) ?_)
    exact yields_of_eat (yields_functionDef sound _ hd) (yields_fail _)

theorem yields_matchCase : Yields g.matchCase MatchCase.Formed := by
  refine (yields_expectWord _).bind fun _ _ => (yields_casePattern sound.toSoundPatterns).bind fun p hp => ?_
  refine yields_of_optionally (yields_testRule sound.toSound) fun guard hg => ?_
  exact (yields_block sound).bind fun body hb => yields_pure ⟨hp, hg, hb⟩

theorem yields_matchSubject : Yields g.matchSubject? fun o => ∀ e ∈ o, e.Formed := by
  intro ts spelled o ts' run
  unfold matchSubject? at run
  split at run
  · rename_i subject rest found
    split at run <;> cases run
    · obtain ⟨suffix, formed⟩ := yields_itemsRule sound.toSound ts.tail
        (fun t ht => spelled t (List.mem_of_mem_tail ht)) subject _ found
      refine ⟨suffix.trans (List.tail_suffix ts), ?_⟩
      rintro _ ⟨⟩
      exact formed
    · exact ⟨List.suffix_refl ts, by simp⟩
  · cases run
    exact ⟨List.suffix_refl ts, by simp⟩

theorem yields_matchCases : Yields g.matchCases fun cases => (∀ c ∈ cases, c.Formed) ∧ cases ≠ [] := by
  refine (yields_expectOp _).bind fun _ _ => yields_expectNewline.bind fun _ _ => ?_
  refine yields_expectIndent.bind fun _ _ => (yields_indented (Q := MatchCase.Formed) ?_).bind fun cases hc => ?_
  · refine yields_of_at ((yields_matchCase sound).bind fun c hc => yields_pure ?_) (yields_fail _)
    exact List.forall_mem_singleton.2 hc
  · exact yields_unless fun some => yields_pure ⟨hc, by simpa using some⟩

theorem yields_statementRule : Yields g.statementRule fun ss => ∀ s ∈ ss, s.Formed .source := by
  have one : ∀ {p : Parser Stmt}, Yields p (Stmt.Formed .source) →
      Yields (statementRule.one p) fun ss => ∀ s ∈ ss, s.Formed .source := fun h =>
    h.bind fun s hs => yields_pure (List.forall_mem_singleton.2 hs)
  refine yields_peek.bind fun k _ => ?_
  split
  · exact one (yields_decorated sound)
  · exact one (yields_branchRule sound)
  · exact one (yields_whileStmt sound)
  · exact one (yields_forStmt sound _)
  · exact one (yields_tryStmt sound)
  · exact one (yields_withStmt sound _)
  · exact one (yields_functionDef sound _ (by simp))
  · exact one (yields_classDef sound (by simp))
  · refine (yields_matchSubject sound).bind fun o ho => ?_
    cases o with
    | none => exact yields_line sound.toSound
    | some subject =>
      refine (yields_matchCases sound).bind fun cases hc => yields_pure (List.forall_mem_singleton.2 ?_)
      exact .matchBlock (ho subject rfl) (fun c h => (hc.1 c h).pattern.formed)
        (fun c h => (hc.1 c h).guard) (fun c h => (hc.1 c h).body) hc.2 fun c h => (hc.1 c h).pattern.alone
  · refine yields_advance.bind fun _ _ => yields_peek.bind fun k _ => ?_
    split
    · exact one (yields_functionDef sound _ (by simp))
    · exact one (yields_forStmt sound _)
    · exact one (yields_withStmt sound _)
    · exact yields_fail _
  · exact yields_line sound.toSound

end Compound

end Grammar

open Grammar

theorem soundStatements_grammar (n : Nat) : (grammar n).SoundStatements := by
  induction n with
  | zero =>
    exact { sound_grammar 0 with
      pattern := yields_fail _
      closedPattern := yields_fail _
      statement := yields_fail _
      branch := yields_fail _ }
  | succ n ih =>
    exact { sound_grammar (n + 1) with
      pattern := yields_patternRule ih.toSoundPatterns
      closedPattern := yields_closedPatternRule ih.toSoundPatterns
      statement := yields_statementRule ih
      branch := yields_branchRule ih }

section Program

variable {I : Inputs} {P : Stmt → Prop}

theorem Grammar.yields_program {g : Grammar} (h : I.Yields g.statement fun ss => ∀ s ∈ ss, P s) :
    I.Yields g.program fun ss => ∀ s ∈ ss, P s := by
  refine (yields_many (Q := fun ss => ∀ s ∈ ss, P s) ?_).bind fun parts hp => yields_pure ?_
  · refine yields_peek.bind fun _ _ => ?_
    split
    · exact yields_pure (by simp)
    · exact yields_advance.bind fun _ _ => yields_pure (by simp)
    · exact h.map some fun ss hs => by simpa using hs
  · intro s hs
    obtain ⟨ss, member, hs⟩ := List.mem_flatten.1 hs
    exact hp ss member s hs

/-- An accepted program is what its tokens are read as. -/
theorem forall_of_parseProgram {source : String} {body : List Stmt}
    (holds : ∀ ts, tokenize source = .ok ts → I.holds ts)
    (program : I.Yields (grammarFor source).program fun ss => ∀ s ∈ ss, P s)
    (h : parseProgram source = .ok body) : ∀ s ∈ body, P s := by
  unfold parseProgram at h
  cases tokens : tokenize source with
  | error fault =>
    rw [tokens] at h
    cases h
  | ok ts =>
    rw [tokens] at h
    have run : ((grammarFor source).program ts >>= fun x => Except.ok x.1) = .ok body := h
    cases found : (grammarFor source).program ts with
    | error fault =>
      rw [found] at run
      cases run
    | ok x =>
      rw [found] at run
      cases run
      exact (program ts (holds ts tokens) x.1 x.2 found).2

end Program

theorem formed_of_parseProgram {source : String} {body : List Stmt} (h : parseProgram source = .ok body) :
    ∀ s ∈ body, s.Formed .source :=
  forall_of_parseProgram (I := .all) (fun _ => isSpelled_of_tokenize)
    (yields_program (soundStatements_grammar _).statement) h

end Arbiter.Syntax
