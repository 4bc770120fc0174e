import Arbiter.Proofs.Parsing.Margins
import Arbiter.Proofs.Parsing.Shape

/-! The bodies of compound statements. Main statements: no body in an accepted program is empty if no
line of its source shows a carriage return or a backslash right behind its indentation, and a body can
be empty if one does. -/

namespace Arbiter.Syntax

open TokenKind (op name)
open Syntax.Parser

/-- No body of the statement, or of one inside of it, is empty. -/
inductive Stmt.Filled : Stmt → Prop
  | intro {s : Stmt} (bodies : ∀ b ∈ s.bodies, b ≠ [])
    (inner : ∀ b ∈ s.bodies ++ s.tails, ∀ t ∈ b, Filled t) : Filled s

/-- Statements that may be a body. -/
structure IsBody (body : List Stmt) : Prop where
  some : body ≠ []
  filled : ∀ s ∈ body, s.Filled

/-- A statement with one body and what may follow on it. -/
theorem Stmt.Filled.of_body {s : Stmt} {body : List Stmt} (hb : IsBody body) (bodies : s.bodies = [body])
    (tails : ∀ b ∈ s.tails, ∀ t ∈ b, t.Filled) : s.Filled := by
  refine ⟨?_, ?_⟩
  · rw [bodies]
    exact List.forall_mem_singleton.2 hb.some
  · rw [bodies]
    exact List.forall_mem_cons.2 ⟨hb.filled, tails⟩

namespace Parser

/-- Tokens where no indented line is empty. -/
def Inputs.seated : Inputs where
  holds ts := (∀ t ∈ ts, t.kind.IsSpelled) ∧ Seated ts
  suffix part h := ⟨fun t ht => h.1 t (part.subset ht), fun t rest inside => h.2 t rest (inside.trans part)⟩
  spelled h := h.1

variable {α : Type} {I : Inputs} {Q : α → Prop} {part : Parser (List α)}

/-- A choice where the next token is known. -/
theorem yields_peek_at {β : Type} {R : β → Prop} {f : TokenKind → Parser β} {ts : List Token}
    {k : TokenKind} (here : headKind ts = k) (holds : I.holds ts) (h : I.Yields (f k) R) :
    ∀ b ts', (peek >>= f) ts = .ok (b, ts') → ts' <:+ ts ∧ R b := by
  subst here
  exact h ts holds

/-- A block has something in it where its first line shows something. -/
theorem yields_indented_at {ts : List Token} (holds : I.holds ts) (line : (headKind ts).isLayout = false)
    (h : I.Yields part fun as => as ≠ [] ∧ ∀ a ∈ as, Q a) :
    ∀ as ts', Grammar.indented part ts = .ok (as, ts') → ts' <:+ ts ∧ as ≠ [] ∧ ∀ a ∈ as, Q a := by
  have round := Grammar.yields_indentedRound (h.mono fun _ found => found.2)
  refine yields_bind_at holds (Q := fun parts => (∃ as ∈ parts, as ≠ []) ∧ ∀ as ∈ parts, ∀ a ∈ as, Q a)
    (yields_bind_at holds (Q := fun o => ∃ as, o = some as ∧ as ≠ [] ∧ ∀ a ∈ as, Q a) ?first fun o ho => ?rest)
    fun parts hp => yields_pure ?all
  case first =>
    have part : I.Yields (some <$> part) fun o => ∃ as, o = some as ∧ as ≠ [] ∧ ∀ a ∈ as, Q a :=
      h.map some fun as found => ⟨as, rfl, found⟩
    cases found : headKind ts with
    | newline | indent | dedent | endMarker =>
      rw [found] at line
      cases line
    | _ => exact yields_peek_at found holds part
  case rest =>
    obtain ⟨as, rfl, some, all⟩ := ho
    exact (yields_collectRest (fun _ => round) all).mono fun parts found => ⟨⟨as, found.1, some⟩, found.2⟩
  case all =>
    obtain ⟨⟨as, member, some⟩, all⟩ := hp
    refine ⟨fun none => some (List.flatten_eq_nil_iff.1 none as member), fun a ha => ?_⟩
    obtain ⟨bs, hb, ha⟩ := List.mem_flatten.1 ha
    exact all bs hb a ha

theorem headKind_of_expectIndent {ts ts' : List Token} {u : Unit}
    (run : Grammar.expectIndent ts = .ok (u, ts')) : headKind ts = .indent ∧ ts' = ts.tail := by
  have run : (eat? .indent ts >>= fun x => (if !x.1 then fail .expectedIndentedBlock else pure ()) x.2) =
    .ok (u, ts') := run
  by_cases opens : headKind ts = .indent
  · have eaten : eat? .indent ts = .ok (true, ts.tail) := if_pos (beq_iff_eq.2 opens)
    rw [eaten] at run
    cases run
    exact ⟨opens, rfl⟩
  · have eaten : eat? .indent ts = .ok (false, ts) := if_neg (by simpa using opens)
    rw [eaten] at run
    cases run

/-- The lines of a block. -/
theorem seated_indented (h : Inputs.seated.Yields part fun as => as ≠ [] ∧ ∀ a ∈ as, Q a) :
    Inputs.seated.Yields (Grammar.expectIndent >>= fun _ => Grammar.indented part) fun as =>
      as ≠ [] ∧ ∀ a ∈ as, Q a := by
  intro ts holds as ts'' run
  have run : (Grammar.expectIndent ts >>= fun x => Grammar.indented part x.2) = .ok (as, ts'') := run
  cases found : Grammar.expectIndent ts with
  | error fault =>
    rw [found] at run
    cases run
  | ok x =>
    obtain ⟨u, ts'⟩ := x
    rw [found] at run
    obtain ⟨opens, rfl⟩ := headKind_of_expectIndent found
    cases ts with
    | nil => cases opens
    | cons t rest =>
      have line := holds.2 t rest (List.suffix_refl _) opens
      have part := yields_indented_at (Inputs.seated.suffix (List.suffix_cons t rest) holds) line h
      obtain ⟨suffix, body⟩ := part as ts'' run
      exact ⟨suffix.trans (List.suffix_cons t rest), body⟩

end Parser

namespace Grammar

/-- On tokens where no indented line is empty, the parsers of parts inside of others give statements
whose bodies are not empty. -/
structure FillsStatements (g : Grammar) : Prop extends g.SoundStatements where
  fillsStatement : Inputs.seated.Yields g.statement IsBody
  fillsBranch : Inputs.seated.Yields g.branch Stmt.Filled

variable {g : Grammar} (sound : g.FillsStatements)
include sound

theorem seated_line : Inputs.seated.Yields g.line IsBody :=
  (yields_simpleLine sound.toSound).on.mono fun ss found => ⟨found.1, fun s hs => by
    have blocks := (found.2 s hs).blocks
    exact ⟨fun b hb => by simp [(List.append_eq_nil_iff.1 blocks).1] at hb, fun b hb => by simp [blocks] at hb⟩⟩

theorem seated_block : Inputs.seated.Yields g.block IsBody := by
  refine (yields_expectOp _).bind fun _ _ => yields_of_eat ?_ (seated_line sound)
  exact (seated_indented (sound.fillsStatement.mono fun _ body => ⟨body.some, body.filled⟩)).mono
    fun _ found => ⟨found.1, found.2⟩

theorem seated_elseBlock : Inputs.seated.Yields g.elseBlock fun ss => ∀ s ∈ ss, s.Filled :=
  yields_of_eat ((seated_block sound).mono fun _ body => body.filled) (yields_pure (by simp))

theorem seated_branchRule : Inputs.seated.Yields g.branchRule Stmt.Filled := by
  refine yields_advance.bind fun _ _ => (yields_testRule sound.toSound).on.bind fun test _ => ?_
  refine (seated_block sound).bind fun body hb => yields_of_at ?_ ?_
  · refine sound.fillsBranch.bind fun s hs => yields_pure (.of_body hb rfl ?_)
    exact List.forall_mem_singleton.2 (List.forall_mem_singleton.2 hs)
  · exact (seated_elseBlock sound).bind fun orelse ho =>
      yields_pure (.of_body hb rfl (List.forall_mem_singleton.2 ho))

theorem seated_whileStmt : Inputs.seated.Yields g.whileStmt Stmt.Filled := by
  refine (yields_expectWord _).bind fun _ _ => (yields_testRule sound.toSound).on.bind fun test _ => ?_
  refine (seated_block sound).bind fun body hb => (seated_elseBlock sound).bind fun orelse ho => ?_
  exact yields_pure (.of_body hb rfl (List.forall_mem_singleton.2 ho))

theorem seated_forStmt (isAsync : Bool) : Inputs.seated.Yields (g.forStmt isAsync) Stmt.Filled := by
  refine (yields_expectWord _).bind fun _ _ => (yields_targetItems sound.toSound).on.bind fun head hh => ?_
  refine (yields_head hh).on.bind fun target _ => (yields_expectWord _).bind fun _ _ => ?_
  refine (yields_itemsRule sound.toSound).on.bind fun iter _ => (seated_block sound).bind fun body hb => ?_
  exact (seated_elseBlock sound).bind fun orelse ho =>
    yields_pure (.of_body hb rfl (List.forall_mem_singleton.2 ho))

theorem seated_handler : Inputs.seated.Yields g.handler fun h => IsBody h.body := by
  refine yields_of_at ((seated_block sound).bind fun body hb => yields_pure hb) ?_
  refine (yields_testRule sound.toSound).on.bind fun type _ => ?_
  exact yields_of_optionally yields_expectName fun id _ => (seated_block sound).bind fun body hb =>
    yields_pure hb

theorem seated_tryStmt : Inputs.seated.Yields g.tryStmt Stmt.Filled := by
  refine (yields_expectWord _).bind fun _ _ => (seated_block sound).bind fun body hb => ?_
  refine (yields_many_optionally (seated_handler sound)).bind fun handlers hh => ?_
  have last : ∀ {orelse finalbody : List Stmt}, (∀ s ∈ orelse, s.Filled) → (∀ s ∈ finalbody, s.Filled) →
      Inputs.seated.Yields (do
        if handlers.isEmpty && finalbody.isEmpty then fail .expectedHandler
        return Stmt.tryBlock body handlers orelse finalbody) Stmt.Filled := by
    intro orelse finalbody ho hf
    refine yields_ite (yields_fail _) (yields_pure ⟨?_, ?_⟩)
    · exact List.forall_mem_cons.2 ⟨hb.some, List.forall_mem_map.2 fun h hm => (hh h hm).some⟩
    · refine List.forall_mem_append.2 ⟨List.forall_mem_cons.2 ⟨hb.filled, ?_⟩, ?_⟩
      · exact List.forall_mem_map.2 fun h hm => (hh h hm).filled
      · exact List.forall_mem_cons.2 ⟨ho, List.forall_mem_singleton.2 hf⟩
  have none : Inputs.seated.Yields (pure []) fun ss : List Stmt => ∀ s ∈ ss, s.Filled := yields_pure (by simp)
  have rest : ∀ {orelse : List Stmt}, (∀ s ∈ orelse, s.Filled) → Inputs.seated.Yields (do
      let finalbody ← if ← eatWord "finally" then g.block else pure []
      if handlers.isEmpty && finalbody.isEmpty then fail .expectedHandler
      return Stmt.tryBlock body handlers orelse finalbody) Stmt.Filled := by
    intro orelse ho
    exact yields_of_eat ((seated_block sound).bind fun _ hf => last ho hf.filled)
      (none.bind fun _ hf => last ho hf)
  exact yields_ite (none.bind fun _ ho => rest ho) ((seated_elseBlock sound).bind fun _ ho => rest ho)

theorem seated_withStmt (isAsync : Bool) : Inputs.seated.Yields (g.withStmt isAsync) Stmt.Filled := by
  have item := (yields_withItem sound.toSoundStatements).on (I := .seated)
  refine (yields_expectWord _).bind fun _ _ => item.bind fun first _ => ?_
  refine (yields_afterCommas (yields_pure trivial) item).bind fun rest _ => ?_
  exact (seated_block sound).bind fun body hb => yields_pure (.of_body hb rfl (by simp [Stmt.tails]))

theorem seated_functionDef (decorators : List Expr) (isAsync : Bool) :
    Inputs.seated.Yields (g.functionDef decorators isAsync) Stmt.Filled := by
  have params := yields_commaList ")" (yields_annotatedParam sound.toSoundStatements ")")
  refine (yields_expectWord _).bind fun _ _ => yields_expectName.bind fun id _ => ?_
  refine (yields_expectOp _).bind fun _ _ => params.on.bind fun ps _ => (yields_expectOp _).bind fun _ _ => ?_
  refine yields_of_optionally (yields_testRule sound.toSound).on fun returns _ => ?_
  exact (seated_block sound).bind fun body hb => yields_pure (.of_body hb rfl (by simp [Stmt.tails]))

theorem seated_classDef (decorators : List Expr) :
    Inputs.seated.Yields (g.classDef decorators) Stmt.Filled := by
  refine (yields_expectWord _).bind fun _ _ => yields_expectName.bind fun id _ => ?_
  have rest : ∀ (bases : List Expr) (keywords : List Keyword), Inputs.seated.Yields
      (do return Stmt.classDef id bases keywords (← g.block) decorators) Stmt.Filled := fun _ _ =>
    (seated_block sound).bind fun body hb => yields_pure (.of_body hb rfl (by simp [Stmt.tails]))
  refine yields_of_eat ?_ (rest [] [])
  exact (yields_callArgs sound.toSound).on.bind fun args _ => (yields_expectOp _).bind fun _ _ => rest _ _

theorem seated_decorated : Inputs.seated.Yields g.decorated Stmt.Filled := by
  refine (yields_many (Q := fun _ => True) ?_).bind fun decorators _ => ?_
  · refine yields_of_eat ((yields_testRule sound.toSound).on.bind fun e _ => ?_) (yields_pure (by simp))
    exact yields_expectNewline.bind fun _ _ => yields_pure (by simp)
  · refine yields_of_at (seated_functionDef sound _ _) (yields_of_at (seated_classDef sound _) ?_)
    exact yields_of_eat (seated_functionDef sound _ _) (yields_fail _)

theorem seated_matchCases : Inputs.seated.Yields g.matchCases fun cases => ∀ c ∈ cases, IsBody c.body := by
  have matchCase : Inputs.seated.Yields g.matchCase fun c => IsBody c.body := by
    refine (yields_expectWord _).bind fun _ _ => ?_
    refine (yields_casePattern sound.toSoundPatterns).on.bind fun p _ => ?_
    exact yields_of_optionally (yields_testRule sound.toSound).on fun guard _ =>
      (seated_block sound).bind fun body hb => yields_pure hb
  refine (yields_expectOp _).bind fun _ _ => yields_expectNewline.bind fun _ _ => ?_
  refine yields_expectIndent.on.bind fun _ _ => ?_
  refine (yields_indented (Q := fun c => IsBody c.body) ?_).bind fun cases hc => ?_
  · refine yields_of_at (matchCase.bind fun c hc => yields_pure ?_) (yields_fail _)
    exact List.forall_mem_singleton.2 hc
  · exact yields_ite (yields_fail _) (yields_pure hc)

theorem seated_statementRule : Inputs.seated.Yields g.statementRule IsBody := by
  have single : ∀ {s : Stmt}, s.Filled → IsBody [s] := fun hs =>
    ⟨List.cons_ne_nil _ _, List.forall_mem_singleton.2 hs⟩
  have one : ∀ {p : Parser Stmt}, Inputs.seated.Yields p Stmt.Filled →
      Inputs.seated.Yields (statementRule.one p) IsBody := fun h => h.bind fun s hs => yields_pure (single hs)
  refine yields_peek.bind fun k _ => ?_
  split
  · exact one (seated_decorated sound)
  · exact one (seated_branchRule sound)
  · exact one (seated_whileStmt sound)
  · exact one (seated_forStmt sound _)
  · exact one (seated_tryStmt sound)
  · exact one (seated_withStmt sound _)
  · exact one (seated_functionDef sound _ _)
  · exact one (seated_classDef sound _)
  · refine (yields_matchSubject sound.toSoundStatements).on.bind fun o _ => ?_
    cases o with
    | none => exact seated_line sound
    | some subject =>
      refine (seated_matchCases sound).bind fun cases hc => yields_pure (single ⟨?_, ?_⟩)
      · exact List.forall_mem_map.2 fun c h => (hc c h).some
      · exact List.forall_mem_append.2 ⟨List.forall_mem_map.2 fun c h => (hc c h).filled, nofun⟩
  · refine yields_advance.bind fun _ _ => yields_peek.bind fun k _ => ?_
    split
    · exact one (seated_functionDef sound _ _)
    · exact one (seated_forStmt sound _)
    · exact one (seated_withStmt sound _)
    · exact yields_fail _
  · exact seated_line sound

end Grammar

open Grammar

theorem fillsStatements_grammar (n : Nat) : (grammar n).FillsStatements := by
  induction n with
  | zero =>
    exact { soundStatements_grammar 0 with
      fillsStatement := yields_fail _
      fillsBranch := yields_fail _ }
  | succ n ih =>
    exact { soundStatements_grammar (n + 1) with
      fillsStatement := seated_statementRule ih
      fillsBranch := seated_branchRule ih }

/-- An accepted program has no empty body if the margins of its source are clear. -/
theorem filled_of_parseProgram {source : String} {body : List Stmt} (margins : ClearMargins source.toList)
    (h : parseProgram source = .ok body) : ∀ s ∈ body, s.Filled :=
  forall_of_parseProgram (I := .seated)
    (fun _ tokens => ⟨isSpelled_of_tokenize tokens, seated_of_tokenize margins tokens⟩)
    (yields_program ((fillsStatements_grammar _).fillsStatement.mono fun _ body => body.filled)) h

/-- A line with nothing but its indentation and a hidden line break or a carriage return opens a block
in which there is nothing. -/
theorem exists_empty_body : ∀ source ∈ ["if x:\n  \\\n\n", "while x:\n \r \n", "match x:\n case y:\n  \r"],
    ∃ body, parseProgram source = .ok body ∧ ∃ s ∈ body, [] ∈ s.bodies := by
  have known : ∀ source ∈ ["if x:\n  \\\n\n", "while x:\n \r \n", "match x:\n case y:\n  \r"],
      (parseProgram source).toOption.map (fun body => body.any (·.bodies.any List.isEmpty)) = some true := by
    decide +kernel
  intro source member
  obtain ⟨body, read, empty⟩ := exists_ok (known source member)
  obtain ⟨s, hs, empty⟩ := List.any_eq_true.1 empty
  obtain ⟨b, hb, empty⟩ := List.any_eq_true.1 empty
  rw [List.isEmpty_iff] at empty
  exact ⟨body, read, s, hs, empty ▸ hb⟩

end Arbiter.Syntax
