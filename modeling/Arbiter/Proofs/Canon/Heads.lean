import Arbiter.Proofs.Canon.Imports

/-! Statements as lines of tokens. Main statement: the lines of a statement in canonical form are read as
its lines of tokens. -/

namespace Arbiter.Syntax

open TokenKind (op name)

/-! The tokens on a line. -/

def WithItem.kinds (item : WithItem) : List TokenKind :=
  item.context.kindsWithin Strength.test item.context.kinds ++ optionalKinds [name "as"] item.vars

/-- The name of a class and its arguments, which stand as those of a call if there are any. -/
def classCall (id : String) (bases : List Expr) (keywords : List Keyword) : Expr :=
  if bases.isEmpty && keywords.isEmpty then .name id .load else .call (.name id .load) bases keywords

/-- The tokens of the line that begins a statement, after its decorators. -/
def Stmt.head : Stmt → List TokenKind
  | .functionDef id params _ _ returns isAsync =>
    asyncKinds isAsync ++ name "def" :: name id :: op "(" :: commaKinds (paramKinds params) ++ op ")" ::
      optionKinds [op "->"] returns ++ [op ":"]
  | .classDef id bases keywords _ _ => name "class" :: (classCall id bases keywords).kinds ++ [op ":"]
  | .ret value => name "return" :: optionalKinds [] value
  | .delete targets => name "del" :: commaKinds (kindsOfItems Strength.test targets)
  | .assign targets value => targets.flatMap (fun t => t.kinds ++ [op "="]) ++ value.kinds
  | .augAssign target o value => target.kinds ++ op (o.symbol ++ "=") :: value.kinds
  | .annAssign target annotation value =>
    target.kinds ++ op ":" :: annotation.kindsWithin Strength.test annotation.kinds ++
      optionalKinds [op "="] value
  | .forLoop target iter _ _ isAsync =>
    asyncKinds isAsync ++ name "for" :: target.kinds ++ name "in" :: iter.kinds ++ [op ":"]
  | .whileLoop test _ _ => name "while" :: test.kinds ++ [op ":"]
  | .branch test _ _ => name "if" :: test.kinds ++ [op ":"]
  | .withBlock items _ isAsync =>
    asyncKinds isAsync ++ name "with" :: commaKinds (items.map WithItem.kinds) ++ [op ":"]
  | .raise exc cause => name "raise" :: optionalKinds [] exc ++ optionalKinds [name "from"] cause
  | .tryBlock _ _ _ _ => [name "try", op ":"]
  | .assert test msg => name "assert" :: test.kinds ++ optionalKinds [op ","] msg
  | .imports names => name "import" :: commaKinds (names.map Alias.kinds)
  | .importFrom module names level =>
    name "from" :: pointKinds level ++ textKinds (module.getD "") ++ name "import" ::
      commaKinds (names.map Alias.kinds)
  | .global names => name "global" :: commaKinds (names.map fun id => [name id])
  | .nonlocal names => name "nonlocal" :: commaKinds (names.map fun id => [name id])
  | .matchBlock subject _ => name "match" :: subject.kinds ++ [op ":"]
  | .expr value => value.kinds
  | .pass => [name "pass"]
  | .breakLoop => [name "break"]
  | .continueLoop => [name "continue"]

def Handler.head (h : Handler) : List TokenKind :=
  TokenKind.name "except" :: optionalKinds [] h.type ++ boundKinds h.name ++ [op ":"]

def MatchCase.head (c : MatchCase) : List TokenKind :=
  name "case" :: c.pattern.kinds ++ optionalKinds [name "if"] c.guard ++ [op ":"]

def decoratorLine (e : Expr) : Line := .mk (op "@" :: e.kindsWithin Strength.test e.kinds) []

/-- The lines above the one that begins the statement. -/
def Stmt.above : Stmt → List Line
  | .functionDef _ _ _ decorators _ _ | .classDef _ _ _ _ decorators => decorators.map decoratorLine
  | _ => []

/-- An arm with its word, or nothing for an empty one. -/
def armLine (word : String) (lines : List Line) : List Line :=
  if lines.isEmpty then [] else [.mk [name word, op ":"] lines]

mutual

/-- The lines under the one that begins the statement, one step further in. -/
def Stmt.inner : Stmt → List Line
  | .functionDef _ _ body _ _ _ | .classDef _ _ _ body _ | .forLoop _ _ body _ _ | .whileLoop _ body _
  | .branch _ body _ | .withBlock _ body _ | .tryBlock body _ _ _ => blockTree body
  | .matchBlock _ cases => caseTree cases
  | _ => []

/-- The lines after those that stand as far in as the statement. -/
def Stmt.arms : Stmt → List Line
  | .forLoop _ _ _ orelse _ | .whileLoop _ _ orelse | .branch _ _ orelse =>
    armLine "else" (blockTree orelse)
  | .tryBlock _ handlers orelse finalbody =>
    handlerTree handlers ++ (armLine "else" (blockTree orelse) ++ armLine "finally" (blockTree finalbody))
  | _ => []

/-- The lines of statements. -/
def blockTree : List Stmt → List Line
  | [] => []
  | s :: rest => s.above ++ .mk s.head s.inner :: (s.arms ++ blockTree rest)

def handlerTree : List Handler → List Line
  | [] => []
  | ⟨type, id, body⟩ :: rest => .mk (Handler.head ⟨type, id, body⟩) (blockTree body) :: handlerTree rest

def caseTree : List MatchCase → List Line
  | [] => []
  | ⟨pattern, guard, body⟩ :: rest =>
    .mk (MatchCase.head ⟨pattern, guard, body⟩) (blockTree body) :: caseTree rest

end

/-! The text of a line. -/

section Texts

variable {a b : String} {ks ls : List TokenKind} {e : Expr}

theorem Legible.of_eq (h : Legible a ks) (text : a = b) (kinds : ks = ls) : Legible b ls := text ▸ kinds ▸ h

theorem isRead_exprs {es : List Expr} (h : ∀ e ∈ es, IsRead (e.within Strength.test e.text)
    (e.kindsWithin Strength.test e.kinds)) :
    IsRead (commaJoined (textsWithin Strength.test es)) (commaKinds (kindsOfItems Strength.test es)) :=
  fun _ ends => reads_items (R := shownReader) (Rendered.readsAll_within fun e he _ ends => h e he ends) ends

theorem Param.Formed.reads {p : Param} (h : p.Formed .shown) {rest : List Char} (listed : Rendered.Listed rest) :
    Shows [] p.text p.kinds [] rest :=
  Rendered.reads_param (R := shownReader) (fun id hid => (h.binds id hid).identifier)
    (fun e he => isRendered_of_shown (h.annotation e he)) (fun e he => isRendered_of_shown (h.default e he))
    (by decide) listed

/-- The parameters of a function, in brackets. -/
theorem trails_params {params : List Param} (h : ∀ p ∈ params, p.Formed .shown) :
    Trails ("(" ++ commaJoined (paramTexts params) ++ ")")
      (op "(" :: commaKinds (paramKinds params) ++ [op ")"]) where
  apart rest _ := by
    rw [String.append_assoc, String.toList_append, List.append_assoc]
    exact ended_append rfl (by decide)
  reads rest _ := by
    have opening : ∀ {rest}, Shows [] "(" [op "("] [] rest := Shows.opening (by decide)
    have closing : Shows (enterBracket []) ")" [op ")"] [] rest := Shows.closing (by decide)
    rw [paramTexts_eq, paramKinds_eq]
    have listed : Rendered.Listed (")".toList ++ rest) := ⟨')', by decide, rfl⟩
    have items := reads_commaJoined (R := shownReader) (σ := []) (P := Rendered.Listed)
      (fun rest => ⟨',', by decide, rfl⟩) (readsAll_map fun p hp _ ends => (h p hp).reads ends) listed
    exact (opening.append items).append closing

theorem trails_returns {returns : Option Expr} : (∀ e ∈ returns, Regular .shown (.expr e)) →
    Trails (match returns with
      | some e => " -> " ++ e.within Strength.test e.text
      | none => "") (optionKinds [op "->"] returns) := by
  intro h
  cases returns with
  | none => exact trails_empty
  | some e =>
    have arrow : Divides " -> " [op "->"] := divides_sign (w := "->") (by decide) (by decide) (by decide)
    exact arrow.before ((legible_of_regular (h e rfl)).within _).reads

theorem text_classCall (id : String) (bases : List Expr) (keywords : List Keyword) :
    (classCall id bases keywords).text = id ++ classArguments bases keywords := by
  unfold classCall classArguments
  split
  · exact String.append_empty.symm
  · have tight : (Expr.name id .load).within Strength.atom (Expr.name id .load).text = id :=
      if_neg (Nat.lt_irrefl _)
    rw [Expr.text, tight, String.append_assoc, String.append_assoc, String.append_assoc]

theorem WithItem.Formed.isRead {item : WithItem} (h : item.Formed .shown) : IsRead item.text item.kinds := by
  have context := (legible_of_regular h.context).within Strength.test
  refine context.reads.append ((divides_word (w := "as") (by decide)).optional fun t ht => ?_)
  obtain ⟨head, target⟩ := h.vars t ht
  exact (legible_target target).reads

end Texts

/-! The lines of a statement. -/

/-- All lines of a statement. -/
def Stmt.tree (s : Stmt) : List Line := s.above ++ .mk s.head s.inner :: s.arms

theorem blockTree_cons (s : Stmt) (rest : List Stmt) : blockTree (s :: rest) = s.tree ++ blockTree rest := by
  simp [blockTree, Stmt.tree]

section Lines

variable {texts : List String} {ls : List Line} {w : String}

theorem Presents.arm (h : Presents texts ls) (word : w ∈ grammarWords) :
    Presents (armLines (w ++ ":") texts) (armLine w ls) := by
  unfold armLines armLine
  by_cases none : texts = []
  · rw [if_pos (by simpa using none), if_pos (by simpa using h.empty.1 none)]
    exact .nil
  · rw [if_neg (by simpa using none), if_neg (by simpa [← h.empty] using none)]
    exact .node ((legible_word word).append trails_colon).headReads h

theorem presents_decorators {decorators : List Expr} (h : ∀ e ∈ decorators, Regular .shown (.expr e)) :
    Presents (decoratorLines decorators) (decorators.map decoratorLine) := by
  induction decorators with
  | nil => exact .nil
  | cons e decorators ih =>
    obtain ⟨he, hd⟩ := List.forall_mem_cons.1 h
    have text := (legible_of_regular he).within Strength.test
    have sign : Legible ("@" ++ e.within Strength.test e.text)
        (op "@" :: e.kindsWithin Strength.test e.kinds) :=
      ⟨Front.append ⟨'@', rfl, by decide⟩, fun _ ends => Shows.append
        (reads_sign (R := shownReader) (by decide) (by decide) (by decide) text.front) (text.reads ends)⟩
    exact Presents.append (.line sign.headReads) (ih hd)

theorem presents_block {body : List Stmt} (h : ∀ s ∈ body, Presents s.lines s.tree) :
    Presents (blockLines body) (blockTree body) := by
  induction body with
  | nil => exact .nil
  | cons s body ih =>
    obtain ⟨hs, hb⟩ := List.forall_mem_cons.1 h
    rw [blockTree_cons, blockLines]
    exact hs.append (ih hb)

theorem presents_handlers {handlers : List Handler}
    (types : ∀ h ∈ handlers, ∀ e ∈ h.type, Regular .shown (.expr e))
    (binds : ∀ h ∈ handlers, ∀ id ∈ h.name, Leeway.shown.Binds id)
    (bodies : ∀ h ∈ handlers, Presents (blockLines h.body) (blockTree h.body)) :
    Presents (handlerLines handlers) (handlerTree handlers) := by
  induction handlers with
  | nil => exact .nil
  | cons h handlers ih =>
    obtain ⟨type, id, body⟩ := h
    obtain ⟨ht, types⟩ := List.forall_mem_cons.1 types
    obtain ⟨hn, binds⟩ := List.forall_mem_cons.1 binds
    obtain ⟨hb, bodies⟩ := List.forall_mem_cons.1 bodies
    have head := (((legible_word (w := "except") (by decide)).append
      (divides_blank.optional fun e he => (legible_of_regular (ht e he)).reads)).append
      (trails_bound fun id hid => (hn id hid).identifier)).append trails_colon
    exact Presents.append (.node (head.of_eq rfl (by simp [Handler.head])).headReads hb) (ih types binds bodies)

theorem presents_cases {cases : List MatchCase} (patterns : ∀ c ∈ cases, c.pattern.Formed .shown)
    (guards : ∀ c ∈ cases, ∀ e ∈ c.guard, Regular .shown (.expr e))
    (bodies : ∀ c ∈ cases, Presents (blockLines c.body) (blockTree c.body)) :
    Presents (caseLines cases) (caseTree cases) := by
  induction cases with
  | nil => exact .nil
  | cons c cases ih =>
    obtain ⟨pattern, guard, body⟩ := c
    obtain ⟨hp, patterns⟩ := List.forall_mem_cons.1 patterns
    obtain ⟨hg, guards⟩ := List.forall_mem_cons.1 guards
    obtain ⟨hb, bodies⟩ := List.forall_mem_cons.1 bodies
    have shown : IsRead pattern.text pattern.kinds := fun _ ends => hp.rendered.reads (by simp) ends
    have condition := (divides_word (w := "if") (by decide)).optional fun e he => (legible_of_regular (hg e he)).reads
    have head : Legible ("case " ++ (pattern.text ++ optionalText " if " guard ++ ":")) _ :=
      ((shown.append condition).append trails_colon).after (w := "case") (by decide)
    refine Presents.append (.node (head.of_eq ?_ (by simp [MatchCase.head])).headReads hb)
      (ih patterns guards bodies)
    simp only [String.append_assoc]

end Lines

theorem legible_targets {ctx : Context} {heads targets : List Expr}
    (h : ∀ e ∈ heads, Regular .shown (.expr e)) (same : asTargets? ctx heads = some targets) :
    ∀ t ∈ targets, Legible t.text t.kinds := by
  have alike := alike_of_asTargets heads same
  clear same
  induction alike with
  | nil => nofun
  | cons alike _ ih =>
    obtain ⟨he, hs⟩ := List.forall_mem_cons.1 h
    refine List.forall_mem_cons.2 ⟨?_, ih hs⟩
    rw [alike.text, alike.kinds]
    exact legible_of_regular he

/-- The text of an assignment. -/
theorem legible_assign {targets : List Expr} {value : Expr} (h : ∀ t ∈ targets, Legible t.text t.kinds)
    (hv : Legible value.text value.kinds) :
    Legible (String.join (targets.map fun t => t.text ++ " = ") ++ value.text)
      (targets.flatMap (fun t => t.kinds ++ [op "="]) ++ value.kinds) := by
  induction targets with
  | nil => exact hv.of_eq (by simp [String.join]) rfl
  | cons t targets ih =>
    obtain ⟨ht, others⟩ := List.forall_mem_cons.1 h
    exact (ht.append (divides_equals.before (ih others).reads)).of_eq (by simp [String.append_assoc]) (by simp)

theorem regular_classCall {id : String} {bases : List Expr} {keywords : List Keyword}
    (h : Regular .shown (.expr (.call (.name id .load) bases keywords))) :
    Regular .shown (.expr (classCall id bases keywords)) := by
  unfold classCall
  split
  · cases h with
    | call hf => exact hf
  · exact h

/-- A statement from its first line and those under and after that. -/
theorem Presents.stmt {s : Stmt} {inner arms : List String} {t : String} (top : s.above = [])
    (head : Legible t s.head) (under : Presents inner s.inner) (after : Presents arms s.arms) :
    Presents ((t :: indentLines inner) ++ arms) s.tree := by
  rw [Stmt.tree, top]
  exact (node head.headReads under).append after

/-- The lines of a statement in canonical form are read as its lines of tokens. -/
theorem Stmt.Formed.presents {s : Stmt} (h : s.Formed .shown) : Presents s.lines s.tree := by
  have alone : ∀ {t ks}, Legible t ks → Presents [t] [.mk ks []] := fun h => .line h.headReads
  have value : ∀ {o : Option Expr}, (∀ e ∈ o, Regular .shown (.expr e)) → ∀ e ∈ o, IsRead e.text e.kinds :=
    fun h e he => (legible_of_regular (h e he)).reads
  have targets : ∀ {t ctx head}, Targets .shown ctx head t → Legible t.text t.kinds := legible_target
  induction h with
  | @functionDef id params body decorators returns isAsync binds hp hb hd hr ihb =>
    have head : Legible ("def " ++ (id ++ ("(" ++ commaJoined (paramTexts params) ++ ")") ++ _ ++ ":")) _ :=
      ((((legible_name binds.identifier).append (trails_params hp)).append (trails_returns hr)).append
        trails_colon).reads.after (w := "def") (by decide)
    refine (presents_decorators hd).append (.node ((head.async isAsync).of_eq ?_ ?_).headReads (presents_block ihb))
    · cases returns <;> simp only [String.append_assoc]
    · simp [Stmt.head]
  | @classDef id bases keywords body decorators call hb hd ihb =>
    have head : Legible ("class " ++ ((classCall id bases keywords).text ++ ":")) _ :=
      ((legible_of_regular (regular_classCall call)).append trails_colon).reads.after (w := "class") (by decide)
    rw [text_classCall] at head
    refine (presents_decorators hd).append (.node (head.of_eq ?_ rfl).headReads (presents_block ihb))
    simp only [String.append_assoc]
  | ret h =>
    exact alone ((legible_word (w := "return") (by decide)).append (divides_blank.optional (value h)))
  | delete hh ht =>
    exact alone ((isRead_exprs fun t h => ((legible_targets hh ht t h).within _).reads).after (w := "del")
      (by decide))
  | assign nonempty hh ht hv => exact alone (legible_assign (legible_targets hh ht) (legible_of_regular hv))
  | @augAssign _ target val o ht hv =>
    have sign : Divides (" " ++ (o.symbol ++ "=") ++ " ") [op (o.symbol ++ "=")] := by
      cases o <;> exact divides_sign (by decide) (by decide) (by decide)
    have blank : "= " = "=" ++ " " := rfl
    refine alone (((legible_target ht).append (sign.before (legible_of_regular hv).reads)).of_eq ?_ ?_)
    · simp only [blank, String.append_assoc]
    · simp [Stmt.head]
  | annAssign ht ha hv =>
    refine alone ((((legible_target ht).append (divides_colon.before ((legible_of_regular ha).within
      Strength.test).reads)).append (divides_equals.optional (value hv))).of_eq ?_ ?_)
    · simp only [String.append_assoc]
    · simp [Stmt.head]
  | @forLoop _ target iter body orelse isAsync ht hi hb ho ihb iho =>
    have head : Legible ("for " ++ (target.text ++ (" in " ++ iter.text) ++ ":")) _ :=
      (((legible_target ht).append ((divides_word (w := "in") (by decide)).before
        (legible_of_regular hi).reads)).append trails_colon).reads.after (w := "for") (by decide)
    refine .stmt rfl ((head.async isAsync).of_eq ?_ ?_) (presents_block ihb)
      ((presents_block iho).arm (w := "else") (by decide))
    · simp only [String.append_assoc]
    · simp [Stmt.head]
  | @whileLoop test body orelse ht hb ho ihb iho =>
    have head : Legible ("while " ++ (test.text ++ ":")) _ :=
      ((legible_of_regular ht).append trails_colon).reads.after (w := "while") (by decide)
    refine .stmt rfl (head.of_eq ?_ rfl) (presents_block ihb)
      ((presents_block iho).arm (w := "else") (by decide))
    simp only [String.append_assoc]
  | @branch test body orelse ht hb ho ihb iho =>
    have head : Legible ("if " ++ (test.text ++ ":")) _ :=
      ((legible_of_regular ht).append trails_colon).reads.after (w := "if") (by decide)
    refine .stmt rfl (head.of_eq ?_ rfl) (presents_block ihb)
      ((presents_block iho).arm (w := "else") (by decide))
    simp only [String.append_assoc]
  | @withBlock items body isAsync hi hb ihb =>
    have head : Legible ("with " ++ (commaJoined (items.map WithItem.text) ++ ":")) _ :=
      ((isRead_items fun item h => (hi item h).isRead).append trails_colon).after (w := "with") (by decide)
    refine Presents.node (Legible.headReads ((head.async isAsync).of_eq ?_ ?_)) (presents_block ihb)
    · simp only [String.append_assoc]
    · simp [Stmt.head]
  | raise he hc =>
    exact alone (((legible_word (w := "raise") (by decide)).append (divides_blank.optional (value he))).append
      ((divides_word (w := "from") (by decide)).optional (value hc)))
  | tryBlock hb types binds hh ho hf _ _ ihb ihh iho ihf =>
    have head := (legible_word (w := "try") (by decide)).append trails_colon
    have arms := (presents_handlers types binds fun h hm => presents_block (ihh h hm)).append
      (((presents_block iho).arm (w := "else") (by decide)).append
        ((presents_block ihf).arm (w := "finally") (by decide)))
    have whole := Presents.append (.node head.headReads (presents_block ihb)) arms
    rw [← List.append_assoc, ← List.append_assoc] at whole
    exact whole
  | @assert test msg ht hm =>
    have head : Legible ("assert " ++ (test.text ++ optionalText ", " msg)) _ :=
      ((legible_of_regular ht).append (divides_comma.optional (value hm))).reads.after (w := "assert") (by decide)
    exact alone (head.of_eq (by simp only [String.append_assoc]) rfl)
  | imports h =>
    have word : ∀ {rest}, Shows [] "import " [name "import"] [] rest :=
      reads_wordBlank (R := shownReader) (w := "import") (by decide)
    exact .line ⟨by simp, fun ends => Shows.append word (reads_aliases h ends)⟩
  | @importFrom module names level hm h _ _ =>
    have word : ∀ {rest}, Shows [] "from " [name "from"] [] rest :=
      reads_wordBlank (R := shownReader) (w := "from") (by decide)
    have between : ∀ {rest}, Shows [] " import " [name "import"] [] rest :=
      reads_padded (R := shownReader) (w := "import") (by decide)
    refine .line ⟨by simp, fun {rest} ends => ?_⟩
    have whole := ((word.append (reads_module hm level)).append between).append (reads_aliases h ends)
    rw [← String.append_assoc] at whole
    exact whole.of_eq (by simp [Stmt.head])
  | @global ids h _ | @nonlocal ids h _ =>
    have items : IsRead (commaJoined (ids.map id)) (commaKinds (ids.map fun id => [name id])) :=
      isRead_items fun id hid => (legible_name (h id hid).identifier).reads
    rw [List.map_id] at items
    first
    | exact alone (items.after (w := "global") (by decide))
    | exact alone (items.after (w := "nonlocal") (by decide))
  | @matchBlock subject cases hs hp hg hb _ _ ihb =>
    have head : Legible ("match " ++ (subject.text ++ ":")) _ :=
      ((legible_of_regular hs).append trails_colon).reads.after (w := "match") (by decide)
    refine Presents.node (Legible.headReads (head.of_eq ?_ rfl)) (presents_cases hp hg fun c hc => presents_block (ihb c hc))
    simp only [String.append_assoc]
  | expr h => exact alone (legible_of_regular h)
  | pass => exact alone (legible_word (by decide))
  | breakLoop => exact alone (legible_word (by decide))
  | continueLoop => exact alone (legible_word (by decide))

end Arbiter.Syntax
