import Arbiter.Proofs.Parsing.Takes
import Arbiter.Syntax.Parser
import Mathlib.Data.List.Forall2

/-! Another name in the place of the soft keyword `match`: in tokens, and in all the identifiers of a
tree. What stands in the fields of an f-string comes from a string token, and stays. A parser echoes
another one if it succeeds on respelled tokens where that one succeeds, and gives and leaves what that one
does, respelled. Faults need not be the same, and what is read as a `match` need not be read at all. -/

namespace Arbiter.Syntax

/-- A name in the place of `match`. -/
structure Respelling where
  name : String
  notKeyword : isKeyword name = false
  notMatch : name ≠ "match"
  /-- The words that there are among the tokens. -/
  isWord : String → Prop

namespace Respelling

variable (r : Respelling)

def word (w : String) : String := if w = "match" then r.name else w

def kind : TokenKind → TokenKind
  | .name w => .name (r.word w)
  | k => k

def token (t : Token) : Token := { t with kind := r.kind t.kind }

def tokens (ts : List Token) : List Token := ts.map r.token

mutual

@[simp] def expr : Expr → Expr
  | .name id ctx => .name (r.word id) ctx
  | .constant c => .constant c
  | .joinedStr parts => .joinedStr parts
  | .attribute value attr ctx => .attribute (expr value) (r.word attr) ctx
  | .subscript value index ctx => .subscript (expr value) (expr index) ctx
  | .slice lower upper step => .slice (option lower) (option upper) (option step)
  | .starred value ctx => .starred (expr value) ctx
  | .tuple elts ctx => .tuple (exprs elts) ctx
  | .list elts ctx => .list (exprs elts) ctx
  | .set elts => .set (exprs elts)
  | .dict items => .dict (dictItems items)
  | .binary left op right => .binary (expr left) op (expr right)
  | .unary op operand => .unary op (expr operand)
  | .bool op values => .bool op (exprs values)
  | .compare left rest => .compare (expr left) (comparands rest)
  | .call func args keywords => .call (expr func) (exprs args) (keywordArgs keywords)
  | .ifElse test body orelse => .ifElse (expr test) (expr body) (expr orelse)
  | .lambda ps body => .lambda (params ps) (expr body)
  | .listComp elt gens => .listComp (expr elt) (generators gens)
  | .setComp elt gens => .setComp (expr elt) (generators gens)
  | .generatorExp elt gens => .generatorExp (expr elt) (generators gens)
  | .dictComp key value gens => .dictComp (expr key) (expr value) (generators gens)
  | .await value => .await (expr value)
  | .yield value => .yield (option value)
  | .yieldFrom value => .yieldFrom (expr value)
  | .named target value => .named (expr target) (expr value)

def exprs : List Expr → List Expr
  | [] => []
  | e :: es => expr e :: exprs es

def option : Option Expr → Option Expr
  | none => none
  | some e => some (expr e)

@[simp] def dictItem : DictItem → DictItem
  | .entry key value => .entry (expr key) (expr value)
  | .spread value => .spread (expr value)

def dictItems : List DictItem → List DictItem
  | [] => []
  | i :: is => dictItem i :: dictItems is

@[simp] def comparand : Comparand → Comparand
  | ⟨op, value⟩ => ⟨op, expr value⟩

def comparands : List Comparand → List Comparand
  | [] => []
  | c :: cs => comparand c :: comparands cs

@[simp] def keyword : Keyword → Keyword
  | ⟨arg, value⟩ => ⟨arg.map r.word, expr value⟩

def keywordArgs : List Keyword → List Keyword
  | [] => []
  | k :: ks => keyword k :: keywordArgs ks

@[simp] def generator : Generator → Generator
  | ⟨target, iter, ifs, isAsync⟩ => ⟨expr target, expr iter, exprs ifs, isAsync⟩

def generators : List Generator → List Generator
  | [] => []
  | g :: gs => generator g :: generators gs

@[simp] def argument : Argument → Argument
  | ⟨name, annotation⟩ => ⟨r.word name, option annotation⟩

def argumentOption : Option Argument → Option Argument
  | none => none
  | some a => some (argument a)

@[simp] def param : Param → Param
  | .plain arg default => .plain (argument arg) (option default)
  | .posOnlyMarker => .posOnlyMarker
  | .varArgs arg => .varArgs (argumentOption arg)
  | .kwArgs arg => .kwArgs (argument arg)

def params : List Param → List Param
  | [] => []
  | p :: ps => param p :: params ps

end

section Lists

@[simp] theorem exprs_eq_map (es : List Expr) : r.exprs es = es.map r.expr := by
  induction es with
  | nil => rfl
  | cons e es ih => rw [exprs, ih, List.map_cons]

@[simp] theorem option_eq_map (o : Option Expr) : r.option o = o.map r.expr := by cases o <;> rfl

@[simp] theorem dictItems_eq_map (is : List DictItem) : r.dictItems is = is.map r.dictItem := by
  induction is with
  | nil => rfl
  | cons i is ih => rw [dictItems, ih, List.map_cons]

@[simp] theorem comparands_eq_map (cs : List Comparand) : r.comparands cs = cs.map r.comparand := by
  induction cs with
  | nil => rfl
  | cons c cs ih => rw [comparands, ih, List.map_cons]

@[simp] theorem keywordArgs_eq_map (ks : List Keyword) : r.keywordArgs ks = ks.map r.keyword := by
  induction ks with
  | nil => rfl
  | cons k ks ih => rw [keywordArgs, ih, List.map_cons]

@[simp] theorem generators_eq_map (gs : List Generator) : r.generators gs = gs.map r.generator := by
  induction gs with
  | nil => rfl
  | cons g gs ih => rw [generators, ih, List.map_cons]

@[simp] theorem argumentOption_eq_map (o : Option Argument) : r.argumentOption o = o.map r.argument := by
  cases o <;> rfl

@[simp] theorem params_eq_map (ps : List Param) : r.params ps = ps.map r.param := by
  induction ps with
  | nil => rfl
  | cons p ps ih => rw [params, ih, List.map_cons]

end Lists

mutual

/-- Targets are respelled as the expressions are. -/
theorem asTarget?_expr (ctx : Context) : ∀ e : Expr, (r.expr e).asTarget? ctx = (e.asTarget? ctx).map r.expr
  | .name .. | .attribute .. | .subscript .. => rfl
  | .starred value _ => by
    simp only [expr, Expr.asTarget?, asTarget?_expr ctx value, Option.map_map]
    rfl
  | .tuple elts _ | .list elts _ => by
    simp only [expr, Expr.asTarget?, asTargets?_exprs ctx elts, Option.map_map]
    rfl
  | .constant _ | .joinedStr _ | .slice .. | .set _ | .dict _ | .binary .. | .unary .. | .bool ..
  | .compare .. | .call .. | .ifElse .. | .lambda .. | .listComp .. | .setComp .. | .generatorExp ..
  | .dictComp .. | .await _ | .yield _ | .yieldFrom _ | .named .. => rfl

theorem asTargets?_exprs (ctx : Context) : ∀ es : List Expr,
    asTargets? ctx (r.exprs es) = (asTargets? ctx es).map r.exprs
  | [] => rfl
  | e :: es => by
    simp only [exprs, asTargets?, asTarget?_expr ctx e, asTargets?_exprs ctx es]
    cases e.asTarget? ctx with
    | none => rfl
    | some t => cases asTargets? ctx es <;> rfl

end

/-! Statements. -/

def withItem (item : WithItem) : WithItem := ⟨r.expr item.context, item.vars.map r.expr⟩

/-- A name after `from … import`. -/
def importedName (a : Alias) : Alias := ⟨r.word a.name, a.asName.map r.word⟩

/-- A dotted name, each word of which is respelled. -/
inductive Dotted : String → String → Prop
  | intro (parts : List String) (words : ∀ p ∈ parts, r.isWord p) :
    Dotted (".".intercalate parts) (".".intercalate (parts.map r.word))

/-- A module that is imported. -/
structure ImportedModule (a b : Alias) : Prop where
  name : r.Dotted a.name b.name
  asName : b.asName = a.asName.map r.word

mutual

/-- All identifiers of a statement are respelled, and nothing else. There is no `match` in it. -/
inductive Respelled : Stmt → Stmt → Prop
  | functionDef (name : String) (params : List Param) {body body' : List Stmt} (decorators : List Expr)
    (returns : Option Expr) (isAsync : Bool) (inside : List.Forall₂ Respelled body body') :
    Respelled (.functionDef name params body decorators returns isAsync)
      (.functionDef (r.word name) (params.map r.param) body' (decorators.map r.expr) (returns.map r.expr)
        isAsync)
  | classDef (name : String) (bases : List Expr) (keywords : List Keyword) {body body' : List Stmt}
    (decorators : List Expr) (inside : List.Forall₂ Respelled body body') :
    Respelled (.classDef name bases keywords body decorators)
      (.classDef (r.word name) (bases.map r.expr) (keywords.map r.keyword) body' (decorators.map r.expr))
  | ret (value : Option Expr) : Respelled (.ret value) (.ret (value.map r.expr))
  | delete (targets : List Expr) : Respelled (.delete targets) (.delete (targets.map r.expr))
  | assign (targets : List Expr) (value : Expr) :
    Respelled (.assign targets value) (.assign (targets.map r.expr) (r.expr value))
  | augAssign (target : Expr) (op : BinaryOp) (value : Expr) :
    Respelled (.augAssign target op value) (.augAssign (r.expr target) op (r.expr value))
  | annAssign (target annotation : Expr) (value : Option Expr) :
    Respelled (.annAssign target annotation value)
      (.annAssign (r.expr target) (r.expr annotation) (value.map r.expr))
  | forLoop (target iter : Expr) {body body' orelse orelse' : List Stmt} (isAsync : Bool)
    (inside : List.Forall₂ Respelled body body') (otherwise : List.Forall₂ Respelled orelse orelse') :
    Respelled (.forLoop target iter body orelse isAsync)
      (.forLoop (r.expr target) (r.expr iter) body' orelse' isAsync)
  | whileLoop (test : Expr) {body body' orelse orelse' : List Stmt}
    (inside : List.Forall₂ Respelled body body') (otherwise : List.Forall₂ Respelled orelse orelse') :
    Respelled (.whileLoop test body orelse) (.whileLoop (r.expr test) body' orelse')
  | branch (test : Expr) {body body' orelse orelse' : List Stmt}
    (inside : List.Forall₂ Respelled body body') (otherwise : List.Forall₂ Respelled orelse orelse') :
    Respelled (.branch test body orelse) (.branch (r.expr test) body' orelse')
  | withBlock (items : List WithItem) {body body' : List Stmt} (isAsync : Bool)
    (inside : List.Forall₂ Respelled body body') :
    Respelled (.withBlock items body isAsync) (.withBlock (items.map r.withItem) body' isAsync)
  | raise (exc cause : Option Expr) : Respelled (.raise exc cause) (.raise (exc.map r.expr) (cause.map r.expr))
  | tryBlock {body body' orelse orelse' finalbody finalbody' : List Stmt} {handlers handlers' : List Handler}
    (inside : List.Forall₂ Respelled body body') (handled : List.Forall₂ RespelledHandler handlers handlers')
    (otherwise : List.Forall₂ Respelled orelse orelse') (last : List.Forall₂ Respelled finalbody finalbody') :
    Respelled (.tryBlock body handlers orelse finalbody) (.tryBlock body' handlers' orelse' finalbody')
  | assert (test : Expr) (msg : Option Expr) :
    Respelled (.assert test msg) (.assert (r.expr test) (msg.map r.expr))
  | imports {names names' : List Alias} (modules : List.Forall₂ r.ImportedModule names names') :
    Respelled (.imports names) (.imports names')
  | importFrom {module module' : Option String} (names : List Alias) (level : Nat)
    (dotted : Option.Rel r.Dotted module module') :
    Respelled (.importFrom module names level) (.importFrom module' (names.map r.importedName) level)
  | global (names : List String) : Respelled (.global names) (.global (names.map r.word))
  | nonlocal (names : List String) : Respelled (.nonlocal names) (.nonlocal (names.map r.word))
  | expr (value : Expr) : Respelled (.expr value) (.expr (r.expr value))
  | pass : Respelled .pass .pass
  | breakLoop : Respelled .breakLoop .breakLoop
  | continueLoop : Respelled .continueLoop .continueLoop

inductive RespelledHandler : Handler → Handler → Prop
  | intro (type : Option Expr) (name : Option String) {body body' : List Stmt}
    (inside : List.Forall₂ Respelled body body') :
    RespelledHandler ⟨type, name, body⟩ ⟨type.map r.expr, name.map r.word, body'⟩

end

end Respelling

/-! Statements with a `match` among them. -/

mutual

def Stmt.holdsMatch : Stmt → Bool
  | .matchBlock .. => true
  | .functionDef _ _ body _ _ _ | .classDef _ _ _ body _ | .withBlock _ body _ => holdMatch body
  | .forLoop _ _ body orelse _ | .whileLoop _ body orelse | .branch _ body orelse =>
    holdMatch body || holdMatch orelse
  | .tryBlock body handlers orelse finalbody =>
    holdMatch body || handlersHoldMatch handlers || holdMatch orelse || holdMatch finalbody
  | .ret _ | .delete _ | .assign .. | .augAssign .. | .annAssign .. | .raise .. | .assert .. | .imports _
  | .importFrom .. | .global _ | .nonlocal _ | .expr _ | .pass | .breakLoop | .continueLoop => false

def holdMatch : List Stmt → Bool
  | [] => false
  | s :: ss => s.holdsMatch || holdMatch ss

def Handler.holdsMatch : Handler → Bool
  | ⟨_, _, body⟩ => holdMatch body

def handlersHoldMatch : List Handler → Bool
  | [] => false
  | h :: hs => h.holdsMatch || handlersHoldMatch hs

end

theorem holdMatch_eq_any (ss : List Stmt) : holdMatch ss = ss.any Stmt.holdsMatch := by
  induction ss with
  | nil => rfl
  | cons s ss ih => rw [holdMatch, ih, List.any_cons]

theorem handlersHoldMatch_eq_any (hs : List Handler) : handlersHoldMatch hs = hs.any Handler.holdsMatch := by
  induction hs with
  | nil => rfl
  | cons h hs ih => rw [handlersHoldMatch, ih, List.any_cons]

theorem holdMatch_flatten {parts : List (List Stmt)} {ss : List Stmt} (member : ss ∈ parts)
    (held : holdMatch ss = true) : holdMatch parts.flatten = true := by
  rw [holdMatch_eq_any, List.any_eq_true] at held ⊢
  obtain ⟨s, inside, held⟩ := held
  exact ⟨s, List.mem_flatten.2 ⟨ss, member, inside⟩, held⟩

/-! Parsers that echo. -/

namespace Respelling

variable (r : Respelling)

/-- All words among the tokens are words of the respelling. -/
def Worded (ts : List Token) : Prop := ∀ t ∈ ts, ∀ w, t.kind = .name w → r.isWord w

theorem Worded.tail {r : Respelling} {ts : List Token} (h : r.Worded ts) : r.Worded ts.tail :=
  fun t member => h t (List.mem_of_mem_tail member)

theorem headKind_tokens (ts : List Token) : headKind (r.tokens ts) = r.kind (headKind ts) := by
  cases ts <;> rfl

theorem tail_tokens (ts : List Token) : (r.tokens ts).tail = r.tokens ts.tail := List.map_tail.symm

theorem word_of_ne {w : String} (h : w ≠ "match") : r.word w = w := if_neg h

theorem word_match : r.word "match" = r.name := if_pos rfl

theorem isKeyword_word (w : String) : isKeyword (r.word w) = isKeyword w := by
  by_cases h : w = "match"
  · rw [h, word_match, r.notKeyword]
    rfl
  · rw [r.word_of_ne h]

theorem kind_of_ne {k : TokenKind} (h : k ≠ .name "match") : r.kind k = k := by
  cases k with
  | name w => exact congrArg TokenKind.name (r.word_of_ne fun same => h (congrArg TokenKind.name same))
  | _ => rfl

/-- Whether a token is of this kind does not depend on the spelling. -/
def Keeps (k : TokenKind) : Prop := ∀ k', r.kind k' = k ↔ k' = k

theorem keeps_of_ne {k : TokenKind} (notMatch : k ≠ .name "match") (notName : k ≠ .name r.name) : r.Keeps k := by
  intro k'
  by_cases h : k' = .name "match"
  · have spelled : r.kind (.name "match") = .name r.name := congrArg TokenKind.name r.word_match
    rw [h, spelled]
    exact ⟨fun same => absurd same.symm notName, fun same => absurd same.symm notMatch⟩
  · rw [r.kind_of_ne h]

theorem keeps_op (symbol : String) : r.Keeps (.op symbol) := r.keeps_of_ne nofun nofun

theorem keeps_newline : r.Keeps .newline := r.keeps_of_ne nofun nofun

theorem keeps_indent : r.Keeps .indent := r.keeps_of_ne nofun nofun

theorem keeps_word {w : String} (keyword : isKeyword w = true) : r.Keeps (.name w) := by
  refine r.keeps_of_ne ?_ ?_
  · rintro ⟨⟩
    exact absurd keyword (by decide)
  · rintro ⟨⟩
    exact absurd (r.notKeyword.symm.trans keyword) Bool.false_ne_true

theorem startsExpr_kind (k : TokenKind) : startsExpr (r.kind k) = startsExpr k := by
  by_cases h : k = .name "match"
  · subst h
    show startsExpr (.name (r.word "match")) = _
    rw [word_match, startsExpr, r.notKeyword]
    rfl
  · rw [r.kind_of_ne h]

end Respelling

namespace Parser

variable {α β γ δ : Type} {r : Respelling} {E : α → Prop} {R : α → β → Prop} {p : Parser α} {q : Parser β}

/-- All that the parser gives is one of `Q`. -/
def Gives (Q : α → Prop) (p : Parser α) : Prop := ∀ ts a ts', p ts = .ok (a, ts') → Q a

theorem exists_of_bind {f : α → Parser γ} {ts ts'' : List Token} {c : γ} (h : (p >>= f) ts = .ok (c, ts'')) :
    ∃ a ts', p ts = .ok (a, ts') ∧ f a ts' = .ok (c, ts'') := by
  have h : (p ts >>= fun x => f x.1 x.2) = .ok (c, ts'') := h
  cases found : p ts with
  | error fault =>
    rw [found] at h
    cases h
  | ok x =>
    rw [found] at h
    exact ⟨x.1, x.2, rfl, h⟩

theorem gives_pure {a : α} (h : E a) : Gives E (pure a) := by
  intro ts b ts' run
  cases run
  exact h

theorem gives_bind {Q : γ → Prop} {f : α → Parser γ} (h : ∀ a, Gives Q (f a)) : Gives Q (p >>= f) := by
  intro ts c ts'' run
  obtain ⟨a, ts', -, run⟩ := exists_of_bind run
  exact h a ts' c ts'' run

theorem gives_ite {c : Prop} [Decidable c] {A B : Parser α} (hA : Gives E A) (hB : Gives E B) :
    Gives E (if c then A else B) := by
  split
  · exact hA
  · exact hB

theorem gives_fail (cause : Cause) : Gives E (fail cause) := fun _ _ _ run => by cases run

end Parser

namespace Respelling

open Syntax.Parser

variable {α β γ δ : Type} (r : Respelling)

/-- Unless `E` holds of what `p` gives, `q` gives on the respelled tokens what `R` relates to it. -/
def EchoesUnless (E : α → Prop) (R : α → β → Prop) (p : Parser α) (q : Parser β) : Prop :=
  ∀ ts, r.Worded ts → ∀ a ts', p ts = .ok (a, ts') →
    E a ∨ r.Worded ts' ∧ ∃ b, q (r.tokens ts) = .ok (b, r.tokens ts') ∧ R a b

/-- The same without a condition. -/
abbrev EchoesUpTo (R : α → β → Prop) (p : Parser α) (q : Parser β) : Prop :=
  r.EchoesUnless (fun _ => False) R p q

/-- On the respelled tokens, `q` gives what becomes of what `p` gives. -/
abbrev Echoes (φ : α → β) (p : Parser α) (q : Parser β) : Prop := r.EchoesUpTo (fun a b => b = φ a) p q

variable {r} {E : α → Prop} {E' : γ → Prop} {R : α → β → Prop} {S : γ → δ → Prop} {φ : α → β}
  {p : Parser α} {q : Parser β}

section Runs

variable {f : α → Parser γ} {g : β → Parser δ}

/-- If what is read first is left out of account, then so is the whole. -/
theorem EchoesUnless.bind (hp : r.EchoesUnless E R p q) (hf : ∀ a b, R a b → r.EchoesUnless E' S (f a) (g b))
    (he : ∀ a, E a → Gives E' (f a)) : r.EchoesUnless E' S (p >>= f) (q >>= g) := by
  intro ts worded c ts'' run
  obtain ⟨a, ts', first, run⟩ := exists_of_bind run
  rcases hp ts worded a ts' first with escaped | ⟨worded', b, echo, related⟩
  · exact .inl (he a escaped ts' c ts'' run)
  · rw [bind_apply echo]
    exact hf a b related ts' worded' c ts'' run

theorem EchoesUnless.bindUpTo (hp : r.EchoesUpTo R p q) (hf : ∀ a b, R a b → r.EchoesUnless E' S (f a) (g b)) :
    r.EchoesUnless E' S (p >>= f) (q >>= g) :=
  hp.bind hf fun _ => False.elim

theorem EchoesUnless.then (hp : r.Echoes φ p q) (hf : ∀ a, r.EchoesUnless E' S (f a) (g (φ a))) :
    r.EchoesUnless E' S (p >>= f) (q >>= g) :=
  hp.bindUpTo fun a _ same => same ▸ hf a

theorem EchoesUnless.mono {E₁ : α → Prop} {R₁ : α → β → Prop} (h : r.EchoesUnless E R p q)
    (weaker : ∀ a, E a → E₁ a) (le : ∀ a b, R a b → R₁ a b) : r.EchoesUnless E₁ R₁ p q :=
  fun ts worded a ts' run => (h ts worded a ts' run).imp (weaker a)
    fun ⟨worded', b, echo, related⟩ => ⟨worded', b, echo, le a b related⟩

theorem EchoesUnless.upTo {R₁ : α → β → Prop} (h : r.EchoesUpTo R p q) (le : ∀ a b, R a b → R₁ a b) :
    r.EchoesUnless E R₁ p q :=
  h.mono (fun _ => False.elim) le

theorem echoesUnless_pure {a : α} {b : β} (h : R a b) : r.EchoesUnless E R (pure a) (pure b) := by
  intro ts worded c ts' run
  cases run
  exact .inr ⟨worded, b, rfl, h⟩

theorem echoes_pure {a : α} {b : β} (h : b = φ a) : r.Echoes φ (pure a) (pure b) := echoesUnless_pure h

theorem echoesUnless_fail (cause : Cause) : r.EchoesUnless E R (fail cause) q := fun _ _ _ _ run => by cases run

theorem EchoesUnless.map {f : α → γ} {g : β → δ} (hp : r.EchoesUnless E R p q) (weaker : ∀ a, E a → E' (f a))
    (le : ∀ a b, R a b → S (f a) (g b)) : r.EchoesUnless E' S (f <$> p) (g <$> q) := by
  rw [← bind_pure_comp, ← bind_pure_comp]
  exact hp.bind (fun a b related => echoesUnless_pure (le a b related))
    fun a escaped => gives_pure (weaker a escaped)

theorem Echoes.map {f : α → γ} {g : β → δ} {ψ : γ → δ} (hp : r.Echoes φ p q) (h : ∀ a, g (φ a) = ψ (f a)) :
    r.Echoes ψ (f <$> p) (g <$> q) :=
  EchoesUnless.map hp (fun _ => id) fun a _ same => same ▸ h a

end Runs

/-! Looking at tokens and taking them. -/

section Tokens

variable {k : TokenKind} {A B : Parser α} {A' B' : Parser β}

theorem echoes_peek : r.Echoes r.kind peek peek := by
  intro ts worded k ts' run
  cases run
  exact .inr ⟨worded, _, rfl, r.headKind_tokens ts⟩

theorem echoes_peekSecond : r.Echoes r.kind peekSecond peekSecond := by
  intro ts worded k ts' run
  cases run
  refine .inr ⟨worded, _, rfl, ?_⟩
  rw [tail_tokens, headKind_tokens]

theorem echoes_advance : r.Echoes id advance advance := by
  intro ts worded u ts' run
  cases run
  exact .inr ⟨worded.tail, (), congrArg (fun ts => Except.ok ((), ts)) (r.tail_tokens ts), rfl⟩

theorem kind_beq (keeps : r.Keeps k) (k' : TokenKind) : (r.kind k' == k) = (k' == k) :=
  Bool.eq_iff_iff.2 (by rw [beq_iff_eq, beq_iff_eq, keeps])

theorem headKind_beq (keeps : r.Keeps k) (ts : List Token) :
    (headKind (r.tokens ts) == k) = (headKind ts == k) := by
  rw [headKind_tokens, kind_beq keeps]

theorem echoes_at (keeps : r.Keeps k) : r.Echoes id (at? k) (at? k) := by
  intro ts worded b ts' run
  cases run
  exact .inr ⟨worded, _, rfl, headKind_beq keeps ts⟩

theorem echoes_eat (keeps : r.Keeps k) : r.Echoes id (eat? k) (eat? k) := by
  intro ts worded b ts' run
  have same := headKind_beq keeps ts
  unfold eat? at run ⊢
  rw [same]
  cases here : headKind ts == k with
  | true =>
    rw [here] at run
    cases run
    exact .inr ⟨worded.tail, true, congrArg (fun ts => Except.ok (true, ts)) (r.tail_tokens ts), rfl⟩
  | false =>
    rw [here] at run
    cases run
    exact .inr ⟨worded, false, rfl, rfl⟩

theorem echoes_ite {c : Prop} [Decidable c] (hA : r.EchoesUnless E R A A') (hB : r.EchoesUnless E R B B') :
    r.EchoesUnless E R (if c then A else B) (if c then A' else B') := by
  split
  · exact hA
  · exact hB

theorem echoes_of_eat (keeps : r.Keeps k) (hA : r.EchoesUnless E R A A') (hB : r.EchoesUnless E R B B') :
    r.EchoesUnless E R (do if ← eat? k then A else B) (do if ← eat? k then A' else B') :=
  (echoes_eat keeps).then fun _ => echoes_ite hA hB

theorem echoes_of_at (keeps : r.Keeps k) (hA : r.EchoesUnless E R A A') (hB : r.EchoesUnless E R B B') :
    r.EchoesUnless E R (do if ← at? k then A else B) (do if ← at? k then A' else B') :=
  (echoes_at keeps).then fun _ => echoes_ite hA hB

/-- A choice by the next token, which takes all names alike that are neither keywords nor `match`. -/
theorem echoes_of_peek {R : α → α → Prop} {f : TokenKind → Parser α} {A : String → Parser α}
    (other : ∀ k, k ≠ .name "match" → r.EchoesUnless E R (f k) (f k))
    (plain : ∀ w, isKeyword w = false → w ≠ "match" → f (.name w) = A w)
    (soft : r.EchoesUnless E R (f (.name "match")) (A r.name)) :
    r.EchoesUnless E R (peek >>= f) (peek >>= f) := by
  refine echoes_peek.then fun k => ?_
  by_cases here : k = .name "match"
  · rw [here, kind, word_match, plain _ r.notKeyword r.notMatch]
    exact soft
  · rw [r.kind_of_ne here]
    exact other k here

end Tokens

theorem echoes_expectOp (symbol : String) : r.Echoes id (expectOp symbol) (expectOp symbol) :=
  (echoes_eat (r.keeps_op symbol)).then fun _ => echoes_ite (echoesUnless_fail _) (echoes_pure rfl)

theorem echoes_expectWord {word : String} (keyword : isKeyword word = true) :
    r.Echoes id (expectWord word) (expectWord word) :=
  (echoes_eat (r.keeps_word keyword)).then fun _ => echoes_ite (echoesUnless_fail _) (echoes_pure rfl)

theorem echoes_expectNewline : r.Echoes id expectNewline expectNewline :=
  (echoes_eat r.keeps_newline).then fun _ => echoes_ite (echoesUnless_fail _) (echoes_pure rfl)

/-- An identifier is one of the words, and stays an identifier. -/
theorem echoesUpTo_expectName : r.EchoesUpTo (fun a b => b = r.word a ∧ r.isWord a) expectName expectName := by
  intro ts worded a ts' run
  cases here : headKind ts with
  | name word =>
    have there : headKind (r.tokens ts) = .name (r.word word) :=
      (r.headKind_tokens ts).trans (congrArg r.kind here)
    have isWord : r.isWord word := by
      cases ts with
      | nil => cases here
      | cons t ts => exact worded t List.mem_cons_self word here
    rw [expectName_apply here] at run
    rw [expectName_apply there, isKeyword_word, tail_tokens]
    split at run
    · cases run
    · rename_i identifier
      cases run
      exact .inr ⟨worded.tail, _, if_neg identifier, rfl, isWord⟩
  | _ =>
    obtain ⟨k, ts₁, peeked, rest⟩ := exists_of_bind (p := peek) run
    obtain ⟨rfl, -⟩ := Prod.mk.inj (Except.ok.inj peeked)
    rw [here] at rest
    cases rest

theorem echoes_expectName : r.Echoes r.word expectName expectName :=
  echoesUpTo_expectName.upTo fun _ _ found => found.1

theorem echoesUpTo_optionally {p : Parser α} {q : Parser β} (condition : Bool) (h : r.EchoesUpTo R p q) :
    r.EchoesUpTo (Option.Rel R) (optionally condition p) (optionally condition q) :=
  echoes_ite (h.map (fun _ => id) fun _ _ => .some) (echoesUnless_pure .none)

theorem echoes_optionally {p : Parser α} {q : Parser β} (condition : Bool) (h : r.Echoes φ p q) :
    r.Echoes (Option.map φ) (optionally condition p) (optionally condition q) :=
  echoes_ite (Echoes.map h fun _ => rfl) (echoes_pure rfl)

theorem echoes_of_optionally {k : TokenKind} {p : Parser α} {q : Parser β} {f : Option α → Parser γ}
    {g : Option β → Parser δ} (keeps : r.Keeps k) (h : r.Echoes φ p q)
    (hf : ∀ o, r.EchoesUnless E' S (f o) (g (o.map φ))) :
    r.EchoesUnless E' S (do
        let o ← optionally (← eat? k) p
        f o)
      (do
        let o ← optionally (← eat? k) q
        g o) :=
  (echoes_eat keeps).then fun b => (echoes_optionally b h).then hf

/-! Loops. -/

section Loops

variable {next : Parser (Option α)} {next' : Parser (Option β)}

theorem gives_collectFor (rounds : Nat) : ∀ before,
    Gives (fun as : List α => ∀ a ∈ before, a ∈ as) (collectFor (fun _ => next) rounds before) := by
  induction rounds with
  | zero => exact fun _ => gives_fail _
  | succ rounds ih =>
    refine fun before => gives_bind fun o => ?_
    cases o with
    | none => exact gives_pure fun a => List.mem_reverse.2
    | some a => exact fun ts as ts' run b member => ih (a :: before) ts as ts' run b (.tail a member)

/-- If one of the items is left out of account, then so are all. -/
theorem echoesUnless_collectFor
    (h : r.EchoesUnless (fun o => ∃ a ∈ o, E a) (Option.Rel R) next next') (rounds : Nat) :
    ∀ before before', List.Forall₂ R before before' →
      r.EchoesUnless (fun as => ∃ a ∈ as, E a) (List.Forall₂ R) (collectFor (fun _ => next) rounds before)
        (collectFor (fun _ => next') rounds before') := by
  induction rounds with
  | zero => exact fun _ _ _ => echoesUnless_fail _
  | succ rounds ih =>
    refine fun before before' alike => h.bind (fun o o' related => ?_) fun o escaped => ?_
    · cases related with
      | none => exact echoesUnless_pure (List.rel_reverse alike)
      | some related => exact ih _ _ (.cons related alike)
    · obtain ⟨a, rfl, escaped⟩ := escaped
      exact fun ts as ts' run =>
        ⟨a, gives_collectFor rounds (a :: before) ts as ts' run a List.mem_cons_self, escaped⟩

theorem echoesUnless_many (h : r.EchoesUnless (fun o => ∃ a ∈ o, E a) (Option.Rel R) next next') :
    r.EchoesUnless (fun as => ∃ a ∈ as, E a) (List.Forall₂ R) (many next) (many next') := by
  refine h.bind (fun o o' related => ?_) fun o escaped => ?_
  · cases related with
    | none => exact echoesUnless_pure .nil
    | @some a b related =>
      intro ts worded
      have length : (r.tokens ts).length = ts.length := List.length_map ..
      have rest := echoesUnless_collectFor h (ts.length + 1) [a] [b] (.cons related .nil) ts worded
      show ∀ as ts', collectFor (fun _ => next) (ts.length + 1) [a] ts = .ok (as, ts') → _ ∨ _ ∧
        ∃ bs, collectFor (fun _ => next') ((r.tokens ts).length + 1) [b] (r.tokens ts) = .ok (bs, r.tokens ts') ∧ _
      rw [length]
      exact rest
  · obtain ⟨a, rfl, escaped⟩ := escaped
    exact fun ts as ts' run =>
      ⟨a, gives_collectFor (ts.length + 1) [a] ts as ts' run a List.mem_cons_self, escaped⟩

theorem echoesUpTo_many (h : r.EchoesUpTo (Option.Rel R) next next') :
    r.EchoesUpTo (List.Forall₂ R) (many next) (many next') :=
  (echoesUnless_many (E := fun _ => False) (h.upTo fun _ _ => id)).mono
    (fun _ found => found.elim fun _ h => h.2) fun _ _ => id

theorem echoes_many (h : r.Echoes (Option.map φ) next next') :
    r.Echoes (List.map φ) (many next) (many next') := by
  have step : r.EchoesUpTo (Option.Rel fun a b => b = φ a) next next' :=
    h.upTo fun o o' same => by
      cases o with
      | none => exact same ▸ .none
      | some a => exact same ▸ .some rfl
  refine (echoesUpTo_many step).upTo fun as bs related => ?_
  induction related with
  | nil => rfl
  | cons same _ ih => rw [same, ih, List.map_cons]

theorem echoes_many_marked {k : TokenKind} {p : Parser α} {q : Parser β} (keeps : r.Keeps k)
    (h : r.Echoes φ p q) :
    r.Echoes (List.map φ) (many do optionally (← eat? k) p) (many do optionally (← eat? k) q) :=
  echoes_many ((echoes_eat keeps).then fun b => echoes_optionally b h)

theorem echoes_afterCommas {stop stop' : Parser Bool} {p : Parser α} {q : Parser β} (hs : r.Echoes id stop stop')
    (h : r.Echoes φ p q) : r.Echoes (List.map φ) (afterCommas stop p) (afterCommas stop' q) := by
  refine echoes_many ((echoes_eat (r.keeps_op ",")).then fun _ => echoes_ite (echoes_pure rfl) ?_)
  exact hs.then fun _ => echoes_ite (echoes_pure rfl) (Echoes.map h fun _ => rfl)

theorem echoesUpTo_afterCommas {stop : Parser Bool} {p : Parser α} {q : Parser β} (hs : r.Echoes id stop stop)
    (h : r.EchoesUpTo R p q) : r.EchoesUpTo (List.Forall₂ R) (afterCommas stop p) (afterCommas stop q) := by
  refine echoesUpTo_many ((echoes_eat (r.keeps_op ",")).then fun _ => echoes_ite (echoesUnless_pure .none) ?_)
  exact hs.then fun _ => echoes_ite (echoesUnless_pure .none) (h.map (fun _ => id) fun _ _ => .some)

theorem echoes_commas {stop stop' : Parser Bool} {p : Parser α} {q : Parser β} {f : List α → Parser γ}
    {g : List β → Parser δ} (hs : r.Echoes id stop stop') (h : r.Echoes φ p q)
    (hf : ∀ as, r.EchoesUnless E' S (f as) (g (as.map φ))) :
    r.EchoesUnless E' S (do
        let first ← p
        let rest ← afterCommas stop p
        f (first :: rest))
      (do
        let first ← q
        let rest ← afterCommas stop' q
        g (first :: rest)) :=
  h.then fun first => (echoes_afterCommas hs h).then fun rest => hf (first :: rest)

theorem echoes_commaList (closing : String) {p : Parser α} {q : Parser β} (h : r.Echoes φ p q) :
    r.Echoes (List.map φ) (commaList closing p) (commaList closing q) :=
  echoes_of_at (r.keeps_op closing) (echoes_pure rfl)
    (echoes_commas (echoes_at (r.keeps_op closing)) h fun _ => echoes_pure rfl)

end Loops

/-! Parts of expressions. -/

theorem echoes_atExpr : r.Echoes id atExpr atExpr :=
  echoes_peek.then fun k => echoes_pure (r.startsExpr_kind k)

theorem echoes_atGenerator : r.Echoes id atGenerator atGenerator := by
  refine echoes_of_at (r.keeps_word rfl) (echoes_pure rfl) (echoes_of_at (r.keeps_word rfl) ?_ (echoes_pure rfl))
  exact echoes_peekSecond.then fun k => echoes_pure (kind_beq (r.keeps_word rfl) k)

theorem echoes_target (ctx : Context) (e : Expr) : r.Echoes r.expr (target ctx e) (target ctx (r.expr e)) := by
  unfold target
  rw [asTarget?_expr]
  cases e.asTarget? ctx with
  | none => exact echoesUnless_fail _
  | some t => exact echoes_pure rfl

theorem echoes_targets (ctx : Context) (es : List Expr) :
    r.Echoes (List.map r.expr) (targets ctx es) (targets ctx (es.map r.expr)) := by
  unfold targets
  rw [← exprs_eq_map, asTargets?_exprs]
  cases asTargets? ctx es with
  | none => exact echoesUnless_fail _
  | some ts => exact echoes_pure (r.exprs_eq_map ts)

section Items

variable {operand item : Parser Expr}

theorem echoes_starOr (ho : r.Echoes r.expr operand operand) (hi : r.Echoes r.expr item item) :
    r.Echoes r.expr (starOr operand item) (starOr operand item) :=
  echoes_of_eat (r.keeps_op "*") (ho.then fun _ => echoes_pure rfl) hi

theorem echoes_itemOrTuple (h : r.Echoes r.expr item item) :
    r.Echoes r.expr (itemOrTuple item) (itemOrTuple item) := by
  have stop : r.Echoes id (not <$> atExpr) (not <$> atExpr) := Echoes.map echoes_atExpr fun _ => rfl
  refine h.then fun first => echoes_of_at (r.keeps_op ",") ?_ (echoes_pure rfl)
  exact (echoes_afterCommas stop h).then fun rest => echoes_pure (by simp [expr])

end Items

end Respelling

end Arbiter.Syntax
