import Arbiter.Proofs.Parsing.Echo
import Arbiter.Proofs.Parsing.Level
import Arbiter.Proofs.Parsing.ExprHalts

/-! Expressions with another name in the place of `match` are read as they are, with that name in them. -/

namespace Arbiter.Syntax

open Syntax.Parser Respelling

namespace Respelling

variable (r : Respelling)

theorem constantWord?_eq_none {w : String} (plain : isKeyword w = false) : constantWord? w = none := by
  unfold constantWord?
  split
  · cases plain
  · cases plain
  · cases plain
  · rfl

/-! String literals. -/

/-- Strings stay as they are. -/
theorem leadingPieces_tokens (ts : List Token) :
    leadingPieces (r.tokens ts) = ((leadingPieces ts).1, r.tokens (leadingPieces ts).2) := by
  fun_induction leadingPieces ts with
  | case1 text pos ts ih =>
    show leadingPieces (⟨.string text, pos⟩ :: r.tokens ts) = _
    rw [leadingPieces, ih]
  | case2 ts other =>
    rw [leadingPieces_of_ne]
    intro text here
    rw [headKind_tokens] at here
    cases ts with
    | nil => cases here
    | cons t ts =>
      obtain ⟨kind, pos⟩ := t
      cases kind with
      | string text' => exact other text' pos ts rfl
      | _ => cases here

theorem expr_stringExpr {read : String → Except Cause Expr} {pieces : List StringPiece} {e : Expr}
    (h : stringExpr read pieces = .ok e) : r.expr e = e := by
  unfold stringExpr at h
  split at h
  · cases found : pieces.mapM (StringPiece.parts read) with
    | error fault =>
      rw [found] at h
      cases h
    | ok parts =>
      rw [found] at h
      cases h
      rfl
  · split at h
    · cases h
      rfl
    · cases h
      rfl

theorem echoes_strings {r : Respelling} (read : String → Except Cause Expr) :
    r.Echoes r.expr (strings read) (strings read) := by
  intro ts worded e ts' run
  have whole : ∀ ts, strings read ts =
      (stringExpr read (leadingPieces ts).1 >>= fun e => .ok (e, (leadingPieces ts).2)) := by
    intro ts
    show (stringPieces ts >>= fun x => (liftM (stringExpr read x.1) : Parser Expr) x.2) = _
    rw [stringPieces_apply]
    rfl
  rw [whole] at run
  rw [whole, leadingPieces_tokens]
  cases found : stringExpr read (leadingPieces ts).1 with
  | error fault =>
    rw [found] at run
    cases run
  | ok e =>
    rw [found] at run
    cases run
    have left : r.Worded (leadingPieces ts).2 := fun t member =>
      worded t ((suffix_leadingPieces ts).subset member)
    exact .inr ⟨left, e, rfl, (r.expr_stringExpr found).symm⟩

/-! Operators. -/

@[simp] def callItem : Grammar.CallItem → Grammar.CallItem
  | .positional e => .positional (r.expr e)
  | .keyword k => .keyword (r.keyword k)

@[simp] def trailer : Grammar.Trailer → Grammar.Trailer
  | .call args keywords => .call (args.map r.expr) (keywords.map r.keyword)
  | .subscript index => .subscript (r.expr index)
  | .member attr => .member (r.word attr)

theorem expr_trailers (trailers : List Grammar.Trailer) : ∀ e : Expr,
    r.expr (trailers.foldl Grammar.Trailer.apply e) =
      (trailers.map r.trailer).foldl Grammar.Trailer.apply (r.expr e) := by
  induction trailers with
  | nil => exact fun _ => rfl
  | cons t trailers ih =>
    intro e
    have first : r.expr (t.apply e) = (r.trailer t).apply (r.expr e) := by cases t <;> simp [Grammar.Trailer.apply]
    rw [List.foldl_cons, ih, first, List.map_cons, List.foldl_cons]

theorem expr_operands (rest : List (BinaryOp × Expr)) : ∀ e : Expr,
    r.expr (rest.foldl (fun left (op, right) => .binary left op right) e) =
      (rest.map fun x => (x.1, r.expr x.2)).foldl (fun left (op, right) => .binary left op right) (r.expr e) := by
  induction rest with
  | nil => exact fun _ => rfl
  | cons x rest ih => exact fun e => ih (.binary e x.1 x.2)

variable {r}

theorem echoes_eatBinary (ops : List BinaryOp) : r.Echoes id (eatBinary? ops) (eatBinary? ops) := by
  refine echoes_of_peek (fun k _ => ?_) (fun _ _ _ => rfl) (echoes_pure rfl)
  split
  · split
    · exact echoes_advance.then fun _ => echoes_pure rfl
    · exact echoes_pure rfl
  · exact echoes_pure rfl

theorem echoes_eatCompareOp : r.Echoes id eatCompareOp? eatCompareOp? := by
  have taken : ∀ o, r.Echoes id (eatCompareOp?.taken o) (eatCompareOp?.taken o) := fun o =>
    echoes_advance.then fun _ => echoes_pure rfl
  refine echoes_of_peek (A := fun _ => pure none) (fun k _ => ?_) (fun w plain _ => ?_) (echoes_pure rfl)
  · split
    · exact taken _
    · exact taken _
    · exact taken _
    · exact taken _
    · exact taken _
    · exact taken _
    · exact taken _
    · refine echoes_peekSecond.then fun k' => ?_
      rw [kind_beq (r.keeps_word rfl)]
      exact echoes_ite (echoes_advance.then fun _ => taken _) (echoes_pure rfl)
    · refine echoes_peekSecond.then fun k' => ?_
      rw [kind_beq (r.keeps_word rfl)]
      exact echoes_ite (echoes_advance.then fun _ => taken _) (taken _)
    · exact echoes_pure rfl
  · split
    all_goals first
      | rfl
      | rename_i word
        cases word <;> exact absurd plain (by decide)

theorem echoes_boolChain {operand : Parser Expr} (o : BoolOp) {word : String} (keyword : isKeyword word = true)
    (h : r.Echoes r.expr operand operand) :
    r.Echoes r.expr (boolChain o word operand) (boolChain o word operand) := by
  refine h.then fun first => (echoes_many_marked (r.keeps_word keyword) h).then fun rest => ?_
  cases rest with
  | nil => exact echoes_pure rfl
  | cons second rest => exact echoes_pure (by simp)

end Respelling

namespace Grammar

/-- The parsers of parts inside of others echo themselves. -/
structure Echoing (r : Respelling) (g : Grammar) : Prop where
  test : r.Echoes r.expr g.test g.test
  orTest : r.Echoes r.expr g.orTest g.orTest
  notTest : r.Echoes r.expr g.notTest g.notTest
  bitOr : r.Echoes r.expr g.bitOr g.bitOr
  factor : r.Echoes r.expr g.factor g.factor
  statement : r.EchoesUnless (fun ss => holdMatch ss = true) (List.Forall₂ r.Respelled) g.statement g.statement
  branch : r.EchoesUnless (fun s => s.holdsMatch = true) r.Respelled g.branch g.branch

variable {r : Respelling} {g : Grammar} (echoing : g.Echoing r)
include echoing

theorem echoes_item : r.Echoes r.expr (starOr g.bitOr g.test) (starOr g.bitOr g.test) :=
  echoes_starOr echoing.bitOr echoing.test

theorem echoes_items : r.Echoes r.expr g.items g.items := echoes_itemOrTuple (echoes_item echoing)

theorem echoes_yieldExpr : r.Echoes r.expr g.yieldExpr g.yieldExpr := by
  refine (echoes_expectWord rfl).then fun _ => echoes_of_eat (r.keeps_word rfl) ?_ ?_
  · exact echoing.test.then fun e => echoes_pure rfl
  · exact echoes_atExpr.then fun b => (echoes_optionally b (echoes_items echoing)).then fun o =>
      echoes_pure (by simp)

theorem echoes_generator : r.Echoes r.generator g.generator g.generator := by
  refine (echoes_eat (r.keeps_word rfl)).then fun isAsync => (echoes_expectWord rfl).then fun _ => ?_
  refine (echoes_itemOrTuple (echoes_starOr echoing.bitOr echoing.bitOr)).then fun head => ?_
  refine (echoes_target _ head).then fun head => (echoes_expectWord rfl).then fun _ => ?_
  refine echoing.orTest.then fun iter => ?_
  exact (echoes_many_marked (r.keeps_word rfl) echoing.orTest).then fun ifs => echoes_pure (by simp)

theorem echoes_generators : r.Echoes (List.map r.generator) g.generators g.generators :=
  echoes_many (echoes_atGenerator.then fun b => echoes_optionally b (echoes_generator echoing))

theorem echoes_of_generators {α β : Type} {R : α → β → Prop} {f : List Generator → Parser α}
    {f' : List Generator → Parser β} {B : Parser α} {B' : Parser β}
    (hA : ∀ gens, r.EchoesUpTo R (f gens) (f' (gens.map r.generator))) (hB : r.EchoesUpTo R B B') :
    r.EchoesUpTo R (do if ← atGenerator then (do let gens ← g.generators; f gens) else B)
      (do if ← atGenerator then (do let gens ← g.generators; f' gens) else B') :=
  echoes_atGenerator.then fun _ => echoes_ite ((echoes_generators echoing).then hA) hB

theorem echoes_moreItems (closing : String) :
    r.Echoes (List.map r.expr) (g.moreItems closing) (g.moreItems closing) := by
  refine (echoes_afterCommas (echoes_at (r.keeps_op closing)) (echoes_item echoing)).then fun rest => ?_
  exact (echoes_expectOp _).then fun _ => echoes_pure rfl

theorem echoes_parenthesized : r.Echoes r.expr g.parenthesized g.parenthesized := by
  refine (echoes_expectOp _).then fun _ => echoes_of_eat (r.keeps_op _) (echoes_pure rfl) ?_
  refine echoes_of_at (r.keeps_word rfl) ?_ ?_
  · exact (echoes_yieldExpr echoing).then fun e => (echoes_expectOp _).then fun _ => echoes_pure rfl
  · refine (echoes_item echoing).then fun first => echoes_of_generators echoing (fun gens => ?_) ?_
    · exact (echoes_expectOp _).then fun _ => echoes_pure (by simp)
    · refine echoes_of_at (r.keeps_op _) ?_ ?_
      · exact (echoes_moreItems echoing _).then fun rest => echoes_pure (by simp)
      · exact (echoes_expectOp _).then fun _ => echoes_pure rfl

theorem echoes_listDisplay : r.Echoes r.expr g.listDisplay g.listDisplay := by
  refine (echoes_expectOp _).then fun _ => echoes_of_eat (r.keeps_op _) (echoes_pure rfl) ?_
  refine (echoes_item echoing).then fun first => echoes_of_generators echoing (fun gens => ?_) ?_
  · exact (echoes_expectOp _).then fun _ => echoes_pure (by simp)
  · exact (echoes_moreItems echoing _).then fun rest => echoes_pure (by simp)

theorem echoes_dictItem : r.Echoes r.dictItem g.dictItem g.dictItem := by
  refine echoes_of_eat (r.keeps_op _) (echoing.bitOr.then fun v => echoes_pure rfl) ?_
  refine echoing.test.then fun k => (echoes_expectOp _).then fun _ => ?_
  exact echoing.test.then fun v => echoes_pure rfl

theorem echoes_moreDictItems (first : DictItem) :
    r.Echoes r.expr (g.moreDictItems first) (g.moreDictItems (r.dictItem first)) := by
  refine (echoes_afterCommas (echoes_at (r.keeps_op _)) (echoes_dictItem echoing)).then fun rest => ?_
  exact (echoes_expectOp _).then fun _ => echoes_pure (by simp)

theorem echoes_braceDisplay : r.Echoes r.expr g.braceDisplay g.braceDisplay := by
  refine (echoes_expectOp _).then fun _ => echoes_of_eat (r.keeps_op _) (echoes_pure rfl) ?_
  refine echoes_of_eat (r.keeps_op _) ?_ ?_
  · exact echoing.bitOr.then fun v => echoes_moreDictItems echoing (.spread v)
  · refine (echoes_item echoing).then fun first => echoes_of_eat (r.keeps_op _) ?_ ?_
    · refine echoing.test.then fun value => echoes_of_generators echoing (fun gens => ?_) ?_
      · exact (echoes_expectOp _).then fun _ => echoes_pure (by simp)
      · exact echoes_moreDictItems echoing (.entry first value)
    · refine echoes_of_generators echoing (fun gens => ?_) ?_
      · exact (echoes_expectOp _).then fun _ => echoes_pure (by simp)
      · exact (echoes_moreItems echoing _).then fun rest => echoes_pure (by simp)

theorem echoes_atom : r.Echoes r.expr g.atom g.atom := by
  have taken : ∀ {e e' : Expr}, e' = r.expr e →
      r.Echoes r.expr (do advance; return e) (do advance; return e') := fun same =>
    echoes_advance.then fun _ => echoes_pure same
  refine echoes_of_peek (A := fun w => do advance; return .name w .load) (fun k other => ?_)
    (fun w plain _ => ?_) ?_
  · split
    · exact echoes_parenthesized echoing
    · exact echoes_listDisplay echoing
    · exact echoes_braceDisplay echoing
    · exact taken rfl
    · exact taken rfl
    · exact echoes_strings g.read
    · rename_i word
      split
      · exact taken rfl
      · have same := r.word_of_ne fun same => other (congrArg TokenKind.name same)
        exact echoes_ite (echoesUnless_fail _) (taken (by rw [expr, same]))
    · exact echoesUnless_fail _
  · simp only [constantWord?_eq_none plain, plain]
    rfl
  · exact taken (by rw [expr, word_match])

theorem echoes_callItem : r.Echoes r.callItem g.callItem g.callItem := by
  refine echoes_of_eat (r.keeps_op _) (echoing.test.then fun e => echoes_pure rfl) ?_
  refine echoes_of_eat (r.keeps_op _) (echoing.test.then fun e => echoes_pure rfl) ?_
  refine echoes_peek.then fun k => echoes_peekSecond.then fun k' => ?_
  split
  · refine echoes_expectName.then fun arg => echoes_advance.then fun _ => ?_
    exact echoing.test.then fun e => echoes_pure rfl
  · rename_i other
    split
    · rename_i word name equals
      cases k with
      | name => exact absurd ((r.keeps_op "=" k').1 equals) (other _ rfl)
      | _ => cases name
    · refine echoing.test.then fun e => ?_
      exact echoes_of_generators echoing (fun gens => echoes_pure (by simp)) (echoes_pure rfl)

theorem echoes_callArgs : r.Echoes (fun x => (x.1.map r.expr, x.2.map r.keyword)) g.callArgs g.callArgs := by
  have positional : (CallItem.positional? ∘ r.callItem) = fun i => i.positional?.map r.expr := by
    funext i
    cases i <;> rfl
  have keyword : (CallItem.keyword? ∘ r.callItem) = fun i => i.keyword?.map r.keyword := by
    funext i
    cases i <;> rfl
  refine (echoes_commaList _ (echoes_callItem echoing)).then fun found => echoes_pure ?_
  simp only [List.filterMap_map, List.map_filterMap, positional, keyword]

theorem echoes_subscriptItem : r.Echoes r.expr g.subscriptItem g.subscriptItem := by
  have colon := r.keeps_op ":"
  refine (echoes_at colon).then fun _ => (echoes_optionally _ (echoes_item echoing)).then fun lower => ?_
  refine echoes_of_eat colon ?_ ?_
  · refine (echoes_at colon).then fun _ => (echoes_at (r.keeps_op _)).then fun _ => ?_
    refine (echoes_at (r.keeps_op _)).then fun _ => (echoes_optionally _ echoing.test).then fun upper => ?_
    refine (echoes_eat colon).then fun _ => (echoes_at (r.keeps_op _)).then fun _ => ?_
    refine (echoes_at (r.keeps_op _)).then fun _ => (echoes_optionally _ echoing.test).then fun step => ?_
    exact echoes_pure (by simp)
  · cases lower with
    | none => exact echoesUnless_fail _
    | some item => exact echoes_pure rfl

theorem echoes_subscriptIndex : r.Echoes r.expr g.subscriptIndex g.subscriptIndex := by
  refine (echoes_subscriptItem echoing).then fun first => echoes_of_at (r.keeps_op _) ?_ (echoes_pure rfl)
  refine (echoes_afterCommas (echoes_at (r.keeps_op _)) (echoes_subscriptItem echoing)).then fun rest => ?_
  exact echoes_pure (by simp)

theorem echoes_trailer : r.Echoes (Option.map r.trailer) g.trailer? g.trailer? := by
  refine echoes_of_eat (r.keeps_op _) ?_ (echoes_of_eat (r.keeps_op _) ?_ (echoes_of_eat (r.keeps_op _) ?_ ?_))
  · exact (echoes_callArgs echoing).then fun args => (echoes_expectOp _).then fun _ => echoes_pure rfl
  · exact (echoes_subscriptIndex echoing).then fun index => (echoes_expectOp _).then fun _ => echoes_pure rfl
  · exact echoes_expectName.then fun attr => echoes_pure rfl
  · exact echoes_pure rfl

theorem echoes_primary : r.Echoes r.expr g.primary g.primary := by
  refine (echoes_atom echoing).then fun operand => ?_
  exact (echoes_many (echoes_trailer echoing)).then fun trailers =>
    echoes_pure (r.expr_trailers trailers operand).symm

theorem echoes_power : r.Echoes r.expr g.power g.power := by
  rw [power_eq]
  have primary := echoes_primary echoing
  have base : r.Echoes r.expr g.base g.base :=
    echoes_of_eat (r.keeps_word rfl) (Echoes.map primary fun _ => rfl) primary
  refine base.then fun b => echoes_of_eat (r.keeps_op _) ?_ (echoes_pure rfl)
  exact echoing.factor.then fun e => echoes_pure rfl

theorem echoes_factorRule : r.Echoes r.expr g.factorRule g.factorRule := by
  have signed : ∀ o, r.Echoes r.expr (factorRule.signed g o) (factorRule.signed g o) := fun o =>
    echoes_advance.then fun _ => echoing.factor.then fun e => echoes_pure rfl
  refine echoes_of_peek (fun k _ => ?_) (fun _ _ _ => rfl) (echoes_power echoing)
  split
  · exact signed _
  · exact signed _
  · exact signed _
  · exact echoes_power echoing

theorem echoes_binaryChain (levels : List (List BinaryOp)) :
    r.Echoes r.expr (binaryChain g.factorRule levels) (binaryChain g.factorRule levels) := by
  induction levels with
  | nil => exact echoes_factorRule echoing
  | cons ops tighter ih =>
    have next : r.Echoes (Option.map fun x => (x.1, r.expr x.2)) (chainNext g.factorRule ops tighter)
        (chainNext g.factorRule ops tighter) := by
      refine (echoes_eatBinary ops).then fun o => ?_
      cases o with
      | none => exact echoes_pure rfl
      | some o => exact ih.then fun e => echoes_pure rfl
    exact ih.then fun first => (echoes_many next).then fun rest => echoes_pure (r.expr_operands rest first).symm

theorem echoes_bitOrRule : r.Echoes r.expr g.bitOrRule g.bitOrRule := echoes_binaryChain echoing _

theorem echoes_comparison : r.Echoes r.expr g.comparison g.comparison := by
  have next : r.Echoes (Option.map r.comparand) g.nextComparison g.nextComparison := by
    refine echoes_eatCompareOp.then fun o => ?_
    cases o with
    | none => exact echoes_pure rfl
    | some o => exact (echoes_bitOrRule echoing).then fun e => echoes_pure rfl
  refine (echoes_bitOrRule echoing).then fun left => (echoes_many next).then fun rest => ?_
  cases rest with
  | nil => exact echoes_pure rfl
  | cons c rest => exact echoes_pure (by simp)

theorem echoes_notTestRule : r.Echoes r.expr g.notTestRule g.notTestRule :=
  echoes_of_eat (r.keeps_word rfl) (echoing.notTest.then fun _ => echoes_pure rfl) (echoes_comparison echoing)

theorem echoes_orTestRule : r.Echoes r.expr g.orTestRule g.orTestRule :=
  echoes_boolChain _ rfl (echoes_boolChain _ rfl (echoes_notTestRule echoing))

theorem echoes_argument (annotations : Bool) :
    r.Echoes r.argument (g.argument annotations) (g.argument annotations) := by
  refine echoes_expectName.then fun name => echoes_ite ?_ (echoes_pure rfl)
  exact echoes_of_optionally (r.keeps_op _) echoing.test fun o => echoes_pure (by simp)

theorem echoes_param (closing : String) (annotations : Bool) :
    r.Echoes r.param (g.param closing annotations) (g.param closing annotations) := by
  have argument := echoes_argument echoing annotations
  refine echoes_of_eat (r.keeps_op _) (echoes_pure rfl) ?_
  refine echoes_of_eat (r.keeps_op _) ?_ (echoes_of_eat (r.keeps_op _) ?_ ?_)
  · exact argument.then fun a => echoes_pure rfl
  · refine (echoes_at (r.keeps_op _)).then fun _ => (echoes_at (r.keeps_op _)).then fun _ => ?_
    exact (echoes_optionally _ argument).then fun o => echoes_pure (by simp)
  · exact argument.then fun a => echoes_of_optionally (r.keeps_op _) echoing.test fun d => echoes_pure (by simp)

theorem echoes_params (closing : String) (annotations : Bool) :
    r.Echoes (List.map r.param) (g.params closing annotations) (g.params closing annotations) :=
  echoes_commaList closing (echoes_param echoing closing annotations)

theorem echoes_lambda : r.Echoes r.expr g.lambda g.lambda := by
  refine (echoes_expectWord rfl).then fun _ => (echoes_params echoing _ _).then fun ps => ?_
  exact (echoes_expectOp _).then fun _ => echoing.test.then fun body => echoes_pure (by simp)

theorem echoes_conditional : r.Echoes r.expr g.conditional g.conditional := by
  refine (echoes_orTestRule echoing).then fun body => echoes_of_eat (r.keeps_word rfl) ?_ (echoes_pure rfl)
  refine (echoes_orTestRule echoing).then fun test => (echoes_expectWord rfl).then fun _ => ?_
  exact echoing.test.then fun orelse => echoes_pure rfl

theorem echoes_testRule : r.Echoes r.expr g.testRule g.testRule := by
  refine echoes_of_at (r.keeps_word rfl) (echoes_lambda echoing) ((echoes_conditional echoing).then fun e => ?_)
  refine echoes_of_at (r.keeps_op _) ?_ (echoes_pure rfl)
  cases e with
  | name id ctx => exact echoes_advance.then fun _ => echoing.test.then fun v => echoes_pure rfl
  | _ => exact echoesUnless_fail _

theorem echoes_itemsRule : r.Echoes r.expr g.itemsRule g.itemsRule :=
  echoes_itemOrTuple (echoes_starOr (echoes_bitOrRule echoing) (echoes_testRule echoing))

theorem echoes_targetItems : r.Echoes r.expr g.targetItems g.targetItems :=
  echoes_itemOrTuple (echoes_starOr (echoes_bitOrRule echoing) (echoes_bitOrRule echoing))

theorem echoes_itemsOrYield : r.Echoes r.expr g.itemsOrYield g.itemsOrYield :=
  echoes_of_at (r.keeps_word rfl) (echoes_yieldExpr echoing) (echoes_itemsRule echoing)

end Grammar

end Arbiter.Syntax
