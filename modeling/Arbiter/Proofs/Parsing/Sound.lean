import Arbiter.Proofs.Parsing.Fields
import Arbiter.Proofs.Parsing.Level

/-! Soundness of the grammar. Main statement: every expression that a text is read as is well formed. -/

namespace Arbiter.Syntax

open Syntax.Parser

namespace Parser

variable {α : Type} {p : Parser α} {Q : α → Prop}

/-- Looking for a `for` clause takes no token. -/
theorem atGenerator_eq (ts : List Token) : ∃ b, atGenerator ts = .ok (b, ts) := by
  cases first : headKind ts == .name "for" with
  | true =>
    refine ⟨true, ?_⟩
    simp only [atGenerator, atWord, at?, bind, StateT.bind, Except.bind, first]
    rfl
  | false =>
    cases second : headKind ts == .name "async" with
    | true =>
      refine ⟨headKind ts.tail == .name "for", ?_⟩
      simp only [atGenerator, atWord, at?, bind, StateT.bind, Except.bind, first, second,
        Bool.false_eq_true, if_false, if_true]
      rfl
    | false =>
      refine ⟨false, ?_⟩
      simp only [atGenerator, atWord, at?, bind, StateT.bind, Except.bind, first, second,
        Bool.false_eq_true, if_false]
      rfl

/-- All string tokens that come next, of which there is one. -/
theorem yields_stringPieces (text : String) :
    YieldsIf (headKind · = .string text) stringPieces fun pieces =>
      pieces ≠ [] ∧ ∀ p ∈ pieces, Spells p.text (.string p.text) := by
  intro ts here
  refine yields_many_some ?piece ts fun ts' none => ?_
  case piece =>
    intro ts spelled o ts' run
    dsimp only at run
    split at run
    · cases run
      refine ⟨List.suffix_cons _ _, ?_⟩
      rintro p ⟨⟩
      exact spelled _ List.mem_cons_self
    · cases run
      exact ⟨List.suffix_refl _, by simp⟩
  cases ts with
  | nil => cases here
  | cons t ts =>
    obtain ⟨k, pos⟩ := t
    obtain rfl : k = .string text := here
    cases none

theorem yields_strings {read : String → Except Cause Expr}
    (sound : ∀ source e, read source = .ok e → e.Formed) (text : String) :
    YieldsIf (headKind · = .string text) (strings read) Expr.Formed := by
  refine (yields_stringPieces text).bind fun pieces h => ?_
  intro ts _ e ts' run
  have run : (stringExpr read pieces >>= fun e => .ok (e, ts)) = .ok (e, ts') := run
  cases found : stringExpr read pieces with
  | error fault =>
    rw [found] at run
    cases run
  | ok e' =>
    rw [found] at run
    cases run
    refine ⟨List.suffix_refl ts, ?_⟩
    unfold stringExpr at found
    split at found
    · cases parts : pieces.mapM (StringPiece.parts read) with
      | error fault =>
        rw [parts] at found
        cases found
      | ok parts' =>
        rw [parts] at found
        cases found
        exact formed_joinedStr (areApart_mergeLiterals _) (formed_mergeLiterals (formed_pieces sound parts))
    · rename_i plain
      have whole : Expr.Formed (.constant (stringConstant pieces)) :=
        Regular.strings h.1 h.2 (by simpa using plain)
      unfold stringConstant at whole
      split at found <;> cases found
      · rwa [if_pos ‹_›] at whole
      · rwa [if_neg ‹_›] at whole

theorem yields_eatBinary (ops : List BinaryOp) :
    Yields (eatBinary? ops) fun o => ∀ a ∈ o, a ∈ ops := by
  refine yields_peek.bind fun _ _ => ?_
  split
  · split
    · rename_i found
      refine yields_advance.bind fun _ _ => yields_pure ?_
      rintro _ ⟨⟩
      exact List.mem_of_find?_eq_some found
    · exact yields_pure (by simp)
  · exact yields_pure (by simp)

theorem yields_eatCompareOp : Yields eatCompareOp? fun _ => True := by
  have taken : ∀ o, Yields (eatCompareOp?.taken o) fun _ => True := fun o =>
    yields_advance.bind fun _ _ => yields_pure trivial
  refine yields_peek.bind fun _ _ => ?_
  split
  · exact taken _
  · exact taken _
  · exact taken _
  · exact taken _
  · exact taken _
  · exact taken _
  · exact taken _
  · refine yields_peekSecond.bind fun _ _ => yields_ite ?_ (yields_pure trivial)
    exact yields_advance.bind fun _ _ => taken _
  · refine yields_peekSecond.bind fun _ _ => yields_ite ?_ (taken _)
    exact yields_advance.bind fun _ _ => taken _
  · exact yields_pure trivial

end Parser

namespace Grammar

/-- All parsers of expressions give well-formed ones. -/
structure Sound (g : Grammar) : Prop where
  test : Yields g.test Expr.Formed
  orTest : Yields g.orTest Expr.Formed
  notTest : Yields g.notTest Expr.Formed
  bitOr : Yields g.bitOr Expr.Formed
  factor : Yields g.factor Expr.Formed
  standalone : Yields g.standalone Expr.Formed

/-- What stands apart is well formed, too. -/
theorem Sound.formed_of_read {g : Grammar} (sound : g.Sound) (source : String) (e : Expr)
    (h : g.read source = .ok e) : e.Formed := by
  unfold read at h
  cases tokens : tokenize source with
  | error fault =>
    rw [tokens] at h
    cases h
  | ok ts =>
    rw [tokens] at h
    have apply : (Except.ok ts >>= g.standalone.run) = g.standalone ts := rfl
    rw [apply] at h
    cases run : g.standalone ts with
    | error fault =>
      rw [run] at h
      cases h
    | ok x =>
      rw [run] at h
      cases h
      exact (sound.standalone ts (isSpelled_of_tokenize tokens) x.1 x.2 run).2

variable {g : Grammar} (sound : g.Sound)

theorem yields_starOr {operand item : Parser Expr} (ho : Yields operand Expr.Formed)
    (hi : Yields item Expr.Formed) : Yields (starOr operand item) Expr.Formed :=
  yields_of_eat (ho.bind fun _ h => yields_pure (.strayed rfl h)) hi

theorem yields_itemOrTuple {item : Parser Expr} (h : Yields item Expr.Formed) :
    Yields (itemOrTuple item) Expr.Formed := by
  refine h.bind fun first hf => yields_of_at ?_ (yields_pure hf)
  have stop : Yields (not <$> atExpr) fun _ => True := yields_atExpr.map not fun _ _ => trivial
  refine (yields_afterCommas stop h).bind fun rest hr => yields_pure ?_
  exact .tuple (Regular.items (List.forall_mem_cons.2 ⟨hf, hr⟩))

include sound

theorem yields_item : Yields (starOr g.bitOr g.test) Expr.Formed := yields_starOr sound.bitOr sound.test

theorem yields_items : Yields g.items Expr.Formed := yields_itemOrTuple (yields_item sound)

theorem yields_yieldExpr : Yields g.yieldExpr Expr.Formed := by
  refine (yields_expectWord _).bind fun _ _ => yields_of_eat ?_ ?_
  · exact sound.test.bind fun _ h => yields_pure (.yieldFrom rfl h)
  · refine yields_atExpr.bind fun b _ => ?_
    exact (yields_optionally b (yields_items sound)).bind fun _ h => yields_pure (.yield rfl h)

/-- A clause that others may follow. -/
theorem yields_generator :
    Yields g.generator fun c => ∀ gens, FormedClauses gens → FormedClauses (c :: gens) := by
  refine (yields_eat _).bind fun isAsync _ => (yields_expectWord _).bind fun _ _ => ?_
  refine (yields_itemOrTuple (yields_starOr sound.bitOr sound.bitOr)).bind fun head hh => ?_
  refine (yields_target head).bind fun target ht => (yields_expectWord _).bind fun _ _ => ?_
  refine sound.orTest.bind fun iter hi => ?_
  have condition : Yields (do optionally (← eatWord "if") g.orTest) fun o => ∀ e ∈ o, e.Formed :=
    (yields_eat _).bind fun b _ => yields_optionally b sound.orTest
  refine (yields_many condition).bind fun ifs hc => yields_pure fun gens hg => ?_
  exact .clause hh ht hi hc hg

theorem yields_nextGenerator :
    Yields (do optionally (← atGenerator) g.generator) fun o => ∀ c ∈ o,
      ∀ gens, FormedClauses gens → FormedClauses (c :: gens) :=
  yields_atGenerator.bind fun b _ => yields_optionally b (yields_generator sound)

omit sound in
theorem formed_clauses {gens : List Generator}
    (h : ∀ c ∈ gens, ∀ more, FormedClauses more → FormedClauses (c :: more)) :
    FormedClauses gens := by
  induction gens with
  | nil => exact .noClause
  | cons c gens ih => exact h c List.mem_cons_self gens (ih fun d hd => h d (.tail c hd))

/-- Where the first clause is seen, there is one. -/
theorem yields_of_generators {α : Type} {Q : α → Prop} {f : List Generator → Parser α} {B : Parser α}
    (hA : ∀ gens, gens ≠ [] → FormedClauses gens → Yields (f gens) Q) (hB : Yields B Q) :
    Yields (do if ← atGenerator then (do let gens ← g.generators; f gens) else B) Q := by
  intro ts spelled a ts' run
  have run : (atGenerator ts >>= fun x =>
      (if x.1 = true then g.generators >>= f else B) x.2) = .ok (a, ts') := run
  obtain ⟨b, seen⟩ := atGenerator_eq ts
  rw [seen] at run
  cases b with
  | false => exact hB ts spelled a ts' run
  | true =>
    have first : ∀ ts', (do optionally (← atGenerator) g.generator : Parser _) ts ≠
        .ok (none, ts') := by
      intro ts' gone
      have gone : (atGenerator ts >>= fun x => optionally x.1 g.generator x.2) = .ok (none, ts') := gone
      rw [seen] at gone
      have gone : (g.generator ts >>= fun x => Except.ok (some x.1, x.2)) = .ok (none, ts') := gone
      cases found : g.generator ts <;> rw [found] at gone <;> cases gone
    have clauses := yields_many_some (yields_nextGenerator sound)
    exact (clauses.bind fun gens h => hA gens h.1 (formed_clauses h.2)) ts first spelled a ts' run

theorem yields_moreItems (closing : String) :
    Yields (g.moreItems closing) fun es => ∀ e ∈ es, e.Formed := by
  refine (yields_afterCommas (yields_at _) (yields_item sound)).bind fun rest hr => ?_
  exact (yields_expectOp _).bind fun _ _ => yields_pure hr

theorem yields_parenthesized : Yields g.parenthesized Expr.Formed := by
  refine (yields_expectOp _).bind fun _ _ => yields_of_eat (yields_pure (.tuple (by simp))) ?_
  refine yields_of_at ?_ ((yields_item sound).bind fun first hf => ?_)
  · refine (yields_yieldExpr sound).bind fun e he => ?_
    exact (yields_expectOp _).bind fun _ _ => yields_pure he
  · refine yields_of_generators sound (fun gens some hg => ?_) (yields_of_at ?_ ?_)
    · exact (yields_expectOp _).bind fun _ _ => yields_pure (.generatorExp some hf hg)
    · refine (yields_moreItems sound _).bind fun rest hr => yields_pure ?_
      exact .tuple (Regular.items (List.forall_mem_cons.2 ⟨hf, hr⟩))
    · exact (yields_expectOp _).bind fun _ _ => yields_pure hf

theorem yields_listDisplay : Yields g.listDisplay Expr.Formed := by
  refine (yields_expectOp _).bind fun _ _ => yields_of_eat (yields_pure (.list (by simp))) ?_
  refine (yields_item sound).bind fun first hf => ?_
  refine yields_of_generators sound (fun gens some hg => ?_) ?_
  · exact (yields_expectOp _).bind fun _ _ => yields_pure (.listComp some hf hg)
  · refine (yields_moreItems sound _).bind fun rest hr => yields_pure ?_
    exact .list (Regular.items (List.forall_mem_cons.2 ⟨hf, hr⟩))

theorem yields_dictItem : Yields g.dictItem fun item => ∀ e ∈ item.parts, e.Formed := by
  refine yields_of_eat (sound.bitOr.bind fun v hv => yields_pure ?_) ?_
  · exact List.forall_mem_singleton.2 hv
  · refine sound.test.bind fun k hk => (yields_expectOp _).bind fun _ _ => ?_
    refine sound.test.bind fun v hv => yields_pure ?_
    exact List.forall_mem_cons.2 ⟨hk, List.forall_mem_singleton.2 hv⟩

theorem yields_moreDictItems {first : DictItem} (hf : ∀ e ∈ first.parts, e.Formed) :
    Yields (g.moreDictItems first) Expr.Formed := by
  refine (yields_afterCommas (yields_at _) (yields_dictItem sound)).bind fun rest hr => ?_
  refine (yields_expectOp _).bind fun _ _ => yields_pure ?_
  exact .dict (List.forall_mem_cons.2 ⟨hf, hr⟩)

theorem yields_braceDisplay : Yields g.braceDisplay Expr.Formed := by
  refine (yields_expectOp _).bind fun _ _ => yields_of_eat (yields_pure (.dict (by simp))) ?_
  refine yields_of_eat (sound.bitOr.bind fun v hv => ?_) ((yields_item sound).bind fun first hf => ?_)
  · exact yields_moreDictItems sound (List.forall_mem_singleton.2 hv)
  · refine yields_of_eat (sound.test.bind fun value hv => ?_) ?_
    · refine yields_of_generators sound (fun gens some hg => ?_) ?_
      · exact (yields_expectOp _).bind fun _ _ => yields_pure (.dictComp some hf hv hg)
      · refine yields_moreDictItems sound ?_
        exact List.forall_mem_cons.2 ⟨hf, List.forall_mem_singleton.2 hv⟩
    · refine yields_of_generators sound (fun gens some hg => ?_) ?_
      · exact (yields_expectOp _).bind fun _ _ => yields_pure (.setComp some hf hg)
      · refine (yields_moreItems sound _).bind fun rest hr => yields_pure ?_
        exact .set (List.cons_ne_nil _ _) (Regular.items (List.forall_mem_cons.2 ⟨hf, hr⟩))

theorem yields_atom : Yields g.atom Expr.Formed := by
  refine yields_of_peek fun k spelled => ?_
  split
  · exact (yields_parenthesized sound).yieldsIf
  · exact (yields_listDisplay sound).yieldsIf
  · exact (yields_braceDisplay sound).yieldsIf
  · exact (yields_advance.bind fun _ _ => yields_pure .ellipsis).yieldsIf
  · exact (yields_advance.bind fun _ _ => yields_pure (.number spelled)).yieldsIf
  · exact yields_strings sound.formed_of_read _
  · rename_i word
    refine Inputs.Yields.yieldsIf ?_
    split
    · exact yields_advance.bind fun _ _ => yields_pure (.word _)
    · show Yields (if isKeyword word = true then _ else _) _
      split
      · exact yields_fail _
      · rename_i notWord
        exact yields_advance.bind fun _ _ => yields_pure (.name ⟨spelled, by simpa using notWord⟩ trivial)
  · exact (yields_fail _).yieldsIf

omit sound in
/-- What a call takes is well formed. -/
def CallItem.Formed : CallItem → Prop
  | .positional e => e.Formed
  | .keyword k => k.value.Formed ∧ ∀ arg ∈ k.arg, IsIdentifier arg

theorem yields_callItem : Yields g.callItem CallItem.Formed := by
  refine yields_of_eat (sound.test.bind fun e he => yields_pure (Regular.strayed rfl he)) ?_
  refine yields_of_eat (sound.test.bind fun e he => yields_pure ⟨he, by simp⟩) ?_
  refine yields_peek.bind fun _ _ => yields_peekSecond.bind fun _ _ => ?_
  split
  · refine yields_expectName.bind fun arg ha => yields_advance.bind fun _ _ => ?_
    exact sound.test.bind fun e he => yields_pure ⟨he, by simpa using ha⟩
  · refine sound.test.bind fun e he => yields_of_generators sound (fun gens some hg => ?_) ?_
    · exact yields_pure (Regular.generatorExp some he hg)
    · exact yields_pure he

theorem yields_callArgs : Yields g.callArgs fun x =>
    (∀ e ∈ x.1, e.Formed) ∧ ∀ k ∈ x.2, k.value.Formed ∧ ∀ arg ∈ k.arg, IsIdentifier arg := by
  refine (yields_commaList _ (yields_callItem sound)).bind fun items h => yields_pure ⟨?_, ?_⟩
  · intro e he
    obtain ⟨item, hi, same⟩ := List.mem_filterMap.1 he
    cases item <;> cases same
    exact h _ hi
  · intro k hk
    obtain ⟨item, hi, same⟩ := List.mem_filterMap.1 hk
    cases item <;> cases same
    exact h _ hi

theorem yields_subscriptItem : Yields g.subscriptItem Expr.FormedEntry := by
  refine (yields_at _).bind fun _ _ => (yields_optionally _ (yields_item sound)).bind fun lower hl => ?_
  refine yields_of_eat ?_ ?_
  · refine (yields_at _).bind fun _ _ => (yields_at _).bind fun _ _ => (yields_at _).bind fun _ _ => ?_
    refine (yields_optionally _ sound.test).bind fun upper hu => (yields_eat _).bind fun _ _ => ?_
    refine (yields_at _).bind fun _ _ => (yields_at _).bind fun _ _ => ?_
    exact (yields_optionally _ sound.test).bind fun step hs => yields_pure (.slice hl hu hs)
  · cases lower with
    | none => exact yields_fail _
    | some item => exact yields_pure (.entry (.item (hl item rfl)))

theorem yields_subscriptIndex : Yields g.subscriptIndex Expr.FormedIndex := by
  refine (yields_subscriptItem sound).bind fun first hf => yields_of_at ?_ (yields_pure hf.index_of_entry)
  refine (yields_afterCommas (yields_at _) (yields_subscriptItem sound)).bind fun rest hr => ?_
  exact yields_pure (.entries (List.cons_ne_nil _ _) (List.forall_mem_cons.2 ⟨hf, hr⟩))

theorem yields_trailer : Yields g.trailer? fun o => ∀ t ∈ o, ∀ e : Expr, e.Formed →
    (t.apply e).Formed := by
  refine yields_of_eat ?_ (yields_of_eat ?_ (yields_of_eat ?_ (yields_pure (by simp))))
  · refine (yields_callArgs sound).bind fun x hx => (yields_expectOp _).bind fun _ _ => yields_pure ?_
    rintro t ⟨⟩ e he
    exact .call he (Regular.items hx.1) (fun k hk => (hx.2 k hk).1) fun k hk => (hx.2 k hk).2
  · refine (yields_subscriptIndex sound).bind fun index hi => ?_
    refine (yields_expectOp _).bind fun _ _ => yields_pure ?_
    rintro t ⟨⟩ e he
    exact .subscript he hi
  · refine yields_expectName.bind fun attr ha => yields_pure ?_
    rintro t ⟨⟩ e he
    exact .member he (.inl rfl) ha

theorem yields_primary : Yields g.primary Expr.Formed := by
  refine (yields_atom sound).bind fun operand ho => ?_
  refine (yields_many (yields_trailer sound)).bind fun trailers ht => yields_pure ?_
  induction trailers generalizing operand with
  | nil => exact ho
  | cons t trailers ih =>
    exact ih (t.apply operand) (ht t List.mem_cons_self operand ho) fun u hu => ht u (.tail t hu)

theorem yields_power : Yields g.power Expr.Formed := by
  rw [power_eq]
  have base : Yields g.base Expr.Formed :=
    yields_of_eat ((yields_primary sound).map _ fun _ h => .await h) (yields_primary sound)
  refine base.bind fun b hb => yields_of_eat ?_ (yields_pure hb)
  exact sound.factor.bind fun e he => yields_pure (.binary hb he)

theorem yields_factorRule : Yields g.factorRule Expr.Formed := by
  have signed : ∀ o, Yields (factorRule.signed g o) Expr.Formed := fun o =>
    yields_advance.bind fun _ _ => sound.factor.bind fun e he => yields_pure (.unary he)
  refine yields_peek.bind fun k _ => ?_
  split
  · exact signed _
  · exact signed _
  · exact signed _
  · exact yields_power sound

theorem yields_binaryChain (levels : List (List BinaryOp)) :
    Yields (binaryChain g.factorRule levels) Expr.Formed := by
  induction levels with
  | nil => exact yields_factorRule sound
  | cons ops tighter ih =>
    have next : Yields (chainNext g.factorRule ops tighter) fun o => ∀ x ∈ o, x.2.Formed := by
      refine (yields_eatBinary ops).bind fun o _ => ?_
      cases o with
      | none => exact yields_pure (by simp)
      | some o => exact ih.bind fun e he => yields_pure (by simpa using he)
    refine ih.bind fun first hf => (yields_many next).bind fun rest hr => yields_pure ?_
    induction rest generalizing first with
    | nil => exact hf
    | cons x rest more =>
      exact more _ (.binary hf (hr x List.mem_cons_self)) fun y hy => hr y (.tail x hy)

theorem yields_comparison : Yields g.comparison Expr.Formed := by
  have operand := yields_binaryChain sound binaryLevels
  refine operand.bind fun left hl => (yields_many (Q := fun c => c.value.Formed) ?next).bind fun rest hr => ?_
  case next =>
    refine yields_eatCompareOp.bind fun o _ => ?_
    cases o with
    | none => exact yields_pure (by simp)
    | some o => exact operand.bind fun e he => yields_pure (by simpa using he)
  cases rest with
  | nil => exact yields_pure hl
  | cons c rest => exact yields_pure (.compare (List.cons_ne_nil _ _) hl hr)

theorem yields_notTestRule : Yields g.notTestRule Expr.Formed :=
  yields_of_eat (sound.notTest.bind fun _ h => yields_pure (.unary h)) (yields_comparison sound)

omit sound in
theorem yields_boolChain {operand : Parser Expr} (o : BoolOp) (word : String)
    (h : Yields operand Expr.Formed) : Yields (boolChain o word operand) Expr.Formed := by
  have next : Yields (do optionally (← eatWord word) operand) fun o => ∀ e ∈ o, e.Formed :=
    (yields_eat _).bind fun b _ => yields_optionally b h
  refine h.bind fun first hf => (yields_many next).bind fun rest hr => ?_
  cases rest with
  | nil => exact yields_pure hf
  | cons second rest =>
    exact yields_pure (.bool hf (hr second List.mem_cons_self) fun e he => hr e (.tail second he))

theorem yields_orTestRule : Yields g.orTestRule Expr.Formed :=
  yields_boolChain _ _ (yields_boolChain _ _ (yields_notTestRule sound))

theorem yields_param (closing : String) :
    Yields (g.param closing false) fun p => p.IsPlain ∧ ∀ d ∈ p.default?, d.Formed := by
  have argument : Yields (g.argument false) fun a => IsIdentifier a.name ∧ a.annotation = none :=
    yields_expectName.bind fun _ h => yields_pure ⟨h, rfl⟩
  refine yields_of_eat (yields_pure ⟨trivial, by simp [Param.default?]⟩) (yields_of_eat ?_ ?_)
  · exact argument.bind fun a ha => yields_pure ⟨ha, by simp [Param.default?]⟩
  · refine yields_of_eat ?_ (argument.bind fun a ha => (yields_eat _).bind fun b _ => ?_)
    · refine (yields_at _).bind fun _ _ => (yields_at _).bind fun _ _ => ?_
      refine (yields_optionally _ argument).bind fun o ho => yields_pure ⟨?_, by simp [Param.default?]⟩
      cases o with
      | none => trivial
      | some a => exact ho a rfl
    · exact (yields_optionally b sound.test).bind fun d hd => yields_pure ⟨ha, hd⟩

theorem yields_lambda : Yields g.lambda Expr.Formed := by
  refine (yields_expectWord _).bind fun _ _ => ?_
  refine (yields_commaList _ (yields_param sound _)).bind fun ps hp => ?_
  refine (yields_expectOp _).bind fun _ _ => sound.test.bind fun body hb => yields_pure ?_
  exact .lambda (fun p h => (hp p h).1) (fun p h => (hp p h).2) hb

theorem yields_conditional : Yields g.conditional Expr.Formed := by
  refine (yields_orTestRule sound).bind fun body hb => yields_of_eat ?_ (yields_pure hb)
  refine (yields_orTestRule sound).bind fun test ht => (yields_expectWord _).bind fun _ _ => ?_
  exact sound.test.bind fun orelse ho => yields_pure (.ifElse ht hb ho)

theorem yields_testRule : Yields g.testRule Expr.Formed := by
  refine yields_of_at (yields_lambda sound) ((yields_conditional sound).bind fun e he => ?_)
  refine yields_of_at ?_ (yields_pure he)
  split
  · cases he with
    | name hi fits => exact yields_advance.bind fun _ _ => sound.test.bind fun v hv => yields_pure (.named hi fits hv)
  · exact yields_fail _

theorem yields_standaloneRule : Yields g.standaloneRule Expr.Formed := by
  have item := yields_starOr (yields_binaryChain sound binaryLevels) (yields_testRule sound)
  refine (yields_itemOrTuple item).bind fun e he => yields_expectNewline.bind fun _ _ => ?_
  exact (yields_at _).bind fun _ _ => (yields_ite (yields_fail _) (yields_pure he))

end Grammar

open Grammar

theorem sound_grammar (n : Nat) : (grammar n).Sound := by
  induction n with
  | zero => exact ⟨yields_fail _, yields_fail _, yields_fail _, yields_fail _, yields_fail _, yields_fail _⟩
  | succ n ih =>
    exact ⟨yields_testRule ih, yields_orTestRule ih, yields_notTestRule ih,
      yields_binaryChain ih binaryLevels, yields_factorRule ih, yields_standaloneRule ih⟩

theorem formed_of_parseExpr {source : String} {e : Expr} (h : parseExpr source = .ok e) :
    e.Formed := by
  unfold parseExpr at h
  cases tokens : tokenize source with
  | error fault =>
    rw [tokens] at h
    cases h
  | ok ts =>
    rw [tokens] at h
    have run : ((grammarFor source).standalone ts >>= fun x => Except.ok x.1) = .ok e := h
    cases found : (grammarFor source).standalone ts with
    | error fault =>
      rw [found] at run
      cases run
    | ok x =>
      rw [found] at run
      cases run
      have rule := yields_standaloneRule (sound_grammar source.length)
      exact (rule ts (isSpelled_of_tokenize tokens) x.1 x.2 found).2

end Arbiter.Syntax
