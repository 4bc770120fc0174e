import Arbiter.Proofs.Parsing.ExprAgree
import Arbiter.Proofs.Parsing.Halts

/-! String literals and expressions come to an end. What stands in a field of an f-string is shorter than
the token, and every rule takes a token with a text before it goes one level down. -/

namespace Arbiter.Syntax

open Syntax.Parser

/-! String literals. -/

/-- The strings at the front of the tokens, and what is behind them. -/
def leadingPieces : List Token → List StringPiece × List Token
  | ⟨.string text, pos⟩ :: ts => (⟨text, pos⟩ :: (leadingPieces ts).1, (leadingPieces ts).2)
  | ts => ([], ts)

theorem leadingPieces_of_ne {ts : List Token} (h : ∀ text, headKind ts ≠ .string text) :
    leadingPieces ts = ([], ts) := by
  unfold leadingPieces
  split
  · exact absurd rfl (h _)
  · rfl

namespace Parser

/-- What a round of reading strings does. -/
def nextPiece : Parser (Option StringPiece) := fun ts => match ts with
  | ⟨.string text, pos⟩ :: r => .ok (some ⟨text, pos⟩, r)
  | _ => .ok (none, ts)

theorem nextPiece_of_ne {ts : List Token} (h : ∀ text, headKind ts ≠ .string text) :
    nextPiece ts = .ok (none, ts) := by
  unfold nextPiece
  split
  · exact absurd rfl (h _)
  · rfl

theorem rounds_nextPiece {w : Nat} : Rounds w w nextPiece := by
  intro ts ended light
  by_cases other : ∀ text, headKind ts ≠ .string text
  · rw [nextPiece_of_ne other]
    exact rounds_none ts ended light
  · obtain ⟨text, here⟩ := not_forall_not.1 other
    cases ts with
    | nil => cases here
    | cons t ts =>
      obtain ⟨kind, pos⟩ := t
      obtain rfl : kind = .string text := here
      have taken : HaltsAt (.string text) w w (fun o => o.isSome = true)
          (do advance; pure (some (⟨text, pos⟩ : StringPiece))) :=
        haltsAt_advance nofun (ends_pure _)
      exact taken (⟨.string text, pos⟩ :: ts) rfl ended light

theorem collectFor_nextPiece (rounds : Nat) : ∀ (before : List StringPiece) (ts : List Token),
    ts.length < rounds → collectFor (fun _ => nextPiece) rounds before ts =
      .ok (before.reverse ++ (leadingPieces ts).1, (leadingPieces ts).2) := by
  induction rounds with
  | zero => exact fun _ _ enough => absurd enough (Nat.not_lt_zero _)
  | succ rounds ih =>
    intro before ts enough
    rw [collectFor]
    show (nextPiece ts >>= _) = _
    by_cases other : ∀ text, headKind ts ≠ .string text
    · rw [nextPiece_of_ne other, leadingPieces_of_ne other, List.append_nil]
      rfl
    · obtain ⟨text, here⟩ := not_forall_not.1 other
      cases ts with
      | nil => cases here
      | cons t ts =>
        obtain ⟨kind, pos⟩ := t
        obtain rfl : kind = .string text := here
        have later := ih (⟨text, pos⟩ :: before) ts (Nat.lt_of_succ_lt_succ enough)
        rw [List.reverse_cons, List.append_assoc] at later
        exact later

/-- All strings at the front are read. -/
theorem stringPieces_apply (ts : List Token) : stringPieces ts = .ok (leadingPieces ts) := by
  show (nextPiece ts >>= _) = _
  by_cases other : ∀ text, headKind ts ≠ .string text
  · rw [nextPiece_of_ne other, leadingPieces_of_ne other]
    rfl
  · obtain ⟨text, here⟩ := not_forall_not.1 other
    cases ts with
    | nil => cases here
    | cons t ts =>
      obtain ⟨kind, pos⟩ := t
      obtain rfl : kind = .string text := here
      exact collectFor_nextPiece (ts.length + 1) [⟨text, pos⟩] ts (Nat.lt_succ_self _)

end Parser

theorem suffix_leadingPieces (ts : List Token) : (leadingPieces ts).2 <:+ ts := by
  fun_induction leadingPieces ts with
  | case1 text pos ts ih => exact ih.trans (List.suffix_cons _ ts)
  | case2 ts => exact List.suffix_refl ts

theorem IsEnded.leadingPieces {ts : List Token} (h : IsEnded ts) : IsEnded (leadingPieces ts).2 := by
  fun_induction Syntax.leadingPieces ts with
  | case1 text pos ts ih => exact ih (h.tail nofun).1
  | case2 ts => exact h

theorem mem_of_mem_leadingPieces {ts : List Token} {p : StringPiece} (h : p ∈ (leadingPieces ts).1) :
    ⟨.string p.text, p.pos⟩ ∈ ts := by
  fun_induction leadingPieces ts with
  | case1 text pos ts ih =>
    rcases List.mem_cons.1 h with rfl | h
    · exact List.mem_cons_self
    · exact .tail _ (ih h)
  | case2 ts => cases h

theorem weight_le_of_mem {ts : List Token} {t : Token} (h : t ∈ ts) : t.kind.weight ≤ weight ts := by
  obtain ⟨front, rest, rfl⟩ := List.append_of_mem h
  exact Nat.le_trans (Nat.le_add_right _ _) (weight_le_of_suffix (List.suffix_append front (t :: rest)))

section Strings

variable {read : String → Except Cause Expr}

theorem genuine_resolve (genuine : ∀ source cause, read source = .error cause → cause.isGenuine = true)
    {field : RawField} {cause : Cause} (h : field.resolve read = .error cause) : cause.isGenuine = true := by
  unfold RawField.resolve at h
  dsimp only at h
  split at h
  · cases h
    rfl
  · cases found : read ("(" ++ Text.trim (.ofList ((documented? field.text).getD field.text)) ++ ")") with
    | error inner =>
      rw [found] at h
      cases h
      exact genuine _ _ found
    | ok value =>
      rw [found] at h
      cases h

/-- The cause of a fault in an f-string is genuine if those of its fields are. -/
theorem genuine_fStringParts (genuine : ∀ source cause, read source = .error cause → cause.isGenuine = true)
    {literal cs : List Char} {cause : Cause} (h : fStringParts read literal cs = .error cause) :
    cause.isGenuine = true := by
  fun_induction fStringParts read literal cs with
  | case1 literal => cases h
  | case2 literal r ih => exact ih h
  | case3 literal r ih => exact ih h
  | case4 =>
    cases h
    rfl
  | case5 =>
    cases h
    rfl
  | case6 literal r field n found _ _ _ ih =>
    cases resolved : field.resolve read with
    | error inner =>
      rw [resolved] at h
      cases h
      exact genuine_resolve genuine resolved
    | ok part =>
      rw [resolved] at h
      cases more : fStringParts read [] (r.drop n) with
      | error inner =>
        simp only [more] at h
        cases h
        exact ih more
      | ok rest =>
        simp only [more] at h
        cases h
  | case7 literal c r _ _ _ _ ih => exact ih h

theorem fault_of_parts {p : StringPiece} {f : Fault} (h : p.parts read = .error f) :
    ∃ cause, f = ⟨.inFString cause, p.pos⟩ ∧ fStringParts read [] p.body = .error cause := by
  unfold StringPiece.parts at h
  split at h
  · cases found : fStringParts read [] p.body with
    | error cause =>
      rw [found] at h
      cases h
      exact ⟨cause, rfl, rfl⟩
    | ok parts =>
      rw [found] at h
      cases h
  · cases h

theorem fault_of_mapM {ps : List StringPiece} {f : Fault} (h : ps.mapM (StringPiece.parts read) = .error f) :
    ∃ p ∈ ps, p.parts read = .error f := by
  induction ps with
  | nil => cases h
  | cons p ps ih =>
    rw [List.mapM_cons] at h
    cases here : p.parts read with
    | error g =>
      rw [here] at h
      cases h
      exact ⟨p, List.mem_cons_self, here⟩
    | ok parts =>
      rw [here] at h
      cases more : ps.mapM (StringPiece.parts read) with
      | error g =>
        rw [more] at h
        cases h
        obtain ⟨q, member, found⟩ := ih more
        exact ⟨q, .tail p member, found⟩
      | ok rest =>
        rw [more] at h
        cases h

theorem fault_of_stringExpr {pieces : List StringPiece} {f : Fault} (h : stringExpr read pieces = .error f) :
    ∃ p ∈ pieces, p.parts read = .error f := by
  unfold stringExpr at h
  split at h
  · cases found : pieces.mapM (StringPiece.parts read) with
    | error g =>
      rw [found] at h
      cases h
      exact fault_of_mapM found
    | ok parts =>
      rw [found] at h
      cases h
  · split at h <;> cases h

variable {w : Nat} (genuine : ∀ source, source.length < w → ∀ cause, read source = .error cause →
  cause.isGenuine = true)
include genuine

/-- Only texts that are shorter than the token are read in it. -/
theorem genuine_parts {p : StringPiece} {f : Fault} (short : p.text.length ≤ w)
    (h : p.parts read = .error f) : f.cause.isGenuine = true ∧ f.pos = p.pos := by
  let read' : String → Except Cause Expr := fun source =>
    if source.length < w then read source else .error .emptyField
  have genuine' : ∀ source cause, read' source = .error cause → cause.isGenuine = true := by
    intro source cause h
    by_cases short : source.length < w
    · exact genuine source short cause ((if_pos short).symm.trans h)
    · obtain rfl := Except.error.inj ((if_neg short).symm.trans h)
      rfl
  have agree : ∀ source, source.length < w → read source = read' source := fun _ short => (if_pos short).symm
  have same : SameOutcome Eq (p.parts read) (p.parts read') := sameOutcome_parts agree rfl short
  obtain ⟨cause, rfl, -⟩ := fault_of_parts h
  refine ⟨?_, rfl⟩
  rw [h] at same
  generalize within : p.parts read' = y at same
  cases same with
  | error cause' =>
    obtain ⟨inner, rfl, found⟩ := fault_of_parts within
    rw [cause']
    show inner.isGenuine = true
    exact genuine_fStringParts genuine' found

theorem haltsAt_strings {D : Expr → Prop} {text : String} :
    HaltsAt (.string text) (w + 1) (w + 1) D (strings read) := by
  intro ts here ended light
  show Comes (w + 1) D ts (stringPieces ts >>= fun x => (liftM (stringExpr read x.1) : Parser Expr) x.2)
  rw [stringPieces_apply]
  show Comes (w + 1) D ts (stringExpr read (leadingPieces ts).1 >>= fun e => .ok (e, (leadingPieces ts).2))
  cases found : stringExpr read (leadingPieces ts).1 with
  | error f =>
    obtain ⟨p, member, fault⟩ := fault_of_stringExpr found
    have inside := mem_of_mem_leadingPieces member
    have short : p.text.length ≤ w := Nat.le_of_lt_succ (Nat.lt_of_le_of_lt (weight_le_of_mem inside) light)
    obtain ⟨genuine, place⟩ := genuine_parts genuine short fault
    exact .error ⟨genuine, _, inside, place.symm, .inr ⟨p.text, rfl⟩⟩
  | ok e =>
    have part := suffix_leadingPieces ts
    refine .ok part ended.leadingPieces (Nat.lt_of_le_of_lt (weight_le_of_suffix part) light) fun _ => ?_
    cases ts with
    | nil => cases here
    | cons t ts =>
      obtain ⟨kind, pos⟩ := t
      obtain rfl : kind = .string text := here
      exact Nat.lt_succ_of_le (suffix_leadingPieces ts).length_le

end Strings

/-! Operators. -/

namespace Parser

variable {w : Nat}

theorem rounds_eatBinary (ops : List BinaryOp) : Rounds w w (eatBinary? ops) := by
  refine halts_of_peek fun k => ?_
  split
  · split
    · exact haltsAt_advance nofun (ends_pure _)
    · exact rounds_none.haltsAt
  · exact rounds_none.haltsAt

/-- An operator and what it takes on its right. -/
theorem rounds_chainNext {operand : Parser Expr} {tighter : List (List BinaryOp)} (ops : List BinaryOp)
    (h : Advances w w (binaryChain operand tighter)) : Rounds w w (chainNext operand ops tighter) :=
  (rounds_eatBinary ops).item (fun _ => h.ends.bind fun _ => ends_pure _) rounds_none

theorem rounds_eatCompareOp : Rounds w w eatCompareOp? := by
  have taken : ∀ {k : TokenKind} o, k ≠ .endMarker →
      HaltsAt k w w (fun o : Option CompareOp => o.isSome = true) (eatCompareOp?.taken o) := fun o other =>
    haltsAt_advance other (ends_pure _)
  refine halts_of_peek fun k => ?_
  split
  · exact taken _ nofun
  · exact taken _ nofun
  · exact taken _ nofun
  · exact taken _ nofun
  · exact taken _ nofun
  · exact taken _ nofun
  · exact taken _ nofun
  · refine haltsAt_of_peekSecond fun k' => ?_
    split
    · rename_i second
      exact haltsAtBoth_advance nofun (haltsAt_advance (ne_endMarker_of_beq second) (ends_pure _))
    · exact (rounds_none).haltsAt.both
  · refine haltsAt_of_peekSecond fun k' => ?_
    split
    · rename_i second
      exact haltsAtBoth_advance nofun (haltsAt_advance (ne_endMarker_of_beq second) (ends_pure _))
    · exact HaltsAt.both (k := .name "is") (taken _ nofun)
  · exact rounds_none.haltsAt

theorem halts_boolChain {operand : Parser Expr} {D : Expr → Prop} (o : BoolOp) (word : String)
    (h : Advances w w operand) : Halts w w D (boolChain o word operand) := by
  refine h.next fun first => (ends_many (rounds_marked (k := .name word) nofun h.ends)).bind fun rest => ?_
  split
  · exact ends_pure first
  · exact ends_pure _

end Parser

namespace Grammar

/-- The parsers of a grammar halt on tokens that weigh less than `w`, and take a token if they succeed. -/
structure Halting (w : Nat) (g : Grammar) : Prop where
  test : Advances w w g.test
  orTest : Advances w w g.orTest
  notTest : Advances w w g.notTest
  bitOr : Advances w w g.bitOr
  factor : Advances w w g.factor
  standalone : Advances w w g.standalone
  pattern : Advances w w g.pattern
  closedPattern : Advances w w g.closedPattern
  statement : Advances w w g.statement
  branch : ∀ word, HaltsAt (.name word) w w (fun _ => True) g.branch

/-- The next clause of a comprehension. -/
def nextGenerator (g : Grammar) : Parser (Option Generator) := do optionally (← atGenerator) g.generator

/-- The next operator of a comparison, with its operand. -/
def nextComparison (g : Grammar) : Parser (Option Comparand) := do
  match ← eatCompareOp? with
  | some op => return some ⟨op, ← g.bitOrRule⟩
  | none => return none

variable {w : Nat} {g : Grammar} (halting : Halting w g)
include halting

/-- A short text is read, or there is a genuine fault in it. -/
theorem Halting.read {source : String} (short : source.length < w) {cause : Cause}
    (h : g.read source = .error cause) : cause.isGenuine = true := by
  unfold Grammar.read at h
  cases tokens : tokenize source with
  | error fault =>
    rw [tokens] at h
    cases h
    exact Cause.isGenuine_of_isOuter (fault_of_tokenize tokens).1
  | ok ts =>
    rw [tokens] at h
    have run := halting.standalone ts (isEnded_of_tokenize tokens)
      (Nat.lt_of_le_of_lt (weight_le_of_tokenize tokens) short)
    have whole : (Except.ok ts >>= g.standalone.run) = g.standalone ts := rfl
    rw [whole] at h
    generalize g.standalone ts = x at run h
    cases run with
    | ok => cases h
    | error concerns =>
      cases h
      exact concerns.genuine

theorem advances_item : Advances w w (starOr g.bitOr g.test) := halts_starOr halting.bitOr.ends halting.test

theorem advances_items : Advances w w g.items := halts_itemOrTuple (advances_item halting)

theorem advances_yieldExpr : Advances (w + 1) w g.yieldExpr := by
  refine (advances_takeWord (by decide)).next fun _ => halts_of_eat nofun ?_ ?_
  · exact halting.test.ends.bind fun e => ends_pure _
  · exact ends_atExpr.bind fun b => (ends_optionally b (advances_items halting).ends).bind fun o => ends_pure _

theorem advances_generator : Advances w w g.generator := by
  refine (ends_eat (k := .name "async") nofun).bind fun isAsync => (advances_expectWord _).next fun _ => ?_
  refine Halts.bind (halts_itemOrTuple (halts_starOr halting.bitOr.ends halting.bitOr)) fun head => ?_
  refine (ends_target _ head).bind fun head => (advances_expectWord _).ends.bind fun _ => ?_
  refine halting.orTest.ends.bind fun iter => ?_
  exact (ends_many (rounds_marked (k := .name "if") nofun halting.orTest.ends)).bind fun ifs => ends_pure _

theorem rounds_nextGenerator : Rounds w w g.nextGenerator :=
  ends_atGenerator.bind fun b => rounds_optionally b (advances_generator halting)

theorem ends_generators : Ends w w g.generators := ends_many (rounds_nextGenerator halting)

theorem ends_of_generators {α : Type} {f : List Generator → Parser α} {B : Parser α}
    (hA : ∀ gens, Ends w w (f gens)) (hB : Ends w w B) :
    Ends w w (do if ← atGenerator then (do let gens ← g.generators; f gens) else B) :=
  ends_atGenerator.bind fun _ => halts_ite ((ends_generators halting).bind hA) hB

theorem ends_moreItems (closing : String) : Ends w w (g.moreItems closing) := by
  refine (ends_afterCommas (ends_at _) (advances_item halting).ends).bind fun rest => ?_
  exact (advances_expectOp _).ends.bind fun _ => ends_pure rest

theorem advances_parenthesized : Advances (w + 1) w g.parenthesized := by
  refine (advances_takeOp (by decide)).next fun _ => ?_
  refine halts_of_eat nofun (ends_pure _) (halts_of_at (Halts.haltsAt ?_) ?_)
  · refine ((advances_yieldExpr halting).ends.lower (Nat.le_succ w)).bind fun e => ?_
    exact (advances_expectOp _).ends.bind fun _ => ends_pure e
  · refine (advances_item halting).ends.bind fun first => ends_of_generators halting (fun gens => ?_) ?_
    · exact (advances_expectOp _).ends.bind fun _ => ends_pure _
    · refine halts_of_at (Halts.haltsAt ?_) ?_
      · exact (ends_moreItems halting _).bind fun rest => ends_pure _
      · exact (advances_expectOp _).ends.bind fun _ => ends_pure first

theorem advances_listDisplay : Advances (w + 1) w g.listDisplay := by
  refine (advances_takeOp (by decide)).next fun _ => halts_of_eat nofun (ends_pure _) ?_
  refine (advances_item halting).ends.bind fun first => ends_of_generators halting (fun gens => ?_) ?_
  · exact (advances_expectOp _).ends.bind fun _ => ends_pure _
  · exact (ends_moreItems halting _).bind fun rest => ends_pure _

theorem ends_dictItem : Ends w w g.dictItem := by
  refine halts_of_eat nofun (halting.bitOr.ends.bind fun v => ends_pure _) ?_
  refine halting.test.ends.bind fun k => (advances_expectOp _).ends.bind fun _ => ?_
  exact halting.test.ends.bind fun v => ends_pure _

theorem ends_moreDictItems (first : DictItem) : Ends w w (g.moreDictItems first) := by
  refine (ends_afterCommas (ends_at _) (ends_dictItem halting)).bind fun rest => ?_
  exact (advances_expectOp _).ends.bind fun _ => ends_pure _

theorem advances_braceDisplay : Advances (w + 1) w g.braceDisplay := by
  refine (advances_takeOp (by decide)).next fun _ => ?_
  refine halts_of_eat nofun (ends_pure _) (halts_of_eat nofun ?_ ?_)
  · exact halting.bitOr.ends.bind fun v => ends_moreDictItems halting _
  · refine (advances_item halting).ends.bind fun first => halts_of_eat nofun ?_ ?_
    · refine halting.test.ends.bind fun value => ends_of_generators halting (fun gens => ?_) ?_
      · exact (advances_expectOp _).ends.bind fun _ => ends_pure _
      · exact ends_moreDictItems halting _
    · refine ends_of_generators halting (fun gens => ?_) ?_
      · exact (advances_expectOp _).ends.bind fun _ => ends_pure _
      · exact (ends_moreItems halting _).bind fun rest => ends_pure _

theorem advances_atom : Advances (w + 1) (w + 1) g.atom := by
  have upper := Nat.le_succ w
  refine halts_of_peek fun k => ?_
  split
  · exact ((advances_parenthesized halting).mono (Nat.le_refl _) upper).haltsAt
  · exact ((advances_listDisplay halting).mono (Nat.le_refl _) upper).haltsAt
  · exact ((advances_braceDisplay halting).mono (Nat.le_refl _) upper).haltsAt
  · exact haltsAt_advance nofun (ends_pure _)
  · exact haltsAt_advance nofun (ends_pure _)
  · exact haltsAt_strings fun source short cause => halting.read short
  · split
    · exact haltsAt_advance nofun (ends_pure _)
    · split
      · exact (halts_fail rfl).haltsAt
      · exact haltsAt_advance nofun (ends_pure _)
  · exact (halts_fail rfl).haltsAt

theorem ends_callItem : Ends w w g.callItem := by
  refine halts_of_eat nofun (halting.test.ends.bind fun e => ends_pure _) ?_
  refine halts_of_eat nofun (halting.test.ends.bind fun e => ends_pure _) ?_
  refine halts_of_peek fun k => haltsAt_of_peekSecond fun k' => ?_
  split
  · exact haltsAtBoth_named nofun fun arg => halting.test.ends.bind fun e => ends_pure _
  · refine (Halts.haltsAt ?_).both
    exact halting.test.ends.bind fun e => ends_of_generators halting (fun gens => ends_pure _) (ends_pure _)

theorem ends_callArgs : Ends w w g.callArgs := (ends_commaList (ends_callItem halting)).bind fun _ => ends_pure _

theorem ends_subscriptItem : Ends w w g.subscriptItem := by
  refine (ends_at _).bind fun _ => (ends_optionally _ (advances_item halting).ends).bind fun lower => ?_
  refine halts_of_eat nofun ?_ ?_
  · refine (ends_at _).bind fun _ => (ends_at _).bind fun _ => (ends_at _).bind fun _ => ?_
    refine (ends_optionally _ halting.test.ends).bind fun upper => ?_
    refine (ends_eat (k := .op ":") nofun).bind fun _ => ?_
    refine (ends_at _).bind fun _ => (ends_at _).bind fun _ => ?_
    exact (ends_optionally _ halting.test.ends).bind fun step => ends_pure _
  · split
    · exact ends_pure _
    · exact halts_fail rfl

theorem ends_subscriptIndex : Ends w w g.subscriptIndex := by
  refine (ends_subscriptItem halting).bind fun first => halts_of_at (Halts.haltsAt ?_) (ends_pure first)
  exact (ends_afterCommas (ends_at _) (ends_subscriptItem halting)).bind fun rest => ends_pure _

theorem rounds_trailer : Rounds (w + 1) (w + 1) g.trailer? := by
  refine halts_of_taken (by decide) ?_ (halts_of_taken (by decide) ?_ (halts_of_taken (by decide) ?_ ?_))
  · exact (ends_callArgs halting).bind fun args => (advances_expectOp _).ends.bind fun _ => ends_return _
  · exact (ends_subscriptIndex halting).bind fun index => (advances_expectOp _).ends.bind fun _ => ends_return _
  · exact advances_expectName.ends.bind fun attr => ends_return _
  · exact rounds_none

theorem advances_primary : Advances (w + 1) (w + 1) g.primary := by
  refine (advances_atom halting).next fun operand => ?_
  exact (ends_many (rounds_trailer halting)).bind fun trailers => ends_pure _

theorem advances_power : Advances (w + 1) (w + 1) g.power := by
  rw [power_eq]
  have base : Advances (w + 1) (w + 1) g.base :=
    halts_of_eat nofun (advances_primary halting).ends.map (advances_primary halting)
  refine base.next fun b => halts_of_taken (by decide) ?_ (ends_pure b)
  exact halting.factor.ends.bind fun e => ends_return _

theorem advances_factorRule : Advances (w + 1) (w + 1) g.factorRule := by
  have signed : ∀ (symbol : String) o, 0 < symbol.length →
      HaltsAt (.op symbol) (w + 1) (w + 1) (fun _ => True) (factorRule.signed g o) := fun symbol o heavy =>
    haltsAt_take heavy (halting.factor.ends.bind fun e => ends_return _)
  refine halts_of_peek fun k => ?_
  split
  · exact signed "+" _ (by decide)
  · exact signed "-" _ (by decide)
  · exact signed "~" _ (by decide)
  · exact (advances_power halting).haltsAt

theorem advances_binaryChain (levels : List (List BinaryOp)) :
    Advances (w + 1) (w + 1) (binaryChain g.factorRule levels) := by
  induction levels with
  | nil => exact advances_factorRule halting
  | cons ops tighter ih =>
    exact ih.next fun first => (ends_many (rounds_chainNext ops ih)).bind fun rest => ends_pure _

theorem advances_bitOrRule : Advances (w + 1) (w + 1) g.bitOrRule := advances_binaryChain halting _

theorem rounds_nextComparison : Rounds (w + 1) (w + 1) g.nextComparison :=
  rounds_eatCompareOp.item (fun _ => (advances_bitOrRule halting).ends.bind fun _ => ends_pure _) rounds_none

theorem advances_comparison : Advances (w + 1) (w + 1) g.comparison := by
  refine (advances_bitOrRule halting).next fun left => ?_
  refine (ends_many (rounds_nextComparison halting)).bind fun rest => ?_
  cases rest with
  | nil => exact ends_pure left
  | cons c rest => exact ends_pure _

theorem advances_notTestRule : Advances (w + 1) (w + 1) g.notTestRule :=
  halts_of_taken (by decide) (halting.notTest.ends.bind fun e => ends_return _) (advances_comparison halting)

theorem advances_orTestRule : Advances (w + 1) (w + 1) g.orTestRule :=
  halts_boolChain _ _ (halts_boolChain _ _ (advances_notTestRule halting))

theorem ends_argument (annotations : Bool) : Ends w w (g.argument annotations) := by
  refine advances_expectName.ends.bind fun name => halts_ite ?_ (ends_pure _)
  exact ends_of_optionally nofun halting.test.ends fun o => ends_pure _

theorem ends_param (closing : String) (annotations : Bool) : Ends w w (g.param closing annotations) := by
  have argument := ends_argument halting annotations
  refine halts_of_eat nofun (ends_pure _) (halts_of_eat nofun ?_ (halts_of_eat nofun ?_ ?_))
  · exact argument.bind fun a => ends_pure _
  · refine (ends_at _).bind fun _ => (ends_at _).bind fun _ => ?_
    exact (ends_optionally _ argument).bind fun o => ends_pure _
  · exact argument.bind fun a => ends_of_optionally nofun halting.test.ends fun d => ends_pure _

theorem ends_params (closing : String) (annotations : Bool) : Ends w w (g.params closing annotations) :=
  ends_commaList (ends_param halting closing annotations)

theorem advances_lambda : Advances (w + 1) (w + 1) g.lambda := by
  refine (advances_takeWord (by decide)).next fun _ => (ends_params halting _ _).bind fun ps => ?_
  exact (advances_expectOp _).ends.bind fun _ => halting.test.ends.bind fun body => ends_return _

theorem advances_conditional : Advances (w + 1) (w + 1) g.conditional := by
  refine (advances_orTestRule halting).next fun body => halts_of_eat nofun ?_ (ends_pure body)
  refine (advances_orTestRule halting).ends.bind fun test => ?_
  refine (advances_takeWord (by decide)).ends.bind fun _ => ?_
  exact halting.test.ends.bind fun orelse => ends_return _

theorem advances_testRule : Advances (w + 1) (w + 1) g.testRule := by
  refine halts_of_at (advances_lambda halting).haltsAt ((advances_conditional halting).next fun e => ?_)
  refine halts_of_at ?_ (ends_pure e)
  split
  · exact haltsAt_take (by decide) (halting.test.ends.bind fun v => ends_return _)
  · exact (halts_fail rfl).haltsAt

theorem advances_itemsRule : Advances (w + 1) (w + 1) g.itemsRule :=
  halts_itemOrTuple (halts_starOr (advances_bitOrRule halting).ends (advances_testRule halting))

theorem advances_targetItems : Advances (w + 1) (w + 1) g.targetItems :=
  halts_itemOrTuple (halts_starOr (advances_bitOrRule halting).ends (advances_bitOrRule halting))

theorem advances_itemsOrYield : Advances (w + 1) (w + 1) g.itemsOrYield := by
  refine halts_of_at (Halts.haltsAt ?_) (advances_itemsRule halting)
  exact (advances_yieldExpr halting).mono (Nat.le_refl _) (Nat.le_succ w)

theorem advances_standaloneRule : Advances (w + 1) (w + 1) g.standaloneRule := by
  refine (advances_itemsRule halting).next fun e => advances_expectNewline.ends.bind fun _ => ?_
  exact (ends_at _).bind fun _ => halts_ite (halts_fail rfl) (ends_pure e)

end Grammar

end Arbiter.Syntax
