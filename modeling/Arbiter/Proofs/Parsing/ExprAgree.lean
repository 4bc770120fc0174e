import Arbiter.Proofs.Parsing.Agree
import Arbiter.Proofs.Parsing.Fields
import Arbiter.Proofs.Parsing.Level

/-! Grammars that agree on string literals and on expressions. What stands in a field of an f-string is
shorter than the token, and every rule takes a token with a text before it goes one level down, so that
grammars that agree on the lighter tokens make rules that agree on heavier ones. -/

namespace Arbiter.Syntax

open Syntax.Parser

/-! The inside of an f-string. -/

theorem length_trim_le (s : String) : (Text.trim s).length ≤ s.length := by
  have shorter : ∀ cs : List Char, (cs.dropWhile Text.isBlank).length ≤ cs.length := fun cs =>
    (List.dropWhile_suffix _).length_le
  have first : (Text.trimStart s).length ≤ s.length := by
    have := shorter s.toList
    rwa [← String.length_toList, ← String.length_toList, Text.trimStart, String.toList_ofList]
  have last : (Text.trimEnd (Text.trimStart s)).length ≤ (Text.trimStart s).length := by
    have := shorter (Text.trimStart s).toList.reverse
    rw [List.length_reverse] at this
    rwa [← String.length_toList, ← String.length_toList, Text.trimEnd, String.toList_ofList,
      List.length_reverse]
  exact Nat.le_trans last first

theorem length_documented_le {text shown : List Char} (h : documented? text = some shown) :
    shown.length ≤ text.length := by
  unfold documented? at h
  have shorter : (text.reverse.dropWhile Text.isBlank).length ≤ text.length := by
    have := (List.dropWhile_suffix Text.isBlank (l := text.reverse)).length_le
    rwa [List.length_reverse] at this
  split at h
  · rename_i r same
    rw [same, List.length_cons] at shorter
    split at h
    · cases h
    · cases h
      rw [List.length_reverse]
      exact Nat.le_of_succ_le shorter
  · cases h

section Fields

variable {read read' : String → Except Cause Expr} {n : Nat}

theorem resolve_congr (same : ∀ source, source.length < n → read source = read' source)
    {field : RawField} (short : field.text.length + 2 < n) : field.resolve read = field.resolve read' := by
  have inner : ((documented? field.text).getD field.text).length ≤ field.text.length := by
    cases shown : documented? field.text with
    | none => exact Nat.le_refl _
    | some text => exact length_documented_le shown
  have trimmed := length_trim_le (.ofList ((documented? field.text).getD field.text))
  rw [← String.length_toList (s := .ofList _), String.toList_ofList] at trimmed
  unfold RawField.resolve
  dsimp only
  rw [same]
  rw [String.length_append, String.length_append]
  show 1 + _ + 1 < n
  rw [Nat.add_comm 1]
  exact Nat.lt_of_le_of_lt (Nat.add_le_add_right (Nat.le_trans trimmed inner) 2) short

theorem length_rawField_le {cs : List Char} {field : RawField} {m : Nat}
    (h : rawField? cs = some (field, m)) : field.text.length ≤ cs.length := by
  obtain ⟨k, -, h⟩ := exists_fieldMarks h
  unfold fieldMarks? at h
  generalize conversionMark (cs.drop k) = mark at h
  dsimp only at h
  split at h
  · obtain ⟨_, -, h⟩ := Option.bind_eq_some_iff.1 h
    cases h
    exact List.length_take_le' ..
  · cases h
    exact List.length_take_le' ..
  · cases h

theorem fStringParts_congr (same : ∀ source, source.length < n → read source = read' source)
    (literal cs : List Char) (short : cs.length + 1 < n) :
    fStringParts read literal cs = fStringParts read' literal cs := by
  have shorter : ∀ {ds es : List Char}, es.length + 1 < n → ds.length ≤ es.length → ds.length + 1 < n :=
    fun short le => Nat.lt_of_le_of_lt (Nat.add_le_add_right le 1) short
  fun_induction fStringParts read literal cs with
  | case1 => rw [fStringParts]
  | case2 literal r ih =>
    rw [fStringParts, ih (shorter short (Nat.le_add_right _ 2))]
  | case3 literal r ih =>
    rw [fStringParts, ih (shorter short (Nat.le_add_right _ 2))]
  | case4 literal r opening closing => rw [fStringParts.eq_4 _ _ _ _ opening closing, if_pos rfl]
  | case5 literal r none opening closing mark =>
    rw [fStringParts.eq_4 _ _ _ _ opening closing, if_neg mark, if_pos rfl, none]
  | case6 literal r field m found opening closing mark ih =>
    rw [fStringParts.eq_4 _ _ _ _ opening closing, if_neg mark, if_pos rfl, found]
    have inside := length_rawField_le found
    have behind : (r.drop m).length ≤ r.length := (List.drop_suffix m r).length_le
    rw [resolve_congr same (Nat.lt_of_le_of_lt (Nat.add_le_add_right inside 2) short),
      ih (shorter short (Nat.le_succ_of_le behind))]
  | case7 literal c r opening closing notClosing notOpening ih =>
    rw [fStringParts.eq_4 _ _ _ _ opening closing, if_neg notClosing, if_neg notOpening]
    exact ih (shorter short (Nat.le_succ _))

theorem StringPiece.length_body_le {p : StringPiece} (mark : p.isFString = true) (some : p.body ≠ []) :
    p.body.length + 3 ≤ p.text.length := by
  have marked : 0 < p.marks.length := List.length_pos_of_mem (List.contains_iff_mem.1 mark)
  obtain ⟨q, quoted, body⟩ : ∃ q, 1 ≤ q ∧ p.body =
      ((p.text.toList.drop p.marks.length).drop q).take
        ((p.text.toList.drop p.marks.length).length - 2 * q) :=
    ⟨_, by split <;> decide, rfl⟩
  have shown := List.length_pos_iff.2 some
  rw [body, List.length_take, List.length_drop, List.length_drop, String.length_toList] at shown ⊢
  omega

/-- What is read in the fields of a string is shorter than it. -/
theorem fStringParts_body_congr (same : ∀ source, source.length < n → read source = read' source) {p : StringPiece}
    (mark : p.isFString = true) (short : p.text.length ≤ n) :
    fStringParts read [] p.body = fStringParts read' [] p.body := by
  by_cases some : p.body = []
  · rw [some, fStringParts, fStringParts]
  · have long := StringPiece.length_body_le mark some
    have quotes : 1 < 3 := by decide
    exact fStringParts_congr same _ _
      (Nat.lt_of_lt_of_le (Nat.add_lt_add_left quotes _) (Nat.le_trans long short))

theorem sameOutcome_parts (same : ∀ source, source.length < n → read source = read' source)
    {p q : StringPiece} (text : p.text = q.text) (short : p.text.length ≤ n) :
    SameOutcome Eq (p.parts read) (q.parts read') := by
  obtain ⟨text, pos⟩ := p
  obtain ⟨_, pos'⟩ := q
  subst text
  have body : (⟨text, pos⟩ : StringPiece).body = (⟨text, pos'⟩ : StringPiece).body := rfl
  have mark : (⟨text, pos⟩ : StringPiece).isFString = (⟨text, pos'⟩ : StringPiece).isFString := rfl
  unfold StringPiece.parts
  rw [← mark, ← body]
  split
  · rename_i marked
    rw [fStringParts_body_congr same marked short]
    cases fStringParts read' [] (⟨text, pos⟩ : StringPiece).body with
    | ok parts => exact .ok rfl
    | error cause => exact .error rfl
  · exact .ok rfl

theorem sameOutcome_mapM {α β γ : Type} {f : α → Except Fault γ} {g : β → Except Fault γ} {as : List α}
    {bs : List β} (h : List.Forall₂ (fun a b => SameOutcome Eq (f a) (g b)) as bs) :
    SameOutcome Eq (as.mapM f) (bs.mapM g) := by
  induction h with
  | nil => exact .ok rfl
  | cons first _ ih =>
    rw [List.mapM_cons, List.mapM_cons]
    refine first.bind fun c d same => ih.bind fun cs ds later => ?_
    rw [same, later]
    exact .ok rfl

end Fields

/-- Pieces with the same texts, all of which are shorter than `n`. -/
def SamePieces (n : Nat) (p q : StringPiece) : Prop := p.text = q.text ∧ p.text.length < n

theorem sameOutcome_stringExpr {read read' : String → Except Cause Expr} {n : Nat}
    (same : ∀ source, source.length < n → read source = read' source) {ps qs : List StringPiece}
    (h : List.Forall₂ (SamePieces (n + 1)) ps qs) :
    SameOutcome Eq (stringExpr read ps) (stringExpr read' qs) := by
  have texts : ps.map (·.text) = qs.map (·.text) := by
    induction h with
    | nil => rfl
    | cons first _ ih => rw [List.map_cons, List.map_cons, first.1, ih]
  have through : ∀ (b : String → Bool), ps.any (b ·.text) = qs.any (b ·.text) := by
    intro b
    have mapped := congrArg (List.any · b) texts
    simp only [List.any_map] at mapped
    exact mapped
  have marks : ps.any StringPiece.isFString = qs.any StringPiece.isFString :=
    through fun text => (⟨text, .start⟩ : StringPiece).isFString
  have bytes : (ps.any fun p => p.marks.contains 'b') = qs.any fun p => p.marks.contains 'b' :=
    through fun text => (⟨text, .start⟩ : StringPiece).marks.contains 'b'
  unfold stringExpr
  rw [marks, texts, bytes]
  split
  · refine (sameOutcome_mapM (h.imp fun p q alike => ?_)).bind fun parts _ same => same ▸ .ok rfl
    exact sameOutcome_parts same alike.1 (Nat.le_of_lt_succ alike.2)
  · split
    · exact .ok rfl
    · exact .ok rfl

namespace Parser

variable {w : Nat}

theorem agreeUpTo_stringPieces :
    AgreeUpTo (List.Forall₂ (SamePieces w)) w w stringPieces stringPieces := by
  unfold stringPieces many
  refine agreeUpTo_collect fun _ _ _ => ?_
  intro ts us kinds light
  cases ts with
  | nil =>
    cases us with
    | nil => exact .ok ⟨.none, rfl, light⟩
    | cons u us => cases kinds
  | cons t ts =>
    cases us with
    | nil => cases kinds
    | cons u us =>
      obtain ⟨k, pos⟩ := t
      obtain ⟨k', pos'⟩ := u
      obtain ⟨rfl, later⟩ := List.cons.inj kinds
      rw [weight_cons] at light
      cases k with
      | string text =>
        have short : text.length < w := Nat.lt_of_le_of_lt (Nat.le_add_right _ _) light
        exact .ok ⟨.some ⟨rfl, short⟩, later, Nat.lt_of_le_of_lt (Nat.le_add_left _ _) light⟩
      | _ => exact .ok ⟨.none, kinds, light⟩

theorem agree_strings {read read' : String → Except Cause Expr}
    (same : ∀ source, source.length < w → read source = read' source) :
    Agree (w + 1) (w + 1) (strings read) (strings read') := by
  refine agreeUpTo_stringPieces.bind fun ps qs alike => ?_
  exact fun ts us kinds light => (sameOutcome_stringExpr same alike).bind fun e _ value =>
    .ok ⟨value, kinds, light⟩

end Parser

end Arbiter.Syntax

/-! Rules. -/

namespace Arbiter.Syntax

open Syntax.Parser

/-- The tokens of a text are no longer than it is. -/
theorem Covers.weight_le {before rest : List Char} {ts : List Token} (h : Covers before rest ts) :
    weight ts ≤ rest.length := by
  induction h with
  | done => exact Nat.le_refl _
  | blank _ _ ih => exact Nat.le_succ_of_le ih
  | comment _ _ _ ih =>
    rw [List.length_append]
    exact Nat.le_add_left_of_le ih
  | hidden _ _ ih =>
    rw [List.length_append]
    exact Nat.le_add_left_of_le ih
  | token written =>
    rename_i text _ _ _ ih
    rw [weight_cons, TokenKind.weight, written, List.length_append, String.length_toList]
    exact Nat.add_le_add_left ih _

theorem weight_filter (ts : List Token) : weight (ts.filter Token.isWritten) = weight ts := by
  induction ts with
  | nil => rfl
  | cons t ts ih =>
    cases written : t.isWritten with
    | true => rw [List.filter_cons_of_pos written, weight_cons, weight_cons, ih]
    | false =>
      have light : t.kind.weight = 0 := by
        have none : t.kind.text? = none := by simpa [Token.isWritten] using written
        rw [TokenKind.weight, none]
        rfl
      rw [List.filter_cons_of_neg (by simp [written]), weight_cons, light, ih, Nat.zero_add]

theorem weight_le_of_tokenize {source : String} {ts : List Token} (h : tokenize source = .ok ts) :
    weight ts ≤ source.length := by
  rw [← weight_filter, ← String.length_toList]
  exact (covers_of_tokenize h).weight_le

namespace Parser

variable {w : Nat}

theorem agree_eatBinary (ops : List BinaryOp) : Agree w w (eatBinary? ops) (eatBinary? ops) := by
  refine agree_peek.then fun k => ?_
  split
  · split
    · exact agree_advance.then fun _ => agree_pure _
    · exact agree_pure none
  · exact agree_pure none

theorem agree_eatCompareOp : Agree w w eatCompareOp? eatCompareOp? := by
  have taken : ∀ o, Agree w w (eatCompareOp?.taken o) (eatCompareOp?.taken o) := fun o =>
    agree_advance.then fun _ => agree_pure _
  refine agree_peek.then fun k => ?_
  split
  · exact taken _
  · exact taken _
  · exact taken _
  · exact taken _
  · exact taken _
  · exact taken _
  · exact taken _
  · exact agree_peekSecond.then fun _ => agree_ite (agree_advance.then fun _ => taken _) (agree_pure none)
  · exact agree_peekSecond.then fun _ => agree_ite (agree_advance.then fun _ => taken _) (taken _)
  · exact agree_pure none

theorem agree_boolChain {operand operand' : Parser Expr} (o : BoolOp) (word : String)
    (h : Agree w w operand operand') : Agree w w (boolChain o word operand) (boolChain o word operand') := by
  refine h.then fun first => ?_
  refine (agree_many ((agree_eat _).then fun b => agree_optionally b h)).then fun rest => ?_
  split
  · exact agree_pure first
  · exact agree_pure _

end Parser

namespace Grammar

/-- The parsers of two grammars agree on tokens that weigh less than `w`. -/
structure AlikeAt (w : Nat) (g h : Grammar) : Prop where
  test : Agree w w g.test h.test
  orTest : Agree w w g.orTest h.orTest
  notTest : Agree w w g.notTest h.notTest
  bitOr : Agree w w g.bitOr h.bitOr
  factor : Agree w w g.factor h.factor
  standalone : Agree w w g.standalone h.standalone
  pattern : Agree w w g.pattern h.pattern
  closedPattern : Agree w w g.closedPattern h.closedPattern
  statement : Agree w w g.statement h.statement
  branch : Agree w w g.branch h.branch

variable {w : Nat} {g h : Grammar} (alike : AlikeAt w g h)
include alike

/-- Texts that are short enough are read alike. -/
theorem AlikeAt.read_congr {source : String} (short : source.length < w) :
    g.read source = h.read source := by
  unfold read
  cases tokens : tokenize source with
  | error fault => rfl
  | ok ts =>
    have light := Nat.lt_of_le_of_lt (weight_le_of_tokenize tokens) short
    have run := alike.standalone ts ts rfl light
    have whole : ∀ f : Grammar, (Except.ok ts >>= f.standalone.run) = f.standalone ts := fun _ => rfl
    rw [whole, whole]
    generalize g.standalone ts = x at run ⊢
    generalize h.standalone ts = y at run ⊢
    cases run with
    | ok left => exact congrArg Except.ok left.value
    | error cause => exact congrArg Except.error cause

theorem agree_item : Agree w w (starOr g.bitOr g.test) (starOr h.bitOr h.test) :=
  agree_starOr alike.bitOr alike.test

theorem agree_items : Agree w w g.items h.items := agree_itemOrTuple (agree_item alike)

theorem agree_yieldExpr : Agree (w + 1) w g.yieldExpr h.yieldExpr := by
  refine (agree_takeWord (by decide)).then fun _ => agree_of_eat (alike.test.then fun e => agree_pure _) ?_
  exact agree_atExpr.then fun b => (agree_optionally b (agree_items alike)).then fun o => agree_pure _

theorem agree_generator : Agree w w g.generator h.generator := by
  refine (agree_eat _).then fun isAsync => (agree_expectWord _).then fun _ => ?_
  refine (agree_itemOrTuple (agree_starOr alike.bitOr alike.bitOr)).then fun head => ?_
  refine (agree_target _ head).then fun head => (agree_expectWord _).then fun _ => ?_
  refine alike.orTest.then fun iter => ?_
  refine (agree_many ((agree_eat _).then fun b => agree_optionally b alike.orTest)).then fun ifs => ?_
  exact agree_pure _

theorem agree_generators : Agree w w g.generators h.generators :=
  agree_many (agree_atGenerator.then fun b => agree_optionally b (agree_generator alike))

theorem agree_of_generators {α : Type} {f f' : List Generator → Parser α} {B B' : Parser α}
    (hA : ∀ gens, Agree w w (f gens) (f' gens)) (hB : Agree w w B B') :
    Agree w w (do if ← atGenerator then (do let gens ← g.generators; f gens) else B)
      (do if ← atGenerator then (do let gens ← h.generators; f' gens) else B') :=
  agree_atGenerator.then fun _ => agree_ite ((agree_generators alike).then hA) hB

theorem agree_moreItems (closing : String) : Agree w w (g.moreItems closing) (h.moreItems closing) := by
  refine (agree_afterCommas (agree_at _) (agree_item alike)).then fun rest => ?_
  exact (agree_expectOp _).then fun _ => agree_pure rest

theorem agree_parenthesized : Agree (w + 1) w g.parenthesized h.parenthesized := by
  refine (agree_takeOp (by decide)).then fun _ => agree_of_eat (agree_pure _) (agree_of_at ?_ ?_)
  · refine ((agree_yieldExpr alike).mono (Nat.le_succ w) (Nat.le_refl w)).then fun e => ?_
    exact (agree_expectOp _).then fun _ => agree_pure e
  · refine (agree_item alike).then fun first => agree_of_generators alike (fun gens => ?_) (agree_of_at ?_ ?_)
    · exact (agree_expectOp _).then fun _ => agree_pure _
    · exact (agree_moreItems alike _).then fun rest => agree_pure _
    · exact (agree_expectOp _).then fun _ => agree_pure first

theorem agree_listDisplay : Agree (w + 1) w g.listDisplay h.listDisplay := by
  refine (agree_takeOp (by decide)).then fun _ => agree_of_eat (agree_pure _) ?_
  refine (agree_item alike).then fun first => agree_of_generators alike (fun gens => ?_) ?_
  · exact (agree_expectOp _).then fun _ => agree_pure _
  · exact (agree_moreItems alike _).then fun rest => agree_pure _

theorem agree_dictItem : Agree w w g.dictItem h.dictItem := by
  refine agree_of_eat (alike.bitOr.then fun v => agree_pure _) ?_
  refine alike.test.then fun k => (agree_expectOp _).then fun _ => ?_
  exact alike.test.then fun v => agree_pure _

theorem agree_moreDictItems (first : DictItem) :
    Agree w w (g.moreDictItems first) (h.moreDictItems first) := by
  refine (agree_afterCommas (agree_at _) (agree_dictItem alike)).then fun rest => ?_
  exact (agree_expectOp _).then fun _ => agree_pure _

theorem agree_braceDisplay : Agree (w + 1) w g.braceDisplay h.braceDisplay := by
  refine (agree_takeOp (by decide)).then fun _ => agree_of_eat (agree_pure _) (agree_of_eat ?_ ?_)
  · exact alike.bitOr.then fun v => agree_moreDictItems alike _
  · refine (agree_item alike).then fun first => agree_of_eat ?_ ?_
    · refine alike.test.then fun value => agree_of_generators alike (fun gens => ?_) ?_
      · exact (agree_expectOp _).then fun _ => agree_pure _
      · exact agree_moreDictItems alike _
    · refine agree_of_generators alike (fun gens => ?_) ?_
      · exact (agree_expectOp _).then fun _ => agree_pure _
      · exact (agree_moreItems alike _).then fun rest => agree_pure _

theorem agree_atom : Agree (w + 1) (w + 1) g.atom h.atom := by
  have upper := Nat.le_succ w
  refine agree_peek.then fun k => ?_
  split
  · exact (agree_parenthesized alike).mono (Nat.le_refl _) upper
  · exact (agree_listDisplay alike).mono (Nat.le_refl _) upper
  · exact (agree_braceDisplay alike).mono (Nat.le_refl _) upper
  · exact agree_advance.then fun _ => agree_pure _
  · exact agree_advance.then fun _ => agree_pure _
  · exact agree_strings fun source short => alike.read_congr short
  · split
    · exact agree_advance.then fun _ => agree_pure _
    · exact agree_ite (agree_fail _) (agree_advance.then fun _ => agree_pure _)
  · exact agree_fail _

theorem agree_callItem : Agree w w g.callItem h.callItem := by
  refine agree_of_eat (alike.test.then fun e => agree_pure _) ?_
  refine agree_of_eat (alike.test.then fun e => agree_pure _) ?_
  refine agree_peek.then fun _ => agree_peekSecond.then fun _ => ?_
  split
  · refine agree_expectName.then fun arg => agree_advance.then fun _ => ?_
    exact alike.test.then fun e => agree_pure _
  · refine alike.test.then fun e => agree_of_generators alike (fun gens => agree_pure _) (agree_pure _)

theorem agree_callArgs : Agree w w g.callArgs h.callArgs :=
  (agree_commaList _ (agree_callItem alike)).then fun _ => agree_pure _

theorem agree_subscriptItem : Agree w w g.subscriptItem h.subscriptItem := by
  refine (agree_at _).then fun _ => (agree_optionally _ (agree_item alike)).then fun lower => ?_
  refine agree_of_eat ?_ ?_
  · refine (agree_at _).then fun _ => (agree_at _).then fun _ => (agree_at _).then fun _ => ?_
    refine (agree_optionally _ alike.test).then fun upper => (agree_eat _).then fun _ => ?_
    refine (agree_at _).then fun _ => (agree_at _).then fun _ => ?_
    exact (agree_optionally _ alike.test).then fun step => agree_pure _
  · split
    · exact agree_pure _
    · exact agree_fail _

theorem agree_subscriptIndex : Agree w w g.subscriptIndex h.subscriptIndex := by
  refine (agree_subscriptItem alike).then fun first => agree_of_at ?_ (agree_pure first)
  exact (agree_afterCommas (agree_at _) (agree_subscriptItem alike)).then fun rest => agree_pure _

theorem agree_trailer : Agree (w + 1) (w + 1) g.trailer? h.trailer? := by
  refine agree_of_taken (by decide) ?_ (agree_of_taken (by decide) ?_ (agree_of_taken (by decide) ?_ ?_))
  · exact (agree_callArgs alike).then fun args => (agree_expectOp _).then fun _ => agree_return _
  · exact (agree_subscriptIndex alike).then fun index => (agree_expectOp _).then fun _ => agree_return _
  · exact agree_expectName.then fun attr => agree_return _
  · exact agree_pure none

theorem agree_primary : Agree (w + 1) (w + 1) g.primary h.primary := by
  refine (agree_atom alike).then fun operand => ?_
  exact (agree_many (agree_trailer alike)).then fun trailers => agree_pure _

theorem agree_power : Agree (w + 1) (w + 1) g.power h.power := by
  rw [power_eq, power_eq]
  have base : Agree (w + 1) (w + 1) g.base h.base :=
    agree_of_eat ((agree_primary alike).map _) (agree_primary alike)
  refine base.then fun b => agree_of_taken (by decide) ?_ (agree_pure b)
  exact alike.factor.then fun e => agree_return _

theorem agree_factorRule : Agree (w + 1) (w + 1) g.factorRule h.factorRule := by
  have signed : ∀ (symbol : String) o, 0 < symbol.length → AgreeIf (.op symbol) (w + 1) (w + 1)
      (factorRule.signed g o) (factorRule.signed h o) := fun symbol o heavy =>
    agreeIf_advance heavy (alike.factor.then fun e => agree_return _)
  refine agree_of_peek fun k => ?_
  split
  · exact signed "+" _ (by decide)
  · exact signed "-" _ (by decide)
  · exact signed "~" _ (by decide)
  · exact (agree_power alike).agreeIf

theorem agree_binaryChain (levels : List (List BinaryOp)) :
    Agree (w + 1) (w + 1) (binaryChain g.factorRule levels) (binaryChain h.factorRule levels) := by
  induction levels with
  | nil => exact agree_factorRule alike
  | cons ops tighter ih =>
    have next : Agree (w + 1) (w + 1) (chainNext g.factorRule ops tighter)
        (chainNext h.factorRule ops tighter) := by
      refine (agree_eatBinary ops).then fun o => ?_
      cases o with
      | none => exact agree_pure none
      | some o => exact ih.then fun e => agree_pure _
    exact ih.then fun first => (agree_many next).then fun rest => agree_pure _

theorem agree_bitOrRule : Agree (w + 1) (w + 1) g.bitOrRule h.bitOrRule := agree_binaryChain alike _

theorem agree_comparison : Agree (w + 1) (w + 1) g.comparison h.comparison := by
  refine (agree_bitOrRule alike).then fun left => (agree_many ?next).then fun rest => ?_
  case next =>
    refine agree_eatCompareOp.then fun o => ?_
    cases o with
    | none => exact agree_pure none
    | some o => exact (agree_bitOrRule alike).then fun e => agree_pure _
  cases rest with
  | nil => exact agree_pure left
  | cons c rest => exact agree_pure _

theorem agree_notTestRule : Agree (w + 1) (w + 1) g.notTestRule h.notTestRule :=
  agree_of_taken (by decide) (alike.notTest.then fun e => agree_return _) (agree_comparison alike)

theorem agree_orTestRule : Agree (w + 1) (w + 1) g.orTestRule h.orTestRule :=
  agree_boolChain _ _ (agree_boolChain _ _ (agree_notTestRule alike))

theorem agree_argument (annotations : Bool) : Agree w w (g.argument annotations) (h.argument annotations) := by
  refine agree_expectName.then fun name => agree_ite ?_ (agree_pure _)
  exact (agree_eat _).then fun b => (agree_optionally b alike.test).then fun o => agree_pure _

theorem agree_param (closing : String) (annotations : Bool) :
    Agree w w (g.param closing annotations) (h.param closing annotations) := by
  have argument := agree_argument alike annotations
  refine agree_of_eat (agree_pure _) (agree_of_eat (argument.then fun a => agree_pure _) (agree_of_eat ?_ ?_))
  · refine (agree_at _).then fun _ => (agree_at _).then fun _ => ?_
    exact (agree_optionally _ argument).then fun o => agree_pure _
  · refine argument.then fun a => (agree_eat _).then fun b => ?_
    exact (agree_optionally b alike.test).then fun d => agree_pure _

theorem agree_params (closing : String) (annotations : Bool) :
    Agree w w (g.params closing annotations) (h.params closing annotations) :=
  agree_commaList closing (agree_param alike closing annotations)

theorem agree_lambda : Agree (w + 1) (w + 1) g.lambda h.lambda := by
  refine (agree_takeWord (by decide)).then fun _ => (agree_params alike _ _).then fun ps => ?_
  exact (agree_expectOp _).then fun _ => alike.test.then fun body => agree_return _

theorem agree_conditional : Agree (w + 1) (w + 1) g.conditional h.conditional := by
  refine (agree_orTestRule alike).then fun body => agree_of_eat ?_ (agree_pure body)
  refine (agree_orTestRule alike).then fun test => (agree_takeWord (by decide)).then fun _ => ?_
  exact alike.test.then fun orelse => agree_return _

theorem agree_testRule : Agree (w + 1) (w + 1) g.testRule h.testRule := by
  refine agree_of_at (agree_lambda alike) ((agree_conditional alike).then fun e => ?_)
  refine agree_of_atIf ?_ (agree_pure e)
  split
  · exact agreeIf_advance (by decide) (alike.test.then fun v => agree_return _)
  · exact AgreeUpTo.agreeIf (agree_fail _)

theorem agree_itemsRule : Agree (w + 1) (w + 1) g.itemsRule h.itemsRule :=
  agree_itemOrTuple (agree_starOr (agree_bitOrRule alike) (agree_testRule alike))

theorem agree_targetItems : Agree (w + 1) (w + 1) g.targetItems h.targetItems :=
  agree_itemOrTuple (agree_starOr (agree_bitOrRule alike) (agree_bitOrRule alike))

theorem agree_itemsOrYield : Agree (w + 1) (w + 1) g.itemsOrYield h.itemsOrYield :=
  agree_of_at ((agree_yieldExpr alike).mono (Nat.le_refl _) (Nat.le_succ w)) (agree_itemsRule alike)

theorem agree_standaloneRule : Agree (w + 1) (w + 1) g.standaloneRule h.standaloneRule := by
  refine (agree_itemsRule alike).then fun e => agree_expectNewline.then fun _ => ?_
  exact (agree_at _).then fun _ => agree_ite (agree_fail _) (agree_pure e)

end Grammar

end Arbiter.Syntax
