import Arbiter.Proofs.Parsing.Level
import Arbiter.Proofs.Parsing.Rendering

/-! Expressions whose tokens are read back, the operands among them, and lists of such expressions. Main
statements: the first token of a regular expression tells how tightly the expression may bind, and no name
before an equals sign is at its front; it is enough to read an expression at its own strength, since all
looser parsers and brackets then read it, too. -/

namespace Arbiter.Syntax

open TokenKind (op name)
open Syntax.Parser

namespace Parser

variable {α : Type} {K K' : List TokenKind}

/-! Lists between commas. -/

section Lists

variable {stop : Parser Bool} {item : Parser α}

/-- The next item after a comma, if any. -/
def commaNext (stop : Parser Bool) (item : Parser α) : Parser (Option α) := do
  if !(← eatOp ",") then return none
  else if ← stop then return none
  else some <$> item

theorem takes_commaNext_none (other : headOf K ≠ op ",") : Takes (commaNext stop item) K none K :=
  (takes_eat_other other).bind (takes_pure none)

theorem takes_commaNext_stop (h : Takes stop K true K) :
    Takes (commaNext stop item) (op "," :: K) none K :=
  (takes_eat _).bind (h.bind (takes_pure none))

theorem takes_commaNext_some {a : α} (going : Takes stop K false K) (h : Takes item K a K') :
    Takes (commaNext stop item) (op "," :: K) (some a) K' :=
  (takes_eat _).bind (going.bind (h.map some))

/-- Items after commas. What follows an item is one of `P`. -/
theorem takes_afterCommas {P : List TokenKind → Prop} {kinds : α → List TokenKind} {as : List α}
    (comma : ∀ K, P (op "," :: K)) (ends : P K)
    (h : ∀ a ∈ as, ∀ K, P K →
      Takes stop (kinds a ++ K) false (kinds a ++ K) ∧ Takes item (kinds a ++ K) a K)
    (last : Takes (commaNext stop item) K none K') :
    Takes (afterCommas stop item) (as.flatMap (fun a => op "," :: kinds a) ++ K) as K' := by
  have items : Items (fun _ => commaNext stop item) []
      (as.flatMap (fun a => op "," :: kinds a) ++ K) as K' := by
    induction as with
    | nil => exact .nil last
    | cons a as ih =>
      have after : P (as.flatMap (fun a => op "," :: kinds a) ++ K) := by
        cases as with
        | nil => exact ends
        | cons b as => exact comma _
      obtain ⟨going, first⟩ := h a List.mem_cons_self _ after
      have rest := ih fun b hb => h b (.tail a hb)
      rw [List.flatMap_cons, List.append_assoc, List.cons_append]
      refine .cons (takes_commaNext_some going first) ?_ (rest.of_const _)
      simp only [List.length_cons, List.length_append]
      omega
  exact items.takes_many

/-- No item after a comma. -/
theorem takes_afterCommas_stop (h : Takes stop K true K) :
    Takes (afterCommas stop item) (op "," :: K) [] K :=
  Items.takes_many (.nil (takes_commaNext_stop h))

theorem takes_commaList {P : List TokenKind → Prop} {kinds : α → List TokenKind} {closing : String}
    {as : List α} (other : closing ≠ ",") (comma : ∀ K, P (op "," :: K)) (ends : P (op closing :: K))
    (h : ∀ a ∈ as, ∀ K, P K → headOf (kinds a ++ K) ≠ op closing ∧ Takes item (kinds a ++ K) a K) :
    Takes (commaList closing item) (commaKinds (as.map kinds) ++ op closing :: K) as
      (op closing :: K) := by
  cases as with
  | nil => exact takes_of_at rfl (takes_pure [])
  | cons a as =>
    have after : P (as.flatMap (fun a => op "," :: kinds a) ++ op closing :: K) := by
      cases as with
      | nil => exact ends
      | cons b as => exact comma _
    obtain ⟨going, first⟩ := h a List.mem_cons_self _ after
    have rest : Takes (afterCommas (atOp closing) item)
        (as.flatMap (fun a => op "," :: kinds a) ++ op closing :: K) as (op closing :: K) := by
      refine takes_afterCommas comma ends (fun b hb K hK => ?_) (takes_commaNext_none (by simpa using other))
      obtain ⟨going, taken⟩ := h b (.tail a hb) K hK
      have stays := takes_at (K := kinds b ++ K) (op closing)
      rw [beq_false_of_ne going] at stays
      exact ⟨stays, taken⟩
    rw [List.map_cons, commaKinds, List.flatMap_map, List.append_assoc]
    exact takes_of_not_at going (first.bind (rest.bind (takes_pure _)))

end Lists

theorem takes_not_atGenerator (first : headOf K ≠ name "for") (second : headOf K ≠ name "async") :
    Takes atGenerator K false K :=
  takes_of_not_at first (takes_of_not_at second (takes_pure false))

/-! String tokens. Their places do not matter. -/

/-- The next string token, if any. -/
def pieceNext : Parser (Option StringPiece) := fun ts => match ts with
  | ⟨.string text, pos⟩ :: r => .ok (some ⟨text, pos⟩, r)
  | _ => .ok (none, ts)

theorem pieceNext_none {ts : List Token} (h : ∀ text, headOf (ts.map (·.kind)) ≠ .string text) :
    pieceNext ts = .ok (none, ts) := by
  unfold pieceNext
  split
  · exact absurd rfl (h _)
  · rfl

theorem collectFor_pieces {texts : List String} (other : ∀ text, headOf K ≠ .string text) :
    ∀ rounds before ts, texts.length < rounds →
      ts.map (·.kind) = texts.map TokenKind.string ++ K →
      ∃ found ts', collectFor (fun _ => pieceNext) rounds before ts = .ok (before.reverse ++ found, ts') ∧
        found.map (·.text) = texts ∧ ts'.map (·.kind) = K := by
  induction texts with
  | nil =>
    intro rounds before ts enough kinds
    obtain ⟨rounds, rfl⟩ : ∃ n, rounds = n + 1 := ⟨rounds - 1, by omega⟩
    refine ⟨[], ts, ?_, rfl, kinds⟩
    show (pieceNext ts >>= _) = _
    rw [pieceNext_none (by rw [kinds]; exact other), List.append_nil]
    rfl
  | cons text texts ih =>
    intro rounds before ts enough kinds
    obtain ⟨rounds, rfl⟩ : ∃ n, rounds = n + 1 := ⟨rounds - 1, by omega⟩
    obtain ⟨⟨k, pos⟩, r, rfl, same, more⟩ := List.map_eq_cons_iff.1 kinds
    obtain rfl : k = .string text := same
    obtain ⟨found, ts', run, texts_eq, kinds'⟩ :=
      ih rounds (⟨text, pos⟩ :: before) r (Nat.lt_of_succ_lt_succ enough) more
    refine ⟨⟨text, pos⟩ :: found, ts', ?_, by rw [List.map_cons, texts_eq], kinds'⟩
    rw [List.reverse_cons, List.append_assoc] at run
    exact run

theorem stringPieces_eq {texts : List String} {ts : List Token} (some : texts ≠ [])
    (other : ∀ text, headOf K ≠ .string text) (kinds : ts.map (·.kind) = texts.map .string ++ K) :
    ∃ found ts', stringPieces ts = .ok (found, ts') ∧ found.map (·.text) = texts ∧
      ts'.map (·.kind) = K := by
  obtain ⟨text, texts, rfl⟩ := List.exists_cons_of_ne_nil some
  obtain ⟨⟨k, pos⟩, r, rfl, same, more⟩ := List.map_eq_cons_iff.1 kinds
  obtain rfl : k = .string text := same
  have fuel : texts.length < r.length + 1 := by
    have long := congrArg List.length (show r.map (·.kind) = texts.map .string ++ K from more)
    rw [List.length_append, List.length_map, List.length_map] at long
    omega
  obtain ⟨found, ts', run, texts_eq, kinds'⟩ :=
    collectFor_pieces other (r.length + 1) [⟨text, pos⟩] r fuel more
  exact ⟨⟨text, pos⟩ :: found, ts', run, by rw [List.map_cons, texts_eq], kinds'⟩

theorem stringExpr_of_texts {read : String → Except Cause Expr} {pieces found : List StringPiece}
    (plain : ∀ p ∈ pieces, p.isFString = false) (same : found.map (·.text) = pieces.map (·.text)) :
    stringExpr read found = .ok (.constant (stringConstant pieces)) := by
  have agree : ∀ f : String → Bool, found.any (fun p => f p.text) = pieces.any fun p => f p.text := by
    intro f
    have mapped := congrArg (List.any · f) same
    rwa [List.any_map, List.any_map] at mapped
  have noFString : found.any StringPiece.isFString = false := by
    have := agree fun text => StringPiece.isFString ⟨text, .start⟩
    refine this.trans ?_
    rw [List.any_eq_false]
    intro p hp
    exact Bool.eq_false_iff.1 (plain p hp)
  have bytes : found.any (·.marks.contains 'b') = pieces.any (·.marks.contains 'b') :=
    agree fun text => (StringPiece.marks ⟨text, .start⟩).contains 'b'
  unfold stringExpr stringConstant
  rw [noFString, bytes, same, if_neg Bool.false_ne_true]
  dsimp only
  split <;> rfl

end Parser

end Arbiter.Syntax

/-! First tokens. -/

namespace Arbiter.Syntax

open TokenKind (op name)
open Syntax.Parser

/-- The tokens begin with one that opens expressions of strength `s`, and not with a name and an equals
sign, as a keyword argument does. -/
def Begins (s : Nat) (ks : List TokenKind) : Prop :=
  ∃ k rest, ks = k :: rest ∧ s ≤ k.opens ∧ ∀ id, k = name id → headOf rest ≠ op "="

section Begins

variable {s t least : Nat} {e : Expr} {ks tail : List TokenKind}

theorem Begins.mono (h : Begins s ks) (le : t ≤ s) : Begins t ks := by
  obtain ⟨k, rest, same, opens, second⟩ := h
  exact ⟨k, rest, same, Nat.le_trans le opens, second⟩

theorem Begins.append (h : Begins s ks) (other : headOf tail ≠ op "=") :
    Begins s (ks ++ tail) := by
  obtain ⟨k, rest, rfl, opens, second⟩ := h
  refine ⟨k, rest ++ tail, rfl, opens, fun id same => ?_⟩
  cases rest with
  | nil => exact other
  | cons k' rest => exact second id same

theorem Begins.opens_le (h : Begins s ks) (K : List TokenKind) : s ≤ (headOf (ks ++ K)).opens := by
  obtain ⟨k, rest, rfl, opens, -⟩ := h
  exact opens

theorem Begins.head_ne (h : Begins s ks) (pos : 0 < s) : headOf ks ≠ op "=" := by
  obtain ⟨k, rest, rfl, opens, -⟩ := h
  rintro ⟨⟩
  exact absurd (Nat.lt_of_lt_of_le pos opens) (by decide)

/-- An operand begins with a token that tells its strength or with a bracket. -/
theorem Begins.within (h : Begins e.strength e.kinds) (le : least ≤ Strength.atom) :
    Begins least (e.kindsWithin least e.kinds) := by
  unfold Expr.kindsWithin
  split
  · exact ⟨op "(", e.kinds ++ [op ")"], rfl, le, nofun⟩
  · exact h.mono (Nat.le_of_not_lt ‹_›)

/-- What is left of another token. -/
theorem Begins.left {k : TokenKind} (h : Begins e.strength e.kinds) (le : least ≤ Strength.atom)
    (lower : s ≤ least) (other : k ≠ op "=") (tail : List TokenKind) :
    Begins s (e.kindsWithin least e.kinds ++ k :: tail) :=
  ((h.within le).mono lower).append (by simpa using other)

theorem begins_one {k : TokenKind} (h : Nat.ble s k.opens = true) : Begins s [k] :=
  ⟨k, [], rfl, Nat.le_of_ble_eq_true h, by simp⟩

theorem begins_symbol {symbol : String} (h : Nat.ble s (op symbol).opens = true) :
    Begins s (op symbol :: ks) := ⟨op symbol, ks, rfl, Nat.le_of_ble_eq_true h, nofun⟩

theorem begins_word {word : String} (h : Nat.ble s (name word).opens = true)
    (other : headOf ks ≠ op "=") : Begins s (name word :: ks) :=
  ⟨name word, ks, rfl, Nat.le_of_ble_eq_true h, fun _ _ => other⟩

end Begins

theorem opens_identifier {id : String} (h : IsIdentifier id) : Strength.atom ≤ (name id).opens := by
  have other : ∀ word, isKeyword word = true → id ≠ word := by
    rintro word reserved rfl
    rw [h.notKeyword] at reserved
    cases reserved
  simp only [TokenKind.opens, other "lambda" (by decide), other "not" (by decide),
    other "await" (by decide), other "yield" (by decide), h.notKeyword, if_false, Bool.false_and,
    Bool.false_eq_true]
  exact Nat.le_refl _

/-- What begins a regular expression. -/
def Part.HasOpening : Part → Prop
  | .expr e => Begins e.strength e.kinds
  | _ => True

theorem hasOpening_of_regular {part : Part} (h : Regular .strict part) : part.HasOpening := by
  induction h with
  | name h => exact begins_one (Nat.ble_eq_true_of_le (opens_identifier h))
  | @number text h =>
    have opening : Begins Strength.atom [.number text] := begins_one rfl
    rcases Rendered.numberConstant_cases text with same | same | same
    · exact same ▸ opening
    · exact same ▸ opening
    · exact same ▸ opening
  | @strings pieces some spelled plain =>
    have kinds : (Expr.constant (stringConstant pieces)).kinds = pieces.map fun p => .string p.text :=
      Rendered.kinds_stringConstant some spelled plain
    obtain ⟨first, more, rfl⟩ := List.exists_cons_of_ne_nil some
    rw [Part.HasOpening, kinds]
    exact ⟨_, _, rfl, Nat.le_refl _, nofun⟩
  | word w =>
    cases w with
    | none => exact begins_one rfl
    | bool b => cases b <;> exact begins_one rfl
  | ellipsis => exact begins_one rfl
  | joinedStr allowed => exact allowed.elim
  | strayed allowed => exact absurd allowed Bool.false_ne_true
  | member _ _ _ hv => exact hv.left (Nat.le_refl _) (Nat.le_refl _) (by simp) _
  | @subscript value index _ _ hv _ =>
    rw [Part.HasOpening, Rendered.kinds_subscript, List.append_assoc]
    exact hv.left (Nat.le_refl _) (Nat.le_refl _) (by simp) _
  | tuple _ _ => exact begins_symbol rfl
  | list _ _ => exact begins_symbol rfl
  | @set elts some _ h =>
    rw [Part.HasOpening, Expr.kinds, if_neg (by simpa using some)]
    exact begins_symbol rfl
  | dict _ _ => exact begins_symbol rfl
  | @binary left right o _ _ hl _ =>
    have range : o.leftStrength ≤ Strength.atom ∧ o.strength ≤ o.leftStrength := by
      cases o <;> decide
    exact hl.left range.1 range.2 (by cases o <;> simp [BinaryOp.symbol]) _
  | @unary operand o _ h =>
    have range : o.strength ≤ Strength.atom ∧ 0 < o.strength := by cases o <;> decide
    refine ⟨o.kind, _, rfl, ?_, fun _ _ => ?_⟩
    · show o.strength ≤ o.kind.opens
      cases o <;> decide
    · exact (h.within range.1).head_ne range.2
  | @bool o first second rest _ _ _ hf _ _ =>
    have range : o.strength + 1 ≤ Strength.atom := by cases o <;> decide
    exact hf.left range (Nat.le_succ _) (by simp) _
  | @compare left rest _ _ _ hl _ =>
    have lower : Strength.compare ≤ Strength.compare + 1 := by decide
    refine ((hl.within (by decide)).mono lower).append ?_
    cases rest with
    | nil => simp [comparandKinds]
    | cons c rest =>
      obtain ⟨o, value⟩ := c
      cases o <;> simp [comparandKinds, CompareOp.kinds, CompareOp.symbol]
  | @call func args keywords _ _ _ _ hf _ _ =>
    rw [Part.HasOpening, Expr.kinds, List.append_assoc]
    exact hf.left (Nat.le_refl _) (Nat.le_refl _) (by simp) _
  | ifElse _ _ _ _ hb _ =>
    rw [Part.HasOpening, Expr.kinds, List.append_assoc]
    have lower : Strength.test ≤ Strength.or := by decide
    exact hb.left (by decide) lower (by simp) _
  | @lambda params body _ _ _ _ _ =>
    refine begins_word rfl ?_
    rw [paramKinds_eq]
    match params with
    | [] => simp [commaKinds]
    | p :: params =>
      cases p with
      | varArgs arg => cases arg <;> simp [commaKinds, Param.kinds]
      | plain arg default =>
        obtain ⟨id, annotation⟩ := arg
        simp [commaKinds, Param.kinds, argumentKinds]
      | _ => simp [commaKinds, Param.kinds]
  | listComp _ _ _ _ _ => exact begins_symbol rfl
  | setComp _ _ _ _ _ => exact begins_symbol rfl
  | generatorExp _ _ _ _ _ => exact begins_symbol rfl
  | dictComp _ _ _ _ _ _ _ => exact begins_symbol rfl
  | await _ h =>
    exact begins_word rfl ((h.within (Nat.le_refl _)).head_ne (by decide))
  | @yield value _ _ h =>
    refine begins_word rfl ?_
    cases value with
    | none => simp [optionKinds]
    | some value =>
      have upper : Strength.test ≤ Strength.atom := by decide
      exact ((h value rfl).within upper).head_ne (by decide)
  | yieldFrom _ _ _ => exact begins_word rfl (by simp)
  | @named id value hi _ _ _ =>
    have opening : Begins Strength.named (name id :: op ":=" ::
        value.kindsWithin Strength.test value.kinds) :=
      begins_word (Nat.ble_eq_true_of_le (Nat.le_trans (by decide) (opens_identifier hi))) (by simp)
    exact opening
  | _ => trivial

theorem Regular.begins {e : Expr} (h : Regular .strict (.expr e)) : Begins e.strength e.kinds :=
  hasOpening_of_regular h

end Arbiter.Syntax

/-! Expressions that are read back. -/

namespace Arbiter.Syntax

open TokenKind (op name)
open Syntax.Parser

/-- An expression whose tokens are read as the expression, at all strengths that it has and between
brackets. A grammar of depth `n` reads what has no more tokens than `n`. -/
structure Readable (e : Expr) : Prop where
  opening : Begins e.strength e.kinds
  reads : ∀ {n s K r K'}, e.kinds.length ≤ n → Strength.named ≤ s → s ≤ e.strength → Stop (s + 1) K →
    (grammar n).More s e K r K' → Takes ((grammar n).level s) (e.kinds ++ K) r K'
  bracketed : ∀ {n K}, e.kinds.length < n →
    Takes (grammar n).parenthesized (op "(" :: (e.kinds ++ op ")" :: K)) e K

namespace Readable

variable {e : Expr} {n s least : Nat} {K K' : List TokenKind} {r : Expr}

theorem atom_bracketed (h : Readable e) (enough : e.kinds.length < n) :
    Takes (grammar n).atom (op "(" :: (e.kinds ++ op ")" :: K)) e K :=
  takes_peek.bind (h.bracketed enough)

/-- Between brackets, it is read at all strengths. -/
theorem inBrackets (h : Readable e) (enough : e.kinds.length < n) (lower : Strength.named ≤ s)
    (le : s ≤ Strength.atom) (stop : Stop (s + 1) K) (more : (grammar n).More s e K r K') :
    Takes ((grammar n).level s) (op "(" :: e.kinds ++ [op ")"] ++ K) r K' := by
  have atTop : ∀ K r K', Stop (Strength.atom + 1) K → (grammar n).More Strength.atom e K r K' →
      Takes ((grammar n).level Strength.atom) (op "(" :: e.kinds ++ [op ")"] ++ K) r K' := by
    intro K r K' _ trails
    have atom := h.atom_bracketed (K := K) enough
    refine Grammar.Trails.takes ?_ trails
    simpa using atom
  exact Grammar.takes_level (Nat.le_refl _) (fun _ => Nat.le_refl _) atTop lower le stop more

/-- Where an operand has to bind at least as tightly as `least`, it is read at all looser strengths. -/
theorem within (h : Readable e) (upper : least ≤ Strength.atom)
    (enough : (e.kindsWithin least e.kinds).length ≤ n) (lower : Strength.named ≤ s) (le : s ≤ least)
    (stop : Stop (s + 1) K) (more : (grammar n).More s e K r K') :
    Takes ((grammar n).level s) (e.kindsWithin least e.kinds ++ K) r K' := by
  unfold Expr.kindsWithin at enough ⊢
  split at enough
  · rename_i loose
    rw [if_pos loose]
    have fuel : e.kinds.length < n := by
      simp only [List.length_append, List.length_cons, List.length_nil] at enough
      omega
    exact h.inBrackets fuel lower (Nat.le_trans le upper) stop more
  · rename_i tight
    rw [if_neg tight]
    exact h.reads enough lower (Nat.le_trans le (Nat.le_of_not_lt tight)) stop more

/-- The operand is all that is read. -/
theorem whole (h : Readable e) (upper : least ≤ Strength.atom)
    (enough : (e.kindsWithin least e.kinds).length ≤ n) (lower : Strength.named ≤ s) (le : s ≤ least)
    (stop : Stop s K) : Takes ((grammar n).level s) (e.kindsWithin least e.kinds ++ K) e K :=
  h.within upper enough lower le (stop.mono (Nat.le_succ s)) (Grammar.more_of_stop stop)

/-- It is enough to read an expression at its own strength. -/
theorem of_top (regular : Regular .strict (.expr e)) (lower : Strength.named ≤ e.strength)
    (top : ∀ {n K r K'}, e.kinds.length ≤ n → Stop (e.strength + 1) K →
      (grammar n).More e.strength e K r K' →
      Takes ((grammar n).level e.strength) (e.kinds ++ K) r K') : Readable e := by
  have opening := regular.begins
  have reads : ∀ {n s K r K'}, e.kinds.length ≤ n → Strength.named ≤ s → s ≤ e.strength →
      Stop (s + 1) K → (grammar n).More s e K r K' →
      Takes ((grammar n).level s) (e.kinds ++ K) r K' := fun enough least le stop more =>
    Grammar.takes_level (strength_range e).2 opening.opens_le
      (fun _ _ _ stop more => top enough stop more) least le stop more
  refine ⟨opening, reads, fun {n K} enough => ?_⟩
  obtain ⟨m, rfl⟩ : ∃ m, n = m + 1 := ⟨n - 1, by omega⟩
  have other : ∀ k : TokenKind, k.opens < Strength.named →
      headOf (e.kinds ++ op ")" :: K) ≠ k := by
    rintro k low rfl
    exact Nat.not_lt_of_le (Nat.le_trans lower (opening.opens_le _)) low
  have inner : Takes (grammar (m + 1)).test (e.kinds ++ op ")" :: K) e (op ")" :: K) :=
    reads (s := Strength.named) (Nat.le_of_lt_succ enough) (Nat.le_refl _) lower
      (stop_cons (by decide) K) (Grammar.more_of_stop (stop_cons (by decide) K))
  refine (takes_expectOp _).bind ?_
  refine takes_of_not_eat (other _ (by decide)) (takes_of_not_at (other _ (by decide)) ?_)
  refine Takes.bind (takes_of_not_eat (other _ (by decide)) inner) ?_
  refine (takes_not_atGenerator (by simp) (by simp)).bind ?_
  exact takes_of_not_at (by simp) ((takes_expectOp _).bind (takes_pure e))

/-- An operand is read by its parser alone. -/
theorem of_atom (regular : Regular .strict (.expr e)) (tight : e.strength = Strength.atom)
    (atom : ∀ {n K}, e.kinds.length ≤ n → Stop (Strength.atom + 1) K →
      Takes (grammar n).atom (e.kinds ++ K) e K) : Readable e := by
  refine of_top regular (by rw [tight]; decide) ?_
  rw [tight]
  intro n K r K' enough stop more
  exact Grammar.Trails.takes (atom enough stop) more

/-! Operands. -/

theorem constantWord?_eq_none {id : String} (h : isKeyword id = false) : constantWord? id = none := by
  unfold constantWord?
  split
  · exact absurd h (by decide)
  · exact absurd h (by decide)
  · exact absurd h (by decide)
  · rfl

theorem name {id : String} (h : IsIdentifier id) : Readable (.name id .load) := by
  refine of_atom (.name h trivial) rfl fun _ _ => takes_peek.bind ?_
  simp only [Expr.kinds, List.cons_append, headOf_cons, constantWord?_eq_none h.notKeyword, h.notKeyword]
  exact (takes_advance _).bind (takes_pure _)

theorem number {text : String} (h : Spells text (.number text)) :
    Readable (.constant (numberConstant text)) := by
  refine of_atom (.number h) rfl fun {n K} _ _ => ?_
  have kinds : (numberConstant text).kinds = [.number text] := by
    rcases Rendered.numberConstant_cases text with same | same | same <;> rw [same] <;> rfl
  rw [Expr.kinds, kinds]
  exact takes_peek.bind ((takes_advance _).bind (takes_pure _))

theorem ellipsis : Readable (.constant .ellipsis) :=
  of_atom .ellipsis rfl fun _ _ => takes_peek.bind ((takes_advance _).bind (takes_pure _))

theorem word (w : WordConstant) : Readable (.constant w) := by
  refine of_atom (.word w) rfl fun _ _ => ?_
  cases w with
  | none => exact takes_peek.bind ((takes_advance _).bind (takes_pure _))
  | bool b => cases b <;> exact takes_peek.bind ((takes_advance _).bind (takes_pure _))

/-- String tokens are taken up to the first token that is none. Only their texts matter, which are in
their kinds. -/
theorem strings {pieces : List StringPiece} (some : pieces ≠ [])
    (spelled : ∀ p ∈ pieces, Spells p.text (.string p.text))
    (plain : ∀ p ∈ pieces, p.isFString = false) : Readable (.constant (stringConstant pieces)) := by
  refine of_atom (.strings some spelled plain) rfl fun {n K} _ stop => ?_
  rw [Expr.kinds, Rendered.kinds_stringConstant some spelled plain]
  have other : ∀ text, headOf K ≠ .string text := fun text => stop.ne (Nat.le_refl _)
  intro ts kinds
  have kinds : ts.map (·.kind) = (pieces.map (·.text)).map .string ++ K := by
    rw [List.map_map]
    exact kinds
  obtain ⟨found, ts', run, texts, kinds'⟩ := stringPieces_eq (by simpa using some) other kinds
  refine ⟨ts', kinds', ?_⟩
  have first : ∃ text, headKind ts = .string text := by
    obtain ⟨p, pieces, rfl⟩ := List.exists_cons_of_ne_nil some
    exact ⟨p.text, by rw [headKind_eq, kinds]; rfl⟩
  obtain ⟨text, first⟩ := first
  have atom : (grammar n).atom ts = Parser.strings (grammar n).read ts := by
    unfold Grammar.atom
    simp only [bind, StateT.bind, Except.bind, peek, first]
  rw [atom]
  show (stringPieces ts >>= fun x => (liftM (stringExpr (grammar n).read x.1) : Parser Expr) x.2) = _
  rw [run]
  show (stringExpr (grammar n).read found >>= fun e => Except.ok (e, ts')) = _
  rw [stringExpr_of_texts plain texts]
  rfl

end Readable

end Arbiter.Syntax
