import Arbiter.Proofs.Canon.Cut
import Arbiter.Proofs.Canon.Patterns

/-! Patterns at the front of a list of tokens. Main statement: patterns in canonical form are told apart
by their tokens. -/

namespace Arbiter.Syntax

open TokenKind (op name)
open Syntax.Parser

/-! How patterns begin. -/

/-- The token begins a value that is no name. -/
def TokenKind.leads : TokenKind → Bool
  | .number _ | .string _ => true
  | .op s => s == "-" || s == "..."
  | _ => false

def Part.IsLead : Part → Prop
  | .expr e => e.isLed = true → ∃ k rest, e.kinds = k :: rest ∧ k.leads = true
  | _ => True

theorem isLead_of_regular {part : Part} (h : Regular .shown part) : part.IsLead := by
  have left : ∀ {value : Expr} {least : Nat} (tail : List TokenKind), (Part.expr value).IsLead →
      (value.isLed && decide (least ≤ value.strength)) = true →
      ∃ k rest, value.kindsWithin least value.kinds ++ tail = k :: rest ∧ k.leads = true := by
    intro value least tail h led
    simp only [Bool.and_eq_true, decide_eq_true_eq] at led
    obtain ⟨k, rest, same, leads⟩ := h led.1
    exact ⟨k, rest ++ tail, by rw [kindsWithin_of_le led.2, same]; rfl, leads⟩
  induction h with
  | @number text h =>
    intro _
    refine ⟨.number text, [], ?_, rfl⟩
    rcases Rendered.numberConstant_cases text with same | same | same <;> rw [same] <;> rfl
  | strings some spelled plain =>
    intro _
    rw [Expr.kinds, Rendered.kinds_stringConstant some spelled plain]
    obtain ⟨p, pieces, rfl⟩ := List.exists_cons_of_ne_nil some
    exact ⟨_, _, rfl, rfl⟩
  | joinedStr => exact fun _ => ⟨_, _, rfl, rfl⟩
  | member _ _ _ hv => exact left _ hv
  | subscript _ _ hv _ =>
    intro led
    rw [Rendered.kinds_subscript, List.append_assoc]
    exact left _ hv led
  | call _ _ _ _ hf =>
    intro led
    rw [Expr.kinds, List.append_assoc]
    exact left _ hf led
  | binary _ _ hl _ => exact left _ hl
  | @unary _ o _ _ =>
    intro led
    cases o <;> first | exact ⟨_, _, rfl, rfl⟩ | cases led
  | word w => cases w <;> exact nofun
  | name | ellipsis | tuple | list | set | dict | bool | compare | ifElse | lambda | listComp | setComp
  | generatorExp | dictComp | await | yield | yieldFrom | named | strayed => exact nofun
  | starred | item | slice | entry | noEntry | entries | index | noClause | clause => trivial

theorem kinds_dotted (id : String) (attrs : List String) :
    (dotted id attrs).kinds = name id :: attrs.flatMap fun attr => [op ".", name attr] := by
  have strong : ∀ attrs, (dotted id attrs).strength = Strength.atom := by
    intro attrs
    induction attrs using List.reverseRecOn with
    | nil => rfl
    | append_singleton attrs attr => rw [dotted, List.foldl_append]; rfl
  induction attrs using List.reverseRecOn with
  | nil => rfl
  | append_singleton attrs attr ih =>
    have step : dotted id (attrs ++ [attr]) = .attribute (dotted id attrs) attr .load := by
      rw [dotted, List.foldl_append]
      rfl
    rw [step, Expr.kinds, kindsWithin_of_le (strong attrs).ge, ih]
    simp

/-- What a closed pattern, or one in brackets, may begin with. -/
inductive Opening
  | bracket
  | sequence
  | mapping
  | star
  | wildcard
  | word
  | named
  | value
  | none
deriving DecidableEq

def TokenKind.opening : TokenKind → Opening
  | .op "(" => .bracket
  | .op "[" => .sequence
  | .op "\x7b" => .mapping
  | .op "*" => .star
  | .name w => if w = "_" then .wildcard else if (constantWord? w).isSome then .word else .named
  | k => if k.leads then .value else .none

def Pattern.opening : Pattern → Opening
  | .or _ | .bind _ _ => .bracket
  | .sequence _ => .sequence
  | .mapping _ _ => .mapping
  | .star _ => .star
  | .wildcard => .wildcard
  | .singleton _ => .word
  | .capture _ | .cls _ _ _ => .named
  | .value e => if e.isLed then .value else .named

theorem opening_of_leads {k : TokenKind} (h : k.leads = true) : k.opening = .value := by
  cases k with
  | op s =>
    simp only [TokenKind.leads, Bool.or_eq_true, beq_iff_eq] at h
    rcases h with rfl | rfl <;> rfl
  | number | string => rfl
  | _ => cases h

theorem IsNamePlaceholder.ne_underscore {id : String} (h : IsNamePlaceholder id) : id ≠ "_" := by
  obtain ⟨n, rfl⟩ := h
  intro same
  have first := congrArg (·.toList.head?) same
  rw [String.toList_append] at first
  cases first

theorem IsNamePlaceholder.opening {id : String} (h : IsNamePlaceholder id) :
    (name id).opening = .named := by
  simp [TokenKind.opening, h.ne_underscore, Readable.constantWord?_eq_none h.isIdentifier.notKeyword]

theorem isLed_dotted (id : String) (attrs : List String) : (dotted id attrs).isLed = false := by
  induction attrs using List.reverseRecOn with
  | nil => rfl
  | append_singleton attrs attr ih =>
    rw [dotted, List.foldl_append]
    simp only [List.foldl_cons, List.foldl_nil, Expr.isLed]
    rw [← dotted, ih, Bool.false_and]

theorem placeholder_of_dotted {id : String} {attrs : List String}
    (h : Regular .shown (.expr (dotted id attrs))) : IsNamePlaceholder id := by
  induction attrs using List.reverseRecOn with
  | nil =>
    cases h with
    | name _ fits => exact fits
  | append_singleton attrs attr ih =>
    rw [dotted, List.foldl_append] at h
    cases h with
    | member hv => exact ih hv

theorem opening_value {e : Expr} (led : e.isLed = true) : (Pattern.value e).opening = .value := by
  rw [Pattern.opening, if_pos led]

theorem opening_dotted (id : String) (attrs : List String) :
    (Pattern.value (dotted id attrs)).opening = .named := by
  rw [Pattern.opening, isLed_dotted, if_neg Bool.false_ne_true]

theorem kindsAsOperand_eq {p : Pattern} (closed : p.isLoose = false) : p.kindsAsOperand p.kinds = p.kinds :=
  if_neg (Bool.eq_false_iff.1 closed)

/-- The first token tells what sort of pattern it begins. -/
theorem Pattern.Formed.opens {p : Pattern} (h : p.Formed .shown) :
    ∃ k rest, p.kindsAsOperand p.kinds = k :: rest ∧ k.opening = p.opening := by
  cases h with
  | value h led _ =>
    obtain ⟨k, rest, same, leads⟩ := isLead_of_regular h led
    exact ⟨k, rest, same, by rw [opening_of_leads leads, opening_value led]⟩
  | @dotted id attr attrs h =>
    refine ⟨_, _, kinds_dotted id (attr :: attrs), ?_⟩
    rw [opening_dotted, (placeholder_of_dotted h).opening]
  | singleton c => rcases c with _ | _ | _ <;> exact ⟨_, _, rfl, rfl⟩
  | sequence | mapping | star | wildcard | bind | or => exact ⟨_, _, rfl, rfl⟩
  | @cls id attrs patterns keywords head =>
    refine ⟨name id, attrs.flatMap (fun attr => [op ".", name attr]) ++ op "(" ::
      commaKinds (patternKinds patterns ++ keywordPatternKinds keywords) ++ [op ")"], ?_,
      (placeholder_of_dotted head).opening⟩
    rw [kindsAsOperand_eq rfl, Pattern.kinds, kinds_dotted]
    simp
  | capture binds => exact ⟨_, _, rfl, binds.fits.opening⟩

/-- What stands behind a name with attributes in a pattern that begins so. -/
inductive Pattern.Named (id : String) : List String → Pattern → List TokenKind → Prop
  | capture : Named id [] (.capture id) []
  | value (attr : String) (attrs : List String) :
    Named id (attr :: attrs) (.value (dotted id (attr :: attrs))) []
  | cls {attrs : List String} {patterns : List Pattern} {keywords : List KeywordPattern}
    (hp : ∀ p ∈ patterns, p.Formed .shown) (names : ∀ k ∈ keywords, IsIdentifier k.attr)
    (hk : ∀ k ∈ keywords, k.pattern.Formed .shown) :
    Named id attrs (.cls (dotted id attrs) patterns keywords)
      (op "(" :: commaKinds (patternKinds patterns ++ keywordPatternKinds keywords) ++ [op ")"])

/-- What is known of a pattern that begins in some way. -/
def Pattern.Shape (p : Pattern) : Opening → Prop
  | .bracket => p.isLoose = true
  | .sequence => ∃ ps, p = .sequence ps ∧ ∀ q ∈ ps, q.Formed .shown
  | .mapping => ∃ items rest, p = .mapping items rest ∧
    ∀ i ∈ items, Regular .shown (.expr i.key) ∧ i.pattern.Formed .shown
  | .star => ∃ rest, p = .star rest ∧ ∀ id ∈ rest, IsNamePlaceholder id
  | .wildcard => p = .wildcard
  | .word => ∃ c, p = .singleton c
  | .named => ∃ id attrs tail, p.Named id attrs tail
  | .value => ∃ e, p = .value e ∧ Regular .shown (.expr e) ∧ Strength.sum ≤ e.strength
  | .none => False

theorem Pattern.Formed.shape {p : Pattern} (h : p.Formed .shown) : p.Shape p.opening := by
  cases h with
  | value h led tight =>
    rw [opening_value led]
    exact ⟨_, rfl, h, tight⟩
  | dotted h =>
    rw [opening_dotted]
    exact ⟨_, _, _, .value _ _⟩
  | singleton c => exact ⟨c, rfl⟩
  | sequence h => exact ⟨_, rfl, h⟩
  | mapping keys h => exact ⟨_, _, rfl, fun i hi => ⟨keys i hi, h i hi⟩⟩
  | cls _ hp names hk => exact ⟨_, _, _, .cls hp names hk⟩
  | star binds => exact ⟨_, rfl, fun id hid => (binds id hid).fits⟩
  | wildcard => exact rfl
  | capture => exact ⟨_, _, _, .capture⟩
  | bind | or => exact rfl

theorem Pattern.Named.kinds {p : Pattern} {id : String} {attrs : List String} {tail : List TokenKind}
    (h : p.Named id attrs tail) :
    p.kinds = name id :: attrs.flatMap (fun attr => [op ".", name attr]) ++ tail := by
  cases h with
  | capture => rfl
  | value attr attrs => rw [Pattern.kinds, kinds_dotted, List.append_nil]
  | cls => rw [Pattern.kinds, kinds_dotted, List.append_assoc, List.cons_append, List.cons_append]

/-! Alternatives. -/

/-- What a pattern has between its bars. -/
def Pattern.operands : Pattern → List Pattern
  | .or ps => ps
  | .bind p _ => [p]
  | p => [p]

/-- The name for what a pattern matches. -/
def Pattern.bound : Pattern → Option String
  | .bind _ id => some id
  | _ => none

def boundKinds : Option String → List TokenKind
  | none => []
  | some id => [name "as", name id]

theorem cut_bound {o o' : Option String} {K K' : List TokenKind} (last : headOf K ≠ name "as")
    (last' : headOf K' ≠ name "as") (same : boundKinds o ++ K = boundKinds o' ++ K') : o = o' ∧ K = K' := by
  have marked : ∀ o, boundKinds o = o.elim [] (name "as" :: [name ·]) := by
    intro o
    cases o <;> rfl
  rw [marked, marked] at same
  refine cut_maybe (P := fun _ => True) (fun id _ id' _ L L' _ _ same => ?_) trivial trivial last last' same
  simpa using same

/-- A pattern by its operands. -/
structure Pattern.Divides (p first : Pattern) (rest : List Pattern) : Prop where
  operands : p.operands = first :: rest
  kinds : p.kinds = first.kindsAsOperand first.kinds ++
    (rest.flatMap (fun q => op "|" :: q.kindsAsOperand q.kinds) ++ boundKinds p.bound)
  formed : ∀ q ∈ first :: rest, q.Formed .shown

theorem Pattern.Formed.divides {p : Pattern} (h : p.Formed .shown) : ∃ first rest, p.Divides first rest := by
  have single : ∀ {p : Pattern}, p.Formed .shown → p.isLoose = false → p.operands = [p] → p.bound = none →
      ∃ first rest, p.Divides first rest := by
    intro p h closed operands bound
    refine ⟨p, [], operands, ?_, List.forall_mem_singleton.2 h⟩
    rw [kindsAsOperand_eq closed, bound, boundKinds, List.flatMap_nil, List.append_nil, List.append_nil]
  cases h with
  | @bind p id hp binds _ =>
    exact ⟨p, [], rfl, by rw [Pattern.kinds]; rfl, List.forall_mem_singleton.2 hp⟩
  | @or first second rest hf hs hr _ =>
    refine ⟨first, second :: rest, rfl, ?_, List.forall_mem_cons.2 ⟨hf, List.forall_mem_cons.2 ⟨hs, hr⟩⟩⟩
    have bound : (Pattern.or (first :: second :: rest)).bound = none := rfl
    rw [Pattern.kinds, operandKinds_eq, List.map_cons, barKinds, List.flatMap_map, bound, boundKinds,
      List.append_nil]
  | value h led tight => exact single (.value h led tight) rfl rfl rfl
  | dotted h => exact single (.dotted h) rfl rfl rfl
  | singleton c => exact single (.singleton c) rfl rfl rfl
  | sequence h => exact single (.sequence h) rfl rfl rfl
  | mapping keys h binds alone => exact single (.mapping keys h binds alone) rfl rfl rfl
  | cls head hp names hk alone keywordsAlone =>
    exact single (.cls head hp names hk alone keywordsAlone) rfl rfl rfl
  | star binds => exact single (.star binds) rfl rfl rfl
  | wildcard => exact single .wildcard rfl rfl rfl
  | capture binds => exact single (.capture binds) rfl rfl rfl

/-- A pattern is what its operands and its name say. -/
theorem Pattern.Formed.eq_of_operands {p p' : Pattern} (h : p.Formed .shown) (h' : p'.Formed .shown)
    (operands : p.operands = p'.operands) (bound : p.bound = p'.bound) : p = p' := by
  cases h <;> cases h' <;> simp_all [Pattern.operands, Pattern.bound]

/-! Cuts. -/

/-- What may follow a pattern that stands alone. -/
structure PatternEnds (K : List TokenKind) : Prop where
  stop : Stop Strength.bitOr K
  noName : headOf K ≠ name "as"
  noSign : headOf K ≠ op "="

def Pattern.Cuts (p : Pattern) : Prop :=
  ∀ p' : Pattern, p'.Formed .shown → Cut Pattern.kinds PatternEnds p p'

/-- The same of the pattern as an operand. -/
def Pattern.CutsOperand (p : Pattern) : Prop :=
  ∀ p' : Pattern, p'.Formed .shown → Cut (fun p => p.kindsAsOperand p.kinds) (Stop Strength.sum) p p'

section Cuts

variable {p p' : Pattern} {K K' : List TokenKind}

theorem patternEnds_closing {s : String} (h : s ∈ [")", "]", "\x7d", ":", ","]) (K : List TokenKind) :
    PatternEnds (op s :: K) := by
  have joins : (op s).joins = 0 := by
    revert s
    decide
  refine ⟨stop_cons (by rw [joins]; decide) K, by simp, ?_⟩
  rintro ⟨⟩
  revert h
  decide

theorem cuts_of_operands (h : p.Formed .shown) (cuts : ∀ q ∈ p.operands, q.CutsOperand) : p.Cuts := by
  intro p' h' K K' ends ends' same
  obtain ⟨first, rest, divides⟩ := h.divides
  obtain ⟨first', rest', divides'⟩ := h'.divides
  rw [divides.kinds, divides'.kinds, List.append_assoc, List.append_assoc, List.append_assoc,
    List.append_assoc] at same
  have last : ∀ {b : Option String} {K}, PatternEnds K →
      Stop Strength.sum (boundKinds b ++ K) ∧ headOf (boundKinds b ++ K) ≠ op "|" := by
    intro b K ends
    cases b with
    | none => exact ⟨ends.stop.mono (by decide), ends.stop.ne (by decide)⟩
    | some id => exact ⟨stop_cons (by decide) _, by simp [boundKinds]⟩
  have cut : ∀ q ∈ first :: rest, ∀ q' ∈ first' :: rest',
      Cut (fun p => p.kindsAsOperand p.kinds) (Stop Strength.sum) q q' := fun q hq q' hq' =>
    cuts q (divides.operands ▸ hq) q' (divides'.formed q' hq')
  obtain ⟨operands, left⟩ := cut_separated cut (fun K => stop_cons (by decide) K) (last ends).1
    (last ends').1 (last ends).2 (last ends').2 same
  rw [← divides.operands, ← divides'.operands] at operands
  obtain ⟨bound, rest⟩ := cut_bound ends.noName ends'.noName left
  exact ⟨h.eq_of_operands h' operands bound, rest⟩

theorem opening_eq (h : p.Formed .shown) (h' : p'.Formed .shown)
    (same : p.kindsAsOperand p.kinds ++ K = p'.kindsAsOperand p'.kinds ++ K') : p'.opening = p.opening := by
  obtain ⟨k, rest, kinds, opening⟩ := h.opens
  obtain ⟨k', rest', kinds', opening'⟩ := h'.opens
  rw [kinds, kinds', List.cons_append, List.cons_append, List.cons.injEq] at same
  rw [← opening, ← opening', same.1]

theorem cutsOperand_of_loose (h : p.Formed .shown) (loose : p.isLoose = true) (cuts : p.Cuts) :
    p.CutsOperand := by
  intro p' h' K K' _ _ same
  have opening : p.opening = .bracket := by cases p <;> first | rfl | cases loose
  have loose' : p'.isLoose = true := by
    have shape := h'.shape
    rwa [opening_eq h h' same, opening] at shape
  simp only [Pattern.kindsAsOperand, if_pos loose, if_pos loose', List.cons_append, List.append_assoc,
    List.cons.injEq, true_and, List.nil_append] at same
  obtain ⟨whole, left⟩ := cuts p' h' (patternEnds_closing (by decide) _) (patternEnds_closing (by decide) _) same
  exact ⟨whole, (List.cons.inj left).2⟩

/-- A pattern begins with no mark that ends a list. -/
theorem Pattern.Formed.head_ne (h : p.Formed .shown) {s : String} (closing : s ∈ [")", "]", "\x7d", ":", ","]) :
    headOf (p.kinds ++ K) ≠ op s := by
  obtain ⟨first, rest, divides⟩ := h.divides
  obtain ⟨k, tail, kinds, opening⟩ := (divides.formed first List.mem_cons_self).opens
  have shape := (divides.formed first List.mem_cons_self).shape
  have none : (op s).opening = .none := by
    clear kinds opening
    revert s
    decide
  rw [divides.kinds, kinds]
  rintro rfl
  rw [← opening, none] at shape
  exact shape

/-- Patterns that begin in one way are compared by their tokens. -/
theorem cutsOperand_of_closed (h : p.Formed .shown) (closed : p.isLoose = false)
    (cut : ∀ p' : Pattern, p'.Formed .shown → p'.Shape p.opening → Cut Pattern.kinds (Stop Strength.sum) p p') :
    p.CutsOperand := by
  have apart : ∀ p : Pattern, p.isLoose = false ↔ p.opening ≠ .bracket := by
    intro p
    cases p with
    | value e =>
      rw [Pattern.opening]
      refine ⟨fun _ => ?_, fun _ => rfl⟩
      split <;> nofun
    | or | bind => simp [Pattern.isLoose, Pattern.opening]
    | _ => exact ⟨nofun, fun _ => rfl⟩
  intro p' h' K K' stop stop' same
  have opening := opening_eq h h' same
  have closed' : p'.isLoose = false := by
    rw [apart, opening, ← apart]
    exact closed
  refine cut p' h' (opening ▸ h'.shape) stop stop' ?_
  rw [← kindsAsOperand_eq closed, ← kindsAsOperand_eq closed']
  exact same

/-- Items between commas in brackets. -/
theorem cut_bracketed {α : Type} (kinds : α → List TokenKind) (closing : String) {xs ys : List α}
    (bracket : closing ∈ [")", "]", "\x7d"]) (cut : ∀ a ∈ xs, ∀ b ∈ ys, Cut kinds PatternEnds a b)
    (front : ∀ a, a ∈ xs ∨ a ∈ ys → ∀ K, headOf (kinds a ++ K) ≠ op closing)
    (same : commaKinds (xs.map kinds) ++ op closing :: K = commaKinds (ys.map kinds) ++ op closing :: K') :
    xs = ys ∧ K = K' := by
  have known : closing ∈ [")", "]", "\x7d", ":", ","] ∧ closing ≠ "," := by
    clear same front
    revert closing
    decide
  have follows : ∀ K, headOf K ∈ [op closing] → PatternEnds K := by
    intro K last
    cases K with
    | nil => simp at last
    | cons k K =>
      obtain rfl : k = op closing := by simpa using last
      exact patternEnds_closing known.1 K
  obtain ⟨whole, left⟩ := cut_commas [op closing] cut (fun a ha K => by simpa using front a ha K)
    (patternEnds_closing (by decide)) follows (by simpa using known.2.symm) (by simp) (by simp) same
  exact ⟨whole, (List.cons.inj left).2⟩

theorem cut_sequence {ps : List Pattern} (h : ∀ q ∈ ps, q.Formed .shown) (cuts : ∀ q ∈ ps, q.Cuts) :
    (Pattern.sequence ps).CutsOperand := by
  refine cutsOperand_of_closed (.sequence h) rfl fun p' h' shape K K' _ _ same => ?_
  obtain ⟨ps', rfl, formed⟩ := shape
  simp only [Pattern.kinds, patternKinds_eq, List.cons_append, List.append_assoc, List.cons.injEq, true_and,
    List.nil_append] at same
  obtain ⟨rfl, rfl⟩ := cut_bracketed Pattern.kinds "]" (by decide)
    (fun q hq q' hq' => cuts q hq q' (formed q' hq'))
    (fun q hq K => hq.elim (fun hq => (h q hq).head_ne (by decide)) fun hq => (formed q hq).head_ne (by decide))
    same
  exact ⟨rfl, rfl⟩

/-- The two sorts of items in a list. -/
theorem eq_of_map_inl_append {α β : Type} {as as' : List α} {bs bs' : List β}
    (same : as.map Sum.inl ++ bs.map Sum.inr = as'.map Sum.inl ++ bs'.map Sum.inr) : as = as' ∧ bs = bs' := by
  have left := congrArg (List.filterMap Sum.getLeft?) same
  have right := congrArg (List.filterMap Sum.getRight?) same
  simp only [List.filterMap_append, List.filterMap_map, Function.comp_def, Sum.getLeft?_inl,
    Sum.getLeft?_inr, Sum.getRight?_inl, Sum.getRight?_inr, List.filterMap_some, List.filterMap_none,
    List.append_nil, List.nil_append] at left right
  exact ⟨left, right⟩

theorem cut_entry {i i' : MappingItem} (key : Regular .shown (.expr i.key)) (cuts : i.pattern.Cuts)
    (key' : Regular .shown (.expr i'.key)) (h' : i'.pattern.Formed .shown) :
    Cut MappingItem.kinds PatternEnds i i' := by
  intro K K' ends ends' same
  obtain ⟨k, p⟩ := i
  obtain ⟨k', p'⟩ := i'
  simp only [MappingItem.kinds, List.append_assoc, List.cons_append] at same
  obtain ⟨rfl, rest⟩ := cut_whole key key' (stop_cons (by decide) _) (stop_cons (by decide) _) same
  obtain ⟨rfl, left⟩ := cuts p' h' ends ends' (List.cons.inj rest).2
  exact ⟨rfl, left⟩

/-- An expression begins with none of the signs that begin no expression. -/
theorem Regular.head_ne {e : Expr} (h : Regular .shown (.expr e)) {k : TokenKind} (low : k.opens < Strength.named)
    (K : List TokenKind) : headOf (e.kinds ++ K) ≠ k := by
  rintro rfl
  exact Nat.not_le_of_lt low (Nat.le_trans h.strength_shown (h.begins_shown.opens_le K))

theorem cut_mapping {items : List MappingItem} {rest : Option String}
    (keys : ∀ i ∈ items, Regular .shown (.expr i.key)) (h : ∀ i ∈ items, i.pattern.Formed .shown)
    (binds : ∀ id ∈ rest, Leeway.shown.Binds id) (alone : ∀ i ∈ items, i.pattern.isStar = false)
    (cuts : ∀ i ∈ items, i.pattern.Cuts) :
    (Pattern.mapping items rest).CutsOperand := by
  refine cutsOperand_of_closed (.mapping keys h binds alone) rfl fun p' h' shape K K' _ _ same => ?_
  obtain ⟨items', rest', rfl, formed⟩ := shape
  -- Entries and the name for the rest are one list.
  let kinds : MappingItem ⊕ String → List TokenKind :=
    Sum.elim MappingItem.kinds fun id => [op "**", name id]
  have parts : ∀ (items : List MappingItem) (rest : Option String),
      mappingKinds items ++ rest.toList.map (fun id => [op "**", name id]) =
        (items.map Sum.inl ++ rest.toList.map Sum.inr).map kinds := by
    intro items rest
    simp [mappingKinds_eq, kinds]
  simp only [Pattern.kinds, parts, List.cons_append, List.append_assoc, List.cons.injEq, true_and,
    List.nil_append] at same
  have front : ∀ {i : MappingItem}, Regular .shown (.expr i.key) → ∀ {k : TokenKind},
      k.opens < Strength.named → ∀ K, headOf (i.kinds ++ K) ≠ k := by
    intro i key k low K
    rw [MappingItem.kinds, List.append_assoc]
    exact key.head_ne low _
  have entry : ∀ {items : List MappingItem} {rest : Option String} {i}, Sum.inl i ∈ items.map Sum.inl ++
      rest.toList.map Sum.inr → i ∈ items := by
    intro items rest i member
    simpa using member
  obtain ⟨whole, left⟩ : items.map Sum.inl ++ rest.toList.map Sum.inr =
      items'.map Sum.inl ++ rest'.toList.map Sum.inr ∧ K = K' := by
    refine cut_bracketed kinds "\x7d" (by decide) ?_ ?_ same
    · rintro (i | id) hx (i' | id') hx' L L' ends ends' same
      · have cut := cut_entry (keys i (entry hx)) (cuts i (entry hx)) (formed i' (entry hx')).1
          (formed i' (entry hx')).2
        exact (cut ends ends' same).imp_left (congrArg _)
      · exact absurd (congrArg headOf same) (front (keys i (entry hx)) (k := op "**") (by decide) L)
      · exact absurd (congrArg headOf same).symm (front (formed i' (entry hx')).1 (k := op "**") (by decide) L')
      · obtain ⟨rfl, rfl⟩ : id = id' ∧ L = L' := by simpa [kinds] using same
        exact ⟨rfl, rfl⟩
    · rintro (i | id) hx K
      · refine front ?_ (by decide) K
        exact hx.elim (fun hx => keys i (entry hx)) fun hx => (formed i (entry hx)).1
      · simp [kinds]
  obtain ⟨rfl, spread⟩ := eq_of_map_inl_append whole
  have same : rest = rest' := by
    cases rest <;> cases rest' <;> simp_all
  exact ⟨congrArg _ same, left⟩

/-- A pattern does not begin as a keyword argument does. -/
theorem Pattern.Formed.begins (h : p.Formed .shown) : Begins 0 p.kinds := by
  have operand : ∀ {q : Pattern}, q.Formed .shown → Begins 0 (q.kindsAsOperand q.kinds) := by
    intro q h
    cases h with
    | value h => exact h.begins_shown.mono (Nat.zero_le _)
    | dotted h => exact h.begins_shown.mono (Nat.zero_le _)
    | singleton c => rcases c with _ | _ | _ <;> exact begins_one rfl
    | capture | wildcard => exact begins_one rfl
    | sequence | mapping | star | bind | or => exact begins_symbol rfl
    | cls head =>
      rw [kindsAsOperand_eq rfl, Pattern.kinds, List.append_assoc]
      exact (head.begins_shown.mono (Nat.zero_le _)).append (by simp)
  obtain ⟨first, rest, divides⟩ := h.divides
  rw [divides.kinds]
  refine (operand (divides.formed first List.mem_cons_self)).append ?_
  cases rest with
  | cons q rest => simp
  | nil => cases p.bound <;> simp [boundKinds]

theorem cut_keyword {k k' : KeywordPattern} (cuts : k.pattern.Cuts) (h' : k'.pattern.Formed .shown) :
    Cut KeywordPattern.kinds PatternEnds k k' := by
  intro K K' ends ends' same
  obtain ⟨attr, q⟩ := k
  obtain ⟨attr', q'⟩ := k'
  simp only [KeywordPattern.kinds, List.cons_append, List.cons.injEq, TokenKind.name.injEq, true_and] at same
  obtain ⟨rfl, same⟩ := same
  obtain ⟨rfl, left⟩ := cuts q' h' ends ends' same
  exact ⟨rfl, left⟩

/-- The arguments of a class pattern. -/
theorem cut_arguments {ps ps' : List Pattern} {ks ks' : List KeywordPattern}
    (hp : ∀ q ∈ ps, q.Formed .shown) (hp' : ∀ q ∈ ps', q.Formed .shown) (cutsP : ∀ q ∈ ps, q.Cuts)
    (hk' : ∀ k ∈ ks', k.pattern.Formed .shown) (cutsK : ∀ k ∈ ks, k.pattern.Cuts)
    (same : commaKinds (patternKinds ps ++ keywordPatternKinds ks) ++ op ")" :: K =
      commaKinds (patternKinds ps' ++ keywordPatternKinds ks') ++ op ")" :: K') :
    (ps = ps' ∧ ks = ks') ∧ K = K' := by
  -- Both sorts of arguments are one list.
  let kinds : Pattern ⊕ KeywordPattern → List TokenKind := Sum.elim Pattern.kinds KeywordPattern.kinds
  have parts : ∀ (ps : List Pattern) (ks : List KeywordPattern), patternKinds ps ++ keywordPatternKinds ks =
      (ps.map Sum.inl ++ ks.map Sum.inr).map kinds := by
    intro ps ks
    simp [patternKinds_eq, keywordPatternKinds_eq, kinds]
  have positional : ∀ {ps : List Pattern} {ks : List KeywordPattern} {q},
      Sum.inl q ∈ ps.map Sum.inl ++ ks.map Sum.inr → q ∈ ps := by
    intro ps ks q member
    simpa using member
  have keyword : ∀ {ps : List Pattern} {ks : List KeywordPattern} {k},
      Sum.inr k ∈ ps.map Sum.inl ++ ks.map Sum.inr → k ∈ ks := by
    intro ps ks k member
    simpa using member
  have apart : ∀ {q : Pattern} {k : KeywordPattern} {L L'}, q.Formed .shown → PatternEnds L →
      q.kinds ++ L ≠ k.kinds ++ L' := by
    intro q k L L' h ends same
    obtain ⟨t, rest, kinds, -, second⟩ := h.begins.append ends.noSign
    rw [kinds, KeywordPattern.kinds, List.cons_append, List.cons_append, List.cons.injEq] at same
    exact second _ same.1 (by rw [same.2]; rfl)
  rw [parts, parts] at same
  obtain ⟨whole, left⟩ : ps.map Sum.inl ++ ks.map Sum.inr = ps'.map Sum.inl ++ ks'.map Sum.inr ∧ K = K' := by
    refine cut_bracketed kinds ")" (by decide) ?_ ?_ same
    · rintro (q | k) hx (q' | k') hx' L L' ends ends' same
      · exact (cutsP q (positional hx) q' (hp' q' (positional hx')) ends ends' same).imp_left (congrArg _)
      · exact absurd same (apart (hp q (positional hx)) ends)
      · exact absurd same.symm (apart (hp' q' (positional hx')) ends')
      · exact (cut_keyword (cutsK k (keyword hx)) (hk' k' (keyword hx')) ends ends' same).imp_left (congrArg _)
    · rintro (q | k) hx K
      · exact hx.elim (fun hx => (hp q (positional hx)).head_ne (by decide))
          fun hx => (hp' q (positional hx)).head_ne (by decide)
      · simp [kinds, KeywordPattern.kinds]
  exact ⟨eq_of_map_inl_append whole, left⟩

theorem cut_attributes {attrs attrs' : List String} (last : headOf K ≠ op ".") (last' : headOf K' ≠ op ".")
    (same : attrs.flatMap (fun attr => [op ".", name attr]) ++ K =
      attrs'.flatMap (fun attr => [op ".", name attr]) ++ K') : attrs = attrs' ∧ K = K' := by
  refine cut_items (P := fun _ => True) (Q := fun K => headOf K ≠ op ".") ?_ (by simp) (by simp) (by simp)
    last last' same
  rintro a - b - L L' - - same
  simpa using same

/-- Patterns that begin with a name. -/
theorem cut_named {id : String} {attrs : List String} {tail : List TokenKind} (named : p.Named id attrs tail)
    (parts : ∀ head ps ks, p = .cls head ps ks → (∀ q ∈ ps, q.Cuts) ∧ ∀ k ∈ ks, k.pattern.Cuts)
    {id' : String} {attrs' : List String} {tail' : List TokenKind} (named' : p'.Named id' attrs' tail') :
    Cut Pattern.kinds (Stop Strength.sum) p p' := by
  intro K K' stop stop' same
  have last : ∀ {p : Pattern} {id attrs tail K}, p.Named id attrs tail → Stop Strength.sum K →
      headOf (tail ++ K) ≠ op "." := by
    intro p id attrs tail K named stop
    cases named with
    | capture | value => exact stop.ne (by decide)
    | cls => simp
  rw [named.kinds, named'.kinds, List.append_assoc, List.append_assoc, List.cons_append, List.cons_append,
    List.cons.injEq, TokenKind.name.injEq] at same
  obtain ⟨rfl, rest⟩ := same
  obtain ⟨rfl, left⟩ := cut_attributes (last named stop) (last named' stop') rest
  have noCall : ∀ {K}, Stop Strength.sum K → headOf K ≠ op "(" := fun stop => stop.ne (by decide)
  cases named with
  | capture =>
    cases named' with
    | capture => exact ⟨rfl, left⟩
    | cls => exact absurd (congrArg headOf left) (noCall stop)
  | value attr attrs =>
    cases named' with
    | value => exact ⟨rfl, left⟩
    | cls => exact absurd (congrArg headOf left) (noCall stop)
  | cls hp names hk =>
    cases named' with
    | capture | value => exact absurd (congrArg headOf left).symm (noCall stop')
    | cls hp' names' hk' =>
      simp only [List.cons_append, List.append_assoc, List.cons.injEq, true_and, List.nil_append] at left
      obtain ⟨cutsP, cutsK⟩ := parts _ _ _ rfl
      obtain ⟨⟨rfl, rfl⟩, rfl⟩ := cut_arguments hp hp' cutsP hk' cutsK left
      exact ⟨rfl, rfl⟩

end Cuts

theorem cut_star {rest rest' : Option String} (h : ∀ id ∈ rest, IsNamePlaceholder id)
    (h' : ∀ id ∈ rest', IsNamePlaceholder id) (same : rest.getD "_" = rest'.getD "_") : rest = rest' := by
  cases rest with
  | none =>
    cases rest' with
    | none => rfl
    | some id' => exact absurd same.symm (h' id' rfl).ne_underscore
  | some id =>
    cases rest' with
    | none => exact absurd same (h id rfl).ne_underscore
    | some id' => exact congrArg some same

/-- Patterns in canonical form are told apart by their tokens. -/
theorem Pattern.Formed.cuts {p : Pattern} (h : p.Formed .shown) : p.Cuts := by
  suffices p.CutsOperand ∧ p.Cuts from this.2
  have closed : ∀ {p : Pattern}, p.Formed .shown → p.operands = [p] → p.CutsOperand →
      p.CutsOperand ∧ p.Cuts := by
    intro p h operands cut
    exact ⟨cut, cuts_of_operands h (operands ▸ List.forall_mem_singleton.2 cut)⟩
  have loose : ∀ {p : Pattern}, p.Formed .shown → p.isLoose = true → (∀ q ∈ p.operands, q.CutsOperand) →
      p.CutsOperand ∧ p.Cuts := by
    intro p h loose cut
    have cuts := cuts_of_operands h cut
    exact ⟨cutsOperand_of_loose h loose cuts, cuts⟩
  have named : ∀ {p : Pattern} {id attrs tail}, p.Formed .shown → p.Named id attrs tail →
      (∀ head ps ks, p = .cls head ps ks → (∀ q ∈ ps, q.Cuts) ∧ ∀ k ∈ ks, k.pattern.Cuts) →
      p.CutsOperand ∧ p.Cuts := by
    intro p id attrs tail h named parts
    have known : p.operands = [p] ∧ p.isLoose = false ∧ p.opening = .named := by
      cases named with
      | value attr attrs => exact ⟨rfl, rfl, opening_dotted _ _⟩
      | capture | cls => exact ⟨rfl, rfl, rfl⟩
    refine closed h known.1 (cutsOperand_of_closed h known.2.1 fun p' _ shape => ?_)
    rw [known.2.2] at shape
    obtain ⟨id', attrs', tail', named'⟩ := shape
    exact cut_named named parts named'
  induction h with
  | value h led tight =>
    refine closed (.value h led tight) rfl (cutsOperand_of_closed (.value h led tight) rfl ?_)
    rintro p' - shape K K' stop stop' same
    rw [opening_value led] at shape
    obtain ⟨e', rfl, h', tight'⟩ := shape
    exact (cut_tight h h' (by decide) (by decide) tight tight' stop stop' same).imp_left (congrArg _)
  | dotted h => exact named (.dotted h) (.value _ _) (by simp)
  | singleton c =>
    refine closed (.singleton c) rfl (cutsOperand_of_closed (.singleton c) rfl ?_)
    rintro p' - ⟨c', rfl⟩ K K' - - same
    rcases c with _ | _ | _ <;> rcases c' with _ | _ | _ <;>
      simp_all [Pattern.kinds, Constant.kinds, WordConstant.constant, Constant.text]
  | sequence h ih => exact closed (.sequence h) rfl (cut_sequence h fun q hq => (ih q hq).2)
  | mapping keys h binds alone ih =>
    exact closed (.mapping keys h binds alone) rfl (cut_mapping keys h binds alone fun i hi => (ih i hi).2)
  | cls head hp names hk alone keywordsAlone ihp ihk =>
    refine named (.cls head hp names hk alone keywordsAlone) (.cls hp names hk) ?_
    rintro _ _ _ ⟨⟩
    exact ⟨fun q hq => (ihp q hq).2, fun k hk => (ihk k hk).2⟩
  | star binds =>
    refine closed (.star binds) rfl (cutsOperand_of_closed (.star binds) rfl ?_)
    rintro p' - ⟨rest', rfl, fits⟩ K K' - - same
    simp only [Pattern.kinds, List.cons_append, List.nil_append, List.cons.injEq, TokenKind.name.injEq,
      true_and] at same
    obtain ⟨same, left⟩ := same
    exact ⟨congrArg _ (cut_star (fun id hid => (binds id hid).fits) fits same), left⟩
  | wildcard =>
    refine closed .wildcard rfl (cutsOperand_of_closed .wildcard rfl ?_)
    rintro p' - rfl K K' - - same
    exact ⟨rfl, List.append_cancel_left same⟩
  | capture binds => exact named (.capture binds) .capture (by simp)
  | bind h binds alone ih => exact loose (.bind h binds alone) rfl (List.forall_mem_singleton.2 ih.1)
  | or hf hs hr alone ihf ihs ihr =>
    exact loose (.or hf hs hr alone) rfl (List.forall_mem_cons.2 ⟨ihf.1, List.forall_mem_cons.2 ⟨ihs.1,
      fun q hq => (ihr q hq).1⟩⟩)

end Arbiter.Syntax
