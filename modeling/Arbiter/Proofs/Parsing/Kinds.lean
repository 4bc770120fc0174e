import Arbiter.Proofs.Parsing.Takes
import Arbiter.Syntax.Expr.Printer
import Arbiter.Syntax.Parser.Operator
import Mathlib.Logic.Equiv.List

/-! The tokens of the text of an expression, by their kinds, written down along the text. The lexer takes
an f-string for one token; here it is spelled out as a call of the ellipsis with the pieces for arguments,
after a `yield` that no other call has, and the marks of its fields are names. -/

namespace Arbiter.Syntax

theorem toString_injective : Function.Injective fun n : Nat => toString n := by
  intro m n same
  have digits : Nat.toDigits 10 m = Nat.toDigits 10 n := by
    simpa [toString, Nat.repr_eq_ofList_toDigits] using congrArg String.toList same
  have value (k : Nat) : Nat.ofDigitChars 10 (Nat.toDigits 10 k) 0 = k :=
    Nat.ofDigitChars_toDigits (by decide) (by decide)
  rw [← value m, digits, value n]

/-- A name for the conversion or the format text of a field, which may be missing. -/
def markName (mark : Option (List Char)) : String :=
  "MARK_" ++ toString (Encodable.encode (mark.map (·.map Char.toNat)))

theorem markName_injective : Function.Injective markName := by
  intro a b same
  have codes : a.map (·.map Char.toNat) = b.map (·.map Char.toNat) :=
    Encodable.encode_injective (toString_injective ((String.append_right_inj _).1 same))
  have chars : Function.Injective Char.toNat := fun c d h => Char.ext (UInt32.toNat_inj.1 h)
  exact Option.map_injective (List.map_injective_iff.2 chars) codes

def conversionName (conversion : Option Char) : String := markName (conversion.map fun c => [c])

def specName (spec : Option String) : String := markName (spec.map String.toList)

theorem conversionName_injective : Function.Injective conversionName := fun _ _ same =>
  Option.map_injective (fun _ _ h => List.head_eq_of_cons_eq h) (markName_injective same)

theorem specName_injective : Function.Injective specName := fun _ _ same =>
  Option.map_injective (fun _ _ h => String.toList_injective h) (markName_injective same)

end Arbiter.Syntax

namespace Arbiter.Syntax

open TokenKind (op name)

/-- The tokens of a text. -/
def textKinds (s : String) : List TokenKind :=
  match (Scan.start s).run with
  | .ok t => t.tokens.reverse.map (·.kind)
  | .error _ => []

def Constant.kinds : Constant → List TokenKind
  | .int s | .float s | .complex s => [.number s]
  | .str s | .bytes s => textKinds s
  | .bool b => [name (Constant.bool b).text]
  | .none => [name "None"]
  | .ellipsis => [op "..."]

def UnaryOp.kind : UnaryOp → TokenKind
  | not => name "not"
  | invert => op "~"
  | plus => op "+"
  | minus => op "-"

def CompareOp.kinds : CompareOp → List TokenKind
  | isNot => [name "is", name "not"]
  | notIn => [name "not", name "in"]
  | is => [name "is"]
  | isIn => [name "in"]
  | o => [op o.symbol]

/-- The tokens `ks` of `e` where an operand has to bind at least as tightly as `least`. -/
def Expr.kindsWithin (least : Nat) (e : Expr) (ks : List TokenKind) : List TokenKind :=
  if e.strength < least then op "(" :: ks ++ [op ")"] else ks

def commaKinds : List (List TokenKind) → List TokenKind
  | [] => []
  | k :: ks => k ++ ks.flatMap (op "," :: ·)

/-- The items of a tuple; a single one has a comma after it. -/
def tupleKinds (items : List (List TokenKind)) : List TokenKind :=
  commaKinds items ++ if items.length = 1 then [op ","] else []

mutual

def Expr.kinds : Expr → List TokenKind
  | .name id _ => [name id]
  | .constant c => c.kinds
  | .joinedStr parts =>
    op "..." :: op "(" :: op "(" :: name "yield" :: op ")" :: partKinds parts ++ [op ")"]
  | .attribute value attr _ =>
    value.kindsWithin Strength.atom value.kinds ++ [op ".", name attr]
  | .subscript value (.tuple elts _) _ =>
    let index :=
      if elts.isEmpty then [op "(", op ")"] else tupleKinds (kindsOfItems Strength.test elts)
    value.kindsWithin Strength.atom value.kinds ++ op "[" :: index ++ [op "]"]
  | .subscript value index _ =>
    value.kindsWithin Strength.atom value.kinds ++
      op "[" :: index.kindsWithin Strength.test index.kinds ++ [op "]"]
  | .slice lower upper step =>
    optionKinds [] lower ++ op ":" :: optionKinds [] upper ++ optionKinds [op ":"] step
  | .starred value _ => op "*" :: value.kindsWithin Strength.bitOr value.kinds
  | .tuple elts _ => op "(" :: tupleKinds (kindsOfItems Strength.test elts) ++ [op ")"]
  | .list elts _ => op "[" :: commaKinds (kindsOfItems Strength.test elts) ++ [op "]"]
  | .set elts =>
    if elts.isEmpty then [op "\x7b", op "*", op "(", op ")", op "\x7d"]
    else op "\x7b" :: commaKinds (kindsOfItems Strength.test elts) ++ [op "\x7d"]
  | .dict items => op "\x7b" :: commaKinds (dictKinds items) ++ [op "\x7d"]
  | .binary left o right =>
    left.kindsWithin o.leftStrength left.kinds ++
      op o.symbol :: right.kindsWithin o.rightStrength right.kinds
  | .unary o operand => o.kind :: operand.kindsWithin o.strength operand.kinds
  | .bool _ [] => []
  | .bool o (first :: rest) =>
    first.kindsWithin (o.strength + 1) first.kinds ++
      (kindsOfItems (o.strength + 1) rest).flatMap (name o.word :: ·)
  | .compare left rest =>
    left.kindsWithin (Strength.compare + 1) left.kinds ++ (comparandKinds rest).flatten
  | .call func args keywords =>
    func.kindsWithin Strength.atom func.kinds ++
      op "(" :: commaKinds (kindsOfItems Strength.test args ++ keywordKinds keywords) ++ [op ")"]
  | .ifElse test body orelse =>
    body.kindsWithin Strength.or body.kinds ++ name "if" :: test.kindsWithin Strength.or test.kinds ++
      name "else" :: orelse.kindsWithin Strength.test orelse.kinds
  | .lambda params body =>
    name "lambda" :: commaKinds (paramKinds params) ++
      op ":" :: body.kindsWithin Strength.test body.kinds
  | .listComp elt generators =>
    op "[" :: elt.kindsWithin Strength.test elt.kinds ++ generatorKinds generators ++ [op "]"]
  | .setComp elt generators =>
    op "\x7b" :: elt.kindsWithin Strength.test elt.kinds ++ generatorKinds generators ++ [op "\x7d"]
  | .generatorExp elt generators =>
    op "(" :: elt.kindsWithin Strength.test elt.kinds ++ generatorKinds generators ++ [op ")"]
  | .dictComp key value generators =>
    op "\x7b" :: key.kindsWithin Strength.test key.kinds ++
      op ":" :: value.kindsWithin Strength.test value.kinds ++ generatorKinds generators ++
        [op "\x7d"]
  | .await value => name "await" :: value.kindsWithin Strength.atom value.kinds
  | .yield value => name "yield" :: optionKinds [] value
  | .yieldFrom value =>
    name "yield" :: name "from" :: value.kindsWithin Strength.test value.kinds
  | .named target value =>
    target.kindsWithin Strength.atom target.kinds ++
      op ":=" :: value.kindsWithin Strength.test value.kinds

def kindsOfItems (least : Nat) : List Expr → List (List TokenKind)
  | [] => []
  | e :: es => e.kindsWithin least e.kinds :: kindsOfItems least es

/-- An expression that may be missing, after `mark`. -/
def optionKinds (mark : List TokenKind) : Option Expr → List TokenKind
  | none => []
  | some e => mark ++ e.kindsWithin Strength.test e.kinds

/-- A field is a condition between the names of its marks. -/
def partKinds : List FStringPart → List TokenKind
  | [] => []
  | .literal s :: rest => op "," :: name s :: partKinds rest
  | .formatted value conversion spec :: rest =>
    op "," :: value.kindsWithin Strength.or value.kinds ++
      name "if" :: name (conversionName conversion) :: name "else" :: name (specName spec) ::
      partKinds rest

def dictKinds : List DictItem → List (List TokenKind)
  | [] => []
  | .entry key value :: rest =>
    (key.kindsWithin Strength.test key.kinds ++
      op ":" :: value.kindsWithin Strength.test value.kinds) :: dictKinds rest
  | .spread value :: rest =>
    (op "**" :: value.kindsWithin Strength.bitOr value.kinds) :: dictKinds rest

def comparandKinds : List Comparand → List (List TokenKind)
  | [] => []
  | ⟨o, value⟩ :: rest =>
    (o.kinds ++ value.kindsWithin (Strength.compare + 1) value.kinds) :: comparandKinds rest

def keywordKinds : List Keyword → List (List TokenKind)
  | [] => []
  | ⟨some arg, value⟩ :: rest =>
    (name arg :: op "=" :: value.kindsWithin Strength.test value.kinds) :: keywordKinds rest
  | ⟨none, value⟩ :: rest =>
    (op "**" :: value.kindsWithin Strength.bitOr value.kinds) :: keywordKinds rest

def generatorKinds : List Generator → List TokenKind
  | [] => []
  | ⟨target, iter, ifs, isAsync⟩ :: rest =>
    (if isAsync then [name "async"] else []) ++ name "for" ::
      target.kindsWithin Strength.test target.kinds ++
      name "in" :: iter.kindsWithin Strength.or iter.kinds ++ conditionKinds ifs ++
      generatorKinds rest

def conditionKinds : List Expr → List TokenKind
  | [] => []
  | e :: es => name "if" :: e.kindsWithin Strength.or e.kinds ++ conditionKinds es

def argumentKinds : Argument → List TokenKind
  | ⟨arg, annotation⟩ => name arg :: optionKinds [op ":"] annotation

def paramKinds : List Param → List (List TokenKind)
  | [] => []
  | .plain arg default :: rest => (argumentKinds arg ++ optionKinds [op "="] default) :: paramKinds rest
  | .posOnlyMarker :: rest => [op "/"] :: paramKinds rest
  | .varArgs none :: rest => [op "*"] :: paramKinds rest
  | .varArgs (some arg) :: rest => (op "*" :: argumentKinds arg) :: paramKinds rest
  | .kwArgs arg :: rest => (op "**" :: argumentKinds arg) :: paramKinds rest

end

theorem kindsOfItems_eq (least : Nat) (es : List Expr) :
    kindsOfItems least es = es.map fun e => e.kindsWithin least e.kinds := by
  induction es with
  | nil => rfl
  | cons e es ih =>
    rw [kindsOfItems, ih]
    rfl

def DictItem.kinds : DictItem → List TokenKind
  | .entry key value =>
    key.kindsWithin Strength.test key.kinds ++ op ":" :: value.kindsWithin Strength.test value.kinds
  | .spread value => op "**" :: value.kindsWithin Strength.bitOr value.kinds

theorem dictKinds_eq (items : List DictItem) : dictKinds items = items.map DictItem.kinds := by
  induction items with
  | nil => rfl
  | cons item items ih => cases item <;> rw [dictKinds, ih] <;> rfl

def Comparand.kinds (c : Comparand) : List TokenKind :=
  c.op.kinds ++ c.value.kindsWithin (Strength.compare + 1) c.value.kinds

theorem comparandKinds_eq (rest : List Comparand) :
    comparandKinds rest = rest.map Comparand.kinds := by
  induction rest with
  | nil => rfl
  | cons c rest ih =>
    obtain ⟨o, value⟩ := c
    rw [comparandKinds, ih]
    rfl

def Keyword.kinds : Keyword → List TokenKind
  | ⟨some arg, value⟩ => name arg :: op "=" :: value.kindsWithin Strength.test value.kinds
  | ⟨none, value⟩ => op "**" :: value.kindsWithin Strength.bitOr value.kinds

theorem keywordKinds_eq (keywords : List Keyword) :
    keywordKinds keywords = keywords.map Keyword.kinds := by
  induction keywords with
  | nil => rfl
  | cons k keywords ih =>
    obtain ⟨arg, value⟩ := k
    cases arg <;> rw [keywordKinds, ih] <;> rfl

def Param.kinds : Param → List TokenKind
  | .plain arg default => argumentKinds arg ++ optionKinds [op "="] default
  | .posOnlyMarker => [op "/"]
  | .varArgs none => [op "*"]
  | .varArgs (some arg) => op "*" :: argumentKinds arg
  | .kwArgs arg => op "**" :: argumentKinds arg

theorem paramKinds_eq (params : List Param) : paramKinds params = params.map Param.kinds := by
  induction params with
  | nil => rfl
  | cons p params ih =>
    match p with
    | .plain arg default | .posOnlyMarker | .varArgs none | .varArgs (some arg) | .kwArgs arg =>
      rw [paramKinds, ih]
      rfl

/-! How tokens go with expressions. -/

namespace TokenKind

/-- How tightly an expression before the token has to bind to be left alone by it; zero for a token
that goes on with no expression. -/
def joins : TokenKind → Nat
  | .op s =>
    if s ∈ ["(", "[", "."] then Strength.atom
    else if s ∈ ["<", ">", "==", ">=", "<=", "!="] then Strength.compare
    else if s = ":=" then Strength.test
    else (BinaryOp.ofSymbol? s).elim 0 (·.strength)
  | .name w =>
    if w ∈ ["in", "not", "is"] then Strength.compare
    else if w = "and" then Strength.and
    else if w = "or" then Strength.or
    else if w = "if" then Strength.test
    else 0
  | .string _ => Strength.atom + 1
  | _ => 0

/-- How tightly an expression may bind that begins with the token; zero for a token that begins
none. -/
def opens : TokenKind → Nat
  | .op s =>
    if s ∈ ["(", "[", "\x7b", "..."] then Strength.atom
    else if s ∈ ["+", "-", "~"] then Strength.factor
    else 0
  | .name w =>
    if w = "lambda" then Strength.test
    else if w = "not" then Strength.not
    else if w = "await" then Strength.await
    else if w = "yield" then Strength.yield
    else if isKeyword w && (constantWord? w).isNone then 0
    else Strength.atom
  | .number _ | .string _ => Strength.atom
  | _ => 0

end TokenKind

/-- What follows goes on with no expression that binds at least as tightly as `s`. -/
def Stop (s : Nat) (K : List TokenKind) : Prop := (Parser.headOf K).joins < s

theorem Stop.ne {s : Nat} {K : List TokenKind} (h : Stop s K) {k : TokenKind} (le : s ≤ k.joins) :
    Parser.headOf K ≠ k := by
  rintro rfl
  exact Nat.not_lt_of_le le h

theorem Stop.mono {s t : Nat} {K : List TokenKind} (h : Stop s K) (le : s ≤ t) : Stop t K :=
  Nat.lt_of_lt_of_le h le

theorem stop_cons {s : Nat} {k : TokenKind} (h : k.joins < s) (K : List TokenKind) :
    Stop s (k :: K) := h

theorem joins_symbol (o : BinaryOp) : (op o.symbol).joins = o.strength := by
  cases o <;> rfl

theorem strength_range (e : Expr) : 0 < e.strength ∧ e.strength ≤ Strength.atom := by
  cases e with
  | binary left o right =>
    show 0 < o.strength ∧ o.strength ≤ Strength.atom
    cases o <;> decide
  | unary o operand =>
    show 0 < o.strength ∧ o.strength ≤ Strength.atom
    cases o <;> decide
  | bool o values =>
    show 0 < o.strength ∧ o.strength ≤ Strength.atom
    cases o <;> decide
  | _ => exact ⟨Nat.le_of_ble_eq_true rfl, Nat.le_of_ble_eq_true rfl⟩

end Arbiter.Syntax
