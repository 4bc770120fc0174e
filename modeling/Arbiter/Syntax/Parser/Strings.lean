import Arbiter.Syntax.Expr
import Arbiter.Syntax.Fault
import Arbiter.Syntax.Parser.Basic
import Arbiter.Text.Blank

/-! String literals. Adjacent ones are joined; one f-string among them makes an f-string of all. The inside of
an f-string is literal text with doubled braces, and fields between single ones. A field ends at a mark outside
of brackets and quotes; the characters of its expression are read as a text of their own. -/

namespace Arbiter.Syntax

/-- The characters of a field before the `!`, `:` or closing brace that ends its expression, inside
of `depth` brackets and of the string that `quote` opened. -/
def fieldLength? (depth : Nat) (quote : Option Char) : List Char → Option Nat
  | [] => none
  | c :: r =>
    match quote with
    | some q => (fieldLength? depth (if c = q then none else quote) r).map (· + 1)
    | none =>
      if c = '\'' ∨ c = '"' then (fieldLength? depth (some c) r).map (· + 1)
      else if c = '(' ∨ c = '[' ∨ c = '\x7b' then (fieldLength? (depth + 1) none r).map (· + 1)
      else if c = ')' ∨ c = ']' then (fieldLength? (depth - 1) none r).map (· + 1)
      else if c = '\x7d' then
        if depth = 0 then some 0 else (fieldLength? (depth - 1) none r).map (· + 1)
      else if depth = 0 ∧ (c = ':' ∨ c = '!' ∧ r.head? ≠ some '=') then some 0
      else (fieldLength? depth none r).map (· + 1)

/-- The characters of a format text before its closing brace; nested fields come in pairs. -/
def specLength? (depth : Nat) : List Char → Option Nat
  | [] => none
  | c :: r =>
    if c = '\x7b' then (specLength? (depth + 1) r).map (· + 1)
    else if c = '\x7d' then
      if depth = 0 then some 0 else (specLength? (depth - 1) r).map (· + 1)
    else (specLength? depth r).map (· + 1)

/-- A field as written. -/
structure RawField where
  text : List Char
  conversion : Option Char
  spec : Option (List Char)

/-- The field at the front of `cs`, which follows an opening brace, and the number of its characters
through the closing brace. -/
def rawField? (cs : List Char) : Option (RawField × Nat) := do
  let n ← fieldLength? 0 none cs
  let text := cs.take n
  let rest := cs.drop n
  let (conversion, marked) := match rest with
    | '!' :: r => (r.head?, 2)
    | _ => (none, 0)
  let rest := rest.drop marked
  match rest with
  | ':' :: r =>
    let m ← specLength? 0 r
    return (⟨text, conversion, some (r.take m)⟩, n + marked + 1 + m + 1)
  | '\x7d' :: _ => return (⟨text, conversion, none⟩, n + marked + 1)
  | _ => none

/-- The text of a field that documents itself, without its final equals sign and the blanks after
it. -/
def documented? (text : List Char) : Option (List Char) :=
  match text.reverse.dropWhile Text.isBlank with
  | '=' :: r =>
    if r.head?.any (['=', '!', '<', '>'].contains ·) then none else some r.reverse
  | _ => none

/-- A field whose expression is read by `read`. One that documents itself is shown by its
representation unless it says how. -/
def RawField.resolve (read : String → Except Cause Expr) (field : RawField) :
    Except Cause FStringPart := do
  let shown := documented? field.text
  let text := Text.trim (.ofList (shown.getD field.text))
  if text.isEmpty then throw .emptyField
  let value ← read ("(" ++ text ++ ")")
  let plain := field.conversion.isNone && field.spec.isNone
  let conversion := if shown.isSome && plain then some 'r' else field.conversion
  return .formatted value conversion (field.spec.map .ofList)

/-- The literal text of a self-documenting field is the field itself. -/
def RawField.prologue (field : RawField) : List Char :=
  if (documented? field.text).isSome then field.text else []

/-- A literal piece, left out where it is empty; its characters are last first. -/
def literalPart (reversed : List Char) : List FStringPart :=
  if reversed.isEmpty then [] else [.literal (.ofList reversed.reverse)]

/-- The pieces of an f-string, after the literal characters `literal`, which are last first. -/
def fStringParts (read : String → Except Cause Expr) (literal : List Char) :
    List Char → Except Cause (List FStringPart)
  | [] => .ok (literalPart literal)
  | '\x7b' :: '\x7b' :: r => fStringParts read ('\x7b' :: literal) r
  | '\x7d' :: '\x7d' :: r => fStringParts read ('\x7d' :: literal) r
  | c :: r =>
    if c = '\x7d' then .error .singleBrace
    else if c = '\x7b' then
      match rawField? r with
      | none => .error .expectingBrace
      | some (field, n) => do
        let part ← field.resolve read
        let rest ← fStringParts read [] (r.drop n)
        return literalPart (field.prologue.reverse ++ literal) ++ part :: rest
    else fStringParts read (c :: literal) r
termination_by cs => cs.length
decreasing_by all_goals simp only [List.length_cons, List.length_drop]; omega

/-- A string token as written, with its place. -/
structure StringPiece where
  text : String
  pos : Position

namespace StringPiece

/-- The letters before the quotes, in lower case. -/
def marks (p : StringPiece) : List Char :=
  (p.text.toList.takeWhile fun c => c != '\'' && c != '"').map Char.toLower

def isFString (p : StringPiece) : Bool := p.marks.contains 'f'

/-- The characters between the quotes. -/
def body (p : StringPiece) : List Char :=
  let inQuotes := p.text.toList.drop p.marks.length
  let q :=
    if ['"', '"', '"'].isPrefixOf inQuotes || ['\'', '\'', '\''].isPrefixOf inQuotes then 3 else 1
  (inQuotes.drop q).take (inQuotes.length - 2 * q)

/-- The pieces of this literal as a part of an f-string. -/
def parts (read : String → Except Cause Expr) (p : StringPiece) : Except Fault (List FStringPart) :=
  if p.isFString then
    (fStringParts read [] p.body).mapError fun cause => ⟨.inFString cause, p.pos⟩
  else .ok [.literal (.ofList p.body)]

end StringPiece

/-- Two literal pieces next to each other are one. -/
def mergeLiterals : List FStringPart → List FStringPart
  | .literal s :: .literal t :: rest => mergeLiterals (.literal (s ++ t) :: rest)
  | part :: rest => part :: mergeLiterals rest
  | [] => []
termination_by parts => parts.length

/-- The expression that adjacent string literals form. -/
def stringExpr (read : String → Except Cause Expr) (pieces : List StringPiece) :
    Except Fault Expr := do
  if pieces.any StringPiece.isFString then
    let parts ← pieces.mapM (StringPiece.parts read)
    return .joinedStr (mergeLiterals parts.flatten)
  else
    let text := " ".intercalate (pieces.map (·.text))
    if pieces.any (·.marks.contains 'b') then return .constant (.bytes text)
    else return .constant (.str text)

namespace Parser

/-- Takes the string tokens that come next. -/
def stringPieces : Parser (List StringPiece) :=
  many fun ts => match ts with
    | ⟨.string text, pos⟩ :: r => .ok (some ⟨text, pos⟩, r)
    | _ => .ok (none, ts)

def strings (read : String → Except Cause Expr) : Parser Expr := do
  let pieces ← stringPieces
  liftM (stringExpr read pieces)

end Parser

end Arbiter.Syntax
