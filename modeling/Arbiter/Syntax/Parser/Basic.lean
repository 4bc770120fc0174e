import Arbiter.Syntax.Token

/-! Parsers over a list of tokens that ends with its end marker. No parser takes the end marker, and a
fault is placed at the next token. -/

namespace Arbiter.Syntax

abbrev Parser := StateT (List Token) (Except Fault)

/-- The kind of the first token. -/
def headKind : List Token → TokenKind
  | t :: _ => t.kind
  | [] => .endMarker

def headPos : List Token → Position
  | t :: _ => t.pos
  | [] => ⟨0, 0⟩

namespace Parser

def fail (cause : Cause) : Parser α := fun ts => .error ⟨cause, headPos ts⟩

/-- The kind of the next token, which stays. -/
def peek : Parser TokenKind := fun ts => .ok (headKind ts, ts)

/-- The kind of the token after the next one. -/
def peekSecond : Parser TokenKind := fun ts => .ok (headKind ts.tail, ts)

/-- Takes the next token. -/
def advance : Parser Unit := fun ts => .ok ((), ts.tail)

/-- The next token is of this kind. -/
def at? (kind : TokenKind) : Parser Bool := fun ts => .ok (headKind ts == kind, ts)

/-- Takes the next token if it is of this kind. -/
def eat? (kind : TokenKind) : Parser Bool := fun ts =>
  if headKind ts == kind then .ok (true, ts.tail) else .ok (false, ts)

def atOp (symbol : String) : Parser Bool := at? (.op symbol)

def atWord (word : String) : Parser Bool := at? (.name word)

def eatOp (symbol : String) : Parser Bool := eat? (.op symbol)

def eatWord (word : String) : Parser Bool := eat? (.name word)

def expectOp (symbol : String) : Parser Unit := do
  if !(← eatOp symbol) then fail (.expected symbol)

def expectWord (word : String) : Parser Unit := do
  if !(← eatWord word) then fail (.expected word)

/-- Takes an identifier that is no keyword. -/
def expectName : Parser String := do
  match ← peek with
  | .name text =>
    if isKeyword text then fail .expectedIdentifier
    else
      advance
      return text
  | _ => fail .expectedIdentifier

def expectNewline : Parser Unit := do
  if !(← eat? .newline) then fail .invalidSyntax

/-- Runs `p` where `condition` holds. -/
def optionally (condition : Bool) (p : Parser α) : Parser (Option α) :=
  if condition then some <$> p else pure none

/-- Collects what `next` gives, at most `rounds` times more. The items so far are last first. -/
def collectFor (next : List α → Parser (Option α)) : Nat → List α → Parser (List α)
  | 0, _ => fail .tooDeep
  | rounds + 1, items => do
    match ← next items with
    | none => return items.reverse
    | some a => collectFor next rounds (a :: items)

/-- Collects items up to the first `none`. An item takes a token, so that the number of tokens bounds
the rounds. -/
def collect (next : List α → Parser (Option α)) : Parser (List α) := do
  match ← next [] with
  | none => return []
  | some a =>
    let ts ← get
    collectFor next (ts.length + 1) [a]

def many (next : Parser (Option α)) : Parser (List α) := collect fun _ => next

/-- Further items, each after a comma; a comma before `stop` ends the list. -/
def afterCommas (stop : Parser Bool) (item : Parser α) : Parser (List α) :=
  many do
    if !(← eatOp ",") then return none
    else if ← stop then return none
    else some <$> item

/-- Takes the comma between the items `before` and the next one, and says whether the next one may
follow. Nothing stands before the first item. -/
def separated (before : List α) : Parser Bool :=
  if before.isEmpty then pure true else eatOp ","

@[simp] theorem separated_nil : separated ([] : List α) = pure true := rfl

@[simp] theorem separated_cons (a : α) (before : List α) :
    separated (a :: before) = eatOp "," := rfl

/-- Items between commas, up to the operator `closing`, which stays. -/
def commaList (closing : String) (item : Parser α) : Parser (List α) := do
  if ← atOp closing then return []
  else
    let first ← item
    let rest ← afterCommas (atOp closing) item
    return first :: rest

end Parser

end Arbiter.Syntax
