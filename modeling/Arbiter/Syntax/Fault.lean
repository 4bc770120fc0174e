/-! Positions in a source text, and the faults that reading one can find. -/

namespace Arbiter.Syntax

/-- A place in a source text: lines count from one, columns from zero in characters. -/
structure Position where
  line : Nat
  col : Nat
deriving DecidableEq

namespace Position

def start : Position := ⟨1, 0⟩

/-- A line break starts the next line; any other character moves one column on. -/
def step (p : Position) (c : Char) : Position :=
  if c = '\n' then ⟨p.line + 1, 0⟩ else ⟨p.line, p.col + 1⟩

/-- The place behind the characters `cs` that start at `p`. -/
def advance (p : Position) (cs : List Char) : Position := cs.foldl step p

@[simp] theorem advance_nil (p : Position) : p.advance [] = p := rfl

@[simp] theorem advance_cons (p : Position) (c : Char) (cs : List Char) :
    p.advance (c :: cs) = (p.step c).advance cs := rfl

theorem advance_append (p : Position) (cs ds : List Char) :
    p.advance (cs ++ ds) = (p.advance cs).advance ds := by
  simp [advance]

end Position

/-- What can be wrong with a source text. -/
inductive Cause
  /-- A backslash is followed by something other than a line break. -/
  | strayAfterBackslash
  | unmatchedBracket (bracket : String)
  | endInBrackets
  | badUnindent
  | unterminatedString
  | invalidCharacter (c : Char)
  /-- This operator or keyword has to come next. -/
  | expected (symbol : String)
  | expectedIdentifier
  | expectedIndentedBlock
  | expectedAfterAsync
  | expectedHandler
  | expectedCase
  | expectedDefinition
  | expectedModule
  | invalidSyntax
  | invalidSyntaxNear (word : String)
  | invalidPattern
  | trailingTokens
  /-- The expression is no target of an assignment or deletion. -/
  | notAssignable
  /-- The left side of `:=` is no name. -/
  | notNameable
  | starOutsideSequence
  | underscoreTarget
  | positionalAfterKeyword
  | badMappingKey
  /-- A closing brace in the literal text of an f-string is not doubled. -/
  | singleBrace
  /-- A field of an f-string has no closing brace. -/
  | expectingBrace
  | emptyField
  /-- The fault lies inside an f-string. -/
  | inFString (inner : Cause)
  /-- The nesting is deeper than the allotted number of levels. -/
  | tooDeep
deriving DecidableEq

/-- The wording of a cause. -/
def Cause.message : Cause → String
  | strayAfterBackslash => "unexpected character after line continuation"
  | unmatchedBracket b => "unmatched '" ++ b ++ "'"
  | endInBrackets => "unexpected EOF inside brackets"
  | badUnindent => "unindent does not match any outer indentation level"
  | unterminatedString => "unterminated string literal"
  | invalidCharacter c => "invalid character '" ++ c.toString ++ "'"
  | expected s => "expected '" ++ s ++ "'"
  | expectedIdentifier => "expected identifier"
  | expectedIndentedBlock => "expected an indented block"
  | expectedAfterAsync => "expected 'def', 'for' or 'with' after 'async'"
  | expectedHandler => "expected 'except' or 'finally' block"
  | expectedCase => "expected 'case' block"
  | expectedDefinition => "expected function or class after decorator"
  | expectedModule => "expected module name"
  | invalidSyntax => "invalid syntax"
  | invalidSyntaxNear w => "invalid syntax near '" ++ w ++ "'"
  | invalidPattern => "invalid pattern"
  | trailingTokens => "unexpected trailing tokens"
  | notAssignable => "cannot assign to expression"
  | notNameable => "cannot use assignment expression here"
  | starOutsideSequence => "starred pattern outside a sequence"
  | underscoreTarget => "cannot use '_' as a target"
  | positionalAfterKeyword => "positional patterns follow keyword patterns"
  | badMappingKey => "mapping keys must be literals or dotted names"
  | singleBrace => "single '\x7d' is not allowed"
  | expectingBrace => "expecting '\x7d'"
  | emptyField => "empty expression"
  | inFString inner => "f-string: " ++ inner.message
  | tooDeep => "too many nested levels"

/-- A fault and the place where it was found. -/
structure Fault where
  cause : Cause
  pos : Position
deriving DecidableEq

/-- The one-line text of a fault: its wording and its place. -/
def Fault.text (f : Fault) : String :=
  f.cause.message ++ " (line " ++ toString f.pos.line ++ ", column " ++ toString f.pos.col ++ ")"

end Arbiter.Syntax
