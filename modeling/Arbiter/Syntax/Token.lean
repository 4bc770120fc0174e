import Arbiter.Syntax.Fault

/-! Tokens: what a source text consists of once blanks, comments and the breaks inside brackets are
left out. -/

namespace Arbiter.Syntax

inductive TokenKind
  /-- An identifier or a keyword. -/
  | name (text : String)
  /-- A number as written. -/
  | number (text : String)
  /-- A string as written, with its quotes and the letters before them. -/
  | string (text : String)
  | op (symbol : String)
  /-- The end of a logical line. -/
  | newline
  | indent
  | dedent
  | endMarker
deriving DecidableEq

structure Token where
  kind : TokenKind
  pos : Position
deriving DecidableEq

/-- The operators, every one after those that it begins. -/
def operators : List String := [
  "**=", "//=", ">>=", "<<=", "...", "**", "//", "<<", ">>", "<=", ">=", "==", "!=", "->", "+=",
  "-=", "*=", "/=", "%=", "&=", "|=", "^=", "@=", ":=", "+", "-", "*", "/", "%", "@", "&", "|",
  "^", "~", "<", ">", "(", ")", "[", "]", "\x7b", "\x7d", ",", ":", ".", ";", "="]

/-- The words that are no identifiers. -/
def keywords : List String := [
  "False", "None", "True", "and", "as", "assert", "async", "await", "break", "class", "continue",
  "def", "del", "elif", "else", "except", "finally", "for", "from", "global", "if", "import", "in",
  "is", "lambda", "nonlocal", "not", "or", "pass", "raise", "return", "try", "while", "with",
  "yield"]

def isKeyword (word : String) : Bool := keywords.contains word

end Arbiter.Syntax
