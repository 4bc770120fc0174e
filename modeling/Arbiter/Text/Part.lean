/-! Parts of texts, and lines. Lines end with a line feed, of which a carriage return before it is a part.
Text after the last line feed is a line only if there is any. -/

namespace Arbiter.Text

/-- The characters of `part` stand somewhere in `cs`, next to each other. -/
def hasPart (part : List Char) : List Char → Bool
  | [] => part.isEmpty
  | c :: r => part.isPrefixOf (c :: r) || hasPart part r

/-- The text contains `part`. -/
def contains (s part : String) : Bool := hasPart part.toList s.toList

def startsWith (s start : String) : Bool := start.toList.isPrefixOf s.toList

/-- The line without the carriage return that ends it. -/
def stripReturn (line : List Char) : List Char :=
  match line.reverse with
  | '\r' :: r => r.reverse
  | _ => line

/-- The parts of a text between line feeds, with those that a line feed ends stripped. -/
def linesOf : List (List Char) → List (List Char)
  | [] => []
  | [last] => if last.isEmpty then [] else [last]
  | line :: rest => stripReturn line :: linesOf rest

def lines (s : String) : List String :=
  (linesOf (s.toList.splitOnP (· == '\n'))).map .ofList

end Arbiter.Text
