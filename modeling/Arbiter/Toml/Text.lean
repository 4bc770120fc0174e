/-! Strings, blanks and comments of TOML. -/

namespace Arbiter.Toml

def isSpace (c : Char) : Bool := c == ' ' || c == '\t'

/-- The characters that may stand in strings and comments as they are. -/
def isPlain (c : Char) : Bool := c == '\t' || 0x20 ≤ c.toNat && c.toNat != 0x7F

def skipSpaces (cs : List Char) : List Char := cs.dropWhile isSpace

/-- The rest after the line end at the front. -/
def newline? : List Char → Option (List Char)
  | '\n' :: r => some r
  | '\r' :: '\n' :: r => some r
  | _ => none

def skipComment : List Char → List Char
  | '#' :: r => r.dropWhile isPlain
  | cs => cs

/-- The rest after the end of the line, before which only spaces and a comment may stand. -/
def lineEnd? (cs : List Char) : Option (List Char) :=
  match skipComment (skipSpaces cs) with
  | [] => some []
  | r => newline? r

/-- Skips spaces, line ends and comments, of which each one ends with its line. -/
def skipLines (inComment : Bool) : List Char → List Char
  | [] => []
  | '\n' :: r => skipLines false r
  | '\r' :: '\n' :: r => skipLines false r
  | c :: r =>
    if inComment && isPlain c then skipLines true r
    else if !inComment && isSpace c then skipLines false r
    else if !inComment && c == '#' then skipLines true r
    else c :: r

def hexValue? (c : Char) : Option Nat :=
  if c.isDigit then some (c.toNat - '0'.toNat)
  else if 'a' ≤ c ∧ c ≤ 'f' then some (c.toNat - 'a'.toNat + 10)
  else if 'A' ≤ c ∧ c ≤ 'F' then some (c.toNat - 'A'.toNat + 10)
  else none

/-- The character with the code point that `count` hexadecimal digits give. -/
def coded? (count : Nat) (cs : List Char) : Option (Char × List Char) := do
  let ds ← (cs.take count).mapM hexValue?
  let n := ds.foldl (16 * · + ·) 0
  if ds.length = count ∧ (n < 0xD800 ∨ 0xDFFF < n ∧ n < 0x110000) then
    return (.ofNat n, cs.drop count)
  else none

/-- The character that an escape stands for, without its backslash. -/
def escape? : List Char → Option (Char × List Char)
  | 'b' :: r => some ('\x08', r)
  | 'f' :: r => some ('\x0c', r)
  | 'n' :: r => some ('\n', r)
  | 'r' :: r => some ('\r', r)
  | 't' :: r => some ('\t', r)
  | '"' :: r => some ('"', r)
  | '\\' :: r => some ('\\', r)
  | 'u' :: r => coded? 4 r
  | 'U' :: r => coded? 8 r
  | _ => none

/-- The text up to the quote that closes a string of one line. -/
def basicText? : Nat → List Char → Option (List Char × List Char)
  | 0, _ => none
  | fuel + 1, cs =>
    match cs with
    | '"' :: r => some ([], r)
    | '\\' :: r => do
      let (c, r) ← escape? r
      let (text, r) ← basicText? fuel r
      return (c :: text, r)
    | c :: r => do
      if isPlain c then
        let (text, r) ← basicText? fuel r
        return (c :: text, r)
      else none
    | [] => none

/-- The text up to the apostrophe that closes a string without escapes. -/
def literalText? (cs : List Char) : Option (List Char × List Char) :=
  let text := cs.takeWhile fun c => isPlain c && c != '\''
  match cs.drop text.length with
  | '\'' :: r => some (text, r)
  | _ => none

/-- The rest after spaces, a line end and all blanks after it. -/
def continued? (cs : List Char) : Option (List Char) :=
  (newline? (skipSpaces cs)).map skipBlanks
where
  skipBlanks : List Char → List Char
    | '\n' :: r => skipBlanks r
    | '\r' :: '\n' :: r => skipBlanks r
    | c :: r => if isSpace c then skipBlanks r else c :: r
    | [] => []

/-- The text up to the three quotes that close a string of several lines. One or two quotes are
text, also right before the closing ones. A backslash at the end of a line joins it to the next
text; `escapes` says whether backslashes have a meaning at all. -/
def blockText? (quote : Char) (escapes : Bool) : Nat → List Char → Option (List Char × List Char)
  | 0, _ => none
  | fuel + 1, cs =>
    let quotes := cs.takeWhile (· == quote)
    if 3 ≤ quotes.length then
      let extra := min (quotes.length - 3) 2
      some (List.replicate extra quote, cs.drop (extra + 3))
    else if quotes ≠ [] then do
      let (text, r) ← blockText? quote escapes fuel (cs.drop quotes.length)
      return (quotes ++ text, r)
    else
      match newline? cs with
      | some r => do
        let (text, r) ← blockText? quote escapes fuel r
        return ('\n' :: text, r)
      | none =>
        match cs with
        | [] => none
        | c :: r => do
          if c == '\\' && escapes then
            match continued? r with
            | some r => blockText? quote escapes fuel r
            | none =>
              let (c, r) ← escape? r
              let (text, r) ← blockText? quote escapes fuel r
              return (c :: text, r)
          else if isPlain c then
            let (text, r) ← blockText? quote escapes fuel r
            return (c :: text, r)
          else none

/-- Drops a line end right after the quotes that open a string of several lines. -/
def dropNewline (cs : List Char) : List Char := (newline? cs).getD cs

/-- A string of one line, as keys have it. -/
def line? (cs : List Char) : Option (List Char × List Char) :=
  match cs with
  | '"' :: r => basicText? cs.length r
  | '\'' :: r => literalText? r
  | _ => none

/-- A string of any of the four forms. -/
def string? (cs : List Char) : Option (List Char × List Char) :=
  match cs with
  | '"' :: '"' :: '"' :: r => blockText? '"' true cs.length (dropNewline r)
  | '\'' :: '\'' :: '\'' :: r => blockText? '\'' false cs.length (dropNewline r)
  | _ => line? cs

end Arbiter.Toml
