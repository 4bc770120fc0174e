import Arbiter.Toml.Number

/-! Reading TOML documents. Values may be nested, and keys be split, less than 80 times. -/

namespace Arbiter.Toml

/-- The bound on nesting. -/
def nestingLimit : Nat := 80

/-- The characters of keys without quotes. -/
def isKeyChar (c : Char) : Bool := c.isAlphanum || c == '_' || c == '-'

def keyPart? (cs : List Char) : Option (List Char × List Char) :=
  match cs with
  | '"' :: _ | '\'' :: _ => line? cs
  | _ =>
    let name := cs.takeWhile isKeyChar
    if name.isEmpty then none else some (name, cs.drop name.length)

/-- The parts of a key between points, with spaces around them. -/
def keyParts? : Nat → List Char → Option (List String × List Char)
  | 0, _ => none
  | fuel + 1, cs => do
    let (part, r) ← keyPart? (skipSpaces cs)
    match skipSpaces r with
    | '.' :: r =>
      let (parts, r) ← keyParts? fuel r
      return (.ofList part :: parts, r)
    | r => return ([.ofList part], r)

def key? (cs : List Char) : Option (List String × List Char) :=
  keyParts? (nestingLimit - 1) cs

mutual

/-- The value at the front, at the given depth. -/
def value? : Nat → Nat → List Char → Option (Toml × List Char)
  | 0, _, _ => none
  | fuel + 1, depth, cs =>
    match cs with
    | '"' :: _ | '\'' :: _ => do
      let (text, r) ← string? cs
      return (.string (.ofList text), r)
    | '[' :: r =>
      if nestingLimit ≤ depth + 1 then none
      else
        match skipLines false r with
        | ']' :: r => some (.array [], r)
        | r => do
          let (items, r) ← items? fuel (depth + 1) r
          return (.array items, r)
    | '\x7b' :: r =>
      if nestingLimit ≤ depth + 1 then none
      else
        match skipSpaces r with
        | '\x7d' :: r => some (.table .inline [], r)
        | r => do
          let (entries, r) ← entries? fuel (depth + 1) r
          return (← inlineTable? entries, r)
    | 't' :: 'r' :: 'u' :: 'e' :: r => some (.boolean true, r)
    | 'f' :: 'a' :: 'l' :: 's' :: 'e' :: r => some (.boolean false, r)
    | _ => number? cs

/-- The items of an array and its closing bracket, before which a comma may stand. -/
def items? : Nat → Nat → List Char → Option (List Toml × List Char)
  | 0, _, _ => none
  | fuel + 1, depth, cs => do
    let (item, r) ← value? fuel depth cs
    match skipLines false r with
    | ',' :: r =>
      match skipLines false r with
      | ']' :: r => return ([item], r)
      | r =>
        let (items, r) ← items? fuel depth r
        return (item :: items, r)
    | ']' :: r => return ([item], r)
    | _ => none

/-- The entries of a table written as a value, and its closing brace. -/
def entries? : Nat → Nat → List Char → Option (List (List String × Toml) × List Char)
  | 0, _, _ => none
  | fuel + 1, depth, cs => do
    let (key, r) ← key? cs
    let (value, r) ← value? fuel depth (skipSpaces (← expect? '=' r))
    match skipSpaces r with
    | ',' :: r =>
      let (entries, r) ← entries? fuel depth r
      return ((key, value) :: entries, r)
    | '\x7d' :: r => return ([(key, value)], r)
    | _ => none

end

/-- The line that says something at the front, without its end. -/
def statement? (cs : List Char) : Option (Line × List Char) :=
  match cs with
  | '[' :: '[' :: r => do
    let (path, r) ← key? r
    return (.nextHeader path, ← expect? ']' (← expect? ']' r))
  | '[' :: r => do
    let (path, r) ← key? r
    return (.header path, ← expect? ']' r)
  | _ => do
    let (path, r) ← key? cs
    let r ← expect? '=' r
    let (value, r) ← value? (r.length + 1) 0 (skipSpaces r)
    return (.entry path value, r)

/-- The lines of a document. -/
def lines? : Nat → List Char → Option (List Line)
  | 0, _ => none
  | fuel + 1, cs =>
    match skipSpaces cs with
    | [] => some []
    | r =>
      if r.head? == some '#' || (newline? r).isSome then lineEnd? r >>= lines? fuel
      else do
        let (line, r) ← statement? r
        let lines ← lines? fuel (← lineEnd? r)
        return line :: lines

/-- The entries of the document that a text spells, with or without a mark of its encoding. -/
def parse? (text : String) : Option Entries := do
  let cs := match text.toList with
    | '\uFEFF' :: r => r
    | cs => cs
  ofLines? (← lines? (cs.length + 1) cs)

end Arbiter.Toml
