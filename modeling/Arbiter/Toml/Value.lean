/-! Values of TOML documents, and how a document puts its tables together. A table can be stated
only once, and how it came about decides whether later lines may still add to it. -/

namespace Arbiter

/-- How a table came about. -/
inductive Toml.Origin
  /-- By a header of its own. -/
  | stated
  /-- By the header of a table inside of it. -/
  | implied
  /-- By a key of several parts. -/
  | dotted
  /-- Written as a value, which nothing can be added to. -/
  | inline
deriving DecidableEq

inductive Toml
  | string (s : String)
  | integer (i : Int)
  | float
  | boolean (b : Bool)
  | dateTime
  | array (items : List Toml)
  | table (origin : Toml.Origin) (entries : List (String × Toml))
  /-- Tables under one header that is repeated. -/
  | tables (earlier : List (List (String × Toml))) (last : List (String × Toml))

namespace Toml

abbrev Entries := List (String × Toml)

/-- Puts a value in place of the one under the key. -/
def replace (t : Entries) (key : String) (v : Toml) : Entries :=
  t.map fun e => if e.1 == key then (key, v) else e

/-- Adds an entry whose key may have several parts. Its last part is new, and the table around it
has to come from such keys alone. -/
def insert? : List String → Toml → Entries → Option Entries
  | [], _, _ => none
  | [key], v, t => if (t.lookup key).isSome then none else some (t ++ [(key, v)])
  | key :: path, v, t =>
    match t.lookup key with
    | none => do
      let sub ← insert? path v []
      return t ++ [(key, .table .dotted sub)]
    | some (.table origin sub) => do
      if origin = .dotted ∨ origin = .implied ∧ 1 < path.length then
        let sub ← insert? path v sub
        return replace t key (.table origin sub)
      else none
    | some (.tables earlier last) => do
      if 1 < path.length then
        let last ← insert? path v last
        return replace t key (.tables earlier last)
      else none
    | some _ => none

/-- Changes the table that a header names. Missing tables on the way are made, and of repeated
tables the last one is meant. -/
def under? : List String → (Entries → Option Entries) → Entries → Option Entries
  | [], change, t => change t
  | key :: path, change, t =>
    match t.lookup key with
    | none => do
      let sub ← under? path change []
      return t ++ [(key, .table .implied sub)]
    | some (.table origin sub) => do
      if origin = .inline then none
      else
        let sub ← under? path change sub
        return replace t key (.table origin sub)
    | some (.tables earlier last) => do
      let last ← under? path change last
      return replace t key (.tables earlier last)
    | some _ => none

/-- A header states a table, which no line before has stated. -/
def state? (key : String) (t : Entries) : Option Entries :=
  match t.lookup key with
  | none => some (t ++ [(key, .table .stated [])])
  | some (.table .implied sub) => some (replace t key (.table .stated sub))
  | some _ => none

/-- A header in double brackets adds one more table to those under the key. -/
def stateNext? (key : String) (t : Entries) : Option Entries :=
  match t.lookup key with
  | none => some (t ++ [(key, .tables [] [])])
  | some (.tables earlier last) => some (replace t key (.tables (earlier ++ [last]) []))
  | some _ => none

/-- A line of a document that says something. -/
inductive Line
  | header (path : List String)
  | nextHeader (path : List String)
  | entry (path : List String) (value : Toml)

/-- The document after one more line, with the path of the table that entries now go to. -/
def append? (doc : List String × Entries) : Line → Option (List String × Entries)
  | .header path => do
    let key ← path.getLast?
    let t ← under? path.dropLast (state? key) doc.2
    return (path, t)
  | .nextHeader path => do
    let key ← path.getLast?
    let t ← under? path.dropLast (stateNext? key) doc.2
    return (path, t)
  | .entry path v => do
    let t ← under? doc.1 (insert? path v) doc.2
    return (doc.1, t)

/-- The entries of a document that consists of the given lines. -/
def ofLines? (lines : List Line) : Option Entries :=
  (lines.foldlM append? ([], [])).map (·.2)

/-- A table written as a value. -/
def inlineTable? (entries : List (List String × Toml)) : Option Toml :=
  (entries.foldlM (fun t e => insert? e.1 e.2 t) []).map (.table .inline)

end Toml

end Arbiter
