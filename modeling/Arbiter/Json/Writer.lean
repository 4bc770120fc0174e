import Arbiter.Json.Value

/-! JSON text without blanks between its parts. -/

namespace Arbiter.Json

def hexDigit (n : Nat) : Char := if n < 10 then Char.ofNat (48 + n) else Char.ofNat (87 + n)

/-- The quote, the backslash and the control characters are escaped, five of them by a letter. -/
def escapeChar (c : Char) : List Char :=
  if c = '"' then ['\\', '"']
  else if c = '\\' then ['\\', '\\']
  else if c = '\x08' then ['\\', 'b']
  else if c = '\x0c' then ['\\', 'f']
  else if c = '\n' then ['\\', 'n']
  else if c = '\r' then ['\\', 'r']
  else if c = '\t' then ['\\', 't']
  else if c.toNat < 32 then
    ['\\', 'u', '0', '0', hexDigit (c.toNat / 16), hexDigit (c.toNat % 16)]
  else [c]

def stringText (s : String) : String :=
  "\"" ++ String.ofList (s.toList.flatMap escapeChar) ++ "\""

def Numeral.text (n : Numeral) : String :=
  String.ofList <|
    (if n.negative then ['-'] else []) ++ n.whole
      ++ (match n.fraction with
        | some ds => '.' :: ds
        | none => [])
      ++ match n.exponent with
        | some (negative, ds) => 'e' :: (if negative then '-' else '+') :: ds
        | none => []

mutual

/-- The text of a value. -/
def render : Json → String
  | .null | .unreadable => "null"
  | .bool b => if b then "true" else "false"
  | .number n => n.text
  | .string s => stringText s
  | .array items => "[" ++ ",".intercalate (renderItems items) ++ "]"
  | .object fields => "\x7b" ++ ",".intercalate (renderFields fields) ++ "\x7d"

/-- The text of each item. -/
def renderItems : List Json → List String
  | [] => []
  | j :: rest => render j :: renderItems rest

/-- The text of each field, with its name. -/
def renderFields : List (Name × Json) → List String
  | [] => []
  | (name, j) :: rest => (stringText name.text ++ ":" ++ render j) :: renderFields rest

end

end Arbiter.Json
