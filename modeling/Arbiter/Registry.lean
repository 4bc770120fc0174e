import Arbiter.Command.Gate
import Arbiter.Record.Language
import Arbiter.Toml.Reader

/-! The registry of languages, a document with one table for each language. A registry is accepted
as a whole or not at all: every command passes the gate and no two languages share an identifier. -/

namespace Arbiter

/-- The commands of a language pass the gate. -/
def Language.check (l : Language) : Except Command.Rejection Unit := do
  Command.checkStep l.compileCommand
  Command.check l.runCommand

namespace Registry

/-- Why a registry is turned down. -/
inductive Fault
  /-- The text is no document, or an entry lacks a field or has one of the wrong type. -/
  | unreadable
  | fileExt (name ext : String)
  | limits (name : String)
  | command (name : String) (reason : Command.Rejection)
  | sameId (id : Int64) (first second : String)
deriving DecidableEq

def Fault.message : Fault → String
  | unreadable => "Invalid language registry"
  | fileExt name ext => "Invalid file_ext for " ++ name ++ ": " ++ ext
  | limits name => "Limits for " ++ name ++ " must be positive"
  | command name reason => "Language " ++ name ++ " rejected: " ++ reason.message
  | sameId id first second =>
    "Duplicate language id " ++ toString id.toInt ++ " (" ++ first ++ " and " ++ second ++ ")"

def string? : Toml → Option String
  | .string s => some s
  | _ => none

/-- A whole number from `low` up to `high`. -/
def intWithin? (low high : Int) : Toml → Option Int
  | .integer i => if low ≤ i ∧ i ≤ high then some i else none
  | _ => none

def limit? (v : Toml) : Option UInt32 :=
  (intWithin? 0 (UInt32.size - 1) v).map fun i => .ofNat i.toNat

/-- The fields of an entry in the order in which an array lists them. -/
def fieldNames : List String :=
  ["id", "file_ext", "compile_command", "compile_artifact", "run_command", "image", "time_limit_ms",
    "memory_limit_mb"]

/-- The fields of an entry. One written as an array leaves none out. -/
def fields? : Toml → Option Toml.Entries
  | .table _ entries => some entries
  | .array items => if fieldNames.length ≤ items.length then some (fieldNames.zip items) else none
  | _ => none

/-- The language of the entry under a name. -/
def language? (name : String) (v : Toml) : Option Language := do
  let fs ← fields? v
  let optional (field : String) : Option (Option String) :=
    match fs.lookup field with
    | none => some none
    | some v => (string? v).map some
  return {
    name
    id := .ofInt (← fs.lookup "id" >>= intWithin? Int64.minValue.toInt Int64.maxValue.toInt)
    fileExt := ← fs.lookup "file_ext" >>= string?
    compileCommand := ← optional "compile_command"
    compileArtifact := ← optional "compile_artifact"
    runCommand := ← fs.lookup "run_command" >>= string?
    image := ← fs.lookup "image" >>= string?
    timeLimitMs := ← fs.lookup "time_limit_ms" >>= limit?
    memoryLimitMb := ← fs.lookup "memory_limit_mb" >>= limit? }

/-- The languages of a document, by name. -/
def read? (text : String) : Option (List Language) := do
  let entries ← Toml.parse? text
  (entries.mergeSort fun a b => !decide (b.1 < a.1)).mapM fun e => language? e.1 e.2

/-- A language fit to be registered. -/
def accept (l : Language) : Except Fault Unit :=
  if l.fileExt.toList.head? ≠ some '.' then .error (.fileExt l.name l.fileExt)
  else if l.timeLimitMs = 0 ∨ l.memoryLimitMb = 0 then .error (.limits l.name)
  else l.check.mapError (.command l.name)

/-- The first two neighbours with one identifier. -/
def sameId? : List Language → Option (Language × Language)
  | a :: b :: rest => if a.id = b.id then some (a, b) else sameId? (b :: rest)
  | _ => none

/-- The languages of a registry, by identifier. -/
def parse (text : String) : Except Fault (List Language) :=
  match read? text with
  | none => .error .unreadable
  | some languages => do
    languages.forM accept
    let sorted := languages.mergeSort fun a b => a.id ≤ b.id
    match sameId? sorted with
    | some (a, b) => .error (.sameId a.id a.name b.name)
    | none => .ok sorted

/-- The registry that is used where no other is given. -/
def standard : List Language := [
  { id := 1, name := "cpp", fileExt := ".cpp"
    compileCommand := some "g++ -std=c++14 main.cpp -o main", compileArtifact := some "main"
    runCommand := "./main", image := "gcc-judge:latest", timeLimitMs := 1000, memoryLimitMb := 256 },
  { id := 2, name := "python", fileExt := ".py"
    compileCommand := some "python3 -m py_compile main.py", compileArtifact := none
    runCommand := "python3 main.py", image := "python-judge:latest", timeLimitMs := 2000
    memoryLimitMb := 256 }]

end Registry

end Arbiter
