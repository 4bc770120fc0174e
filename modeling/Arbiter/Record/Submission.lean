import Arbiter.Dependence.Graph
import Arbiter.Verdict

/-! Submissions, the results of their test cases, and the outcome of judging one. -/

namespace Arbiter

structure TestCaseResult where
  /-- The place of the test case in its problem, from one on. -/
  index : Nat
  verdict : Verdict
  timeMs : UInt32
  memoryKb : UInt32
  points : UInt32
  output : String
  /-- What the program wrote as errors, or a message of the judge. -/
  error : String
deriving DecidableEq

/-- The result of a case that was not run. -/
def TestCaseResult.stamped (index : Nat) (verdict : Verdict) (error : String) : TestCaseResult :=
  ⟨index, verdict, 0, 0, 0, "", error⟩

structure Submission where
  id : Int64
  code : String
  languageId : Int64
  problemId : Int64
  userId : Int64
  status : Status
  timeMs : UInt32
  memoryKb : UInt32
  score : UInt32
  results : List TestCaseResult
  errorMessage : Option String
  graph : Option Dependence.Graph
deriving DecidableEq

/-- A submission that has not been judged. -/
def Submission.fresh (id : Int64) (code : String) (languageId problemId userId : Int64) :
    Submission :=
  ⟨id, code, languageId, problemId, userId, .pending, 0, 0, 0, [], none, none⟩

/-- All that judging writes back, at once. -/
structure JudgeOutcome where
  status : Status
  timeMs : UInt32
  memoryKb : UInt32
  score : UInt32
  results : List TestCaseResult
  errorMessage : Option String
deriving DecidableEq

namespace JudgeOutcome

/-- The outcome of results, in the order of their cases: the largest time and memory, the sum of the
points, and the status of the worst verdict. -/
def ofResults (results : List TestCaseResult) : JudgeOutcome :=
  let results := results.mergeSort fun a b => a.index ≤ b.index
  { status := .ofCategory (.worstOf (results.map (·.verdict)))
    timeMs := (results.map (·.timeMs)).foldl max 0
    memoryKb := (results.map (·.memoryKb)).foldl max 0
    score := (results.map (·.points)).foldl (· + ·) 0
    results, errorMessage := none }

/-- The worst category among the results. -/
def worst (o : JudgeOutcome) : Category := .worstOf (o.results.map (·.verdict))

/-- All `count` cases fail in the same way. -/
def failed (count : Nat) (verdict : Verdict) (message : String) : JudgeOutcome :=
  { status := .error, timeMs := 0, memoryKb := 0, score := 0
    results := (List.range' 1 count).map fun i => .stamped i verdict message
    errorMessage := some message }

end JudgeOutcome

def Verdict.decode? (j : Json) : Option Verdict := j.toWord? (all.map fun v => (v.code, v))

def Category.decode? (j : Json) : Option Category := j.toWord? (all.map fun c => (c.code, c))

def Status.decode? (j : Json) : Option Status := j.toWord? (all.map fun s => (s.name, s))

namespace TestCaseResult

def encode (r : TestCaseResult) : Json :=
  .object [
    ("index", .ofNat r.index), ("verdict", .string r.verdict.code),
    ("time_ms", .ofNat r.timeMs.toNat), ("memory_kb", .ofNat r.memoryKb.toNat),
    ("points", .ofNat r.points.toNat), ("output", .string r.output), ("error", .string r.error)]

def decode? (j : Json) : Option TestCaseResult := do
  let fs ← j.fieldsOf? ["index", "verdict", "time_ms", "memory_kb", "points", "output", "error"]
  return {
    index := ← fs.required "index" Json.toNat64?
    verdict := ← fs.required "verdict" Verdict.decode?
    timeMs := ← fs.required "time_ms" Json.toUInt32?
    memoryKb := ← fs.required "memory_kb" Json.toUInt32?
    points := ← fs.required "points" Json.toUInt32?
    output := ← fs.withDefault "output" Json.toString? ""
    error := ← fs.withDefault "error" Json.toString? "" }

end TestCaseResult

namespace Submission

def encode (s : Submission) : Json :=
  .object [
    ("id", .ofInt s.id.toInt), ("code", .string s.code),
    ("language_id", .ofInt s.languageId.toInt), ("problem_id", .ofInt s.problemId.toInt),
    ("user_id", .ofInt s.userId.toInt), ("status", .string s.status.name),
    ("time_ms", .ofNat s.timeMs.toNat), ("memory_kb", .ofNat s.memoryKb.toNat),
    ("score", .ofNat s.score.toNat),
    ("test_case_results", .ofList TestCaseResult.encode s.results),
    ("error_message", .ofOption .string s.errorMessage),
    ("pdg", .ofOption Dependence.Graph.encode s.graph)]

def decode? (j : Json) : Option Submission := do
  let fs ← j.fieldsOf? ["id", "code", "language_id", "problem_id", "user_id", "status", "time_ms",
    "memory_kb", "score", "test_case_results", "error_message", "pdg"]
  return {
    id := ← fs.required "id" Json.toInt64?
    code := ← fs.required "code" Json.toString?
    languageId := ← fs.required "language_id" Json.toInt64?
    problemId := ← fs.required "problem_id" Json.toInt64?
    userId := ← fs.required "user_id" Json.toInt64?
    status := ← fs.withDefault "status" Status.decode? .pending
    timeMs := ← fs.withDefault "time_ms" Json.toUInt32? 0
    memoryKb := ← fs.withDefault "memory_kb" Json.toUInt32? 0
    score := ← fs.withDefault "score" Json.toUInt32? 0
    results := ← fs.withDefault "test_case_results" (Json.toList? TestCaseResult.decode?) []
    errorMessage := ← fs.withDefault "error_message" (Json.toOption? Json.toString?) none
    graph := ← fs.withDefault "pdg" (Json.toOption? Dependence.Graph.decode?) none }

end Submission

namespace JudgeOutcome

def encode (o : JudgeOutcome) : Json :=
  .object [
    ("status", .string o.status.name), ("time_ms", .ofNat o.timeMs.toNat),
    ("memory_kb", .ofNat o.memoryKb.toNat), ("score", .ofNat o.score.toNat),
    ("results", .ofList TestCaseResult.encode o.results),
    ("error_message", .ofOption .string o.errorMessage)]

def decode? (j : Json) : Option JudgeOutcome := do
  let fs ← j.fieldsOf? ["status", "time_ms", "memory_kb", "score", "results", "error_message"]
  return {
    status := ← fs.required "status" Status.decode?
    timeMs := ← fs.required "time_ms" Json.toUInt32?
    memoryKb := ← fs.required "memory_kb" Json.toUInt32?
    score := ← fs.required "score" Json.toUInt32?
    results := ← fs.required "results" (Json.toList? TestCaseResult.decode?)
    errorMessage := ← fs.nullable "error_message" Json.toString? }

end JudgeOutcome

end Arbiter
