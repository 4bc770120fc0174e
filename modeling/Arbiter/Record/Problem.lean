import Arbiter.Json.Decode

/-! Problems with their test cases. -/

namespace Arbiter

/-- How the output of a program is judged. -/
inductive JudgeMode
  /-- Blanks at the end do not count. -/
  | standard
  | strict
  /-- A program of the problem decides. -/
  | special
deriving DecidableEq

def JudgeMode.name : JudgeMode → String
  | standard => "standard"
  | strict => "strict"
  | special => "spj"

def JudgeMode.all : List JudgeMode := [standard, strict, special]

def JudgeMode.decode? (j : Json) : Option JudgeMode :=
  j.toWord? (all.map fun m => (m.name, m))

structure TestCase where
  input : String
  expectedOutput : String
deriving DecidableEq

structure Problem where
  id : Int64
  /-- Takes the place of the language's limit. -/
  timeLimitMs : Option UInt32
  memoryLimitMb : Option UInt32
  testcases : List TestCase
  judgeMode : JudgeMode
  /-- The source of the special judge. -/
  specialCode : Option String
  specialLanguageId : Option Int64
deriving DecidableEq

def TestCase.encode (t : TestCase) : Json :=
  .object [("input", .string t.input), ("expected_output", .string t.expectedOutput)]

def TestCase.decode? (j : Json) : Option TestCase := do
  let fs ← j.fieldsOf? ["input", "expected_output"]
  return {
    input := ← fs.required "input" Json.toString?
    expectedOutput := ← fs.required "expected_output" Json.toString? }

namespace Problem

def encode (p : Problem) : Json :=
  .object [
    ("id", .ofInt p.id.toInt),
    ("time_limit_ms", .ofOption (fun n => .ofNat n.toNat) p.timeLimitMs),
    ("memory_limit_mb", .ofOption (fun n => .ofNat n.toNat) p.memoryLimitMb),
    ("testcases", .ofList TestCase.encode p.testcases),
    ("judge_mode", .string p.judgeMode.name),
    ("spj_code", .ofOption .string p.specialCode),
    ("spj_language_id", .ofOption (fun i => .ofInt i.toInt) p.specialLanguageId)]

def decode? (j : Json) : Option Problem := do
  let fs ← j.fieldsOf? ["id", "time_limit_ms", "memory_limit_mb", "testcases", "judge_mode",
    "spj_code", "spj_language_id"]
  return {
    id := ← fs.required "id" Json.toInt64?
    timeLimitMs := ← fs.withDefault "time_limit_ms" (Json.toOption? Json.toUInt32?) none
    memoryLimitMb := ← fs.withDefault "memory_limit_mb" (Json.toOption? Json.toUInt32?) none
    testcases := ← fs.required "testcases" (Json.toList? TestCase.decode?)
    judgeMode := ← fs.withDefault "judge_mode" JudgeMode.decode? .standard
    specialCode := ← fs.withDefault "spj_code" (Json.toOption? Json.toString?) none
    specialLanguageId := ← fs.withDefault "spj_language_id" (Json.toOption? Json.toInt64?) none }

end Problem

end Arbiter
