import Arbiter.Decimal.Basic
import Arbiter.Judging.Compile
import Arbiter.Text.Quoted

/-! Special judges: programs of a problem that decide its test cases. One is called with the names of
three files, with the input, the output and the answer, and prints a score from 0 to 10. -/

namespace Arbiter.Judging

/-- The score that is accepted. -/
def fullScore : Float := 10.0

/-- The score that the first word spells. -/
def score? (stdout : String) : Option Float := do
  let word ← (Text.words stdout).head?
  let score := (← Decimal.ofString? word).toFloat
  if 0.0 ≤ score && score ≤ fullScore then return score else none

/-- A special judge that is ready, in the folder of its own. -/
structure SpecialJudge where
  language : Language

namespace SpecialJudge

/-- Why a special judge cannot be made ready. -/
inductive Fault
  | noSource
  | noLanguage
  | unknownLanguage (id : Int64)
  | store (fault : Store.Fault)
  | folder (fault : Workspace.Fault)
  | source (fault : Workspace.Fault)
  | compile (message : String)
deriving DecidableEq

def Fault.message : Fault → String
  | noSource => "Special judge source is missing"
  | noLanguage => "Special judge language is missing"
  | unknownLanguage id => "Special judge language " ++ toString id.toInt ++ " not found"
  | store fault => fault.message
  | folder fault => "Failed to create special judge directory: " ++ fault.message
  | source fault => "Failed to write special judge source: " ++ fault.message
  | compile message => "Special judge failed to compile: " ++ message

/-- Writes the source of a special judge and compiles it. -/
def prepare (s : SandboxSettings) (language : Language) (code : String) :
    ExceptT Fault Work SpecialJudge := do
  if let .error fault ← Work.write .judge language.sourceFile code then throw (.source fault)
  match ← compile s language .judge language.memoryLimitMb with
  | .compiled => return ⟨language⟩
  | .failed _ message => throw (.compile message)

/-- The special judge of a problem, made ready in a folder of its own. -/
def ofProblem (s : SandboxSettings) (problem : Problem) : ExceptT Fault Work SpecialJudge := do
  let some code := problem.specialCode | throw .noSource
  let some id := problem.specialLanguageId | throw .noLanguage
  match ← Work.store (.language id) with
  | .error fault => throw (.store fault)
  | .ok none => throw (.unknownLanguage id)
  | .ok (some language) =>
    if let .error fault ← Work.makeJudgeFolder then throw (.folder fault)
    prepare s language code

/-- What a special judge says of a test case. -/
structure Ruling where
  verdict : Verdict
  points : UInt32
  /-- What is wrong with the special judge itself. -/
  message : Option String
deriving DecidableEq

/-- A ruling that says nothing about the test case. -/
def Ruling.unknown (message : String) : Ruling := ⟨.unknown, 0, some message⟩

/-- The ruling in the output of a special judge. A full score accepts, and the points are whole. -/
def Ruling.ofOutput (output : Sandbox.Output) : Ruling :=
  if output.exitCode ≠ 0 then
    .unknown ("Special judge exited with status " ++ toString output.exitCode.toInt)
  else
    match score? output.stdout with
    | some score =>
      ⟨if fullScore ≤ score then .accepted else .wrongAnswer, score.toUInt32, none⟩
    | none =>
      .unknown
        ("Special judge printed no valid score: " ++ Text.quoted (Text.trim output.stdout))

/-- Writes files one after the other, up to the first that fails. -/
def writeAll : List (String × String) → Work (Except Workspace.Fault Unit)
  | [] => return .ok ()
  | (name, contents) :: rest => do
    match ← Work.write .judge name contents with
    | .error fault => return .error fault
    | .ok () => writeAll rest

/-- Asks a special judge about the output for one test case. -/
def check (s : SandboxSettings) (j : SpecialJudge) (index : Nat) (case : TestCase)
    (output : String) : Work Ruling := do
  let name (ending : String) := toString index ++ ending
  let files := [
    (name ".in", case.input), (name ".out", output), (name ".ans", case.expectedOutput)]
  match ← writeAll files with
  | .error fault => return .unknown ("Special judge setup failed: " ++ fault.message)
  | .ok () =>
    let spec := s.spec j.language.image (arguments j.language.runCommand ++ files.map (·.1)) .judge
      true j.language.memoryLimitMb s.checkTimeout
    match ← Work.execute spec with
    | .error fault => return .unknown ("Special judge error: " ++ fault.message)
    | .ok output => return .ofOutput output

end SpecialJudge

end Arbiter.Judging
