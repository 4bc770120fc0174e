import Arbiter.Judging.SpecialJudge
import Arbiter.Record.Language
import Arbiter.Sandbox.Usage

/-! Running a program on one test case, under limits. What came out is held against them in a fixed order:
time by the clock, time on the processor, memory, exit, and last the output. -/

namespace Arbiter

structure Limits where
  timeMs : UInt32
  memoryMb : UInt32
deriving DecidableEq

namespace Limits

/-- The limits of the problem, and where it has none those of the language. -/
def effective (timeMs memoryMb : Option UInt32) (language : Language) : Limits :=
  ⟨timeMs.getD language.timeLimitMs, memoryMb.getD language.memoryLimitMb⟩

def memoryKb (l : Limits) : Nat := 1024 * l.memoryMb.toNat

end Limits

end Arbiter

namespace Arbiter.Judging

/-- The points of an accepted test case, where no special judge gives them. -/
def pointsPerCase : UInt32 := 10

/-- The exit code of a program that the system has killed, as it does for want of memory. -/
def killedExitCode : Int64 := 137

/-- The output is the expected one. -/
def outputsMatch (mode : JudgeMode) (actual expected : String) : Bool :=
  match mode with
  | .strict => actual == expected
  | .standard | .special => Text.trimEnd actual == Text.trimEnd expected

/-- All that a run on a test case depends on. -/
structure Run where
  /-- The place of the test case in its problem, from one on. -/
  index : Nat
  case : TestCase
  language : Language
  limits : Limits
  mode : JudgeMode
  judge : Option SpecialJudge

/-- The verdict that the limits and the exit alone lead to. -/
def limitVerdict? (limits : Limits) (timeMs : UInt32) (memoryKb : Nat) (output : Sandbox.Output) :
    Option Verdict :=
  if limits.timeMs < timeMs then some .timeLimitExceeded
  else if limits.memoryKb < memoryKb ∨ output.exitCode = killedExitCode ∨ output.oomKilled then
    some .memoryLimitExceeded
  else if output.exitCode ≠ 0 then some .runtimeError
  else none

/-- The result of a run that came to an end. -/
def resultOf (s : SandboxSettings) (r : Run) (output : Sandbox.Output) : Work TestCaseResult := do
  let (usage, error) := Sandbox.splitErrors output.stderr
  let timeMs := usage.elim 0 (·.cpuMs)
  let memoryKb := max (usage.elim 0 (·.maxRssKb)) output.peakMemoryKb
  let result (verdict : Verdict) (points : UInt32) (error : String) : TestCaseResult :=
    { index := r.index, verdict, timeMs, memoryKb := .ofNat (min memoryKb.toNat (UInt32.size - 1))
      points, output := output.stdout, error }
  match limitVerdict? r.limits timeMs memoryKb.toNat output with
  | some verdict => return result verdict 0 error
  | none =>
    match r.mode, r.judge with
    | .special, some judge =>
      let ruling ← judge.check s r.index r.case output.stdout
      return result ruling.verdict ruling.points (ruling.message.getD error)
    | .special, none => return result .unknown 0 "Special judge is not prepared"
    | mode, _ =>
      if outputsMatch mode output.stdout r.case.expectedOutput then
        return result .accepted pointsPerCase error
      else return result .wrongAnswer 0 error

/-- Runs a program on one test case. Faults of the sandbox are results too. -/
def runCase (s : SandboxSettings) (r : Run) : Work TestCaseResult := do
  let inputFile := toString r.index ++ ".in"
  match ← Work.write .work inputFile r.case.input with
  | .error fault =>
    return .stamped r.index .unknown ("Runner Error: failed to write input: " ++ fault.message)
  | .ok () =>
    let spec := s.spec r.language.image (Sandbox.wrapCommand r.language.runCommand inputFile) .work
      true r.limits.memoryMb (s.wallBudget r.limits.timeMs)
    match ← Work.execute spec with
    | .ok output => resultOf s r output
    | .error (.timeout _) =>
      return { TestCaseResult.stamped r.index .timeLimitExceeded "Container wait timed out." with
        timeMs := r.limits.timeMs }
    | .error fault => return .stamped r.index .unknown ("Runner Error: " ++ fault.message)

end Arbiter.Judging
