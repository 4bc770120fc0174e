import Arbiter.Dependence.OfFlow
import Arbiter.Judging.Case

/-! A judging pass takes one submission from its first stage to an outcome, which is stored as a
whole. A pass that cannot be finished stores an outcome too, in which nothing is known about any
test case. -/

namespace Arbiter.Judging

/-- Why a pass is not finished. -/
inductive Fault
  | noSubmission (id : Int64)
  | noProblem (id : Int64)
  | noLanguage (id : Int64)
  | store (fault : Store.Fault)
  | workspace (fault : Workspace.Fault)
  | source (fault : Workspace.Fault)
  /-- The outcome is known and cannot be stored. -/
  | commit (id : Int64) (fault : Store.Fault)
  /-- Not even the fault of the pass can be stored. -/
  | record (fault : Store.Fault)
deriving DecidableEq

def Fault.message : Fault → String
  | noSubmission id => "Submission " ++ toString id.toInt ++ " not found"
  | noProblem id => "Problem " ++ toString id.toInt ++ " not found"
  | noLanguage id => "Language " ++ toString id.toInt ++ " not found"
  | store fault => fault.message
  | workspace fault => "Failed to create working directory: " ++ fault.message
  | source fault => "Failed to write source: " ++ fault.message
  | commit id fault =>
    "Failed to commit submission " ++ toString id.toInt ++ ": " ++ fault.message
  | record fault => "Failed to record orchestrator failure: " ++ fault.message

/-- Goes on with what a step gives, or stops with the fault it ends in. -/
def step (fault : ε → Fault) (w : Work (Except ε α)) : ExceptT Fault Work α := do
  match ← w with
  | .ok a => return a
  | .error e => throw (fault e)

/-- Goes on with a record that has to be there. -/
def find (absent : Fault) (w : Work (Except Store.Fault (Option α))) : ExceptT Fault Work α := do
  let some a ← step .store w | throw absent
  return a

/-- The results of `count` test cases by index, from those that finished in any order. A case that
did not finish is accounted for. -/
def settle (count : Nat) (finished : List TestCaseResult) : List TestCaseResult :=
  let aborted := (List.range' 1 count).filter fun i => !finished.any (·.index == i)
  let stamped := aborted.map fun i =>
    TestCaseResult.stamped i .unknown "Runner Error: test case task aborted"
  (finished ++ stamped).mergeSort fun a b => a.index ≤ b.index

/-- The runs on the test cases of a problem. -/
def runs (problem : Problem) (language : Language) (limits : Limits) (judge : Option SpecialJudge) :
    List Run :=
  (problem.testcases.zipIdx 1).map fun (case, index) =>
    { index, case, language, limits, mode := problem.judgeMode, judge }

/-- A run in a task of its own, whose result is lost where the task dies. -/
def runTask (s : SandboxSettings) (r : Run) : Work (Option TestCaseResult) := do
  let result ← runCase s r
  return if ← Work.joined r.index then some result else none

/-- Runs a program on all test cases of a problem. -/
def runCases (s : SandboxSettings) (problem : Problem) (language : Language) (limits : Limits)
    (judge : Option SpecialJudge) : Work (List TestCaseResult) := do
  let finished ← (runs problem language limits judge).mapM (runTask s)
  return settle problem.testcases.length (finished.filterMap id)

/-- Makes and stores the dependence graph of a submission, if its code can be read. -/
def attachGraph (submission : Submission) : Work Unit := do
  match Dependence.Graph.ofSource submission.code with
  | .error _ => return
  | .ok graph =>
    let _ ← Work.store (.saveGraph submission.id graph)
    return

/-- Stores the outcome of a pass and, for some languages, the dependence graph. -/
def finish (submission : Submission) (language : Language) (outcome : JudgeOutcome) :
    ExceptT Fault Work Status := do
  step (.commit submission.id) (Work.store (.commit submission.id outcome))
  if language.isPython then attachGraph submission
  return outcome.status

/-- The name of the working directory of a pass. -/
def workspaceLabel (id : Int64) : String := "submission-" ++ toString id.toInt

/-- The program is compiled, where its language asks for it. -/
def compileStep (s : SandboxSettings) (id : Int64) (language : Language) (limits : Limits) :
    ExceptT Fault Work CompileOutcome := do
  if language.compileCommand.isNone then return .compiled
  step .store (Work.store (.setStatus id .compiling))
  compile s language .work limits.memoryMb

/-- The special judge of a problem that asks for one. -/
def judgeStep (s : SandboxSettings) (problem : Problem) :
    Work (Except SpecialJudge.Fault (Option SpecialJudge)) := do
  if problem.judgeMode = .special then
    return (← (SpecialJudge.ofProblem s problem).run).map some
  else return .ok none

/-- The runs of all test cases, and the outcome they lead to. A user's count grows by one with each
pass that accepts. -/
def casesStep (s : SandboxSettings) (submission : Submission) (problem : Problem)
    (language : Language) (limits : Limits) (judge : Option SpecialJudge) :
    ExceptT Fault Work Status := do
  step .store (Work.store (.setStatus submission.id .judging))
  let results ← runCases s problem language limits judge
  let outcome := JudgeOutcome.ofResults results
  let status ← finish submission language outcome
  if outcome.worst = .accepted then
    let _ ← step .store (Work.store (.addResolved submission.userId))
  return status

/-- A pass up to the status it ends in. -/
def attempt (s : SandboxSettings) (id : Int64) : ExceptT Fault Work Status := do
  let submission ← find (.noSubmission id) (Work.store (.submission id))
  step .store (Work.store (.reset id))
  let problem ← find (.noProblem submission.problemId) (Work.store (.problem submission.problemId))
  let language ←
    find (.noLanguage submission.languageId) (Work.store (.language submission.languageId))
  let limits := Limits.effective problem.timeLimitMs problem.memoryLimitMb language
  let count := problem.testcases.length
  step .workspace (Work.openWorkspace (workspaceLabel id))
  step .source (Work.write .work language.sourceFile submission.code)
  match ← compileStep s id language limits with
  | .failed verdict message => finish submission language (.failed count verdict message)
  | .compiled =>
    match ← judgeStep s problem with
    | .error fault => finish submission language (.failed count .unknown fault.message)
    | .ok judge => casesStep s submission problem language limits judge

/-- How many test cases a submission has; none where that cannot be found out. -/
def caseCount (id : Int64) : Work Nat := do
  match ← Work.store (.submission id) with
  | .ok (some submission) =>
    match ← Work.store (.problem submission.problemId) with
    | .ok (some problem) => return problem.testcases.length
    | _ => return 0
  | _ => return 0

/-- Judges a submission and gives the status it ends in. -/
def judge (s : SandboxSettings) (id : Int64) : ExceptT Fault Work Status := do
  match ← Work.ending (attempt s id) with
  | .ok status => return status
  | .error fault =>
    let count ← caseCount id
    let outcome := JudgeOutcome.failed count .unknown
      ("Main orchestrator failed: " ++ fault.message)
    step .record (Work.store (.commit id outcome))
    return outcome.status

end Arbiter.Judging
