import Arbiter.Dependence.OfFlow
import Arbiter.Similarity.Report
import Arbiter.Work.Request

/-! Evaluating plagiarism tasks. A submission is compared with all others for the same problem in
the same language, and the most similar ones are listed. Main rule: the list is ordered by falling
score, and by identifier where scores are equal. -/

namespace Arbiter.Plagiarism

/-- How many submissions a task lists. -/
def listedMatches : Nat := 5

/-- Why work on dependence graphs fails. -/
inductive Fault
  | noSubmission (id : Int64)
  | noTask (id : Int64)
  | unreadable (id : Int64) (fault : Syntax.Fault)
  | store (fault : Store.Fault)

def Fault.message : Fault → String
  | noSubmission id => "Submission " ++ toString id.toInt ++ " not found"
  | noTask id => "Plagiarism task " ++ toString id.toInt ++ " not found"
  | unreadable id fault => "Submission " ++ toString id.toInt ++ ": " ++ fault.text
  | store fault => fault.message

/-- Goes on with what the store gives. -/
def step (w : Work (Except Store.Fault α)) : ExceptT Fault Work α := do
  match ← w with
  | .ok a => return a
  | .error fault => throw (.store fault)

/-- The dependence graph of a submission: the stored one, or else a new one, which is stored. -/
def ensureGraph (submission : Submission) : ExceptT Fault Work Dependence.Graph := do
  match submission.graph with
  | some graph => return graph
  | none =>
    match Dependence.Graph.ofSource submission.code with
    | .error fault => throw (.unreadable submission.id fault)
    | .ok graph =>
      step (Work.store (.saveGraph submission.id graph))
      return graph

/-- The dependence graph of a submission by identifier. -/
def buildGraph (id : Int64) : ExceptT Fault Work Dependence.Graph := do
  let some submission ← step (Work.store (.submission id)) | throw (.noSubmission id)
  ensureGraph submission

/-- A candidate with the report on its likeness. -/
structure Scored where
  id : Int64
  report : Similarity.Report

/-- The order of the list. -/
def Scored.before (a b : Scored) : Bool :=
  if b.report.score < a.report.score then true
  else if a.report.score < b.report.score then false
  else a.id ≤ b.id

/-- The findings from all reports, in whatever order they came in. -/
def rank (threshold : Float) (scored : List Scored) : PlagiarismOutcome :=
  let sorted := scored.mergeSort Scored.before
  match sorted with
  | [] => .none
  | best :: _ =>
    let top := sorted.take listedMatches
    { result := threshold ≤ best.report.score
      scores := top.map (·.report.score)
      similarIds := top.map (·.id)
      report := some best.report }

/-- The reports on all candidates that have a dependence graph. -/
def compareAll (target : Dependence.Graph) : List Submission → Work (List Scored)
  | [] => return []
  | candidate :: rest => do
    let graph ← (ensureGraph candidate).run
    let scored ← compareAll target rest
    match graph with
    | .ok graph => return ⟨candidate.id, .of target graph⟩ :: scored
    | .error _ => return scored

/-- The members of a group in the order in which their tasks come up. -/
def inTurn (moments : Nat → Nat) (group : List α) : List α :=
  (group.zipIdx.mergeSort fun a b => moments a.2 ≤ moments b.2).map (·.1)

/-- The findings of a task. -/
def evaluate (task : PlagiarismTask) : ExceptT Fault Work PlagiarismOutcome := do
  let some target ← step (Work.store (.submission task.submissionId))
    | throw (.noSubmission task.submissionId)
  let peers ← step (Work.store (.submissionsOf task.problemId target.languageId))
  let candidates := peers.filter (·.id != target.id)
  if candidates.isEmpty then return .none
  let graph ← ensureGraph target
  let moments ← Work.moments
  return rank task.threshold (← compareAll graph (inTurn moments candidates))

/-- Evaluates a task and stores its findings; a fault on the way leaves it without any. -/
def run (id : Int64) : ExceptT Fault Work PlagiarismOutcome := do
  let some task ← step (Work.store (.task id)) | throw (.noTask id)
  let outcome := match ← Work.ending (evaluate task) with
    | .ok outcome => outcome
    | .error _ => .none
  step (Work.store (.completeTask id outcome))
  return outcome

end Arbiter.Plagiarism
