import Arbiter.Record.Language
import Arbiter.Record.Problem
import Arbiter.Record.Submission
import Arbiter.Record.Task
import Arbiter.Store.Table

/-! The store, which is all that outlives a job, and the requests that jobs put to it. Judging writes a result
as a whole, so a reader never sees a part of one. Any request may fail; the store kept in memory fails only
where a record to be changed is not there. -/

namespace Arbiter

structure Store where
  submissions : Table Submission
  problems : Table Problem
  languages : Table Language
  tasks : Table PlagiarismTask
  /-- How many passes have found a submission of a user accepted. -/
  resolved : Table Nat
  /-- The identifier given to a task last. -/
  lastTask : Int64

namespace Submission

/-- The submission with the outcome of a judging pass. -/
def judged (s : Submission) (o : JudgeOutcome) : Submission :=
  { s with
    status := o.status, timeMs := o.timeMs, memoryKb := o.memoryKb, score := o.score
    results := o.results, errorMessage := o.errorMessage }

/-- The submission as if it had never been judged. -/
def reset (s : Submission) : Submission :=
  { s with
    status := .pending, timeMs := 0, memoryKb := 0, score := 0, results := []
    errorMessage := none, graph := none }

end Submission

/-- The task with its findings. -/
def PlagiarismTask.complete (t : PlagiarismTask) (o : PlagiarismOutcome) : PlagiarismTask :=
  { t with
    completed := true, result := o.result, scores := o.scores, similarIds := o.similarIds
    report := o.report }

namespace Store

def empty : Store := ⟨.empty, .empty, .empty, .empty, .empty, 0⟩

def insertSubmission (s : Store) (r : Submission) : Store :=
  { s with submissions := s.submissions.insert r.id r }

def insertProblem (s : Store) (r : Problem) : Store :=
  { s with problems := s.problems.insert r.id r }

def insertLanguage (s : Store) (r : Language) : Store :=
  { s with languages := s.languages.insert r.id r }

/-- The submissions for a problem in a language, by identifier. -/
def submissionsOf (s : Store) (problem language : Int64) : List Submission :=
  s.submissions.values.filter fun r => r.problemId == problem && r.languageId == language

def resolvedCount (s : Store) (user : Int64) : Nat := (s.resolved.get? user).getD 0

/-- Counts one more, and gives the new count. -/
def addResolved (s : Store) (user : Int64) : Nat × Store :=
  let count := s.resolvedCount user + 1
  (count, { s with resolved := s.resolved.insert user count })

/-- A new task under the next identifier. -/
def createTask (s : Store) (submission problem : Int64) (threshold : Float) :
    PlagiarismTask × Store :=
  let id := s.lastTask + 1
  let task := PlagiarismTask.fresh id submission problem threshold
  (task, { s with tasks := s.tasks.insert id task, lastTask := id })

end Store

end Arbiter

namespace Arbiter.Store

/-- Why a request fails. -/
inductive Fault
  | noSubmission (id : Int64)
  | noTask (id : Int64)
  /-- A fault of the store itself. -/
  | unavailable (message : String)
deriving DecidableEq

def Fault.message : Fault → String
  | noSubmission id => "Submission " ++ toString id.toInt ++ " not found"
  | noTask id => "Plagiarism task " ++ toString id.toInt ++ " not found"
  | unavailable message => message

inductive Request
  | submission (id : Int64)
  | problem (id : Int64)
  | language (id : Int64)
  | setStatus (id : Int64) (status : Status)
  | commit (id : Int64) (outcome : JudgeOutcome)
  | reset (id : Int64)
  | saveGraph (id : Int64) (graph : Dependence.Graph)
  | submissionsOf (problem language : Int64)
  | addResolved (user : Int64)
  | task (id : Int64)
  | completeTask (id : Int64) (outcome : PlagiarismOutcome)

/-- What a request that succeeds gives. -/
def Request.Answer : Request → Type
  | submission _ => Option Submission
  | problem _ => Option Problem
  | language _ => Option Language
  | setStatus .. | commit .. | reset _ | saveGraph .. | completeTask .. => Unit
  | submissionsOf .. => List Submission
  | addResolved _ => Nat
  | task _ => Option PlagiarismTask

abbrev Request.Reply (q : Request) : Type := Except Fault q.Answer

/-- Changes a submission, if there is one. -/
def changeSubmission (s : Store) (id : Int64) (change : Submission → Submission) :
    Except Fault Unit × Store :=
  match s.submissions.get? id with
  | some r => (.ok (), { s with submissions := s.submissions.insert id (change r) })
  | none => (.error (.noSubmission id), s)

/-- What the store in memory replies to a request, and the store after it. -/
def reply : (q : Request) → Store → q.Reply × Store
  | .submission id, s => (.ok (s.submissions.get? id), s)
  | .problem id, s => (.ok (s.problems.get? id), s)
  | .language id, s => (.ok (s.languages.get? id), s)
  | .setStatus id status, s => s.changeSubmission id fun r => { r with status }
  | .commit id outcome, s => s.changeSubmission id (·.judged outcome)
  | .reset id, s => s.changeSubmission id (·.reset)
  | .saveGraph id graph, s => s.changeSubmission id fun r => { r with graph := some graph }
  | .submissionsOf problem language, s => (.ok (s.submissionsOf problem language), s)
  | .addResolved user, s =>
    let (count, s) := s.addResolved user
    (.ok count, s)
  | .task id, s => (.ok (s.tasks.get? id), s)
  | .completeTask id outcome, s =>
    match s.tasks.get? id with
    | some t => (.ok (), { s with tasks := s.tasks.insert id (t.complete outcome) })
    | none => (.error (.noTask id), s)

end Arbiter.Store
