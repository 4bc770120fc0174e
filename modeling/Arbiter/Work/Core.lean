import Arbiter.Decimal.Shortest
import Arbiter.Judging.Pass
import Arbiter.Plagiarism.Evaluation
import Arbiter.Record.Job
import Arbiter.Work.Dispatcher
import Arbiter.Work.Rehearsal

/-! The work that each kind of job asks for, and the core: a store, a dispatcher with one worker, and the
requests that users put. Here the worker takes up jobs only when a request has to wait for room, or when the
core shuts down. -/

namespace Arbiter

namespace Work

inductive Fault
  | judging (fault : Judging.Fault)
  | plagiarism (fault : Plagiarism.Fault)

def Fault.message : Fault → String
  | judging fault => fault.message
  | plagiarism fault => fault.message

end Work

/-- Does a job. To judge again is to judge: every pass begins by clearing what the last one left. -/
def Job.work (s : SandboxSettings) : Job → ExceptT Work.Fault Work Unit
  | judge id | rejudge id => do
    if let .error fault ← Work.ending (Judging.judge s id) then throw (.judging fault)
  | plagiarism id => do
    if let .error fault ← Work.ending (Plagiarism.run id) then throw (.plagiarism fault)
  | buildGraph id => do
    if let .error fault ← Work.ending (Plagiarism.buildGraph id) then throw (.plagiarism fault)

structure Core where
  settings : SandboxSettings
  dispatcher : Dispatcher
  rehearsal : Rehearsal

namespace Core

/-- The threshold of tasks that ask for none. -/
def standardThreshold : Float := 0.8

inductive Fault
  | threshold (value : Float)
  | work (fault : Work.Fault)

def Fault.message : Fault → String
  | threshold value =>
    "Threshold must be within [0, 1], got " ++ Decimal.shortest value
  | work fault => fault.message

def start (settings : SandboxSettings) (capacity : Nat) (rehearsal : Rehearsal) : Core :=
  ⟨settings, .start 1 capacity, rehearsal⟩

/-- The core after an event of its dispatcher, which stays as it is where the event cannot
happen. -/
def advance (c : Core) (e : Dispatcher.Event) : Core :=
  { c with dispatcher := (c.dispatcher.step? e).getD c.dispatcher }

/-- The worker takes up the oldest job and does it. A job that fails stops neither the worker nor
any other job. -/
def workOne (c : Core) : Core :=
  match c.dispatcher.queue with
  | [] => c
  | job :: _ =>
    let c := c.advance (.take 0)
    let (_, rehearsal) := c.rehearsal.perform (job.work c.settings).run
    { c with rehearsal }.advance (.finish 0)

/-- Queues a job, after the worker has made room. -/
def submit (c : Core) (job : Job) : Core :=
  (if c.dispatcher.isFull then c.workOne else c).advance (.submit job)

/-- Makes a task and queues its evaluation. -/
def submitPlagiarism (c : Core) (problem submission : Int64) (threshold : Option Float) :
    Except Fault Int64 × Core :=
  let threshold := threshold.getD standardThreshold
  if 0.0 ≤ threshold && threshold ≤ 1.0 then
    let (task, store) := c.rehearsal.store.createTask submission problem threshold
    let c := { c with rehearsal := { c.rehearsal with store } }
    (.ok task.id, c.submit (.plagiarism task.id))
  else (.error (.threshold threshold), c)

/-- Makes the dependence graph of a submission at once. -/
def buildGraph (c : Core) (id : Int64) : Except Fault Dependence.Graph × Core :=
  let (result, rehearsal) := c.rehearsal.perform (Plagiarism.buildGraph id).run
  (result.mapError (.work <| .plagiarism ·), { c with rehearsal })

/-- Does up to `count` of the jobs that wait. -/
def drain : Nat → Core → Core
  | 0, c => c
  | count + 1, c => drain count c.workOne

/-- Takes no more jobs, does all that wait, and stops the worker. -/
def shutdown (c : Core) : Core :=
  let c := c.advance .close
  (drain c.dispatcher.queue.length c).advance (.stop 0)

end Core

end Arbiter
