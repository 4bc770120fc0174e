import Arbiter.Work.Request

/-! Rehearsals run work on a store in memory. Their sandboxes do what a script says, one scene for
each start and nothing of note once the script is at its end, and a log keeps every start and every
removal. -/

namespace Arbiter

open Sandbox (Folder Handle Spec)

/-- How a sandbox that has started ends. -/
inductive Ending
  | timeout
  | fails (fault : Sandbox.Fault)
  | exits (output : Sandbox.Output)
deriving DecidableEq

/-- What one sandbox does. -/
structure Scene where
  /-- The sandbox does not start. -/
  launchError : Option String := none
  ending : Ending := .exits {}
  /-- Empty files that it writes as it starts. -/
  creates : List String := []
  removeError : Option String := none
  /-- A submission that is looked up in the store as the sandbox starts. -/
  watch : Option Int64 := none

/-- What a reader of the store sees of a submission. -/
structure Seen where
  status : Status
  resultCount : Nat
  score : UInt32
  hasGraph : Bool
  errorMessage : Option String
deriving DecidableEq

def Submission.seen (s : Submission) : Seen :=
  ⟨s.status, s.results.length, s.score, s.graph.isSome, s.errorMessage⟩

inductive SandboxEvent
  /-- A start, successful or not, with the path of its directory and the files in there. -/
  | launch (sandbox : Handle) (spec : Spec) (path : String) (files : Workspace.Files)
      (seen : Option Seen)
  | remove (sandbox : Handle)

structure Rehearsal where
  store : Store := .empty
  workspace : Workspace := .empty ""
  /-- The scenes to come. -/
  script : List Scene := []
  /-- The sandboxes that are started and not yet removed. -/
  running : List (Handle × Scene) := []
  /-- How many starts there were. -/
  launches : Nat := 0
  log : List SandboxEvent := []

namespace Rehearsal

/-- Sandboxes are numbered in the order of their starts. -/
def handle (n : Nat) : Handle := ⟨"c" ++ toString n⟩

/-- Starts a sandbox as the next scene says. -/
def launch (r : Rehearsal) (spec : Spec) : Except Sandbox.Fault Handle × Rehearsal :=
  let scene := r.script.headD {}
  let sandbox := handle (r.launches + 1)
  let seen := (scene.watch.bind r.store.submissions.get?).map (·.seen)
  let event := SandboxEvent.launch sandbox spec (r.workspace.path spec.folder)
    (r.workspace.filesIn spec.folder) seen
  let r := { r with script := r.script.tail, launches := r.launches + 1, log := r.log ++ [event] }
  match scene.launchError with
  | some message => (.error (.launch message), r)
  | none =>
    let workspace := scene.creates.foldl (fun w name => (w.write spec.folder name "").2) r.workspace
    (.ok sandbox, { r with workspace, running := (sandbox, scene) :: r.running })

/-- Waits for a sandbox to end as its scene says. -/
def wait (r : Rehearsal) (sandbox : Handle) (budget : Duration) :
    Except Sandbox.Fault Sandbox.Output :=
  match ((r.running.lookup sandbox).getD {}).ending with
  | .timeout => .error (.timeout budget)
  | .fails fault => .error fault
  | .exits output => .ok output

/-- Removes a sandbox. -/
def remove (r : Rehearsal) (sandbox : Handle) : Except Sandbox.Fault Unit × Rehearsal :=
  let error := (r.running.lookup sandbox).bind (·.removeError)
  (error.elim (.ok ()) (.error <| .runtime ·),
    { r with
      running := r.running.filter (·.1 != sandbox), log := r.log ++ [.remove sandbox] })

/-- The reply to a request, and the rehearsal after it. -/
def reply : (q : Work.Request) → Rehearsal → q.Reply × Rehearsal
  | .store q, r =>
    let (answer, store) := Store.reply q r.store
    (answer, { r with store })
  | .openWorkspace label, r => (.ok (), { r with workspace := .empty label })
  | .makeJudgeFolder, r =>
    let (answer, workspace) := r.workspace.makeJudgeFolder
    (answer, { r with workspace })
  | .write folder name contents, r =>
    let (answer, workspace) := r.workspace.write folder name contents
    (answer, { r with workspace })
  | .holds folder path, r => (r.workspace.holds folder path, r)
  | .launch spec, r => r.launch spec
  | .wait sandbox budget, r => (r.wait sandbox budget, r)
  | .remove sandbox, r => r.remove sandbox
  | .joined _, r => (true, r)
  | .moments, r => (id, r)

/-- Does some work, and gives what it ends in and the rehearsal after it. -/
def perform (r : Rehearsal) (w : Work α) : α × Rehearsal := w.run reply r

/-- Takes the log, which begins anew. -/
def takeLog (r : Rehearsal) : List SandboxEvent × Rehearsal := (r.log, { r with log := [] })

end Rehearsal

end Arbiter
