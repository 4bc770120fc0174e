import Arbiter.Judging.Workspace
import Arbiter.Program
import Arbiter.Store.Basic

/-! Work is a program that puts requests to the store, to the directories of a judging pass and to
its sandboxes. -/

namespace Arbiter

namespace Work

open Sandbox (Folder Handle Spec)

inductive Request
  | store (q : Store.Request)
  /-- A fresh directory named after the label. -/
  | openWorkspace (label : String)
  | makeJudgeFolder
  | write (folder : Folder) (name contents : String)
  | holds (folder : Folder) (path : String)
  | launch (spec : Spec)
  | wait (sandbox : Handle) (budget : Duration)
  | remove (sandbox : Handle)
  /-- Whether the task that ran a test case came back with its result, and did not die with it. -/
  | joined (index : Nat)
  /-- When the tasks of a group come up, each told by its place in the group. -/
  | moments

def Request.Reply : Request → Type
  | store q => q.Reply
  | openWorkspace _ | makeJudgeFolder | write .. => Except Workspace.Fault Unit
  | holds .. | joined _ => Bool
  | launch _ => Except Sandbox.Fault Handle
  | wait .. => Except Sandbox.Fault Sandbox.Output
  | remove _ => Except Sandbox.Fault Unit
  | moments => Nat → Nat

end Work

abbrev Work : Type → Type := Program Work.Request Work.Request.Reply

namespace Work

open Sandbox (Folder Handle Spec)

/-- The work that puts one request. -/
def ask (q : Request) : Work q.Reply := Program.request q

def store (q : Store.Request) : Work q.Reply := ask (Request.store q)

def openWorkspace (label : String) : Work (Except Workspace.Fault Unit) :=
  ask (Request.openWorkspace label)

def makeJudgeFolder : Work (Except Workspace.Fault Unit) := ask Request.makeJudgeFolder

def write (folder : Folder) (name contents : String) : Work (Except Workspace.Fault Unit) :=
  ask (Request.write folder name contents)

def holds (folder : Folder) (path : String) : Work Bool := ask (Request.holds folder path)

def launch (spec : Spec) : Work (Except Sandbox.Fault Handle) := ask (Request.launch spec)

def wait (sandbox : Handle) (budget : Duration) : Work (Except Sandbox.Fault Sandbox.Output) :=
  ask (Request.wait sandbox budget)

def remove (sandbox : Handle) : Work (Except Sandbox.Fault Unit) :=
  ask (Request.remove sandbox)

def joined (index : Nat) : Work Bool := ask (Request.joined index)

def moments : Work (Nat → Nat) := ask Request.moments

/-- Runs a sandbox to its end. Once started it is removed, however the wait for it ends; whether the
removal succeeds does not matter. -/
def execute (spec : Spec) : Work (Except Sandbox.Fault Sandbox.Output) := do
  match ← launch spec with
  | .error fault => return .error fault
  | .ok sandbox =>
    let ending ← wait sandbox spec.wallTimeout
    let _ ← remove sandbox
    return ending

/-- Goes on with what the work ends in, be it a fault. -/
def ending (w : ExceptT ε Work α) : ExceptT ε' Work (Except ε α) := ExceptT.lift w.run

end Work

end Arbiter
