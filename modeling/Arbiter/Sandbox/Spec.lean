import Arbiter.Duration

/-! Sandboxes: what is started in one, what comes out of it, and how it can fail. -/

namespace Arbiter.Sandbox

/-- The directories of a judging pass. -/
inductive Folder
  /-- The submission's own. -/
  | work
  /-- That of the special judge, which lies inside of the submission's. -/
  | judge
deriving DecidableEq

/-- All that is needed to start a sandbox. -/
structure Spec where
  image : String
  /-- The program and its arguments. -/
  command : List String
  /-- The directory that the program works in. -/
  folder : Folder
  /-- The place of this directory inside of the sandbox. -/
  mountPoint : String
  /-- The program cannot change the directory. -/
  readOnly : Bool
  memoryLimitMb : UInt32
  wallTimeout : Duration
  networkDisabled : Bool
  user : String
deriving DecidableEq

/-- The name of a started sandbox. -/
structure Handle where
  name : String
deriving DecidableEq

/-- What a sandbox leaves behind when its program ends. -/
structure Output where
  exitCode : Int64 := 0
  stdout : String := ""
  stderr : String := ""
  /-- The most memory that the sandbox itself has seen in use. -/
  peakMemoryKb : UInt64 := 0
  oomKilled : Bool := false
deriving DecidableEq

inductive Fault
  | launch (message : String)
  | runtime (message : String)
  | timeout (budget : Duration)
  | io (message : String)
deriving DecidableEq

def Fault.message : Fault → String
  | launch message => "failed to launch sandbox: " ++ message
  | runtime message => "container runtime failure: " ++ message
  | timeout budget => "sandbox did not finish within " ++ budget.text
  | io message => message

end Arbiter.Sandbox
