import Arbiter.Decimal.Basic
import Arbiter.Duration
import Arbiter.Text.Blank
import Arbiter.Text.Lowercase

/-! The settings of a worker, which the environment may override, and those of its sandboxes. -/

namespace Arbiter

/-- Where submissions and tasks are kept. -/
inductive Backend
  | redis
  | memory
deriving DecidableEq

/-- The settings of sandboxes that come neither from a problem nor from a language. -/
structure SandboxSettings where
  /-- The program that starts containers. -/
  program : String := "docker"
  compileTimeout : Duration := .ofSeconds 30
  /-- How much more memory compiling may take than running. -/
  compileMemoryFactor : UInt32 := 2
  /-- How much more time a run may take by the clock than on the processor. -/
  wallFactor : Float := 1.2
  checkTimeout : Duration := .ofSeconds 10
  user : String := "nobody"
  /-- The place of the working directory inside of a sandbox. -/
  mountPoint : String := "/app"

/-- The time by the clock for a run with the given limit, to the nearest millisecond and at most
`2 ^ 64 - 1` of them. -/
def SandboxSettings.wallBudget (s : SandboxSettings) (timeLimitMs : UInt32) : Duration :=
  ⟨(timeLimitMs.toNat.toFloat * s.wallFactor).round.toUInt64.toNat⟩

/-- The settings of a worker. Those without a value here depend on the machine. -/
structure Settings where
  redisUrl : String := "redis://localhost:6379"
  backend : Backend := .redis
  workdir : Option String := none
  workers : Nat := 2
  /-- How many jobs can wait. -/
  queueCapacity : Nat := 64
  /-- How many test cases of a submission run at once. -/
  testParallelism : Option Nat := none
  /-- How many comparisons of a plagiarism task run at once. -/
  plagiarismParallelism : Option Nat := none
  /-- The file with the registry of languages. -/
  languagesPath : Option String := none
  sandbox : SandboxSettings := {}

namespace Settings

/-- Why an environment does not give settings. -/
inductive Fault
  | backend (name : String)
  | count (key raw : String) (reason : Decimal.WholeFault)
  | zero (key : String)
deriving DecidableEq

def Fault.message : Fault → String
  | backend name => "Unknown store backend: " ++ name
  | count key raw reason => "Invalid " ++ key ++ ": " ++ raw ++ ": " ++ reason.message
  | zero key => key ++ " must be at least 1"

/-- The backend with a name, in letters of either case. -/
def backendOf (name : String) : Except Fault Backend :=
  match Text.lowercase name with
  | "redis" => .ok .redis
  | "memory" => .ok .memory
  | other => .error (.backend other)

/-- The positive number of 64 bits under a key, if the key is set. -/
def count? (env : List (String × String)) (key : String) : Except Fault (Option Nat) :=
  match env.lookup key with
  | none => .ok none
  | some raw =>
    match Decimal.whole? UInt64.size (Text.trim raw) with
    | .error reason => .error (.count key raw reason)
    | .ok 0 => .error (.zero key)
    | .ok n => .ok (some n)

/-- The settings under an environment. Of several faults the one of the backend counts first. -/
def ofEnvironment (env : List (String × String)) : Except Fault Settings := do
  let base : Settings := {}
  let backend ← (env.lookup "OJ_STORE").mapM backendOf
  let workers ← count? env "OJ_WORKERS"
  let queueCapacity ← count? env "OJ_QUEUE_CAPACITY"
  let testParallelism ← count? env "OJ_TEST_PARALLELISM"
  let plagiarismParallelism ← count? env "OJ_PLAGIARISM_PARALLELISM"
  return {
    redisUrl := (env.lookup "REDIS_URL").getD base.redisUrl
    backend := backend.getD base.backend
    workdir := env.lookup "OJ_WORKDIR"
    workers := workers.getD base.workers
    queueCapacity := queueCapacity.getD base.queueCapacity
    testParallelism, plagiarismParallelism
    languagesPath := env.lookup "OJ_LANGUAGES"
    sandbox := { program := (env.lookup "OJ_DOCKER_BIN").getD base.sandbox.program } }

end Settings

end Arbiter
