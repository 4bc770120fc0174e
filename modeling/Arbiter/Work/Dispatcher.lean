import Arbiter.Record.Job

/-! The queue of jobs and its workers. A submitter waits while the queue is full. Jobs are taken up
in the order in which they were submitted, each by one worker. Once the dispatcher is closed it
takes no more jobs, and its workers stop when the queue is empty. -/

namespace Arbiter

inductive Worker
  | idle
  | busy (job : Job)
  | stopped
deriving DecidableEq

structure Dispatcher where
  capacity : Nat
  /-- The jobs that wait, the oldest first. -/
  queue : List Job
  closed : Bool
  workers : List Worker
deriving DecidableEq

namespace Dispatcher

/-- A queue with room for one job at least, and one worker at least. -/
def start (workers capacity : Nat) : Dispatcher :=
  ⟨max 1 capacity, [], false, List.replicate (max 1 workers) .idle⟩

/-- What can happen to a dispatcher. -/
inductive Event
  | submit (job : Job)
  | take (worker : Nat)
  /-- A worker is done with its job, well or badly. -/
  | finish (worker : Nat)
  | close
  | stop (worker : Nat)
deriving DecidableEq

/-- The queue has no room. -/
def isFull (d : Dispatcher) : Bool := d.capacity ≤ d.queue.length

def setWorker (d : Dispatcher) (i : Nat) (w : Worker) : Dispatcher :=
  { d with workers := d.workers.set i w }

/-- The dispatcher after an event, if the event can happen. -/
def step? (d : Dispatcher) : Event → Option Dispatcher
  | .submit job =>
    if d.closed || d.isFull then none else some { d with queue := d.queue ++ [job] }
  | .take i =>
    match d.workers[i]?, d.queue with
    | some .idle, job :: rest => some ({ d with queue := rest }.setWorker i (.busy job))
    | _, _ => none
  | .finish i =>
    match d.workers[i]? with
    | some (.busy _) => some (d.setWorker i .idle)
    | _ => none
  | .close => some { d with closed := true }
  | .stop i =>
    match d.workers[i]? with
    | some .idle => if d.closed && d.queue.isEmpty then some (d.setWorker i .stopped) else none
    | _ => none

/-- All workers have stopped. -/
def isDown (d : Dispatcher) : Bool := d.workers.all (· == .stopped)

end Dispatcher

end Arbiter
