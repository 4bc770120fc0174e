import Arbiter.Proofs.Work.Life
import Arbiter.Work.Core

/-! A dispatcher at work: users queue jobs and ask for comparisons, and workers take the jobs up and do them
on one store. Main statement: whatever the order in which all of it happens, what was accepted is what was
taken up, in that order, and then what still waits. -/

namespace Arbiter

open Function (update)

/-- The job that the worker is on. -/
def Worker.job? : Worker → Option Job
  | busy job => some job
  | idle | stopped => none

namespace Dispatcher

variable {d d' : Dispatcher} {i : Nat} {job : Job}

/-! What each event asks for, and what it changes. -/

theorem step_submit : d.step? (.submit job) = some d' ↔
    d.closed = false ∧ d.queue.length < d.capacity ∧ d' = { d with queue := d.queue ++ [job] } := by
  rw [step?, isFull]
  by_cases closed : d.closed = true
  · simp [closed]
  · by_cases full : d.capacity ≤ d.queue.length
    · simp [full, Nat.not_lt.2 full]
    · simp [closed, full, Nat.not_le.1 full, eq_comm]

theorem step_take : d.step? (.take i) = some d' ↔ d.workers[i]? = some .idle ∧
    ∃ job rest, d.queue = job :: rest ∧
      d' = { d with queue := rest, workers := d.workers.set i (.busy job) } := by
  rw [step?]
  constructor
  · intro h
    split at h
    · rename_i job rest here next
      exact ⟨here, job, rest, next, (Option.some.inj h).symm⟩
    · cases h
  · rintro ⟨here, job, rest, next, rfl⟩
    rw [here, next]
    rfl

theorem step_finish : d.step? (.finish i) = some d' ↔
    (∃ job, d.workers[i]? = some (.busy job)) ∧ d' = { d with workers := d.workers.set i .idle } := by
  rw [step?]
  constructor
  · intro h
    split at h
    · rename_i job here
      exact ⟨⟨job, here⟩, (Option.some.inj h).symm⟩
    · cases h
  · rintro ⟨⟨job, here⟩, rfl⟩
    rw [here]
    rfl

theorem step_stop : d.step? (.stop i) = some d' ↔
    d.workers[i]? = some .idle ∧ d.closed = true ∧ d.queue = [] ∧
      d' = { d with workers := d.workers.set i .stopped } := by
  rw [step?]
  constructor
  · intro h
    split at h
    · rename_i here
      split at h
      · rename_i drained
        rw [Bool.and_eq_true, List.isEmpty_iff] at drained
        exact ⟨here, drained.1, drained.2, (Option.some.inj h).symm⟩
      · cases h
    · cases h
  · rintro ⟨here, closed, drained, rfl⟩
    simp [here, closed, drained, setWorker]

end Dispatcher

/-- A dispatcher, the worker that has hold of the receiving end of its queue, what the workers do on the
store, and the tasks of comparisons that are asked for and not yet queued. -/
structure Service where
  dispatcher : Dispatcher
  receiver : Option Nat
  system : System
  awaiting : List Int64

namespace Service

def start (workers capacity : Nat) (store : Store) : Service :=
  ⟨.start workers capacity, none, .idle store, []⟩

inductive Act
  /-- A job is accepted. -/
  | queued (job : Job)
  /-- A user puts a request to the store. -/
  | used (u : Use)
  /-- A comparison is asked for, and its task is made, if there is an identifier left for it. -/
  | created (id : Int64)
  /-- The evaluation of that task is accepted, and its identifier is given back. -/
  | returned (id : Int64)
  /-- A worker that has no job gets hold of the receiving end. -/
  | locked (worker : Nat)
  | took (worker : Nat) (job : Job)
  /-- A worker goes on with its job by one request. -/
  | went (e : System.Event)
  /-- A worker is done with its job, well or badly. -/
  | finished (worker : Nat) (job : Job)
  | closed
  /-- A worker hears that no job will come any more. -/
  | stopped (worker : Nat)

/-- The event is a request of a job. -/
def IsRequest : System.Event → Prop
  | .asked .. | .acted _ => True
  | .began .. | .ended _ => False

/-- What can happen next. -/
inductive Step (s : SandboxSettings) : Service → Act → Service → Prop
  | queued {v : Service} {d : Dispatcher} (job : Job)
    (accepted : v.dispatcher.step? (.submit job) = some d) :
    Step s v (.queued job) { v with dispatcher := d }
  | used {v : Service} {u : Use} (room : v.system.store.HasRoom u) :
    Step s v (.used u) { v with system := ⟨v.system.store.use u, v.system.running⟩ }
  | created {v : Service} (submission problem : Int64) (threshold : Option Float)
    (within : 0.0 ≤ threshold.getD Core.standardThreshold && threshold.getD Core.standardThreshold ≤ 1.0)
    (room : v.system.store.lastTask < Int64.maxValue) :
    Step s v (.created (v.system.store.lastTask + 1))
      { v with
        system :=
          ⟨(v.system.store.createTask submission problem
            (threshold.getD Core.standardThreshold)).2, v.system.running⟩
        awaiting := (v.system.store.lastTask + 1) :: v.awaiting }
  | returned {v : Service} {id : Int64} {d : Dispatcher} (awaits : id ∈ v.awaiting)
    (accepted : v.dispatcher.step? (.submit (.plagiarism id)) = some d) :
    Step s v (.returned id) { v with dispatcher := d, awaiting := v.awaiting.erase id }
  | locked {v : Service} {i : Nat} (here : v.dispatcher.workers[i]? = some .idle)
    (free : v.receiver = none) :
    Step s v (.locked i) { v with receiver := some i }
  | took {v : Service} {i : Nat} {job : Job} {d : Dispatcher} {x : System} (holds : v.receiver = some i)
    (next : v.dispatcher.queue.head? = some job) (taken : v.dispatcher.step? (.take i) = some d)
    (move : System.Move s v.system (.began i job) x) :
    Step s v (.took i job) { v with dispatcher := d, receiver := none, system := x }
  | went {v : Service} {e : System.Event} {x : System} (request : IsRequest e)
    (move : System.Move s v.system e x) :
    Step s v (.went e) { v with system := x }
  | finished {v : Service} {i : Nat} {job : Job} {result} {d : Dispatcher} {x : System}
    (ended : v.system.running i = some ⟨job, Program.done result⟩)
    (done : v.dispatcher.step? (.finish i) = some d) (move : System.Move s v.system (.ended i) x) :
    Step s v (.finished i job) { v with dispatcher := d, system := x }
  | closed {v : Service} {d : Dispatcher} (close : v.dispatcher.step? .close = some d) :
    Step s v .closed { v with dispatcher := d }
  | stopped {v : Service} {i : Nat} {d : Dispatcher} (holds : v.receiver = some i)
    (stop : v.dispatcher.step? (.stop i) = some d) :
    Step s v (.stopped i) { v with dispatcher := d, receiver := none }

/-- Some steps in turn. -/
inductive Run (s : SandboxSettings) : Service → List Act → Service → Prop
  | refl (v : Service) : Run s v [] v
  | step {v w u : Service} {past : List Act} {a : Act} (run : Run s v past w) (step : Step s w a u) :
    Run s v (past ++ [a]) u

/-- The job that is accepted. -/
def Act.accepts? : Act → Option Job
  | queued job => some job
  | returned id => some (.plagiarism id)
  | _ => none

/-- The job that is taken up, with the worker that takes it. -/
def Act.takes? : Act → Option (Nat × Job)
  | took i job => some (i, job)
  | _ => none

/-- The job that is done, with the worker that did it. -/
def Act.does? : Act → Option (Nat × Job)
  | finished i job => some (i, job)
  | _ => none

/-- The task whose identifier is given back. -/
def Act.returns? : Act → Option Int64
  | returned id => some id
  | _ => none

def accepted (past : List Act) : List Job := past.filterMap Act.accepts?

def taken (past : List Act) : List (Nat × Job) := past.filterMap Act.takes?

def handled (past : List Act) : List (Nat × Job) := past.filterMap Act.does?

def returned (past : List Act) : List Int64 := past.filterMap Act.returns?

/-- The jobs of one worker. -/
def jobsOf (i : Nat) (l : List (Nat × Job)) : List Job := (l.filter (·.1 == i)).map (·.2)

section Histories

variable (past later : List Act) (a : Act)

@[simp] theorem accepted_append : accepted (past ++ [a]) = accepted past ++ a.accepts?.toList := by
  cases h : a.accepts? <;> simp [accepted, h]

@[simp] theorem taken_append : taken (past ++ [a]) = taken past ++ a.takes?.toList := by
  cases h : a.takes? <;> simp [taken, h]

@[simp] theorem handled_append : handled (past ++ [a]) = handled past ++ a.does?.toList := by
  cases h : a.does? <;> simp [handled, h]

@[simp] theorem returned_append : returned (past ++ [a]) = returned past ++ a.returns?.toList := by
  cases h : a.returns? <;> simp [returned, h]

@[simp] theorem jobsOf_append (i : Nat) (l l' : List (Nat × Job)) :
    jobsOf i (l ++ l') = jobsOf i l ++ jobsOf i l' := by
  simp [jobsOf]

theorem jobsOf_same (i : Nat) (job : Job) : jobsOf i [(i, job)] = [job] := by
  simp [jobsOf]

theorem jobsOf_other {i j : Nat} (other : j ≠ i) (job : Job) : jobsOf i [(j, job)] = [] := by
  simp [jobsOf, other]

end Histories

/-- The books are in order: nothing is lost on the way from the queue to the workers, and each worker is on
the job that it took up last, if it has not done it. -/
structure Sound (workers capacity : Nat) (past : List Act) (v : Service) : Prop where
  capacity : v.dispatcher.capacity = max 1 capacity
  bounded : v.dispatcher.queue.length ≤ v.dispatcher.capacity
  staff : v.dispatcher.workers.length = max 1 workers
  order : accepted past = (taken past).map (·.2) ++ v.dispatcher.queue
  hands (i : Nat) :
    jobsOf i (taken past) = jobsOf i (handled past) ++ ((v.system.running i).map (·.job)).toList
  busy (i : Nat) :
    v.dispatcher.workers[i]?.bind Worker.job? = (v.system.running i).map (·.job)
  stopped (i : Nat) : v.dispatcher.workers[i]? = some .stopped →
    v.dispatcher.closed = true ∧ v.dispatcher.queue = []
  holder (i : Nat) : v.receiver = some i → v.dispatcher.workers[i]? = some .idle

variable {s : SandboxSettings} {workers capacity : Nat} {past : List Act} {v w : Service} {a : Act}

theorem sound_start (workers capacity : Nat) (store : Store) :
    Sound workers capacity [] (start workers capacity store) := by
  have idle {i : Nat} {w : Worker} (here : (List.replicate (max 1 workers) Worker.idle)[i]? = some w) :
      w = .idle := by
    rw [List.getElem?_replicate] at here
    split at here
    · exact (Option.some.inj here).symm
    · cases here
  refine ⟨rfl, Nat.zero_le _, List.length_replicate, rfl, fun i => rfl, fun i => ?_, fun i here => ?_,
    fun i here => ?_⟩
  · cases here : (start workers capacity store).dispatcher.workers[i]? with
    | none => rfl
    | some w =>
      rw [idle here]
      rfl
  · cases idle here
  · cases here

/-- A request of a job leaves every worker on the job that it is on. -/
theorem jobs_of_request {x y : System} {e : System.Event} (request : IsRequest e)
    (move : System.Move s x e y) (j : Nat) :
    (y.running j).map (·.job) = (x.running j).map (·.job) := by
  have kept {i : Nat} {job : Job} {rest rest' : Work (Except Work.Fault Unit)}
      (here : x.running i = some ⟨job, rest⟩) :
      (update x.running i (some ⟨job, rest'⟩) j).map (·.job) = (x.running j).map (·.job) := by
    by_cases same : j = i
    · subst same
      rw [Function.update_self, here]
      rfl
    · rw [Function.update_of_ne same]
  cases move with
  | began => exact request.elim
  | asked here => exact kept here
  | acted here => exact kept here
  | ended => exact request.elim

theorem Sound.accept (sound : Sound workers capacity past v) {job : Job} {d : Dispatcher} {waiting : List Int64}
    (accepts : a.accepts? = some job) (takes : a.takes? = none) (does : a.does? = none)
    (accepted : v.dispatcher.step? (.submit job) = some d) :
    Sound workers capacity (past ++ [a]) { v with dispatcher := d, awaiting := waiting } := by
  obtain ⟨opened, room, rfl⟩ := Dispatcher.step_submit.1 accepted
  refine ⟨sound.capacity, ?_, sound.staff, ?_, ?_, sound.busy, ?_, sound.holder⟩
  · simpa using Nat.succ_le_of_lt room
  · simp [accepts, takes, sound.order]
  · simpa [takes, does] using sound.hands
  · intro i stopped
    rw [(sound.stopped i stopped).1] at opened
    cases opened

theorem Sound.request (sound : Sound workers capacity past v) {x : System} (waiting : List Int64)
    (accepts : a.accepts? = none) (takes : a.takes? = none) (does : a.does? = none)
    (jobs : ∀ i, (x.running i).map (·.job) = (v.system.running i).map (·.job)) :
    Sound workers capacity (past ++ [a]) { v with system := x, awaiting := waiting } := by
  refine ⟨sound.capacity, sound.bounded, sound.staff, ?_, ?_, ?_, sound.stopped, sound.holder⟩
  · simp [accepts, takes, sound.order]
  · simpa [takes, does, jobs] using sound.hands
  · simpa [jobs] using sound.busy

theorem Sound.took (sound : Sound workers capacity past v) {i : Nat} {job : Job} {d : Dispatcher}
    {x : System} (next : v.dispatcher.queue.head? = some job)
    (taken : v.dispatcher.step? (.take i) = some d) (move : System.Move s v.system (.began i job) x) :
    Sound workers capacity (past ++ [.took i job]) { v with dispatcher := d, receiver := none, system := x } := by
  obtain ⟨here, job', rest, queue, rfl⟩ := Dispatcher.step_take.1 taken
  obtain rfl : job' = job := by
    rw [queue] at next
    exact Option.some.inj next
  cases move with
  | began _ free =>
    have inside : i < v.dispatcher.workers.length := (List.getElem?_eq_some_iff.1 here).1
    have bounded := sound.bounded
    rw [queue] at bounded
    refine ⟨sound.capacity, Nat.le_of_succ_le bounded, ?_, ?_, fun j => ?_, fun j => ?_, fun j stopped => ?_,
      fun j holds => ?_⟩
    · simpa using sound.staff
    · simp [Act.accepts?, Act.takes?, sound.order, queue]
    · have hands := sound.hands j
      by_cases same : j = i
      · subst same
        simp [Act.takes?, Act.does?, hands, free, jobsOf_same, System.begin]
      · simp [Act.takes?, Act.does?, hands, jobsOf_other (Ne.symm same), System.begin, same]
    · by_cases same : j = i
      · subst same
        simp [System.begin, inside, Worker.job?]
      · simpa [System.begin, same, List.getElem?_set_ne (Ne.symm same)] using sound.busy j
    · by_cases same : j = i
      · subst same
        simp [inside] at stopped
      · rw [List.getElem?_set_ne (Ne.symm same)] at stopped
        have drained := (sound.stopped j stopped).2
        rw [queue] at drained
        cases drained
    · cases holds

theorem Sound.finished (sound : Sound workers capacity past v) {i : Nat} {job : Job} {result}
    {d : Dispatcher} {x : System} (ended : v.system.running i = some ⟨job, Program.done result⟩)
    (done : v.dispatcher.step? (.finish i) = some d) (move : System.Move s v.system (.ended i) x) :
    Sound workers capacity (past ++ [.finished i job]) { v with dispatcher := d, system := x } := by
  obtain ⟨⟨_, here⟩, rfl⟩ := Dispatcher.step_finish.1 done
  cases move with
  | ended _ =>
    have inside : i < v.dispatcher.workers.length := (List.getElem?_eq_some_iff.1 here).1
    refine ⟨sound.capacity, sound.bounded, ?_, ?_, fun j => ?_, fun j => ?_, fun j stopped => ?_,
      fun j holds => ?_⟩
    · simpa using sound.staff
    · simp [Act.accepts?, Act.takes?, sound.order]
    · have hands := sound.hands j
      by_cases same : j = i
      · subst same
        simp [Act.takes?, Act.does?, hands, ended, jobsOf_same]
      · simp [Act.takes?, Act.does?, hands, jobsOf_other (Ne.symm same), same]
    · by_cases same : j = i
      · subst same
        simp [inside, Worker.job?]
      · simpa [same, List.getElem?_set_ne (Ne.symm same)] using sound.busy j
    · by_cases same : j = i
      · subst same
        simp [inside] at stopped
      · rw [List.getElem?_set_ne (Ne.symm same)] at stopped
        exact sound.stopped j stopped
    · by_cases same : j = i
      · subst same
        simp [inside]
      · rw [List.getElem?_set_ne (Ne.symm same)]
        exact sound.holder j holds

theorem Sound.stop (sound : Sound workers capacity past v) {i : Nat} {d : Dispatcher}
    (stop : v.dispatcher.step? (.stop i) = some d) :
    Sound workers capacity (past ++ [.stopped i]) { v with dispatcher := d, receiver := none } := by
  obtain ⟨here, closed, drained, rfl⟩ := Dispatcher.step_stop.1 stop
  have inside : i < v.dispatcher.workers.length := (List.getElem?_eq_some_iff.1 here).1
  refine ⟨sound.capacity, sound.bounded, ?_, ?_, ?_, fun j => ?_, fun j _ => ⟨closed, drained⟩,
    fun j holds => ?_⟩
  · simpa using sound.staff
  · simp [Act.accepts?, Act.takes?, sound.order]
  · simpa [Act.takes?, Act.does?] using sound.hands
  · have busy := sound.busy j
    by_cases same : j = i
    · subst same
      rw [here] at busy
      simpa [inside, Worker.job?] using busy
    · rwa [List.getElem?_set_ne (Ne.symm same)]
  · cases holds

/-- Every step keeps the books in order. -/
theorem Sound.step (sound : Sound workers capacity past v) (step : Step s v a w) :
    Sound workers capacity (past ++ [a]) w := by
  cases step with
  | queued job accepted => exact sound.accept rfl rfl rfl accepted
  | used room => exact sound.request _ rfl rfl rfl fun _ => rfl
  | created submission problem threshold within room => exact sound.request _ rfl rfl rfl fun _ => rfl
  | returned awaits accepted => exact sound.accept rfl rfl rfl accepted
  | @locked i here free =>
    have kept := sound.request (a := .locked i) (x := v.system) v.awaiting rfl rfl rfl fun _ => rfl
    refine { kept with holder := fun j holds => ?_ }
    obtain rfl := Option.some.inj holds
    exact here
  | took holds next taken move => exact sound.took next taken move
  | went request move => exact sound.request _ rfl rfl rfl (jobs_of_request request move)
  | finished ended done move => exact sound.finished ended done move
  | @closed d close =>
    obtain rfl : { v.dispatcher with closed := true } = d := Option.some.inj close
    have kept := sound.request (a := .closed) (x := v.system) v.awaiting rfl rfl rfl fun _ => rfl
    exact { kept with stopped := fun j stopped => ⟨rfl, (sound.stopped j stopped).2⟩ }
  | stopped holds stop => exact sound.stop stop

theorem Sound.run {later : List Act} (sound : Sound workers capacity past v) (run : Run s v later w) :
    Sound workers capacity (past ++ later) w := by
  induction run with
  | refl => rwa [List.append_nil]
  | step _ step ih =>
    rw [← List.append_assoc]
    exact ih.step step

end Service

end Arbiter
