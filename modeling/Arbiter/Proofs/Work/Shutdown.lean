import Arbiter.Proofs.Work.Delivery

/-! How a service comes down. Main statements: when all workers have stopped, every job that was accepted has
been done, once and by one worker, and every comparison that was asked for has its findings; and a service
that is closed can always be brought to that point. -/

namespace Arbiter

open Function (update)

/-- How many more steps the worker has to take, at most, with no further job. -/
def Worker.left : Worker → Nat
  | idle => 1
  | busy _ => 2
  | stopped => 0

/-- How many more jobs are to be taken up or done and workers to be stopped. -/
def Dispatcher.left (d : Dispatcher) : Nat := 2 * d.queue.length + (d.workers.map Worker.left).sum

theorem Dispatcher.sum_left_set {workers : List Worker} {i : Nat} {before : Worker}
    (here : workers[i]? = some before) (after : Worker) :
    ((workers.set i after).map Worker.left).sum + before.left =
      (workers.map Worker.left).sum + after.left := by
  induction workers generalizing i with
  | nil => simp at here
  | cons w rest ih =>
    cases i with
    | zero =>
      obtain rfl := Option.some.inj here
      simp
      omega
    | succ i =>
      have kept := ih (i := i) (by simpa using here)
      simp only [List.set_cons_succ, List.map_cons, List.sum_cons]
      omega

namespace Service

variable {s : SandboxSettings} {workers capacity : Nat} {store : Store} {past later : List Act}
  {v w u : Service} {a : Act} {i : Nat} {job : Job}

theorem Run.trans (first : Run s v past w) (second : Run s w later u) : Run s v (past ++ later) u := by
  induction second with
  | refl => rwa [List.append_nil]
  | step _ step ih =>
    rw [← List.append_assoc]
    exact .step ih step

theorem Run.one (step : Step s v a w) : Run s v [a] w := .step (.refl v) step

/-- The service after a worker is done with its job. -/
def relieve (v : Service) (i : Nat) : Service :=
  { v with
    dispatcher := v.dispatcher.setWorker i .idle
    system := ⟨v.system.store, update v.system.running i none⟩ }

/-- However a job ends, its worker is free after it, and all else is as it was. -/
theorem Sound.step_finished_iff (sound : Sound workers capacity past v) {result}
    (ended : v.system.running i = some ⟨job, Program.done result⟩) :
    Step s v (.finished i job) w ↔ w = v.relieve i := by
  constructor
  · intro step
    cases step with
    | finished ended done move =>
      obtain ⟨-, rfl⟩ := Dispatcher.step_finish.1 done
      cases move
      rfl
  · rintro rfl
    have busy := sound.busy i
    rw [ended, Option.map_some, Option.bind_eq_some_iff] at busy
    obtain ⟨worker, here, same⟩ := busy
    cases worker with
    | busy job' => exact .finished ended (Dispatcher.step_finish.2 ⟨⟨job', here⟩, rfl⟩) (.ended ended)
    | _ => cases same

/-- A job that is under way can be brought to its end. -/
theorem exists_run_rest (rest : Work (Except Work.Fault Unit)) (v : Service)
    (here : v.system.running i = some ⟨job, rest⟩) :
    ∃ later w result, Run s v later w ∧ w.dispatcher = v.dispatcher ∧
      w.system.running i = some ⟨job, Program.done result⟩ := by
  induction rest generalizing v with
  | done result => exact ⟨[], v, result, .refl v, rfl, here⟩
  | ask q next ih =>
    have goOn {e : System.Event} {store : Store} (reply : q.Reply)
        (move : System.Move s v.system e ⟨store, update v.system.running i (some ⟨job, next reply⟩)⟩)
        (request : IsRequest e) :
        ∃ later w result, Run s v later w ∧ w.dispatcher = v.dispatcher ∧
          w.system.running i = some ⟨job, Program.done result⟩ := by
      obtain ⟨later, w, result, run, same, ended⟩ := ih reply
        { v with system := ⟨store, update v.system.running i (some ⟨job, next reply⟩)⟩ }
        (Function.update_self i _ _)
      exact ⟨_, w, result, (Run.one (.went request move)).trans run, same, ended⟩
    cases q with
    | store q => exact goOn _ (.asked here) trivial
    | _ => exact goOn (Rehearsal.reply _ {}).1 (.acted here (by exact not_false) _) trivial

/-- A worker on a job can be brought to the end of it. -/
theorem Sound.exists_run_busy (sound : Sound workers capacity past v)
    (here : v.dispatcher.workers[i]? = some (.busy job)) :
    ∃ later w, Run s v later w ∧ w.dispatcher = v.dispatcher.setWorker i .idle := by
  have busy := sound.busy i
  rw [here] at busy
  obtain ⟨⟨_, rest⟩, under, rfl⟩ := Option.map_eq_some_iff.1 busy.symm
  obtain ⟨later, w, result, run, same, ended⟩ := exists_run_rest (s := s) rest v under
  have free : w.dispatcher.step? (.finish i) = some (v.dispatcher.setWorker i .idle) := by
    rw [same]
    exact Dispatcher.step_finish.2 ⟨⟨_, here⟩, rfl⟩
  exact ⟨_, _, run.trans (.one (.finished ended free (.ended ended))), rfl⟩

/-- A worker that has no job can get hold of the receiving end, if none that has a job holds it. -/
theorem Sound.exists_run_locked (sound : Sound workers capacity past v)
    (here : v.dispatcher.workers[i]? = some .idle) :
    ∃ later w j, Run s v later w ∧ w.receiver = some j ∧ w.dispatcher = v.dispatcher ∧
      w.dispatcher.workers[j]? = some .idle := by
  cases held : v.receiver with
  | none => exact ⟨_, _, i, .one (.locked here held), rfl, rfl, here⟩
  | some j => exact ⟨[], v, j, .refl v, held, rfl, sound.holder j held⟩

/-- A service that is closed and has not come down can come nearer to it. -/
theorem Sound.exists_run_nearer (sound : Sound workers capacity past v)
    (closed : v.dispatcher.closed = true) (up : v.dispatcher.isDown = false) :
    ∃ later w, Run s v later w ∧ w.dispatcher.closed = true ∧ w.dispatcher.left < v.dispatcher.left := by
  obtain ⟨worker, member, working⟩ := List.all_eq_false.1 up
  obtain ⟨i, here⟩ := List.mem_iff_getElem?.1 member
  cases worker with
  | stopped => simp at working
  | busy job =>
    obtain ⟨later, w, run, same⟩ := sound.exists_run_busy (s := s) here
    refine ⟨later, w, run, by rw [same]; exact closed, ?_⟩
    have sum := Dispatcher.sum_left_set here .idle
    rw [same]
    simp only [Dispatcher.left, Dispatcher.setWorker, Worker.left] at sum ⊢
    omega
  | idle =>
    obtain ⟨later, w, j, run, holds, same, free⟩ := sound.exists_run_locked (s := s) here
    have shut : w.dispatcher.closed = true := by
      rw [same]
      exact closed
    rw [← same]
    cases queue : w.dispatcher.queue with
    | nil =>
      have stop := Dispatcher.step_stop.2 ⟨free, shut, queue, rfl⟩
      refine ⟨_, _, run.trans (.one (.stopped holds stop)), shut, ?_⟩
      have sum := Dispatcher.sum_left_set free .stopped
      simp only [Dispatcher.left, Worker.left] at sum ⊢
      omega
    | cons job rest =>
      have idle : w.system.running j = none := by
        have busy := (sound.run run).busy j
        rw [free] at busy
        exact Option.map_eq_none_iff.1 busy.symm
      have next : w.dispatcher.queue.head? = some job := by rw [queue, List.head?_cons]
      have take := Dispatcher.step_take.2 ⟨free, job, rest, queue, rfl⟩
      refine ⟨_, _, run.trans (.one (.took holds next take (.began job idle))), shut, ?_⟩
      have sum := Dispatcher.sum_left_set free (.busy job)
      simp only [Dispatcher.left, Worker.left, queue, List.length_cons] at sum ⊢
      omega

/-- A service that is closed can be brought down. -/
theorem Sound.exists_run_down (sound : Sound workers capacity past v)
    (closed : v.dispatcher.closed = true) :
    ∃ later w, Run s v later w ∧ w.dispatcher.isDown = true := by
  induction left : v.dispatcher.left using Nat.strongRecOn generalizing past v with
  | _ n ih =>
    cases down : v.dispatcher.isDown with
    | true => exact ⟨[], v, .refl v, down⟩
    | false =>
      obtain ⟨later, w, run, still, nearer⟩ := sound.exists_run_nearer (s := s) closed down
      obtain ⟨rest, u, run', down'⟩ := ih _ (left ▸ nearer) (sound.run run) still rfl
      exact ⟨_, u, run.trans run', down'⟩

theorem count_eq_count_jobsOf (i : Nat) (job : Job) (l : List (Nat × Job)) :
    l.count (i, job) = (jobsOf i l).count job := by
  induction l with
  | nil => rfl
  | cons e rest ih =>
    obtain ⟨j, other⟩ := e
    have split : jobsOf i ((j, other) :: rest) = jobsOf i [(j, other)] ++ jobsOf i rest :=
      jobsOf_append i [(j, other)] rest
    rw [split, List.count_append, ← ih, List.count_cons, Nat.add_comm]
    refine congrArg (· + rest.count (i, job)) ?_
    by_cases same : j = i
    · subst same
      rw [jobsOf_same, List.count_singleton]
      simp
    · rw [jobsOf_other same]
      simp [same]

theorem perm_of_jobsOf {l l' : List (Nat × Job)} (same : ∀ i, jobsOf i l = jobsOf i l') : l.Perm l' := by
  refine List.perm_iff_count.2 fun ⟨i, job⟩ => ?_
  rw [count_eq_count_jobsOf, count_eq_count_jobsOf, same]

/-- The queue is never longer than its capacity, jobs are taken up in the order in which they were accepted,
each worker does those that it takes up one after the other, and however one of them ends, its worker is free
after it and nothing else is touched. Workers stop only where nothing waits, so that when all have stopped,
every job that was accepted has been taken up by one worker and done by it once. Every comparison that was
asked for has an identifier of its own, and its task is completed by then. Once the queue is closed it can
come to that. -/
theorem accepted_jobs_done (numbered : store.Numbered)
    (run : Run s (start workers capacity store) past v) :
    v.dispatcher.queue.length ≤ max 1 capacity ∧
    accepted past = (taken past).map (·.2) ++ v.dispatcher.queue ∧
    (∀ i, jobsOf i (taken past) = jobsOf i (handled past) ++ ((v.system.running i).map (·.job)).toList) ∧
    (∀ i job result w, v.system.running i = some ⟨job, Program.done result⟩ →
      (Step s v (.finished i job) w ↔ w = v.relieve i)) ∧
    (∀ i : Nat, v.dispatcher.workers[i]? = some Worker.stopped →
      v.dispatcher.closed = true ∧ v.dispatcher.queue = []) ∧
    (returned past).Nodup ∧
    (v.dispatcher.isDown = true →
      accepted past = (taken past).map (·.2) ∧ (handled past).Perm (taken past) ∧
        ∀ id ∈ returned past, ∃ t, v.system.store.tasks.get? id = some t ∧ t.completed = true) ∧
    (v.dispatcher.closed = true → ∃ later w, Run s v later w ∧ w.dispatcher.isDown = true) := by
  have sound : Sound workers capacity past v := (sound_start workers capacity store).run run
  have booked := run.booked numbered
  refine ⟨?_, sound.order, sound.hands, fun i job result w ended => sound.step_finished_iff ended,
    sound.stopped, booked.distinct.of_append_left, fun down => ?_, sound.exists_run_down⟩
  · rw [← sound.capacity]
    exact sound.bounded
  · obtain ⟨drained, free⟩ := sound.down down
    refine ⟨?_, perm_of_jobsOf fun i => ?_, fun id here => ?_⟩
    · rw [sound.order, drained, List.append_nil]
    · rw [sound.hands i, free i]
      exact (List.append_nil _).symm
    · obtain ⟨t, found, kept⟩ := booked.promised id here
      rcases kept with completed | waits | ⟨i, rest, under, -⟩
      · exact ⟨t, found, completed⟩
      · rw [drained] at waits
        cases waits
      · rw [free i] at under
        cases under

/-- A comparison is asked for, and the service is closed. -/
theorem exists_run_compared : ∃ v, v.dispatcher.closed = true ∧
    Run {} (start 1 1 .empty) [.created 1, .returned 1, .closed] v := by
  obtain ⟨v, created, awaits, opened⟩ : ∃ v, Step {} (start 1 1 .empty) (.created 1) v ∧
      1 ∈ v.awaiting ∧ v.dispatcher = .start 1 1 :=
    ⟨_, .created 1 1 none (by decide +kernel) (by decide), List.mem_cons_self, rfl⟩
  obtain ⟨d, accepted⟩ : ∃ d, v.dispatcher.step? (.submit (.plagiarism 1)) = some d := by
    rw [opened]
    exact ⟨_, rfl⟩
  have returned := Run.one (Step.returned (s := {}) awaits accepted)
  exact ⟨_, rfl, ((Run.one created).trans returned).trans (.one (.closed rfl))⟩

/-- The comparison is done when the service has come down. -/
theorem accepted_jobs_done_compared : ∃ past v, Run {} (start 1 1 .empty) past v ∧
    v.dispatcher.isDown = true ∧ 1 ∈ returned past ∧ .plagiarism 1 ∈ (handled past).map (·.2) ∧
      ∃ t, v.system.store.tasks.get? 1 = some t ∧ t.completed = true := by
  obtain ⟨v, closed, asked⟩ := exists_run_compared
  obtain ⟨-, -, -, -, -, -, -, comesDown⟩ := accepted_jobs_done Store.numbered_empty asked
  obtain ⟨later, w, rest, down⟩ := comesDown closed
  have run := asked.trans rest
  obtain ⟨-, -, -, -, -, -, done, -⟩ := accepted_jobs_done Store.numbered_empty run
  obtain ⟨order, perm, completed⟩ := done down
  have here : 1 ∈ returned ([.created 1, .returned 1, .closed] ++ later) := by
    simp [returned, Act.returns?]
  have queued : .plagiarism 1 ∈ accepted ([.created 1, .returned 1, .closed] ++ later) := by
    simp [accepted, Act.accepts?]
  rw [order] at queued
  exact ⟨_, w, run, down, here, (perm.map _).mem_iff.2 queued, completed 1 here⟩

end Service

end Arbiter
