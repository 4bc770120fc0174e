import Arbiter.Proofs.Plagiarism.Completion
import Arbiter.Proofs.Plagiarism.Foretold
import Arbiter.Proofs.Work.Service

/-! What becomes of jobs that are accepted. Main statement: jobs are taken up in the order in which they were
accepted, each by one worker, which does it once, and when all workers have stopped all is done: every
comparison that was asked for has an identifier of its own, and its task is completed. -/

namespace Arbiter

open Function (update)
open Program (Only)

namespace Plagiarism

/-- Surroundings in which a task is there, and a state that tells whether it has been completed. -/
def owing (id : Int64) : Program.Effect Work.Request Work.Request.Reply Bool
  | .store (.task i), b, K => ∀ found : Option PlagiarismTask, (i = id → found.isSome) → K (.ok found) b
  | .store (.completeTask i _), _, K => i = id ∧ K (.ok ()) true
  | q, b, K => ∀ reply : q.Reply, K reply b

variable {α : Type} {id : Int64}

theorem mono_owing (id : Int64) : (owing id).Mono := by
  intro q b K K' imp h
  cases q with
  | store q =>
    cases q with
    | task i => exact fun found there => imp _ _ (h found there)
    | completeTask i outcome => exact ⟨h.1, imp _ _ h.2⟩
    | _ => exact fun reply => imp _ _ (h reply)
  | _ => exact fun reply => imp _ _ (h reply)

theorem wp_owing_of_gathers {w : Work α} (only : w.Only Gathers) {Q : α → Bool → Prop} {b : Bool}
    (h : ∀ a, Q a b) : w.wp (owing id) Q b := by
  induction w with
  | done a => exact h a
  | ask q next ih =>
    cases q with
    | store q =>
      cases q with
      | task i => exact fun found _ => ih _ (only.2 _)
      | submission | submissionsOf | saveGraph => exact fun reply => ih _ (only.2 reply)
      | _ => exact only.1.elim
    | moments => exact fun reply => ih _ (only.2 reply)
    | _ => exact only.1.elim

/-- A run of a task that is there completes it before it ends. -/
theorem wp_owing_run (id : Int64) : (run id).run.wp (owing id) (fun _ b => b = true) false := by
  refine (Program.wp_run_bind _ _ _ _).2 ((wp_step _ _).2 fun found there => ?_)
  obtain ⟨task, rfl⟩ := Option.isSome_iff_exists.1 (there rfl)
  refine (Program.wp_run_bind _ _ _ _).2 ((Program.wp_run_lift _ _ _).2 ?_)
  refine wp_owing_of_gathers (only_evaluate task) fun result => ?_
  have completes (outcome : PlagiarismOutcome) :
      (step (Work.store (.completeTask id outcome)) >>= fun _ => pure outcome).run.wp (owing id)
        (fun _ b => b = true) false :=
    (Program.wp_run_bind _ _ _ _).2 ((wp_step _ _).2 ⟨rfl, rfl⟩)
  cases result with
  | ok outcome => exact completes outcome
  | error fault => exact completes .none

end Plagiarism

open Plagiarism (owing)

theorem Job.wp_owing_work (s : SandboxSettings) (id : Int64) :
    ((Job.plagiarism id).work s).run.wp (owing id) (fun _ b => b = true) false := by
  refine (Program.wp_run_bind _ _ _ _).2 ((Program.wp_run_lift _ _ _).2 ?_)
  refine Program.wp_mono (Plagiarism.mono_owing id) (Plagiarism.wp_owing_run id) fun result b paid => ?_
  cases result <;> exact paid

namespace Store

/-- No task has a higher identifier than the one that was given last. -/
def Numbered (s : Store) : Prop := ∀ id t, s.tasks.get? id = some t → id ≤ s.lastTask

theorem numbered_empty : empty.Numbered := by
  intro id t found
  cases found

end Store

namespace Service

variable {s : SandboxSettings} {workers capacity : Nat} {store : Store} {past : List Act}
  {v w : Service} {a : Act} {id : Int64}

/-- A step of the service is at most one change of the system. -/
theorem Step.life (step : Step s v a w) : ∃ later, System.Life s v.system later w.system := by
  cases step with
  | used room => exact ⟨_, .use v.system room⟩
  | created submission problem threshold within room =>
    exact ⟨_, .use v.system (u := .createTask submission problem _) room⟩
  | took holds next taken move => exact ⟨_, .one (.moved move)⟩
  | went request move => exact ⟨_, .one (.moved move)⟩
  | finished ended done move => exact ⟨_, .one (.moved move)⟩
  | _ => exact ⟨_, .refl _⟩

/-- The task is there, and it is completed, or its evaluation waits in the queue, or a worker is on it that is
still going to complete it. -/
def Promised (v : Service) (id : Int64) : Prop :=
  ∃ t, v.system.store.tasks.get? id = some t ∧
    (t.completed = true ∨ .plagiarism id ∈ v.dispatcher.queue ∨
      ∃ i rest, v.system.running i = some ⟨.plagiarism id, rest⟩ ∧
        rest.wp (owing id) (fun _ b => b = true) false)

/-- A task stays, and if it is completed it stays so. -/
theorem Step.task (step : Step s v a w) (tidy : v.system.Tidy) {t : PlagiarismTask}
    (found : v.system.store.tasks.get? id = some t) :
    ∃ t', w.system.store.tasks.get? id = some t' ∧ (t.completed = true → t'.completed = true) := by
  obtain ⟨later, life⟩ := step.life
  refine ⟨_, tidy.task_life life found, fun completed => ?_⟩
  cases System.lastFindings id later with
  | none => exact completed
  | some outcome => rfl

/-- A job that waits is still waiting after a step, or was taken up. -/
theorem Step.waiting (step : Step s v a w) {job : Job} (waits : job ∈ v.dispatcher.queue) :
    job ∈ w.dispatcher.queue ∨ ∃ i, w.system.running i = some ⟨job, (job.work s).run⟩ := by
  cases step with
  | queued other accepted | returned awaits accepted =>
    obtain ⟨-, -, rfl⟩ := Dispatcher.step_submit.1 accepted
    exact .inl (List.mem_append_left _ waits)
  | @took i _ _ _ holds next taken move =>
    obtain ⟨-, first, rest, queue, rfl⟩ := Dispatcher.step_take.1 taken
    rw [queue] at next waits
    obtain rfl := Option.some.inj next
    rcases List.mem_cons.1 waits with rfl | later
    · cases move with
      | began _ free => exact .inr ⟨i, Function.update_self i _ _⟩
    · exact .inl later
  | finished ended done move =>
    obtain ⟨-, rfl⟩ := Dispatcher.step_finish.1 done
    exact .inl waits
  | closed close =>
    obtain rfl := Option.some.inj close
    exact .inl waits
  | stopped holds stop =>
    obtain ⟨-, -, -, rfl⟩ := Dispatcher.step_stop.1 stop
    exact .inl waits
  | _ => exact .inl waits

/-- A worker that is going to complete a task is still going to after a request, or has completed it. -/
theorem owing_of_request {x y : System} {e : System.Event} (request : IsRequest e)
    (move : System.Move s x e y) {t : PlagiarismTask} (found : x.store.tasks.get? id = some t) {i : Nat}
    {rest : Work (Except Work.Fault Unit)} (here : x.running i = some ⟨.plagiarism id, rest⟩)
    (owes : rest.wp (owing id) (fun _ b => b = true) false) :
    (∃ t, y.store.tasks.get? id = some t ∧ t.completed = true) ∨
      ∃ rest', y.running i = some ⟨.plagiarism id, rest'⟩ ∧
        rest'.wp (owing id) (fun _ b => b = true) false := by
  have own {j : Nat} {r r' : Running} (there : x.running j = some r) (sameJob : r'.job = r.job)
      (goesOn : j = i → r'.rest.wp (owing id) (fun _ b => b = true) false) :
      ∃ rest', update x.running j (some r') i = some ⟨.plagiarism id, rest'⟩ ∧
        rest'.wp (owing id) (fun _ b => b = true) false := by
    by_cases same : i = j
    · subst same
      obtain rfl := Option.some.inj (there.symm.trans here)
      obtain ⟨job, rest'⟩ := r'
      obtain rfl : job = .plagiarism id := sameJob
      exact ⟨rest', Function.update_self i _ _, goesOn rfl⟩
    · exact ⟨rest, (Function.update_of_ne same _ _).trans here, owes⟩
  cases move with
  | began => exact request.elim
  | @asked j job q next there =>
    by_cases same : j = i
    · subst same
      obtain ⟨rfl, rfl⟩ : job = .plagiarism id ∧ Program.ask (.store q) next = rest := by
        have both := there.symm.trans here
        simpa using both
      cases q with
      | task k =>
        refine .inr (own there rfl fun _ => owes _ ?_)
        rintro rfl
        exact Option.isSome_of_mem found
      | completeTask k outcome =>
        obtain ⟨rfl, -⟩ := owes
        refine .inl ⟨t.complete outcome, ?_, rfl⟩
        simp [Store.get?_tasks_reply, found, Store.Request.fill]
      | _ => exact .inr (own there rfl fun _ => owes _)
    · exact .inr (own there rfl fun this => (same this).elim)
  | @acted j job q next there outside reply =>
    refine .inr (own there rfl fun same => ?_)
    subst same
    obtain ⟨rfl, rfl⟩ : job = .plagiarism id ∧ Program.ask q next = rest := by
      have both := there.symm.trans here
      simpa using both
    cases q with
    | store q => exact (outside trivial).elim
    | _ => exact owes reply
  | ended => exact request.elim

/-- A worker that is going to complete a task is still going to after a step, or has completed it. -/
theorem Step.owing (step : Step s v a w) {t : PlagiarismTask}
    (found : v.system.store.tasks.get? id = some t) {i : Nat} {rest : Work (Except Work.Fault Unit)}
    (here : v.system.running i = some ⟨.plagiarism id, rest⟩)
    (owes : rest.wp (owing id) (fun _ b => b = true) false) :
    (∃ t, w.system.store.tasks.get? id = some t ∧ t.completed = true) ∨
      ∃ rest', w.system.running i = some ⟨.plagiarism id, rest'⟩ ∧
        rest'.wp (Plagiarism.owing id) (fun _ b => b = true) false := by
  cases step with
  | @took j _ _ _ holds next taken move =>
    cases move with
    | began _ free =>
      have other : i ≠ j := by
        rintro rfl
        rw [free] at here
        cases here
      exact .inr ⟨rest, (Function.update_of_ne other _ _).trans here, owes⟩
  | went request move => exact owing_of_request request move found here owes
  | @finished j _ _ _ _ ended done move =>
    cases move with
    | ended there =>
      have other : i ≠ j := by
        rintro rfl
        rw [ended] at here
        cases here
        cases owes
      exact .inr ⟨rest, (Function.update_of_ne other _ _).trans here, owes⟩
  | _ => exact .inr ⟨rest, here, owes⟩

theorem Promised.step (promised : v.Promised id) (tidy : v.system.Tidy) (step : Step s v a w) :
    w.Promised id := by
  obtain ⟨t, found, kept⟩ := promised
  obtain ⟨t', found', stays⟩ := step.task tidy found
  rcases kept with completed | waits | ⟨i, rest, here, owes⟩
  · exact ⟨t', found', .inl (stays completed)⟩
  · rcases step.waiting waits with waits | ⟨i, began⟩
    · exact ⟨t', found', .inr (.inl waits)⟩
    · exact ⟨t', found', .inr (.inr ⟨i, _, began, Job.wp_owing_work s id⟩)⟩
  · rcases step.owing found here owes with ⟨t'', found'', completed⟩ | ⟨rest', here', owes'⟩
    · exact ⟨t'', found'', .inl completed⟩
    · exact ⟨t', found', .inr (.inr ⟨i, rest', here', owes'⟩)⟩

/-- Tasks are numbered upwards. -/
theorem Step.lastTask_le (step : Step s v a w) :
    v.system.store.lastTask ≤ w.system.store.lastTask := by
  cases step with
  | @used u room =>
    cases u with
    | createTask => exact Int64.le_of_lt (lt_add_one_of_lt_maxValue room)
    | _ => exact Int64.le_refl _
  | created submission problem threshold within room => exact Int64.le_of_lt (lt_add_one_of_lt_maxValue room)
  | took holds next taken move =>
    cases move
    exact Int64.le_refl _
  | went request move =>
    cases move with
    | asked here =>
      dsimp only
      rw [Store.lastTask_reply]
      exact Int64.le_refl _
    | _ => exact Int64.le_refl _
  | finished ended done move =>
    cases move
    exact Int64.le_refl _
  | _ => exact Int64.le_refl _

/-- The comparisons that were asked for are in order: each has an identifier of its own and a task, and it is
going to be completed once its evaluation is queued. -/
structure Booked (past : List Act) (v : Service) : Prop where
  tidy : v.system.Tidy
  made (id : Int64) : id ∈ v.awaiting → ∃ t, v.system.store.tasks.get? id = some t
  distinct : (returned past ++ v.awaiting).Nodup
  numbered (id : Int64) : id ∈ returned past ++ v.awaiting → id ≤ v.system.store.lastTask
  promised (id : Int64) : id ∈ returned past → v.Promised id

theorem booked_start (workers capacity : Nat) (numbered : store.Numbered) :
    Booked [] (start workers capacity store) := by
  refine ⟨⟨numbered, fun i r here => ?_⟩, fun id here => ?_, .nil, fun id here => ?_, fun id here => ?_⟩ <;>
    cases here

theorem Booked.step (booked : Booked past v) (step : Step s v a w) : Booked (past ++ [a]) w := by
  obtain ⟨later, life⟩ := step.life
  have tidy := booked.tidy.life life
  have made (id : Int64) (here : id ∈ v.awaiting) : ∃ t, w.system.store.tasks.get? id = some t := by
    obtain ⟨t, found⟩ := booked.made id here
    obtain ⟨t', found', -⟩ := step.task booked.tidy found
    exact ⟨t', found'⟩
  have numbered (id : Int64) (here : id ∈ returned past ++ v.awaiting) :
      id ≤ w.system.store.lastTask :=
    Int64.le_trans (booked.numbered id here) step.lastTask_le
  have promised (id : Int64) (here : id ∈ returned past) : w.Promised id :=
    (booked.promised id here).step booked.tidy step
  have goesOn (silent : a.returns? = none) (same : w.awaiting = v.awaiting) : Booked (past ++ [a]) w := by
    have nothing : returned (past ++ [a]) = returned past := by simp [silent]
    refine ⟨tidy, ?_, ?_, ?_, ?_⟩
    · rw [same]
      exact made
    · rw [same, nothing]
      exact booked.distinct
    · rw [same, nothing]
      exact numbered
    · rw [nothing]
      exact promised
  cases step with
  | created submission problem threshold within room =>
    have fresh := lt_add_one_of_lt_maxValue room
    have nothing : returned (past ++ [.created (v.system.store.lastTask + 1)]) = returned past := by
      simp [Act.returns?]
    refine ⟨tidy, fun id here => ?_, ?_, fun id here => ?_, ?_⟩
    · rcases List.mem_cons.1 here with rfl | before
      · exact ⟨_, by simp [Store.createTask]; rfl⟩
      · exact made id before
    · rw [nothing, List.nodup_middle]
      refine List.nodup_cons.2 ⟨fun here => ?_, booked.distinct⟩
      exact Int64.not_lt.2 (booked.numbered _ here) fresh
    · rw [nothing, List.mem_append, List.mem_cons] at here
      rcases here with before | rfl | before
      · exact numbered id (List.mem_append_left _ before)
      · exact Int64.le_refl _
      · exact numbered id (List.mem_append_right _ before)
    · rw [nothing]
      exact promised
  | @returned id d awaits accepted =>
    have also : returned (past ++ [.returned id]) = returned past ++ [id] := by simp [Act.returns?]
    have perm : (returned (past ++ [.returned id]) ++ v.awaiting.erase id).Perm
        (returned past ++ v.awaiting) := by
      rw [also, List.append_assoc]
      exact (List.perm_cons_erase awaits).symm.append_left _
    refine ⟨tidy, fun other here => made other (List.mem_of_mem_erase here), ?_, fun other here => ?_,
      fun other here => ?_⟩
    · exact perm.nodup_iff.2 booked.distinct
    · exact numbered other (perm.mem_iff.1 here)
    · rw [also, List.mem_append, List.mem_singleton] at here
      rcases here with before | rfl
      · exact promised other before
      · obtain ⟨t, found⟩ := made other awaits
        obtain ⟨-, -, rfl⟩ := Dispatcher.step_submit.1 accepted
        exact ⟨t, found, .inr (.inl (List.mem_append_right _ List.mem_cons_self))⟩
  | _ => exact goesOn rfl rfl

theorem Run.booked (numbered : store.Numbered) (run : Run s (start workers capacity store) past v) :
    Booked past v := by
  induction run with
  | refl => exact booked_start workers capacity numbered
  | step _ step ih => exact ih.step step

/-- Where all workers have stopped nothing waits and nothing is under way. -/
theorem Sound.down (sound : Sound workers capacity past v) (down : v.dispatcher.isDown = true) :
    v.dispatcher.queue = [] ∧ ∀ i, v.system.running i = none := by
  have all {i : Nat} {worker : Worker} (here : v.dispatcher.workers[i]? = some worker) :
      worker = .stopped := by
    have stopped := List.all_eq_true.1 down worker (List.mem_of_getElem? here)
    simpa using stopped
  constructor
  · have inside : 0 < v.dispatcher.workers.length := by
      have := sound.staff
      omega
    have first := List.getElem?_eq_getElem inside
    rw [all first] at first
    exact (sound.stopped 0 first).2
  · intro i
    have busy := sound.busy i
    cases here : v.dispatcher.workers[i]? with
    | none =>
      rw [here] at busy
      exact Option.map_eq_none_iff.1 busy.symm
    | some worker =>
      rw [here, all here] at busy
      exact Option.map_eq_none_iff.1 busy.symm

end Service

end Arbiter
