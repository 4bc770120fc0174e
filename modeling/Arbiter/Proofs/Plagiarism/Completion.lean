import Arbiter.Proofs.Judging.Bench
import Arbiter.Proofs.Plagiarism.Findings
import Arbiter.Proofs.Work.Life
import Arbiter.Proofs.Work.Scope

/-! How long the findings of a task last. Main statement: whatever jobs and users do, the findings of a
completed task stay as they are until a run of that very task stores its findings in their place. -/

namespace Arbiter

open Program (Only)
open Work (alone)

theorem lt_add_one_of_lt_maxValue {a : Int64} (h : a < Int64.maxValue) : a < a + 1 := by
  rw [Int64.lt_iff_toInt_lt, Int64.toInt_maxValue] at h
  have least := Int64.le_toInt a
  rw [Int64.lt_iff_toInt_lt, Int64.toInt_add, Int64.toInt_one, Int.bmod_eq_of_le]
  · omega
  · omega
  · omega

/-- The request completes no task, except for the one of the job. -/
def Job.Completes (job : Job) : Work.Request → Prop
  | .store (.completeTask i _) => job = .plagiarism i
  | _ => True

namespace Judging

/-! Judging completes no task. -/

section Scope

variable {α ε : Type} {job : Job} (s : SandboxSettings)

theorem only_of_wp {P : Work.Request → Prop} {w : Work α}
    (h : w.wp (onlyEffect P) (fun _ _ => True) ()) : w.Only P := by
  induction w with
  | done a => trivial
  | ask q next ih => exact ⟨h.1, fun reply => ih reply (h.2 reply)⟩

theorem free_completes : Work.Free (onlyEffect job.Completes) := by
  intro q free _ K h
  refine ⟨?_, h⟩
  cases q with
  | store q => cases q <;> trivial
  | _ => trivial

theorem completes_store {q : Store.Request} (completes : job.Completes (.store q)) :
    (Work.store q).Only job.Completes :=
  Program.only_request (P := job.Completes) (q := Work.Request.store q) completes

theorem completes_step (fault : ε → Fault) {w : Work (Except ε α)} (only : w.Only job.Completes) :
    (step fault w).run.Only job.Completes := by
  refine only.run_lift.run_bind fun result => ?_
  cases result <;> trivial

theorem completes_find (absent : Fault) {w : Work (Except Store.Fault (Option α))}
    (only : w.Only job.Completes) : (find absent w).run.Only job.Completes := by
  refine (completes_step .store only).run_bind fun found => ?_
  cases found <;> trivial

theorem completes_finish (submission : Submission) (language : Language) (outcome : JudgeOutcome) :
    (finish submission language outcome).run.Only job.Completes := by
  refine Only.run_bind (completes_step _ (completes_store trivial)) fun _ => ?_
  show Only _ (ExceptT.run (if language.isPython = true then _ else _))
  split
  · refine Only.run_bind (Only.run_lift ?_) fun _ => trivial
    unfold attachGraph
    split
    · trivial
    · exact Only.bind (completes_store trivial) fun _ => trivial
  · trivial

theorem completes_compileStep (id : Int64) (language : Language) (limits : Limits) :
    (compileStep s id language limits).run.Only job.Completes := by
  unfold compileStep
  split
  · trivial
  · refine Only.run_bind (completes_step _ (completes_store trivial)) fun _ => Only.run_lift ?_
    exact only_of_wp (wp_compile free_completes s language .work _ fun _ _ => trivial)

theorem completes_casesStep (submission : Submission) (problem : Problem) (language : Language)
    (limits : Limits) (judge : Option SpecialJudge) :
    (casesStep s submission problem language limits judge).run.Only job.Completes := by
  refine Only.run_bind (completes_step _ (completes_store trivial)) fun _ => ?_
  refine Only.run_bind (Only.run_lift (only_of_wp ?_)) fun results => ?_
  · exact wp_runCases free_completes s problem language limits judge fun _ _ => trivial
  · refine (completes_finish _ _ _).run_bind fun status => ?_
    show Only _ (ExceptT.run (if _ then _ else _))
    split
    · exact Only.run_bind (completes_step _ (completes_store trivial)) fun _ => trivial
    · trivial

theorem completes_attempt (id : Int64) : (attempt s id).run.Only job.Completes := by
  refine Only.run_bind (completes_find _ (completes_store trivial)) fun submission => ?_
  refine Only.run_bind (completes_step _ (completes_store trivial)) fun _ => ?_
  refine Only.run_bind (completes_find _ (completes_store trivial)) fun problem => ?_
  refine Only.run_bind (completes_find _ (completes_store trivial)) fun language => ?_
  have opens : (Work.openWorkspace (workspaceLabel id)).Only job.Completes := ⟨trivial, fun _ => trivial⟩
  have writes : (Work.write .work language.sourceFile submission.code).Only job.Completes :=
    ⟨trivial, fun _ => trivial⟩
  refine (completes_step _ opens).run_bind fun _ => ?_
  refine (completes_step _ writes).run_bind fun _ => ?_
  refine (completes_compileStep s id language _).run_bind fun ending => ?_
  cases ending with
  | failed verdict message => exact completes_finish _ _ _
  | compiled =>
    refine Only.run_bind (Only.run_lift (only_of_wp ?_)) fun prepared => ?_
    · exact wp_judgeStep free_completes s problem fun _ => trivial
    · cases prepared with
      | error fault => exact completes_finish _ _ _
      | ok judge => exact completes_casesStep s submission problem language _ judge

theorem completes_judge (id : Int64) : (judge s id).run.Only job.Completes := by
  refine (completes_attempt s id).run_lift.run_bind fun result => ?_
  cases result with
  | ok status => trivial
  | error fault =>
    refine Only.run_bind (Only.run_lift ?_) fun count => ?_
    · refine Only.bind (completes_store trivial) fun found => ?_
      match found with
      | .error _ | .ok none => trivial
      | .ok (some submission) =>
        refine Only.bind (completes_store trivial) fun found => ?_
        match found with
        | .error _ | .ok none | .ok (some problem) => trivial
    · exact Only.run_bind (completes_step _ (completes_store trivial)) fun _ => trivial

end Scope

end Judging

theorem Job.completes_of_gathers {job : Job} (q : Work.Request) (h : Plagiarism.Gathers q) :
    job.Completes q := by
  cases q with
  | store q => cases q <;> trivial
  | _ => trivial

/-- A job completes its own task, if it has one, and no other. -/
theorem Job.only_completes (s : SandboxSettings) (job : Job) : (job.work s).run.Only job.Completes := by
  cases job with
  | judge id | rejudge id =>
    refine (Judging.completes_judge s id).run_lift.run_bind fun result => ?_
    cases result <;> trivial
  | plagiarism id =>
    have only := (Plagiarism.only_run id).mono (Q := (Job.plagiarism id).Completes) fun q asks => by
      rcases asks with gathers | ⟨o, rfl⟩
      · exact completes_of_gathers q gathers
      · exact rfl
    refine only.run_lift.run_bind fun result => ?_
    cases result <;> trivial
  | buildGraph id =>
    have only := (Plagiarism.only_buildGraph id).mono (Q := (Job.buildGraph id).Completes)
      completes_of_gathers
    refine only.run_lift.run_bind fun result => ?_
    cases result <;> trivial

namespace System

/-- The findings that are stored for the task. -/
def findings? (id : Int64) : Event ⊕ Use → Option PlagiarismOutcome
  | .inl (.asked _ (.completeTask i outcome)) => if i = id then some outcome else none
  | _ => none

/-- The findings that were stored for the task last. -/
def lastFindings (id : Int64) (past : List (Event ⊕ Use)) : Option PlagiarismOutcome :=
  (past.filterMap (findings? id)).getLast?

@[simp] theorem lastFindings_append (id : Int64) (past : List (Event ⊕ Use)) (e : Event ⊕ Use) :
    lastFindings id (past ++ [e]) = (findings? id e).or (lastFindings id past) := by
  unfold lastFindings
  rw [List.filterMap_append, List.getLast?_append]
  cases stored : findings? id e with
  | none => simp [stored]
  | some outcome => simp [stored]

/-- Every task is one of those that were made, and every worker completes no task but its own. -/
structure Tidy (x : System) : Prop where
  known (id : Int64) (t : PlagiarismTask) : x.store.tasks.get? id = some t → id ≤ x.store.lastTask
  own (i : Nat) (r : Running) : x.running i = some r → r.rest.Only r.job.Completes

theorem tidy_empty : Tidy (idle .empty) where
  known := by
    intro id t found
    cases found
  own := by
    intro i r here
    cases here

variable {s : SandboxSettings} {x y : System} {e : Event ⊕ Use} {id : Int64} {t : PlagiarismTask}

theorem Tidy.move (tidy : x.Tidy) {e : Event} (move : Move s x e y) : y.Tidy := by
  cases move with
  | began job free =>
    refine ⟨tidy.known, forall_running_update tidy.own fun r here => ?_⟩
    obtain rfl := Option.some.inj here
    exact job.only_completes s
  | @asked i job q next here =>
    refine ⟨fun id t found => ?_, forall_running_update tidy.own fun r there => ?_⟩
    · dsimp only at found ⊢
      rw [Store.get?_tasks_reply, Option.map_eq_some_iff] at found
      obtain ⟨before, found, -⟩ := found
      rw [Store.lastTask_reply]
      exact tidy.known id before found
    · obtain rfl := Option.some.inj there
      exact (tidy.own _ _ here).2 _
  | acted here outside reply =>
    refine ⟨tidy.known, forall_running_update tidy.own fun r there => ?_⟩
    obtain rfl := Option.some.inj there
    exact (tidy.own _ _ here).2 reply
  | ended here => exact ⟨tidy.known, forall_running_update tidy.own fun r none => nomatch none⟩

theorem Tidy.use (tidy : x.Tidy) {u : Use} (room : x.store.HasRoom u) :
    Tidy ⟨x.store.use u, x.running⟩ := by
  refine ⟨fun id t found => ?_, tidy.own⟩
  cases u with
  | createTask submission problem threshold =>
    have next := lt_add_one_of_lt_maxValue room
    simp only [Store.use, Store.createTask, Table.get?_insert] at found ⊢
    split at found
    · rename_i same
      exact same ▸ Int64.le_refl _
    · exact Int64.le_trans (tidy.known id t found) (Int64.le_of_lt next)
  | _ => exact tidy.known id t found

theorem Tidy.change (tidy : x.Tidy) (change : Change s x e y) : y.Tidy := by
  cases change with
  | moved move => exact tidy.move move
  | used room => exact tidy.use room

theorem Tidy.life (tidy : x.Tidy) {past : List (Event ⊕ Use)} (life : Life s x past y) : y.Tidy := by
  induction life with
  | refl => exact tidy
  | step _ change ih => exact ih.change change

/-- One change leaves a task as it is, or stores findings for it. -/
theorem Tidy.task_change (tidy : x.Tidy) (change : Change s x e y)
    (found : x.store.tasks.get? id = some t) :
    y.store.tasks.get? id = some ((findings? id e).elim t t.complete) := by
  cases change with
  | moved move =>
    cases move with
    | asked here =>
      rename_i q next
      dsimp only
      rw [Store.get?_tasks_reply, found, Option.map_some]
      cases q with
      | completeTask i outcome =>
        simp only [Store.Request.fill, findings?]
        split <;> rfl
      | _ => rfl
    | _ => exact found
  | @used u room =>
    cases u with
    | createTask submission problem threshold =>
      have other : id ≠ x.store.lastTask + 1 := by
        rintro rfl
        exact Int64.not_lt.2 (tidy.known _ _ found) (lt_add_one_of_lt_maxValue room)
      simp only [Store.use, Store.createTask, Table.get?_insert, if_neg other, found]
      rfl
    | _ => exact found

/-- Over any time a task is as it was, or has the findings that were stored for it last. -/
theorem Tidy.task_life (tidy : x.Tidy) {later : List (Event ⊕ Use)} (life : Life s x later y)
    (found : x.store.tasks.get? id = some t) :
    y.store.tasks.get? id = some ((lastFindings id later).elim t t.complete) := by
  induction life with
  | refl => exact found
  | @step y z past e life change ih =>
    rw [(tidy.life life).task_change change ih, lastFindings_append]
    cases findings? id e with
    | none => rfl
    | some outcome => cases lastFindings id past <;> rfl

/-- A task that is completed stays so, and its findings are the ones that it had until a run of that very
task stores its own in their place. Nothing else that jobs or users do changes it. -/
theorem completed_task_lasts {past later : List (Event ⊕ Use)} (before : Life s (idle .empty) past x)
    (after : Life s x later y) (found : x.store.tasks.get? id = some t) (completed : t.completed = true) :
    (∃ t', y.store.tasks.get? id = some t' ∧ t'.completed = true ∧
      t' = (lastFindings id later).elim t t.complete) ∧
    (∀ first i outcome rest, later = first ++ .inl (.asked i (.completeTask id outcome)) :: rest →
      ∃ z work, Life s x first z ∧ z.running i = some ⟨.plagiarism id, work⟩) := by
  have tidy := tidy_empty.life before
  constructor
  · refine ⟨_, tidy.task_life after found, ?_, rfl⟩
    cases lastFindings id later with
    | none => exact completed
    | some outcome => rfl
  · rintro first i outcome rest rfl
    obtain ⟨z, z', begins, change⟩ := after.at
    cases change with
    | moved move =>
      cases move with
      | asked here =>
        obtain rfl := ((tidy.life begins).own i _ here).1
        exact ⟨z, _, begins, here⟩

/-- The store after a run of the first task that has it to itself. -/
def evaluated (store : Store) : Store :=
  (((Job.plagiarism 1).work {}).run.run (alone Rehearsal.reply) (store, {})).2.1

theorem exists_life_evaluated (store : Store) :
    ∃ later, Life {} (idle store) later (idle (evaluated store)) := by
  obtain ⟨later, life⟩ := exists_life_work (x := idle store) (i := 0) Rehearsal.reply (.plagiarism 1) rfl {}
  exact ⟨_, life⟩

theorem life_insertSubmission (store : Store) (r : Submission) :
    Life {} (idle store) [.inr (.insertSubmission r)] (idle (store.insertSubmission r)) :=
  .one (.used trivial)

/-- A store with one submission and a task for it, which has found nothing. -/
def unrivalled : Store :=
  evaluated ((Store.empty.insertSubmission (Plagiarism.rival 1)).createTask 1 1 0.5).2

theorem exists_life_unrivalled : ∃ past, Life {} (idle .empty) past (idle unrivalled) := by
  have inserted := life_insertSubmission .empty (Plagiarism.rival 1)
  have created : Life {} (idle (Store.empty.insertSubmission (Plagiarism.rival 1)))
      [.inr (.createTask 1 1 0.5)]
      (idle ((Store.empty.insertSubmission (Plagiarism.rival 1)).createTask 1 1 0.5).2) :=
    .one (.used (by decide : (0 : Int64) < Int64.maxValue))
  obtain ⟨later, ran⟩ := exists_life_evaluated
    ((Store.empty.insertSubmission (Plagiarism.rival 1)).createTask 1 1 0.5).2
  exact ⟨_, (inserted.trans created).trans ran⟩

theorem exists_task_unrivalled :
    ∃ t, unrivalled.tasks.get? 1 = some t ∧ t.completed = true ∧ t.similarIds = [] := by
  have shown : (unrivalled.tasks.get? 1).map (fun t => (t.completed, t.similarIds)) =
      some (true, []) := by
    decide +kernel
  obtain ⟨t, found, same⟩ := Option.map_eq_some_iff.1 shown
  exact ⟨t, found, Prod.mk.inj same⟩

/-- The same store after a copy came in and the task was run again. -/
def rivalled : Store := evaluated (unrivalled.insertSubmission (Plagiarism.rival 2))

theorem exists_life_rivalled : ∃ later, Life {} (idle unrivalled) later (idle rivalled) := by
  obtain ⟨later, ran⟩ := exists_life_evaluated (unrivalled.insertSubmission (Plagiarism.rival 2))
  exact ⟨_, (life_insertSubmission unrivalled (Plagiarism.rival 2)).trans ran⟩

theorem exists_task_rivalled : ∃ t, rivalled.tasks.get? 1 = some t ∧ t.similarIds = [2] := by
  have shown : (rivalled.tasks.get? 1).map (·.similarIds) = some [2] := by
    decide +kernel
  exact Option.map_eq_some_iff.1 shown

/-- A completed task can change: a run of it that comes again stores what it finds by then. -/
theorem completed_task_changes : ¬ ∀ (past later : List (Event ⊕ Use)) (x y : System) (id : Int64)
    (t t' : PlagiarismTask), Life {} (idle .empty) past x → Life {} x later y →
      x.store.tasks.get? id = some t → t.completed = true → y.store.tasks.get? id = some t' →
        t'.result = t.result ∧ t'.scores = t.scores ∧ t'.similarIds = t.similarIds ∧
          t'.report = t.report := by
  intro immutable
  obtain ⟨past, before⟩ := exists_life_unrivalled
  obtain ⟨later, after⟩ := exists_life_rivalled
  obtain ⟨t, found, completed, none⟩ := exists_task_unrivalled
  obtain ⟨t', found', one⟩ := exists_task_rivalled
  obtain ⟨-, -, same, -⟩ := immutable _ _ _ _ 1 t t' before after found completed found'
  rw [none, one] at same
  cases same

/-- The findings of the run that came again are the ones that were stored last. -/
theorem completed_task_lasts_rivalled : ∃ later t t' outcome,
    Life {} (idle unrivalled) later (idle rivalled) ∧ unrivalled.tasks.get? 1 = some t ∧
      rivalled.tasks.get? 1 = some t' ∧ lastFindings 1 later = some outcome ∧ t' = t.complete outcome := by
  obtain ⟨past, before⟩ := exists_life_unrivalled
  obtain ⟨later, after⟩ := exists_life_rivalled
  obtain ⟨t, found, completed, none⟩ := exists_task_unrivalled
  obtain ⟨t', found', one⟩ := exists_task_rivalled
  obtain ⟨⟨t'', kept, -, same⟩, -⟩ := completed_task_lasts before after found completed
  obtain rfl : t' = t'' := Option.some.inj (found'.symm.trans kept)
  cases last : lastFindings 1 later with
  | none =>
    rw [last] at same
    obtain rfl : t' = t := same
    rw [none] at one
    cases one
  | some outcome =>
    rw [last] at same
    exact ⟨later, t, t', outcome, after, found, found', last, same⟩

end System

end Arbiter
