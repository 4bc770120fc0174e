import Arbiter.Proofs.Plagiarism.Ranking
import Arbiter.Proofs.Store.Frame
import Arbiter.Proofs.Work.System
import Arbiter.Work.Rehearsal

/-! What a plagiarism task finds. Main statement: in whatever order the comparisons come up, a run
completes its task, with no findings where there is nothing to compare, and else with the best of the
ranking of all candidates. It fails only where there is no such task. -/

namespace Arbiter

open Work (Outside alone)

/-- The dependence graph that work on a submission goes by: the stored one, or else that of the
source. -/
def Submission.usableGraph? (r : Submission) : Option Dependence.Graph :=
  r.graph.or (Dependence.Graph.ofSource r.code).toOption

namespace Plagiarism

open Similarity (IsScore isScore_report)

/-- `r` is another submission for the problem of the task, in the language of the target. -/
structure IsPeer (s : Store) (task : PlagiarismTask) (target r : Submission) : Prop where
  there : s.submissions.get? r.id = some r
  problem : r.problemId = task.problemId
  language : r.languageId = target.languageId
  other : r.id ≠ target.id

/-- There is nothing to compare. -/
inductive Vacant (s : Store) (task : PlagiarismTask) : Prop
  | noTarget (missing : s.submissions.get? task.submissionId = none)
  | noPeer {target : Submission} (found : s.submissions.get? task.submissionId = some target)
      (alone : ∀ r, ¬ IsPeer s task target r)
  | noGraph {target : Submission} (found : s.submissions.get? task.submissionId = some target)
      (graphless : target.usableGraph? = none)
  | noPeerGraph {target : Submission} (found : s.submissions.get? task.submissionId = some target)
      (graphless : ∀ r, IsPeer s task target r → r.usableGraph? = none)

/-- The peer under its report on the likeness to the target, if it has a graph. -/
def scored? (target : Dependence.Graph) (r : Submission) : Option Scored :=
  r.usableGraph?.map fun graph => ⟨r.id, .of target graph⟩

/-- The ranking has every peer with a graph once, and stands in the order of the list. -/
structure Ranks (s : Store) (task : PlagiarismTask) (target : Submission) (graph : Dependence.Graph)
    (ranking : List Scored) : Prop where
  mem (c : Scored) : c ∈ ranking ↔ ∃ r, IsPeer s task target r ∧ scored? graph r = some c
  once : (ranking.map (·.id)).Nodup
  above : ranking.Pairwise Scored.Above

/-- What a task finds in a store. -/
structure Findings (s : Store) (task : PlagiarismTask) (o : PlagiarismOutcome) : Prop where
  vacant : Vacant s task → o = .none
  ranked : ¬ Vacant s task → ∃ target graph ranking,
    s.submissions.get? task.submissionId = some target ∧ target.usableGraph? = some graph ∧
      Ranks s task target graph ranking ∧ Lists task.threshold ranking o ∧
      o.similarIds.Nodup ∧ target.id ∉ o.similarIds

/-- Graphs may have been added to submissions, but tasks and the set of submissions are the same. -/
structure Regraphed (s s' : Store) : Prop where
  tasks : s'.tasks = s.tasks
  present (id : Int64) : (s'.submissions.get? id).isSome = (s.submissions.get? id).isSome

theorem Regraphed.refl (s : Store) : Regraphed s s := ⟨rfl, fun _ => rfl⟩

theorem Regraphed.trans {s s' s'' : Store} (h : Regraphed s s') (h' : Regraphed s' s'') :
    Regraphed s s'' :=
  ⟨h'.tasks.trans h.tasks, fun id => (h'.present id).trans (h.present id)⟩

theorem Regraphed.reply_saveGraph (s : Store) (id : Int64) (graph : Dependence.Graph) :
    Regraphed s (Store.reply (.saveGraph id graph) s).2 := by
  refine ⟨?_, fun other => ?_⟩
  · simp only [Store.reply, Store.changeSubmission]
    split <;> rfl
  · rw [Store.get?_reply, Option.isSome_map]

section Runs

variable {σ : Type} (outside : Outside σ) {s : Store} {t : σ}

theorem run_step_store {q : Store.Request} {answer : q.Answer} {s' : Store}
    (replied : Store.reply q s = (.ok answer, s')) :
    (step (Work.store q)).run.run (alone outside) (s, t) = (.ok answer, s', t) := by
  rw [step, Program.run_run_bind_ok _ (Program.run_run_lift _ _ _), Work.run_store, replied]
  rfl

/-- Work on a submission that is in the store comes to its graph, if it has one. -/
theorem run_ensureGraph {r : Submission} (there : (s.submissions.get? r.id).isSome) :
    ∃ result s', (ensureGraph r).run.run (alone outside) (s, t) = (result, s', t) ∧
      result.toOption = r.usableGraph? ∧ Regraphed s s' := by
  unfold ensureGraph Submission.usableGraph?
  cases r.graph with
  | some graph => exact ⟨.ok graph, s, rfl, rfl, .refl s⟩
  | none =>
    dsimp only
    cases Dependence.Graph.ofSource r.code with
    | error fault => exact ⟨.error (.unreadable r.id fault), s, rfl, rfl, .refl s⟩
    | ok graph =>
      have saved : (Store.reply (.saveGraph r.id graph) s).1 = .ok () :=
        (Store.changeSubmission_fst s r.id _).trans (if_pos there)
      refine ⟨.ok graph, _, ?_, rfl, .reply_saveGraph s r.id graph⟩
      exact Program.run_run_bind_ok _ (run_step_store outside (Prod.ext saved rfl))

theorem run_compareAll (graph : Dependence.Graph) {candidates : List Submission}
    (there : ∀ r ∈ candidates, (s.submissions.get? r.id).isSome) :
    ∃ s', (compareAll graph candidates).run (alone outside) (s, t) =
      (candidates.filterMap (scored? graph), s', t) ∧ Regraphed s s' := by
  induction candidates generalizing s with
  | nil => exact ⟨s, rfl, .refl s⟩
  | cons r rest ih =>
    rw [List.forall_mem_cons] at there
    obtain ⟨result, s', first, graphOf, regraphed⟩ := run_ensureGraph outside (t := t) there.1
    obtain ⟨s'', others, regraphed'⟩ :=
      ih (s := s') fun other here => (regraphed.present other.id).trans (there.2 other here)
    refine ⟨s'', ?_, regraphed.trans regraphed'⟩
    rw [compareAll, Program.run_bind, first, Program.run_bind, others, List.filterMap_cons, scored?,
      ← graphOf]
    cases result <;> rfl

theorem inTurn_perm {α : Type} (moments : Nat → Nat) (group : List α) :
    (inTurn moments group).Perm group := by
  have perm := (List.mergeSort_perm group.zipIdx fun a b => moments a.2 ≤ moments b.2).map (·.1)
  rwa [List.zipIdx_map_fst] at perm

end Runs

section Candidates

variable {s : Store} {task : PlagiarismTask} {target : Submission} {graph : Dependence.Graph}

/-- The submissions that the target is compared with. -/
def candidates (s : Store) (task : PlagiarismTask) (target : Submission) : List Submission :=
  (s.submissionsOf task.problemId target.languageId).filter (·.id != target.id)

theorem mem_candidates (keyed : s.Keyed) {r : Submission} :
    r ∈ candidates s task target ↔ IsPeer s task target r := by
  rw [candidates, List.mem_filter, Store.mem_submissionsOf keyed, bne_iff_ne]
  constructor
  · rintro ⟨⟨there, problem, language⟩, other⟩
    exact ⟨there, problem, language, other⟩
  · rintro ⟨there, problem, language, other⟩
    exact ⟨⟨there, problem, language⟩, other⟩

theorem nodup_candidates (keyed : s.Keyed) : ((candidates s task target).map (·.id)).Nodup :=
  (Store.nodup_submissionsOf keyed _ _).sublist (List.filter_sublist.map _)

theorem id_of_scored {r : Submission} {c : Scored} (scored : scored? graph r = some c) :
    c.id = r.id := by
  obtain ⟨own, -, rfl⟩ := Option.map_eq_some_iff.1 scored
  rfl

theorem isScore_of_scored {r : Submission} {c : Scored} (scored : scored? graph r = some c) :
    IsScore c.report.score := by
  obtain ⟨own, -, rfl⟩ := Option.map_eq_some_iff.1 scored
  exact isScore_report graph own

/-- A task is not vacant where a peer of its target can be compared. -/
theorem not_vacant (found : s.submissions.get? task.submissionId = some target)
    (usable : target.usableGraph? = some graph) {r : Submission} (peer : IsPeer s task target r)
    {c : Scored} (scored : scored? graph r = some c) : ¬ Vacant s task := by
  rintro (missing | ⟨found', alone⟩ | ⟨found', graphless⟩ | ⟨found', graphless⟩)
  · rw [found] at missing
    cases missing
  all_goals
    rw [found] at found'
    cases found'
  · exact alone r peer
  · rw [usable] at graphless
    cases graphless
  · rw [scored?, graphless r peer] at scored
    cases scored

theorem map_id_scored_sublist (graph : Dependence.Graph) (l : List Submission) :
    ((l.filterMap (scored? graph)).map (·.id)).Sublist (l.map (·.id)) := by
  induction l with
  | nil => exact .slnil
  | cons r rest ih =>
    rw [List.filterMap_cons, scored?]
    cases r.usableGraph? with
    | none => exact ih.cons _
    | some own => exact ih.cons_cons _

theorem rank_nil (threshold : Float) : rank threshold [] = .none := by
  rw [rank, List.mergeSort_nil]

/-- The reports on all candidates, in whatever order, lead to the findings. -/
theorem findings_of_reports (keyed : s.Keyed)
    (found : s.submissions.get? task.submissionId = some target)
    (usable : target.usableGraph? = some graph) {group : List Submission}
    (perm : group.Perm (candidates s task target)) :
    Findings s task (rank task.threshold (group.filterMap (scored? graph))) := by
  have peers {r : Submission} : r ∈ group ↔ IsPeer s task target r :=
    perm.mem_iff.trans (mem_candidates keyed)
  have mem (c : Scored) : c ∈ group.filterMap (scored? graph) ↔
      ∃ r, IsPeer s task target r ∧ scored? graph r = some c := by
    simp only [List.mem_filterMap, peers]
  have ids : ((group.filterMap (scored? graph)).map (·.id)).Nodup :=
    ((perm.map _).nodup_iff.2 (nodup_candidates keyed)).sublist (map_id_scored_sublist graph group)
  by_cases nobody : group.filterMap (scored? graph) = []
  · rw [nobody, rank_nil]
    have graphless : ∀ r, IsPeer s task target r → r.usableGraph? = none := by
      intro r peer
      have unscored := List.filterMap_eq_nil_iff.1 nobody r (peers.2 peer)
      exact Option.map_eq_none_iff.1 unscored
    exact ⟨fun _ => rfl, fun occupied => (occupied (.noPeerGraph found graphless)).elim⟩
  · have scores : ∀ c ∈ group.filterMap (scored? graph), IsScore c.report.score := by
      intro c here
      obtain ⟨r, -, scored⟩ := (mem c).1 here
      exact isScore_of_scored scored
    obtain ⟨ranking, perm, above, lists⟩ := rank_lists scores task.threshold nobody ids
    have once : (ranking.map (·.id)).Nodup := (perm.map _).nodup_iff.2 ids
    refine ⟨fun vacant => ?_, fun _ => ⟨target, graph, ranking, found, usable, ?_, lists, ?_, ?_⟩⟩
    · obtain ⟨c, here⟩ := List.exists_mem_of_ne_nil _ nobody
      obtain ⟨r, peer, scored⟩ := (mem c).1 here
      exact (not_vacant found usable peer scored vacant).elim
    · exact ⟨fun c => perm.mem_iff.trans (mem c), once, above⟩
    · rw [lists.similarIds]
      exact once.sublist ((List.take_sublist _ _).map _)
    · rw [lists.similarIds, List.mem_map]
      rintro ⟨c, listed, same⟩
      obtain ⟨r, peer, scored⟩ := (mem c).1 (perm.mem_iff.1 (List.mem_of_mem_take listed))
      exact peer.other ((id_of_scored scored).symm.trans same)

end Candidates

section Runs

variable {σ : Type} (outside : Outside σ) {s : Store} (keyed : s.Keyed) (t : σ)

include keyed

/-- An evaluation comes to the findings of its task, a fault to none. -/
theorem run_evaluate (task : PlagiarismTask) :
    ∃ result s' t', (evaluate task).run.run (alone outside) (s, t) = (result, s', t') ∧
      Regraphed s s' ∧ Findings s task (result.toOption.getD .none) := by
  have none_found {o : PlagiarismOutcome} (vacant : Vacant s task) (empty : o = .none) :
      Findings s task o := ⟨fun _ => empty, fun occupied => (occupied vacant).elim⟩
  have looked_up : Store.reply (.submission task.submissionId) s =
      (.ok (s.submissions.get? task.submissionId), s) := rfl
  unfold evaluate
  rw [Program.run_run_bind_ok _ (run_step_store outside looked_up)]
  cases found : s.submissions.get? task.submissionId with
  | none =>
    exact ⟨.error (.noSubmission task.submissionId), s, t, rfl, .refl s,
      none_found (.noTarget found) rfl⟩
  | some target =>
    have listed : Store.reply (.submissionsOf task.problemId target.languageId) s =
        (.ok (s.submissionsOf task.problemId target.languageId), s) := rfl
    dsimp only
    rw [Program.run_run_bind_ok _ (run_step_store outside listed)]
    have peers {r : Submission} : r ∈ candidates s task target ↔ IsPeer s task target r :=
      mem_candidates keyed
    rw [← candidates]
    split
    · rename_i empty
      have lonely : ∀ r, ¬ IsPeer s task target r := by
        intro r peer
        have here := peers.2 peer
        rw [List.isEmpty_iff.1 empty] at here
        cases here
      exact ⟨.ok .none, s, t, rfl, .refl s, none_found (.noPeer found lonely) rfl⟩
    · have own : s.submissions.get? target.id = some target := by
        rw [keyed _ _ found, found]
      obtain ⟨result, s', graphed, graphOf, regraphed⟩ :=
        run_ensureGraph outside (t := t) (Option.isSome_of_mem own)
      cases result with
      | error fault =>
        refine ⟨.error fault, s', t, Program.run_run_bind_error _ graphed, regraphed, ?_⟩
        exact none_found (.noGraph found graphOf.symm) rfl
      | ok graph =>
        let moments := (outside .moments t).1
        have perm := inTurn_perm moments (candidates s task target)
        have there : ∀ r ∈ inTurn moments (candidates s task target),
            (s'.submissions.get? r.id).isSome := by
          intro r here
          rw [regraphed.present, (peers.1 (perm.mem_iff.1 here)).there]
          rfl
        obtain ⟨s'', compared, regraphed'⟩ :=
          run_compareAll outside (t := (outside .moments t).2) graph there
        refine ⟨.ok (rank task.threshold ((inTurn moments (candidates s task target)).filterMap
          (scored? graph))), s'', (outside .moments t).2, ?_, regraphed.trans regraphed', ?_⟩
        · rw [Program.run_run_bind_ok _ graphed,
            Program.run_run_bind_ok _ (Program.run_run_lift _ _ _)]
          refine Program.run_run_bind_ok _ ((Program.run_run_lift _ _ _).trans ?_)
          exact congrArg (fun x => (Except.ok x.1, x.2)) compared
        · exact findings_of_reports keyed found graphOf.symm perm

/-- A run completes its task with the findings, in whatever order the comparisons come up. It fails
only where there is no such task, and then changes nothing. -/
theorem run_completes_task (id : Int64) :
    match s.tasks.get? id with
    | none => (run id).run.run (alone outside) (s, t) = (.error (.noTask id), s, t)
    | some task => ∃ outcome s' t', (run id).run.run (alone outside) (s, t) = (.ok outcome, s', t') ∧
        s'.tasks = s.tasks.insert id (task.complete outcome) ∧ Findings s task outcome := by
  have looked_up : Store.reply (.task id) s = (.ok (s.tasks.get? id), s) := rfl
  unfold run
  rw [Program.run_run_bind_ok _ (run_step_store outside looked_up)]
  cases found : s.tasks.get? id with
  | none => rfl
  | some task =>
    obtain ⟨result, s', t', evaluated, regraphed, findings⟩ := run_evaluate outside keyed t task
    let completed : Store :=
      { s' with tasks := s'.tasks.insert id (task.complete (result.toOption.getD .none)) }
    have stored : Store.reply (.completeTask id (result.toOption.getD .none)) s' =
        (.ok (), completed) := by
      have still : s'.tasks.get? id = some task := by
        rw [regraphed.tasks, found]
      rw [Store.reply, still]
    refine ⟨result.toOption.getD .none, completed, t', ?_, ?_, findings⟩
    · dsimp only
      rw [Program.run_run_bind_ok _ (Work.run_ending outside _ _), evaluated]
      cases result <;> exact Program.run_run_bind_ok _ (run_step_store outside stored)
    · exact congrArg (Table.insert · id _) regraphed.tasks

end Runs

/-- A submission with a graph. -/
def rival (id : Int64) : Submission :=
  { Submission.fresh id "" 1 1 1 with graph := some ⟨[], []⟩ }

/-- Two submissions for one problem, and a task that compares them. -/
def rivals : Store :=
  (((Store.empty.insertSubmission (rival 1)).insertSubmission (rival 2)).createTask 1 1 0.5).2

theorem keyed_rivals : rivals.Keyed :=
  (Store.keyed_empty.insertSubmission _).insertSubmission _

/-- The task is evaluated, and there is something to compare. -/
theorem run_completes_task_rivals : ∃ outcome s' t',
    (run 1).run.run (alone Rehearsal.reply) (rivals, {}) = (.ok outcome, s', t') ∧
      s'.tasks = rivals.tasks.insert 1 ((PlagiarismTask.fresh 1 1 1 0.5).complete outcome) ∧
      Findings rivals (.fresh 1 1 1 0.5) outcome ∧ ¬ Vacant rivals (.fresh 1 1 1 0.5) := by
  obtain ⟨outcome, s', t', ran, stored, findings⟩ :=
    run_completes_task Rehearsal.reply keyed_rivals {} 1
  have peer : IsPeer rivals (.fresh 1 1 1 0.5) (rival 1) (rival 2) := ⟨rfl, rfl, rfl, by decide⟩
  have scored : scored? ⟨[], []⟩ (rival 2) = some ⟨2, .of ⟨[], []⟩ ⟨[], []⟩⟩ := rfl
  exact ⟨outcome, s', t', ran, stored, findings, not_vacant rfl rfl peer scored⟩

end Plagiarism

end Arbiter
