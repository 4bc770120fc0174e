import Arbiter.Proofs.Plagiarism.Sources

/-! What a plagiarism task is going to find. Main statement: as long as no record comes in, the findings
of a run are those that the store foretells, whatever graphs are kept and whatever jobs do meanwhile. -/

namespace Arbiter

open Work (Keeps among)

/-- The submission as it came in. -/
def Submission.handedIn (r : Submission) : Submission :=
  .fresh r.id r.code r.languageId r.problemId r.userId

/-- The task as it was made. -/
def PlagiarismTask.asked (t : PlagiarismTask) : PlagiarismTask :=
  .fresh t.id t.submissionId t.problemId t.threshold

namespace Store

/-- The same submissions came in and the same tasks were made. -/
structure Alike (s t : Store) : Prop where
  submission (id : Int64) :
    (t.submissions.get? id).map (·.handedIn) = (s.submissions.get? id).map (·.handedIn)
  task (id : Int64) : (t.tasks.get? id).map (·.asked) = (s.tasks.get? id).map (·.asked)

theorem Request.handedIn_edit (q : Request) (id : Int64) (r : Submission) :
    (q.edit id r).handedIn = r.handedIn := by
  cases q <;> simp only [edit] <;> split <;> rfl

theorem Request.asked_fill (q : Request) (id : Int64) (t : PlagiarismTask) :
    (q.fill id t).asked = t.asked := by
  cases q with
  | completeTask i outcome =>
    simp only [fill]
    split <;> rfl
  | _ => rfl

variable {s t : Store}

theorem Alike.refl (s : Store) : s.Alike s := ⟨fun _ => rfl, fun _ => rfl⟩

/-- No request of a job brings a record in. -/
theorem keeps_alike (s : Store) (q : Request) : Keeps s.Alike q := by
  intro t alike
  constructor
  · intro id
    rw [get?_reply, Option.map_map, ← alike.submission]
    exact congrArg (Option.map · _) (funext (q.handedIn_edit id))
  · intro id
    rw [get?_tasks_reply, Option.map_map, ← alike.task]
    exact congrArg (Option.map · _) (funext (q.asked_fill id))

theorem Alike.exists_submission (alike : s.Alike t) {id : Int64} {r : Submission}
    (found : t.submissions.get? id = some r) :
    ∃ r', s.submissions.get? id = some r' ∧ r'.handedIn = r.handedIn := by
  have same := alike.submission id
  rw [found, Option.map_some] at same
  exact Option.map_eq_some_iff.1 same.symm

theorem Alike.symm (alike : s.Alike t) : t.Alike s :=
  ⟨fun id => (alike.submission id).symm, fun id => (alike.task id).symm⟩

theorem Alike.submission_eq_none (alike : s.Alike t) {id : Int64} :
    t.submissions.get? id = none ↔ s.submissions.get? id = none := by
  rw [← Option.map_eq_none_iff (f := Submission.handedIn), alike.submission, Option.map_eq_none_iff]

theorem Alike.isSome_submission {u : Store} (alike : s.Alike t) (alike' : s.Alike u) {id : Int64}
    {r : Submission} (found : t.submissions.get? id = some r) : (u.submissions.get? id).isSome := by
  rw [← Option.isSome_map, alike'.submission, ← alike.submission, found]
  rfl

theorem Alike.exists_task (alike : s.Alike t) {id : Int64} {task : PlagiarismTask}
    (found : t.tasks.get? id = some task) :
    ∃ task', s.tasks.get? id = some task' ∧ task'.asked = task.asked := by
  have same := alike.task id
  rw [found, Option.map_some] at same
  exact Option.map_eq_some_iff.1 same.symm

theorem Alike.task_eq_none (alike : s.Alike t) {id : Int64} :
    t.tasks.get? id = none ↔ s.tasks.get? id = none := by
  rw [← Option.map_eq_none_iff (f := PlagiarismTask.asked), alike.task, Option.map_eq_none_iff]

theorem Alike.isSome_task {u : Store} (alike : s.Alike t) (alike' : s.Alike u) {id : Int64}
    {task : PlagiarismTask} (found : t.tasks.get? id = some task) : (u.tasks.get? id).isSome := by
  rw [← Option.isSome_map, alike'.task, ← alike.task, found]
  rfl

end Store

theorem Submission.fields_of_handedIn {r r' : Submission} (same : r'.handedIn = r.handedIn) :
    r'.id = r.id ∧ r'.code = r.code ∧ r'.languageId = r.languageId ∧ r'.problemId = r.problemId :=
  ⟨congrArg (·.id) same, congrArg (·.code) same, congrArg (·.languageId) same,
    congrArg (·.problemId) same⟩

namespace Plagiarism

/-- The reports on the peers of the target that have a graph. -/
def reports (s : Store) (task : PlagiarismTask) (target : Submission) (graph : Dependence.Graph) :
    List Scored :=
  (candidates s task target).filterMap (scored? graph)

/-- The findings of an evaluation of the task on the store. -/
def foundBy (s : Store) (task : PlagiarismTask) : PlagiarismOutcome :=
  match s.submissions.get? task.submissionId with
  | none => .none
  | some target =>
    match target.usableGraph? with
    | none => .none
    | some graph => rank task.threshold (reports s task target graph)

/-- What a run of a task comes to. -/
def foretold (s : Store) (id : Int64) : Except Fault PlagiarismOutcome :=
  match s.tasks.get? id with
  | none => .error (.noTask id)
  | some task => .ok (foundBy s task)

section Alike

variable {source : Int64 → String} {s t : Store} {task : PlagiarismTask}
  {target target' : Submission} {graph : Dependence.Graph}

/-- Of a task, an evaluation reads nothing but what was asked. -/
theorem foundBy_of_asked (s : Store) {task task' : PlagiarismTask} (same : task'.asked = task.asked) :
    foundBy s task' = foundBy s task := by
  have reads (t : PlagiarismTask) : foundBy s t = foundBy s t.asked := rfl
  rw [reads task', same, ← reads]

/-- Submissions that came in alike have the same graph to go by, whichever of them keeps it. -/
theorem usableGraph?_of_handedIn {r r' : Submission} (own : r.Genuine source)
    (own' : r'.Genuine source) (same : r'.handedIn = r.handedIn) : r'.usableGraph? = r.usableGraph? := by
  rw [own.usableGraph?_eq, own'.usableGraph?_eq, (Submission.fields_of_handedIn same).1]

theorem mem_reports (genuine : s.Genuine source) {c : Scored} :
    c ∈ reports s task target graph ↔
      ∃ r, IsPeer s task target r ∧ scored? graph r = some c := by
  simp only [reports, List.mem_filterMap, mem_candidates genuine.keyed]

theorem nodup_reports (genuine : s.Genuine source) :
    ((reports s task target graph).map (·.id)).Nodup :=
  (nodup_candidates genuine.keyed).sublist (map_id_scored_sublist graph _)

theorem mem_reports_of_alike (genuine : s.Genuine source) (genuine' : t.Genuine source)
    (alike : s.Alike t) (sameTarget : target'.handedIn = target.handedIn) {c : Scored}
    (here : c ∈ reports t task target' graph) : c ∈ reports s task target graph := by
  obtain ⟨r, ⟨there, problem, language, other⟩, scored⟩ := (mem_reports genuine').1 here
  obtain ⟨r', found, same⟩ := alike.exists_submission there
  obtain ⟨targetId, -, targetLanguage, -⟩ := Submission.fields_of_handedIn sameTarget
  obtain ⟨sameId, -, sameLanguage, sameProblemId⟩ := Submission.fields_of_handedIn same
  refine (mem_reports genuine).2 ⟨r', ⟨?_, ?_, ?_, ?_⟩, ?_⟩
  · rw [sameId, found]
  · rw [sameProblemId, problem]
  · rw [sameLanguage, language, targetLanguage]
  · rw [sameId, ← targetId]
    exact other
  · have usable := usableGraph?_of_handedIn (genuine'.submission _ r there)
      (genuine.submission _ r' found) same
    rw [scored?, usable, sameId]
    exact scored

theorem perm_reports (genuine : s.Genuine source) (genuine' : t.Genuine source)
    (alike : s.Alike t) (sameTarget : target'.handedIn = target.handedIn) :
    (reports t task target' graph).Perm (reports s task target graph) := by
  refine (List.perm_ext_iff_of_nodup (nodup_reports genuine').of_map (nodup_reports genuine).of_map).2 ?_
  intro c
  exact ⟨mem_reports_of_alike genuine genuine' alike sameTarget,
    mem_reports_of_alike genuine' genuine alike.symm sameTarget.symm⟩

theorem inTurn_nil (moments : Nat → Nat) : inTurn moments ([] : List Submission) = [] :=
  (inTurn_perm moments []).eq_nil

/-- Reports on alike peers, in whatever order, lead to the same findings. -/
theorem rank_inTurn (genuine : s.Genuine source) (genuine' : t.Genuine source)
    (alike : s.Alike t) (sameTarget : target'.handedIn = target.handedIn) (moments : Nat → Nat) :
    rank task.threshold ((inTurn moments (candidates t task target')).filterMap (scored? graph)) =
      rank task.threshold (reports s task target graph) := by
  have perm := ((inTurn_perm moments (candidates t task target')).filterMap (scored? graph)).trans
    (perm_reports genuine genuine' alike sameTarget)
  refine rank_congr (fun c here => ?_) _ (nodup_reports genuine) perm
  obtain ⟨r, -, scored⟩ := (mem_reports genuine).1 here
  exact isScore_of_scored scored

theorem foundBy_of_graphless (genuine : s.Genuine source) (genuine' : t.Genuine source)
    (alike : s.Alike t) (found : t.submissions.get? task.submissionId = some target)
    (graphless : target.usableGraph? = none) : foundBy s task = .none := by
  obtain ⟨target', found', same⟩ := alike.exists_submission found
  have usable := usableGraph?_of_handedIn (genuine'.submission _ _ found)
    (genuine.submission _ _ found') same
  rw [foundBy, found']
  dsimp only
  rw [usable, graphless]

theorem foundBy_of_graph (genuine : s.Genuine source) (genuine' : t.Genuine source)
    (alike : s.Alike t) (found : t.submissions.get? task.submissionId = some target)
    (graphed : target.usableGraph? = some graph) {u : Store} (genuine'' : u.Genuine source)
    (alike' : s.Alike u) (moments : Nat → Nat) :
    rank task.threshold ((inTurn moments (candidates u task target)).filterMap (scored? graph)) =
      foundBy s task := by
  obtain ⟨target', found', same⟩ := alike.exists_submission found
  have usable := usableGraph?_of_handedIn (genuine'.submission _ _ found)
    (genuine.submission _ _ found') same
  rw [rank_inTurn genuine genuine'' alike' same.symm, foundBy, found']
  dsimp only
  rw [usable, graphed]

theorem foretold_of_found (alike : s.Alike t) {id : Int64} (found : t.tasks.get? id = some task) :
    foretold s id = .ok (foundBy s task) := by
  obtain ⟨first, made, same⟩ := alike.exists_task found
  rw [foretold, made, foundBy_of_asked s same.symm]

end Alike

section Runs

variable {source : Int64 → String} {C : Store → Prop} {α : Type}

theorem wp_step {σ : Type} {effect : Program.Effect Work.Request Work.Request.Reply σ} {stage : σ}
    (w : Work (Except Store.Fault α)) (Q : Except Fault α → σ → Prop) :
    (step w).run.wp effect Q stage ↔
      w.wp effect (fun r t =>
        match r with
        | .ok a => Q (.ok a) t
        | .error fault => Q (.error (.store fault)) t) stage := by
  refine (Program.wp_run_bind _ _ _ _).trans ((Program.wp_run_lift _ _ _).trans (iff_of_eq ?_))
  refine congrArg (fun K => w.wp effect K stage) ?_
  funext r t
  cases r <;> rfl

/-- What work on the graph of a submission comes to. -/
def graphOf (source : Int64 → String) (id : Int64) : Except Fault Dependence.Graph :=
  (Dependence.Graph.ofSource (source id)).mapError (.unreadable id)

theorem toOption_graphOf {r : Submission} (own : r.Genuine source) :
    (graphOf source r.id).toOption = r.usableGraph? := by
  rw [own.usableGraph?_eq, graphOf]
  cases Dependence.Graph.ofSource (source r.id) <;> rfl

variable (keeps : ∀ q : Store.Request, q.IsTrue source → Keeps C q)

include keeps

/-- Work on a genuine submission comes to the graph of its source, unless it is not there to keep it. -/
theorem wp_among_ensureGraph {r : Submission} (own : r.Genuine source) :
    (ensureGraph r).run.wp (among C)
      (fun result _ => (∀ t, C t → (t.submissions.get? r.id).isSome) → result = graphOf source r.id)
      () := by
  have told : graphOf source r.id = (Dependence.Graph.ofSource r.code).mapError (.unreadable r.id) := by
    rw [graphOf, own.code]
  rw [told]
  unfold ensureGraph
  cases kept : r.graph with
  | some graph =>
    rw [own.graph graph kept]
    exact fun _ => rfl
  | none =>
    dsimp only
    cases made : Dependence.Graph.ofSource r.code with
    | error fault => exact fun _ => rfl
    | ok graph =>
      rw [own.code] at made
      refine (Program.wp_run_bind _ _ _ _).2 ((wp_step _ _).2 ?_)
      refine wp_among_store (q := .saveGraph r.id graph) keeps made fun t here => ?_
      cases saved : (Store.reply (.saveGraph r.id graph) t).1 with
      | ok _ => exact fun _ => rfl
      | error fault =>
        intro there
        rw [Store.reply, Store.changeSubmission_fst, if_pos (there t here)] at saved
        cases saved

theorem wp_among_compareAll (graph : Dependence.Graph) {group : List Submission}
    (own : ∀ r ∈ group, r.Genuine source) :
    (compareAll graph group).wp (among C)
      (fun scored _ => (∀ r ∈ group, ∀ t, C t → (t.submissions.get? r.id).isSome) →
        scored = group.filterMap (scored? graph)) () := by
  induction group with
  | nil => exact fun _ => rfl
  | cons r rest ih =>
    rw [List.forall_mem_cons] at own
    refine (Program.wp_bind _ _ _ _).2 ?_
    refine Program.wp_mono (Work.mono_among C) (wp_among_ensureGraph keeps own.1) fun result _ made => ?_
    refine (Program.wp_bind _ _ _ _).2 ?_
    refine Program.wp_mono (Work.mono_among C) (ih own.2) fun scored _ others => ?_
    have comes (there : ∀ r' ∈ r :: rest, ∀ t, C t → (t.submissions.get? r'.id).isSome) :
        result.toOption = r.usableGraph? ∧ scored = rest.filterMap (scored? graph) := by
      rw [List.forall_mem_cons] at there
      rw [made there.1, toOption_graphOf own.1]
      exact ⟨rfl, others there.2⟩
    cases result with
    | ok own =>
      intro there
      obtain ⟨usable, rfl⟩ := comes there
      rw [List.filterMap_cons, scored?, ← usable]
      rfl
    | error fault =>
      intro there
      obtain ⟨usable, rfl⟩ := comes there
      rw [List.filterMap_cons, scored?, ← usable]
      rfl

theorem wp_among_completeTask (id : Int64) (outcome : PlagiarismOutcome) :
    (step (Work.store (.completeTask id outcome)) >>= fun _ => pure outcome).run.wp (among C)
      (fun result _ => (∀ t, C t → (t.tasks.get? id).isSome) → result = .ok outcome) () := by
  refine (Program.wp_run_bind _ _ _ _).2 ((wp_step _ _).2 ?_)
  refine wp_among_store (q := .completeTask id outcome) keeps trivial fun t here => ?_
  cases stored : (Store.reply (.completeTask id outcome) t).1 with
  | ok _ => exact fun _ => rfl
  | error fault =>
    intro there
    obtain ⟨task, found⟩ := Option.isSome_iff_exists.1 (there t here)
    rw [Store.reply, found] at stored
    cases stored

variable (genuine : ∀ t, C t → t.Genuine source)

include genuine

/-- A graph that is asked for is that of the source, unless the submission is not there. -/
theorem wp_among_buildGraph (id : Int64) :
    (buildGraph id).run.wp (among C)
      (fun result _ => (∀ t, C t → (t.submissions.get? id).isSome) → result = graphOf source id) () := by
  refine (Program.wp_run_bind _ _ _ _).2 ((wp_step _ _).2 ?_)
  refine wp_among_store (q := .submission id) keeps trivial fun t known => ?_
  rw [Store.reply]
  cases found : t.submissions.get? id with
  | none =>
    intro there
    have here := there t known
    rw [found] at here
    cases here
  | some r =>
    obtain rfl := (genuine t known).keyed _ _ found
    exact wp_among_ensureGraph keeps ((genuine t known).submission _ r found)

/-- An evaluation comes to what the store foretells, if no record comes in. -/
theorem wp_among_evaluate {s : Store} (here : s.Genuine source) (task : PlagiarismTask) :
    (evaluate task).run.wp (among C)
      (fun result _ => (∀ t, C t → s.Alike t) → result.toOption.getD .none = foundBy s task) () := by
  refine (Program.wp_run_bind _ _ _ _).2 ((wp_step _ _).2 ?_)
  refine wp_among_store (q := .submission task.submissionId) keeps trivial fun t known => ?_
  rw [Store.reply]
  cases found : t.submissions.get? task.submissionId with
  | none =>
    intro alike
    rw [(alike t known).submission_eq_none] at found
    rw [foundBy, found]
    rfl
  | some target =>
    have own := (genuine t known).submission _ target found
    refine (Program.wp_run_bind _ _ _ _).2 ((wp_step _ _).2 ?_)
    refine wp_among_store (q := .submissionsOf task.problemId target.languageId) keeps trivial
      fun u known' => ?_
    rw [Store.reply]
    dsimp only
    rw [← candidates]
    split
    · rename_i empty
      intro alike
      show PlagiarismOutcome.none = foundBy s task
      cases graphed : target.usableGraph? with
      | none =>
        exact (foundBy_of_graphless here (genuine t known) (alike t known) found graphed).symm
      | some graph =>
        rw [← foundBy_of_graph here (genuine t known) (alike t known) found graphed
          (genuine u known') (alike u known') id, List.isEmpty_iff.1 empty, inTurn_nil]
        exact (rank_nil _).symm
    · refine (Program.wp_run_bind _ _ _ _).2 ?_
      refine Program.wp_mono (Work.mono_among C) (wp_among_ensureGraph keeps own) fun result _ made => ?_
      have comes (alike : ∀ t, C t → s.Alike t) : result.toOption = target.usableGraph? := by
        rw [← toOption_graphOf own]
        refine congrArg Except.toOption (made fun w known'' => ?_)
        rw [(genuine t known).keyed _ _ found]
        exact (alike t known).isSome_submission (alike w known'') found
      cases result with
      | error fault =>
        intro alike
        exact (foundBy_of_graphless here (genuine t known) (alike t known) found
          (comes alike).symm).symm
      | ok graph =>
        refine (Program.wp_run_bind _ _ _ _).2 ((Program.wp_run_lift _ _ _).2 fun moments => ?_)
        refine (Program.wp_run_bind _ _ _ _).2 ((Program.wp_run_lift _ _ _).2 ?_)
        have peers {r : Submission} (here : r ∈ inTurn moments (candidates u task target)) :
            u.submissions.get? r.id = some r :=
          ((mem_candidates (genuine u known').keyed).1 ((inTurn_perm _ _).mem_iff.1 here)).there
        have compared := wp_among_compareAll keeps graph fun r here =>
          (genuine u known').submission _ r (peers here)
        refine Program.wp_mono (Work.mono_among C) compared fun scored _ compared alike => ?_
        rw [compared fun r here w known'' => (alike u known').isSome_submission (alike w known'') (peers here)]
        exact foundBy_of_graph here (genuine t known) (alike t known) found (comes alike).symm
          (genuine u known') (alike u known') moments

/-- A run comes to what the store foretells, if no record comes in. -/
theorem wp_among_run {s : Store} (here : s.Genuine source) (id : Int64) :
    (run id).run.wp (among C)
      (fun result _ => (∀ t, C t → s.Alike t) → result = foretold s id) () := by
  refine (Program.wp_run_bind _ _ _ _).2 ((wp_step _ _).2 ?_)
  refine wp_among_store (q := .task id) keeps trivial fun t known => ?_
  rw [Store.reply]
  cases found : t.tasks.get? id with
  | none =>
    intro alike
    rw [(alike t known).task_eq_none] at found
    rw [foretold, found]
  | some task =>
    refine (Program.wp_run_bind _ _ _ _).2 ((Program.wp_run_lift _ _ _).2 ?_)
    refine Program.wp_mono (Work.mono_among C) (wp_among_evaluate keeps genuine here task)
      fun result _ evaluated => ?_
    have ends {outcome : PlagiarismOutcome} (findings : result.toOption.getD .none = outcome) :
        (step (Work.store (.completeTask id outcome)) >>= fun _ => pure outcome).run.wp (among C)
          (fun result _ => (∀ t, C t → s.Alike t) → result = foretold s id) () := by
      refine Program.wp_mono (Work.mono_among C) (wp_among_completeTask keeps id outcome)
        fun ended _ stored alike => ?_
      rw [foretold_of_found (alike t known) found, ← evaluated alike, findings]
      exact stored fun u known' => (alike t known).isSome_task (alike u known') found
    cases result with
    | ok outcome => exact ends rfl
    | error fault => exact ends rfl

end Runs

end Plagiarism

end Arbiter
