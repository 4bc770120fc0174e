import Arbiter.Proofs.Judging.Apart
import Arbiter.Proofs.Work.History

/-! Judging a submission again. Main statement: what an earlier pass has left on the record makes no
difference to a pass, which asks the same, comes to the same and leaves the same record. The graph in
that record is the one of the code, or there is none. -/

namespace Arbiter

open Work (Outside alone Steady)

/-- The submissions are equal in all that judging does not write. -/
structure Submission.SameSource (r r' : Submission) : Prop where
  id : r.id = r'.id
  code : r.code = r'.code
  languageId : r.languageId = r'.languageId
  problemId : r.problemId = r'.problemId
  userId : r.userId = r'.userId

theorem Submission.SameSource.reset_eq {r r' : Submission} (same : r.SameSource r') :
    r.reset = r'.reset := by
  obtain ⟨⟩ := r
  obtain ⟨⟩ := r'
  obtain ⟨rfl, rfl, rfl, rfl, rfl⟩ := same
  rfl

/-- The stores agree on all of a submission that judging does not write, on problems and on
languages. -/
structure Store.SameEntry (id : Int64) (x y : Store) : Prop where
  record : Option.Rel Submission.SameSource (x.submissions.get? id) (y.submissions.get? id)
  problems : x.problems = y.problems
  languages : x.languages = y.languages

namespace Judging

/-- Two pieces of work, each on a store of its own, ask the same, come to the same, and leave the same
record of a submission and the same surroundings. -/
structure Alike {σ α : Type} (outside : Outside σ) (id : Int64) (w w' : Work α) (x y : Store) (t : σ) :
    Prop where
  asked : (w.asked (alone outside) (x, t)).map (·.1) = (w'.asked (alone outside) (y, t)).map (·.1)
  result : (w.run (alone outside) (x, t)).1 = (w'.run (alone outside) (y, t)).1
  record : (w.run (alone outside) (x, t)).2.1.submissions.get? id =
    (w'.run (alone outside) (y, t)).2.1.submissions.get? id
  around : (w.run (alone outside) (x, t)).2.2 = (w'.run (alone outside) (y, t)).2.2

section Alike

variable {σ α : Type} {outside : Outside σ} {start x y : Store} {id : Int64} {t : σ}

theorem Alike.ask_store {q : Store.Request} {next next' : q.Reply → Work α} {reply reply' : q.Reply}
    (replied : (Store.reply q x).1 = reply) (replied' : (Store.reply q y).1 = reply')
    (h : Alike outside id (next reply) (next' reply') (Store.reply q x).2 (Store.reply q y).2 t) :
    Alike outside id (Program.ask (.store q) next) (Program.ask (.store q) next') x y t := by
  subst replied replied'
  exact ⟨congrArg (Work.Request.store q :: ·) h.asked, h.result, h.record, h.around⟩

theorem Alike.ask_outside {q : Work.Request} (away : ¬ q.IsStore) {next next' : q.Reply → Work α}
    (h : Alike outside id (next (outside q t).1) (next' (outside q t).1) x y (outside q t).2) :
    Alike outside id (Program.ask q next) (Program.ask q next') x y t := by
  cases q with
  | store q => exact (away trivial).elim
  | _ => exact ⟨congrArg (_ :: ·) h.asked, h.result, h.record, h.around⟩

theorem Shows.reply {record : Option Submission} (shows : Shows start id record x) (q : Store.Request) :
    Shows start id (record.map (q.edit id)) (Store.reply q x).2 where
  record := by rw [Store.get?_reply, shows.record]
  problems := (Store.problems_reply q x).trans shows.problems
  languages := (Store.languages_reply q x).trans shows.languages

/-- Work that keeps to one submission cannot tell stores that show the same. -/
theorem alike_of_wp {w : Work α} (steady : Steady w) {Q : α → Tally → Prop} {tally : Tally}
    (fair : w.wp (Tally.effect start id) Q tally) (shows : Shows start id tally.record x)
    (shows' : Shows start id tally.record y) : Alike outside id w w x y t := by
  induction w generalizing tally x y t with
  | done a => exact ⟨rfl, rfl, shows.record.trans shows'.record.symm, rfl⟩
  | ask q next ih =>
    cases q with
    | store q =>
      obtain ⟨own, goesOn⟩ := fair
      have same : next (Store.reply q y).1 = next (Store.reply q x).1 := by
        cases uncounted : q.counts? with
        | none => rw [shows.reply_eq shows' own uncounted]
        | some user =>
          cases q with
          | addResolved => exact steady.1 _ _
          | _ => cases uncounted
      refine Alike.ask_store rfl rfl ?_
      rw [same]
      exact ih _ (steady.2 _) (goesOn x shows) (shows.reply q) (shows'.reply q)
    | _ =>
      refine Alike.ask_outside ?_ ?_
      · exact not_false
      · exact ih _ (steady.2 _) (fair _) shows shows'

/-- What a run of such work comes to is admitted. -/
theorem exists_tally (outside : Outside σ) (t : σ) {w : Work α} {Q : α → Tally → Prop} {tally : Tally}
    (fair : w.wp (Tally.effect start id) Q tally) (shows : Shows start id tally.record x) :
    ∃ last : Tally, Q (w.run (alone outside) (x, t)).1 last ∧
      Shows start id last.record (w.run (alone outside) (x, t)).2.1 := by
  induction w generalizing tally x t with
  | done a => exact ⟨tally, fair, shows⟩
  | ask q next ih =>
    cases q with
    | store q => exact ih _ t (fair.2 x shows) (shows.reply q)
    | _ => exact ih _ _ (fair _) shows

end Alike

/-- What a pass does once the record of its submission is cleared. -/
def pursue (s : SandboxSettings) (id : Int64) (submission : Submission) : ExceptT Fault Work Status := do
  let problem ← find (.noProblem submission.problemId) (Work.store (.problem submission.problemId))
  let language ←
    find (.noLanguage submission.languageId) (Work.store (.language submission.languageId))
  let limits := Limits.effective problem.timeLimitMs problem.memoryLimitMb language
  let count := problem.testcases.length
  step .workspace (Work.openWorkspace (workspaceLabel id))
  step .source (Work.write .work language.sourceFile submission.code)
  match ← compileStep s id language limits with
  | .failed verdict message => finish submission language (.failed count verdict message)
  | .compiled =>
    match ← judgeStep s problem with
    | .error fault => finish submission language (.failed count .unknown fault.message)
    | .ok judge => casesStep s submission problem language limits judge

/-- Ends a pass with the status that work has come to, or with the fault that it has stopped at. -/
def conclude (id : Int64) (w : ExceptT Fault Work Status) : ExceptT Fault Work Status := do
  match ← Work.ending w with
  | .ok status => return status
  | .error fault =>
    let count ← caseCount id
    let outcome := JudgeOutcome.failed count .unknown
      ("Main orchestrator failed: " ++ fault.message)
    step .record (Work.store (.commit id outcome))
    return outcome.status

/-- Nothing that judging writes is read after the record is cleared. -/
theorem pursue_congr (s : SandboxSettings) (id : Int64) {r r' : Submission} (same : r.SameSource r') :
    pursue s id r = pursue s id r' := by
  obtain ⟨⟩ := r
  obtain ⟨⟩ := r'
  obtain ⟨rfl, rfl, rfl, rfl, rfl⟩ := same
  rfl

/-- A pass begins by reading the record and clearing it. -/
theorem judge_opens {β : Type} (s : SandboxSettings) (id : Int64) (f : Except Fault Status → Work β) :
    ∃ next, (judge s id).run >>= f = Program.ask (.store (.submission id)) next ∧
      ∀ r, ∃ cleared, next (.ok (some r)) = Program.ask (.store (.reset id)) cleared ∧
        cleared (.ok ()) = (conclude id (pursue s id r)).run >>= f :=
  ⟨_, rfl, fun _ => ⟨_, rfl, rfl⟩⟩

section Pass

variable {σ β : Type} (s : SandboxSettings) {x y : Store} {id : Int64}

/-- A pass that finds a record is alike on any record of the same source. -/
theorem alike_opened {w : Work β} {next cleared cleared' rest} {r r' : Submission}
    (opens : w = Program.ask (.store (.submission id)) next)
    (resets : next (.ok (some r)) = Program.ask (.store (.reset id)) cleared)
    (resets' : next (.ok (some r')) = Program.ask (.store (.reset id)) cleared')
    (goesOn : cleared (.ok ()) = rest) (goesOn' : cleared' (.ok ()) = rest)
    (same : r.SameSource r') (steady : Steady w) {Q : β → Tally → Prop} {start : Store}
    (fair : w.wp (Tally.effect start id) Q ⟨some r, []⟩) (shows : Shows start id (some r) x)
    (shows' : Shows start id (some r') y) (outside : Outside σ) (t : σ) :
    Alike outside id w w x y t := by
  subst opens
  have read : (Store.reply (.submission id) x).1 = .ok (some r) := congrArg Except.ok shows.record
  have read' : (Store.reply (.submission id) y).1 = .ok (some r') := congrArg Except.ok shows'.record
  have done : (Store.reply (.reset id) x).1 = .ok () := shows.change _
  have done' : (Store.reply (.reset id) y).1 = .ok () := shows'.change _
  have fair := fair.2 x shows
  have steady := steady.2 (.ok (some r))
  rw [read, resets] at fair
  rw [resets] at steady
  have fair := fair.2 x shows
  have steady := steady.2 (.ok ())
  rw [done, goesOn] at fair
  rw [goesOn] at steady
  have left := shows'.reply (.reset id)
  have same_reset : Store.Request.edit (.reset id) id r = Store.Request.edit (.reset id) id r' := by
    simp only [Store.Request.edit, if_true, same.reset_eq]
  rw [Option.map_some, ← same_reset] at left
  refine Alike.ask_store read read' ?_
  rw [resets, resets']
  refine Alike.ask_store done done' ?_
  rw [goesOn, goesOn']
  exact alike_of_wp steady fair (shows.reply (.reset id)) left

/-- The pass, and anything that is made of its end. -/
theorem alike_judge (keyed : x.Keyed) (same : x.SameEntry id y) (outside : Outside σ) (t : σ)
    (f : Except Fault Status → β) :
    Alike outside id ((judge s id).run >>= fun a => pure (f a)) ((judge s id).run >>= fun a => pure (f a))
      x y t := by
  have steady : Steady ((judge s id).run >>= fun a => pure (f a)) :=
    (steady_judge s id).bind fun _ => trivial
  have fair : ((judge s id).run >>= fun a => pure (f a)).wp (Tally.effect x id)
      (fun _ (t : Tally) => t.Fair) ⟨x.submissions.get? id, []⟩ :=
    (Program.wp_bind _ _ _ _).2 (Tally.fair_judge s keyed)
  obtain ⟨record, problems, languages⟩ := same
  cases found : x.submissions.get? id with
  | none =>
    cases found' : y.submissions.get? id with
    | none =>
      rw [found] at fair
      exact alike_of_wp steady fair ⟨found, rfl, rfl⟩ ⟨found', problems.symm, languages.symm⟩
    | some r' =>
      rw [found, found'] at record
      cases record
  | some r =>
    rw [found] at record fair
    obtain ⟨next, opens, clears⟩ := judge_opens s id fun a => pure (f a)
    obtain ⟨cleared, resets, goesOn⟩ := clears r
    cases found' : y.submissions.get? id with
    | none =>
      rw [found'] at record
      cases record
    | some r' =>
      rw [found', Option.rel_some_some] at record
      obtain ⟨cleared', resets', goesOn'⟩ := clears r'
      rw [← pursue_congr s id record] at goesOn'
      exact alike_opened opens resets resets' goesOn goesOn' record steady fair ⟨found, rfl, rfl⟩
        ⟨found', problems.symm, languages.symm⟩ outside t

/-- What a job makes of the end of its pass. -/
def endOf : Except Fault Status → Except Work.Fault Unit
  | .ok _ => .ok ()
  | .error fault => .error (.judging fault)

theorem run_work_eq {job : Job} (judges : job.judges? = some id) :
    (job.work s).run = (judge s id).run >>= fun a => pure (endOf a) := by
  cases job with
  | judge i | rejudge i =>
    obtain rfl : i = id := Option.some.inj judges
    refine (Program.andThen_assoc (judge s i).run _ _).trans (congrArg _ (funext fun a => ?_))
    cases a <;> rfl
  | plagiarism | buildGraph => cases judges

end Pass

section Graph

variable {start : Store} {id : Int64} {t : Tally} {graph? : Option Dependence.Graph}

/-- The request leaves the graph of every submission as it is. -/
def KeepsGraph : Store.Request → Prop
  | .reset _ | .saveGraph .. => False
  | _ => True

/-- The record is there and shows this graph, or that there is none. -/
def Tally.ShowsGraph (graph? : Option Dependence.Graph) (t : Tally) : Prop :=
  ∃ r, t.record = some r ∧ r.graph = graph?

/-- The graph that a pass ends with. -/
def graphOf? (language : Language) (code : String) : Option Dependence.Graph :=
  if language.isPython then (Dependence.Graph.ofSource code).toOption else none

namespace Tally.ShowsGraph

theorem after (shown : t.ShowsGraph graph?) (id : Int64) {q : Store.Request} (keeps : KeepsGraph q) :
    (t.after id q).ShowsGraph graph? := by
  obtain ⟨r, there, rfl⟩ := shown
  refine ⟨q.edit id r, by rw [Tally.after, there]; rfl, ?_⟩
  cases q <;> simp only [Store.Request.edit] <;> first | exact keeps.elim | (split <;> rfl)

theorem after_saveGraph (shown : t.ShowsGraph graph?) (graph : Dependence.Graph) :
    (t.after id (.saveGraph id graph)).ShowsGraph (some graph) := by
  obtain ⟨r, there, -⟩ := shown
  refine ⟨_, by rw [Tally.after, there]; rfl, ?_⟩
  simp only [Store.Request.edit, if_true]

theorem change (shown : t.ShowsGraph graph?) {store : Store} (shows : Shows start id t.record store)
    (change : Submission → Submission) : (store.changeSubmission id change).1 = .ok () := by
  obtain ⟨r, there, -⟩ := shown
  rw [there] at shows
  exact shows.change change

end Tally.ShowsGraph

variable (s : SandboxSettings)

theorem wp_graph_finish (shown : t.ShowsGraph none) {submission : Submission} (same : submission.id = id)
    (language : Language) (o : JudgeOutcome) {Q : Except Fault Status → Tally → Prop}
    (h : ∀ status t, t.ShowsGraph (graphOf? language submission.code) → Q (.ok status) t) :
    (finish submission language o).run.wp (Tally.effect start id) Q t := by
  subst same
  have committed := shown.after submission.id (q := .commit submission.id o) trivial
  refine (Program.wp_run_bind _ _ _ _).2
    (wp_tally_step (.commit submission.id o) rfl (fun _ shows => shown.change shows _) ?_)
  unfold graphOf? at h
  show Program.wp _ (ExceptT.run (if language.isPython = true then _ else _)) _ _
  split
  · rename_i python
    rw [if_pos python] at h
    refine (Program.wp_run_bind _ _ _ _).2 ((Program.wp_run_lift _ _ _).2 ?_)
    unfold attachGraph
    cases read : Dependence.Graph.ofSource submission.code with
    | error fault =>
      rw [read] at h
      exact h _ _ committed
    | ok graph =>
      rw [read] at h
      exact ⟨rfl, fun _ _ => h _ _ (committed.after_saveGraph graph)⟩
  · rename_i other
    rw [if_neg other] at h
    exact h _ _ committed

theorem wp_graph_compileStep (shown : t.ShowsGraph none) (language : Language) (limits : Limits)
    {Q : Except Fault CompileOutcome → Tally → Prop}
    (h : ∀ o t, t.ShowsGraph none → Q (.ok o) t) :
    (compileStep s id language limits).run.wp (Tally.effect start id) Q t := by
  unfold compileStep
  split
  · exact h _ _ shown
  · have marked := shown.after id (q := .setStatus id .compiling) trivial
    refine (Program.wp_run_bind _ _ _ _).2
      (wp_tally_step (.setStatus id .compiling) rfl (fun _ shows => shown.change shows _) ?_)
    refine (Program.wp_run_lift _ _ _).2 ?_
    exact wp_compile (Tally.free_effect start id) s language .work _ fun o _ => h o _ marked

theorem wp_graph_casesStep (shown : t.ShowsGraph none) {submission : Submission}
    (same : submission.id = id) (problem : Problem) (language : Language) (limits : Limits)
    (judge : Option SpecialJudge) {Q : Except Fault Status → Tally → Prop}
    (h : ∀ status t, t.ShowsGraph (graphOf? language submission.code) → Q (.ok status) t) :
    (casesStep s submission problem language limits judge).run.wp (Tally.effect start id) Q t := by
  subst same
  have marked := shown.after submission.id (q := .setStatus submission.id .judging) trivial
  refine (Program.wp_run_bind _ _ _ _).2
    (wp_tally_step (.setStatus submission.id .judging) rfl (fun _ shows => shown.change shows _) ?_)
  refine (Program.wp_run_bind _ _ _ _).2 ((Program.wp_run_lift _ _ _).2 ?_)
  refine wp_runCases (Tally.free_effect start _) s problem language limits judge fun results _ => ?_
  refine (Program.wp_run_bind _ _ _ _).2 (wp_graph_finish marked rfl language _ fun status t ended => ?_)
  show Program.wp _ (ExceptT.run (if _ then _ else _)) _ _
  split
  · refine (Program.wp_run_bind _ _ _ _).2 ((wp_step _ _ _).2 ⟨trivial, fun _ _ => ?_⟩)
    exact h _ _ (ended.after _ trivial)
  · exact h _ _ ended

theorem wp_graph_pursue (shown : t.ShowsGraph none) {submission : Submission} (same : submission.id = id)
    {Q : Except Fault Status → Tally → Prop}
    (finished : ∀ language status t, start.languages.get? submission.languageId = some language →
      t.ShowsGraph (graphOf? language submission.code) → Q (.ok status) t)
    (stopped : ∀ fault t, Q (.error fault) t) :
    (pursue s id submission).run.wp (Tally.effect start id) Q t := by
  have shown := shown.after id (q := .problem submission.problemId) trivial
  refine (Program.wp_run_bind _ _ _ _).2 ((wp_find _ _ _).2 ⟨trivial, fun store _ => ?_⟩)
  have replied : (Store.reply (.problem submission.problemId) store).1 =
      .ok (store.problems.get? submission.problemId) := rfl
  rw [replied]
  cases store.problems.get? submission.problemId with
  | none => exact stopped _ _
  | some problem =>
    have shown := shown.after id (q := .language submission.languageId) trivial
    refine (Program.wp_run_bind _ _ _ _).2 ((wp_find _ _ _).2 ⟨trivial, fun store shows => ?_⟩)
    have replied : (Store.reply (.language submission.languageId) store).1 =
        .ok (start.languages.get? submission.languageId) :=
      congrArg (fun t => Except.ok (Table.get? t submission.languageId)) shows.languages
    rw [replied]
    cases known : start.languages.get? submission.languageId with
    | none => exact stopped _ _
    | some language =>
      have finished := fun status t => finished language status t known
      refine (Program.wp_run_bind _ _ _ _).2 ((wp_step _ _ _).2 fun made => ?_)
      cases made with
      | error fault => exact stopped _ _
      | ok _ =>
        refine (Program.wp_run_bind _ _ _ _).2 ((wp_step _ _ _).2 fun written => ?_)
        cases written with
        | error fault => exact stopped _ _
        | ok _ =>
          refine (Program.wp_run_bind _ _ _ _).2 ?_
          refine wp_graph_compileStep s shown language _ fun ending t shown => ?_
          cases ending with
          | failed verdict message => exact wp_graph_finish shown same language _ finished
          | compiled =>
            refine (Program.wp_run_bind _ _ _ _).2 ((Program.wp_run_lift _ _ _).2 ?_)
            refine wp_judgeStep (Tally.free_effect start id) s problem fun prepared => ?_
            cases prepared with
            | error fault => exact wp_graph_finish shown same language _ finished
            | ok judge => exact wp_graph_casesStep s shown same problem language _ judge finished

theorem wp_graph_attempt {submission : Submission} (same : submission.id = id)
    (here : t.record = some submission) {Q : Except Fault Status → Tally → Prop}
    (finished : ∀ language status t, start.languages.get? submission.languageId = some language →
      t.ShowsGraph (graphOf? language submission.code) → Q (.ok status) t)
    (stopped : ∀ fault t, Q (.error fault) t) :
    (attempt s id).run.wp (Tally.effect start id) Q t := by
  obtain ⟨record, counted⟩ := t
  subst here
  refine (Program.wp_run_bind _ _ _ _).2 ((wp_find _ _ _).2 ⟨rfl, fun store shows => ?_⟩)
  have replied : (Store.reply (.submission id) store).1 = .ok (some submission) :=
    congrArg Except.ok shows.record
  rw [replied]
  refine (Program.wp_run_bind _ _ _ _).2
    (wp_tally_step (.reset id) rfl (fun _ shows => shows.change _) ?_)
  refine wp_graph_pursue s ⟨_, rfl, ?_⟩ same finished stopped
  simp only [Store.Request.edit, if_true, Submission.reset]

end Graph

section Afresh

variable {σ : Type} (s : SandboxSettings) {x y : Store} {id : Int64}

/-- A pass that is finished leaves the graph of the code that it has read. -/
theorem exists_graph (keyed : x.Keyed) (outside : Outside σ) (t : σ) {r : Submission} {status : Status}
    (found : x.submissions.get? id = some r)
    (finished : ((attempt s id).run.run (alone outside) (x, t)).1 = .ok status) :
    ∃ language last, x.languages.get? r.languageId = some language ∧
      ((judge s id).run.run (alone outside) (x, t)).2.1.submissions.get? id = some last ∧
      last.graph = graphOf? language r.code := by
  let shown (result : Except Fault Status) (t : Tally) : Prop := ∀ status, result = .ok status →
    ∃ language, x.languages.get? r.languageId = some language ∧ t.ShowsGraph (graphOf? language r.code)
  have fair : (attempt s id).run.wp (Tally.effect x id) shown ⟨some r, []⟩ :=
    wp_graph_attempt s (keyed id r found) rfl
      (fun language _ _ known graph _ _ => ⟨language, known, graph⟩) (fun _ _ _ none => nomatch none)
  obtain ⟨tally, ended, shows⟩ := exists_tally outside t fair ⟨found, rfl, rfl⟩
  obtain ⟨language, known, last, there, graph⟩ := ended status finished
  have concluded : (judge s id).run.run (alone outside) (x, t) =
      (.ok status, ((attempt s id).run.run (alone outside) (x, t)).2) := by
    unfold judge
    rw [Program.run_run_bind_ok _ (Work.run_ending outside _ _), finished]
    rfl
  refine ⟨language, last, known, ?_, graph⟩
  rw [concluded]
  exact shows.record.trans there

/-- To judge a submission again is to judge it from scratch: on stores that differ in what an earlier
pass has left on the record, a pass asks the same of its sandboxes, comes to the same status and leaves
the same record, in which the graph is that of the code where the language asks for one. -/
theorem judge_afresh (keyed : x.Keyed) (same : x.SameEntry id y) (outside : Outside σ) (t : σ) :
    Alike outside id (judge s id).run (judge s id).run x y t ∧
    (∀ job job' : Job, job.judges? = some id → job'.judges? = some id →
      Alike outside id (job.work s).run (job'.work s).run x y t) ∧
    (∀ r status, x.submissions.get? id = some r →
      ((attempt s id).run.run (alone outside) (x, t)).1 = .ok status →
      ∃ language last, x.languages.get? r.languageId = some language ∧
        ((judge s id).run.run (alone outside) (x, t)).2.1.submissions.get? id = some last ∧
        last.graph =
          if language.isPython then (Dependence.Graph.ofSource r.code).toOption else none) := by
  refine ⟨?_, fun job job' judges judges' => ?_, fun r status found finished => ?_⟩
  · have alike := alike_judge s keyed same outside t fun a => a
    rwa [bind_pure] at alike
  · rw [run_work_eq s judges, run_work_eq s judges']
    exact alike_judge s keyed same outside t endOf
  · exact exists_graph s keyed outside t found finished

/-- A store with one submission in a language that graphs are made for. -/
def lone (r : Submission) : Store :=
  ((Store.empty.insertProblem ⟨1, none, none, [⟨"", ""⟩], .standard, none, none⟩).insertLanguage
    ⟨1, "python", ".py", none, none, "", "", 0, 0⟩).insertSubmission r

theorem keyed_lone (r : Submission) : (lone r).Keyed :=
  Store.keyed_empty.insertSubmission r

/-- A submission that was judged before, with the graph of other code, and the same one as it came. -/
theorem judge_afresh_lone :
    let fresh : Submission := .fresh 1 "" 1 1 7
    let old : Submission :=
      { fresh with
        status := .error, timeMs := 3, score := 10, results := [.stamped 1 .compileError "no"]
        errorMessage := some "no", graph := some ⟨[], []⟩ }
    Alike Rehearsal.reply 1 ((Job.rejudge 1).work {}).run ((Job.judge 1).work {}).run (lone old)
      (lone fresh) {} ∧
    ∃ last, ((judge {} 1).run.run (alone Rehearsal.reply) (lone old, {})).2.1.submissions.get? 1 =
        some last ∧ last.graph = (Dependence.Graph.ofSource "").toOption := by
  intro fresh old
  have same : (lone old).SameEntry 1 (lone fresh) :=
    ⟨.some ⟨rfl, rfl, rfl, rfl, rfl⟩, rfl, rfl⟩
  obtain ⟨-, jobs, graph⟩ := judge_afresh {} (keyed_lone old) same Rehearsal.reply {}
  obtain ⟨language, last, known, there, shown⟩ := graph old .success rfl (by decide +kernel)
  obtain rfl := Option.some.inj known
  exact ⟨jobs _ _ rfl rfl, last, there, shown⟩

end Afresh

end Judging

end Arbiter
