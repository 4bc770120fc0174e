import Arbiter.Proofs.Judging.Turn
import Arbiter.Proofs.Store.Frame

/-! What a pass over one submission changes in a store on which others work too. Main statement: it asks
for the record of its own submission only, and its user is counted once if that record is accepted in
the end, and not at all if it is not. -/

namespace Arbiter

namespace Store.Request

/-- The request is one that a pass over the submission may put: it touches no record of another one. -/
def OwnedBy (id : Int64) : Request → Prop
  | submission i | setStatus i _ | commit i _ | reset i | saveGraph i _ => i = id
  | problem _ | language _ | addResolved _ => True
  | submissionsOf .. | task _ | completeTask .. => False

/-- The user whose count the request raises. -/
def counts? : Request → Option Int64
  | addResolved user => some user
  | _ => none

@[simp] theorem userId_edit (q : Request) (id : Int64) (r : Submission) :
    (q.edit id r).userId = r.userId := by
  cases q <;> simp only [edit] <;> split <;> rfl

end Store.Request

/-- Judging ran all test cases, and the worst verdict accepts. -/
def JudgeOutcome.accepts (o : JudgeOutcome) : Bool := o.status = .success && o.worst = .accepted

namespace Judging

/-- What a pass has changed: the record of its submission, if there is one, and the counts of users
that it has raised. -/
structure Tally where
  record : Option Submission
  counted : List Int64

/-- The store shows this record of the submission, and the problems and languages that there were at the
start. -/
structure Shows (start : Store) (id : Int64) (record : Option Submission) (s : Store) : Prop where
  record : s.submissions.get? id = record
  problems : s.problems = start.problems
  languages : s.languages = start.languages

namespace Tally

variable {start : Store} {id user : Int64} {t : Tally}

/-- The tally after a request of the pass. -/
def after (t : Tally) (id : Int64) (q : Store.Request) : Tally :=
  ⟨t.record.map (q.edit id), t.counted ++ q.counts?.toList⟩

/-- What a pass may ask of a store that shows its record, whatever else there is in it. All other
requests may get any reply. -/
def effect (start : Store) (id : Int64) : Program.Effect Work.Request Work.Request.Reply Tally
  | .store q, t, K => q.OwnedBy id ∧
    ∀ s, Shows start id t.record s → K (Store.reply q s).1 (t.after id q)
  | .openWorkspace _, t, K | .makeJudgeFolder, t, K | .write .., t, K => ∀ reply, K reply t
  | .holds .., t, K | .joined _, t, K => ∀ reply, K reply t
  | .launch _, t, K => ∀ reply, K reply t
  | .wait .., t, K => ∀ reply, K reply t
  | .remove _, t, K => ∀ reply, K reply t
  | .moments, t, K => ∀ reply, K reply t

theorem free_effect (start : Store) (id : Int64) : Work.Free (effect start id) := by
  intro q free t K h
  cases q with
  | store q =>
    cases q with
    | language i =>
      have same : t.after id (.language i) = t := by
        obtain ⟨_ | r, counted⟩ := t
        · exact congrArg (Tally.mk none) (List.append_nil counted)
        · exact congrArg (Tally.mk (some r)) (List.append_nil counted)
      refine ⟨trivial, fun s _ => ?_⟩
      rw [same]
      exact h _
    | _ => exact free.elim
  | _ => exact h

/-- The user is counted once if the record is accepted, and not at all if it is not. -/
def Fair (t : Tally) : Prop :=
  t.counted = (t.record.filter (·.outcome.accepts)).toList.map (·.userId)

/-- The pass is under way: the record is there, and nobody is counted yet. -/
def Open (id user : Int64) (t : Tally) : Prop :=
  ∃ r, t = ⟨some r, []⟩ ∧ r.id = id ∧ r.userId = user

/-- The record shows an outcome, and nobody is counted yet. -/
def Judged (user : Int64) (o : JudgeOutcome) (t : Tally) : Prop :=
  ∃ r, t = ⟨some r, []⟩ ∧ r.userId = user ∧ r.outcome = o

theorem Open.after (opened : t.Open id user) {q : Store.Request} (uncounted : q.counts? = none) :
    (t.after id q).Open id user := by
  obtain ⟨r, rfl, sameId, sameUser⟩ := opened
  refine ⟨q.edit id r, ?_, ?_, ?_⟩
  · rw [Tally.after, uncounted]
    rfl
  · rw [Store.Request.id_edit, sameId]
  · rw [Store.Request.userId_edit, sameUser]

theorem Open.commit (opened : t.Open id user) (o : JudgeOutcome) :
    (t.after id (.commit id o)).Judged user o := by
  obtain ⟨r, rfl, -, sameUser⟩ := opened
  refine ⟨r.judged o, ?_, sameUser, rfl⟩
  simp [Tally.after, Store.Request.edit, Store.Request.counts?]

theorem Judged.saveGraph {o : JudgeOutcome} (judged : t.Judged user o) (graph : Dependence.Graph) :
    (t.after id (.saveGraph id graph)).Judged user o := by
  obtain ⟨r, rfl, sameUser, outcome⟩ := judged
  refine ⟨{ r with graph := some graph }, ?_, sameUser, outcome⟩
  simp [Tally.after, Store.Request.edit, Store.Request.counts?]

theorem Judged.fair {o : JudgeOutcome} (judged : t.Judged user o) (refused : o.accepts = false) :
    t.Fair := by
  obtain ⟨r, rfl, -, rfl⟩ := judged
  simp [Fair, refused]

theorem Judged.fair_counted {o : JudgeOutcome} (judged : t.Judged user o)
    (accepted : o.accepts = true) : (t.after id (.addResolved user)).Fair := by
  obtain ⟨r, rfl, rfl, rfl⟩ := judged
  simp [Fair, Tally.after, Store.Request.edit, Store.Request.counts?, Option.filter, accepted]

end Tally

theorem Shows.change {start : Store} {id : Int64} {r : Submission} {s : Store}
    (shows : Shows start id (some r) s) (change : Submission → Submission) :
    (s.changeSubmission id change).1 = .ok () := by
  rw [Store.changeSubmission_fst, shows.record]
  rfl

section Pass

variable {start : Store} {id user : Int64} (s : SandboxSettings) {t : Tally}

/-- The submission of the pass is there, so changes of it are stored. -/
theorem Tally.Open.change (opened : t.Open id user) {store : Store}
    (shows : Shows start id t.record store) (change : Submission → Submission) :
    (store.changeSubmission id change).1 = .ok () := by
  obtain ⟨r, rfl, -, -⟩ := opened
  exact shows.change change

/-- A step goes on with the answer that every store gives which shows the record. -/
theorem wp_tally_step {fault : Store.Fault → Fault} (q : Store.Request) (own : q.OwnedBy id)
    {answer : q.Answer}
    (replied : ∀ store, Shows start id t.record store → (Store.reply q store).1 = .ok answer)
    {Q : Except Fault q.Answer → Tally → Prop} (h : Q (.ok answer) (t.after id q)) :
    (step fault (Work.store q)).run.wp (Tally.effect start id) Q t := by
  refine (wp_step _ _ _).2 ⟨own, fun store shows => ?_⟩
  rw [replied store shows]
  exact h

theorem accepts_failed (count : Nat) (verdict : Verdict) (message : String) :
    (JudgeOutcome.failed count verdict message).accepts = false := rfl

theorem accepts_ofResults (results : List TestCaseResult) :
    (JudgeOutcome.ofResults results).accepts =
      decide ((JudgeOutcome.ofResults results).worst = .accepted) := by
  have status : (JudgeOutcome.ofResults results).status =
      .ofCategory (JudgeOutcome.ofResults results).worst := rfl
  rw [JudgeOutcome.accepts, status]
  cases (JudgeOutcome.ofResults results).worst <;> rfl

theorem wp_tally_finish (opened : t.Open id user) {submission : Submission} (same : submission.id = id)
    (language : Language) {o : JudgeOutcome} {Q : Except Fault Status → Tally → Prop}
    (h : ∀ status t, t.Judged user o → Q (.ok status) t) :
    (finish submission language o).run.wp (Tally.effect start id) Q t := by
  subst same
  have judged := opened.commit o
  refine (Program.wp_run_bind _ _ _ _).2
    (wp_tally_step (.commit submission.id o) rfl (fun _ shows => opened.change shows _) ?_)
  show Program.wp _ (ExceptT.run (if language.isPython = true then _ else _)) _ _
  split
  · refine (Program.wp_run_bind _ _ _ _).2 ((Program.wp_run_lift _ _ _).2 ?_)
    unfold attachGraph
    split
    · exact h _ _ judged
    · exact ⟨rfl, fun _ _ => h _ _ (judged.saveGraph _)⟩
  · exact h _ _ judged

theorem wp_tally_compileStep (opened : t.Open id user) (language : Language) (limits : Limits)
    {Q : Except Fault CompileOutcome → Tally → Prop}
    (h : ∀ o t, t.Open id user → Q (.ok o) t) :
    (compileStep s id language limits).run.wp (Tally.effect start id) Q t := by
  unfold compileStep
  split
  · exact h _ _ opened
  · have marked := opened.after (q := .setStatus id .compiling) rfl
    refine (Program.wp_run_bind _ _ _ _).2
      (wp_tally_step (.setStatus id .compiling) rfl (fun _ shows => opened.change shows _) ?_)
    refine (Program.wp_run_lift _ _ _).2 ?_
    exact wp_compile (Tally.free_effect start id) s language .work _ fun o _ => h o _ marked

theorem wp_tally_casesStep (opened : t.Open id user) {submission : Submission}
    (same : submission.id = id) (sameUser : submission.userId = user) (problem : Problem)
    (language : Language) (limits : Limits) (judge : Option SpecialJudge)
    {Q : Except Fault Status → Tally → Prop} (h : ∀ status t, t.Fair → Q (.ok status) t) :
    (casesStep s submission problem language limits judge).run.wp (Tally.effect start id) Q t := by
  subst same
  have marked := opened.after (q := .setStatus submission.id .judging) rfl
  refine (Program.wp_run_bind _ _ _ _).2
    (wp_tally_step (.setStatus submission.id .judging) rfl (fun _ shows => opened.change shows _) ?_)
  refine (Program.wp_run_bind _ _ _ _).2 ((Program.wp_run_lift _ _ _).2 ?_)
  refine wp_runCases (Tally.free_effect start _) s problem language limits judge fun results _ => ?_
  refine (Program.wp_run_bind _ _ _ _).2 (wp_tally_finish marked rfl language fun status t judged => ?_)
  show Program.wp _ (ExceptT.run (if _ then _ else _)) _ _
  split
  · rename_i accepted
    refine (Program.wp_run_bind _ _ _ _).2 ((wp_step _ _ _).2 ⟨trivial, fun _ _ => ?_⟩)
    subst sameUser
    refine h _ _ (judged.fair_counted ?_)
    rw [accepts_ofResults]
    exact decide_eq_true accepted
  · rename_i refused
    refine h _ _ (judged.fair ?_)
    rw [accepts_ofResults]
    exact decide_eq_false refused

theorem wp_tally_attempt (opened : t.Open id user) {Q : Except Fault Status → Tally → Prop}
    (finished : ∀ status t, t.Fair → Q (.ok status) t)
    (stopped : ∀ fault t, t.Open id user → Q (.error fault) t) :
    (attempt s id).run.wp (Tally.effect start id) Q t := by
  have read := opened.after (q := .submission id) rfl
  refine (Program.wp_run_bind _ _ _ _).2 ((wp_find _ _ _).2 ⟨rfl, fun store shows => ?_⟩)
  obtain ⟨submission, rfl, same, sameUser⟩ := opened
  have replied : (Store.reply (.submission id) store).1 = .ok (some submission) :=
    congrArg Except.ok shows.record
  rw [replied]
  refine (Program.wp_run_bind _ _ _ _).2
    (wp_tally_step (.reset id) rfl (fun _ shows => read.change shows _) ?_)
  have opened := read.after (q := .reset id) rfl
  refine (Program.wp_run_bind _ _ _ _).2 ((wp_find _ _ _).2 ⟨trivial, fun store _ => ?_⟩)
  have replied : (Store.reply (.problem submission.problemId) store).1 =
      .ok (store.problems.get? submission.problemId) := rfl
  rw [replied]
  have opened := opened.after (q := .problem submission.problemId) rfl
  cases store.problems.get? submission.problemId with
  | none => exact stopped _ _ opened
  | some problem =>
    refine (Program.wp_run_bind _ _ _ _).2 ((wp_find _ _ _).2 ⟨trivial, fun store _ => ?_⟩)
    have replied : (Store.reply (.language submission.languageId) store).1 =
        .ok (store.languages.get? submission.languageId) := rfl
    rw [replied]
    have opened := opened.after (q := .language submission.languageId) rfl
    cases store.languages.get? submission.languageId with
    | none => exact stopped _ _ opened
    | some language =>
      refine (Program.wp_run_bind _ _ _ _).2 ((wp_step _ _ _).2 fun made => ?_)
      cases made with
      | error fault => exact stopped _ _ opened
      | ok _ =>
        refine (Program.wp_run_bind _ _ _ _).2 ((wp_step _ _ _).2 fun written => ?_)
        cases written with
        | error fault => exact stopped _ _ opened
        | ok _ =>
          refine (Program.wp_run_bind _ _ _ _).2 ?_
          refine wp_tally_compileStep s opened language _ fun ending t opened => ?_
          cases ending with
          | failed verdict message =>
            refine wp_tally_finish opened same language fun status t judged => finished _ _ ?_
            exact judged.fair (accepts_failed _ _ _)
          | compiled =>
            refine (Program.wp_run_bind _ _ _ _).2 ((Program.wp_run_lift _ _ _).2 ?_)
            refine wp_judgeStep (Tally.free_effect start id) s problem fun prepared => ?_
            cases prepared with
            | error fault =>
              refine wp_tally_finish opened same language fun status t judged => finished _ _ ?_
              exact judged.fair (accepts_failed _ _ _)
            | ok judge =>
              exact wp_tally_casesStep s opened same sameUser problem language _ judge finished

theorem wp_tally_caseCount (opened : t.Open id user) {Q : Nat → Tally → Prop}
    (h : ∀ count t, t.Open id user → Q count t) :
    (caseCount id).wp (Tally.effect start id) Q t := by
  refine (Program.wp_bind _ _ _ _).2 ⟨rfl, fun store shows => ?_⟩
  have opened' := opened.after (q := .submission id) rfl
  obtain ⟨submission, rfl, same, sameUser⟩ := opened
  have replied : (Store.reply (.submission id) store).1 = .ok (some submission) :=
    congrArg Except.ok shows.record
  rw [replied]
  refine (Program.wp_bind _ _ _ _).2 ⟨trivial, fun store _ => ?_⟩
  have replied : (Store.reply (.problem submission.problemId) store).1 =
      .ok (store.problems.get? submission.problemId) := rfl
  rw [replied]
  have opened := opened'.after (q := .problem submission.problemId) rfl
  cases store.problems.get? submission.problemId <;> exact h _ _ opened

theorem wp_tally_judge (opened : t.Open id user) :
    (judge s id).run.wp (Tally.effect start id) (fun _ t => t.Fair) t := by
  refine (Program.wp_run_bind _ _ _ _).2 ((Program.wp_run_lift _ _ _).2 ?_)
  refine wp_tally_attempt s opened (fun status t fair => fair) fun fault t opened => ?_
  refine (Program.wp_run_bind _ _ _ _).2 ((Program.wp_run_lift _ _ _).2 ?_)
  refine wp_tally_caseCount opened fun count t opened => ?_
  refine (Program.wp_run_bind _ _ _ _).2
    (wp_tally_step (.commit id _) rfl (fun _ shows => opened.change shows _) ?_)
  exact (opened.commit _).fair (accepts_failed _ _ _)

theorem wp_tally_attempt_missing {Q : Except Fault Status → Tally → Prop}
    (h : ∀ fault, Q (.error fault) ⟨none, []⟩) :
    (attempt s id).run.wp (Tally.effect start id) Q ⟨none, []⟩ := by
  refine (Program.wp_run_bind _ _ _ _).2 ((wp_find _ _ _).2 ⟨rfl, fun store shows => ?_⟩)
  have absent : (Store.reply (.submission id) store).1 = .ok none :=
    congrArg Except.ok shows.record
  rw [absent]
  exact h _

/-- A pass over a submission that is not there changes nothing. -/
theorem wp_tally_judge_missing :
    (judge s id).run.wp (Tally.effect start id) (fun _ t => t.Fair) ⟨none, []⟩ := by
  refine (Program.wp_run_bind _ _ _ _).2 ((Program.wp_run_lift _ _ _).2 ?_)
  refine wp_tally_attempt_missing s fun fault => ?_
  refine (Program.wp_run_bind _ _ _ _).2 ((Program.wp_run_lift _ _ _).2 ?_)
  refine (Program.wp_bind _ _ _ _).2 ⟨rfl, fun store shows => ?_⟩
  have absent : (Store.reply (.submission id) store).1 = .ok none :=
    congrArg Except.ok shows.record
  rw [absent]
  refine (Program.wp_run_bind _ _ _ _).2 ((wp_step _ _ _).2 ⟨rfl, fun store shows => ?_⟩)
  have none_there : store.submissions.get? id = none := shows.record
  have refused (o : JudgeOutcome) :
      (Store.reply (.commit id o) store).1 = .error (.noSubmission id) := by
    show (store.changeSubmission id _).1 = _
    rw [Store.changeSubmission_fst, none_there]
    rfl
  rw [refused]
  rfl

/-- A pass on the record as it is at the start, whether there is one or not. -/
theorem Tally.fair_judge (keyed : start.Keyed) :
    (judge s id).run.wp (Tally.effect start id) (fun _ t => t.Fair) ⟨start.submissions.get? id, []⟩ := by
  cases found : start.submissions.get? id with
  | none => exact wp_tally_judge_missing s
  | some r => exact wp_tally_judge s ⟨r, rfl, keyed id r found, rfl⟩

theorem Tally.fair_work {job : Job} (judges : job.judges? = some id) (keyed : start.Keyed) :
    (job.work s).run.wp (Tally.effect start id) (fun _ t => t.Fair)
      ⟨start.submissions.get? id, []⟩ :=
  Job.wp_work s judges (Tally.fair_judge s keyed)

end Pass

end Judging

end Arbiter
