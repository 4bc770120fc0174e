import Arbiter.Proofs.Judging.Outcome
import Arbiter.Proofs.Work.History

/-! The stages of a judging pass, and its parts that ask nothing of the store but languages and leave any
state that is followed along the pass as it is. Main statement: whatever its sandboxes do, a pass first
clears the record of its submission, then marks how far judging has come, then stores one full outcome, and
changes nothing of it after that. -/

namespace Arbiter

namespace Work

/-- The request leaves the records of all submissions, problems and tasks alone. -/
def Request.IsFree : Request → Prop
  | .store (.language _) => True
  | .store _ => False
  | _ => True

/-- Free requests may get any reply, and change no state. -/
def Free {σ : Type} (effect : Program.Effect Request Request.Reply σ) : Prop :=
  ∀ q : Request, q.IsFree → ∀ s (K : q.Reply → σ → Prop), (∀ r, K r s) → effect q s K

end Work

namespace Judging

theorem index_runs (problem : Problem) (language : Language) (limits : Limits)
    (judge : Option SpecialJudge) :
    (runs problem language limits judge).map (·.index) =
      List.range' 1 problem.testcases.length := by
  simp [runs, Function.comp_def]

variable {σ : Type} {effect : Program.Effect Work.Request Work.Request.Reply σ} {stage : σ}
  (free : Work.Free effect) (s : SandboxSettings)

include free

theorem wp_execute (spec : Sandbox.Spec) {Q : Except Sandbox.Fault Sandbox.Output → σ → Prop}
    (h : ∀ r, Q r stage) : (Work.execute spec).wp effect Q stage := by
  refine free (.launch spec) trivial _ _ fun reply => ?_
  cases reply with
  | error fault => exact h _
  | ok sandbox =>
    refine free (.wait sandbox _) trivial _ _ fun ending => ?_
    exact free (.remove sandbox) trivial _ _ fun _ => h ending

theorem wp_compile (language : Language) (folder : Sandbox.Folder) (memoryLimitMb : UInt32)
    {Q : CompileOutcome → σ → Prop}
    (h : ∀ o, (∀ v m, o = .failed v m → v = .compileError ∨ v = .unknown) → Q o stage) :
    (compile s language folder memoryLimitMb).wp effect Q stage := by
  have compiled : Q .compiled stage := h _ (by simp)
  have failed : ∀ m, Q (.failed .compileError m) stage := fun m => h _ (by simp)
  have unknown : ∀ m, Q (.failed .unknown m) stage := fun m => h _ (by simp)
  unfold compile
  cases language.compileCommand with
  | none => exact compiled
  | some command =>
    refine (Program.wp_bind _ _ _ _).2 (wp_execute free _ fun r => ?_)
    match r with
    | .error (.timeout _) => exact failed _
    | .error (.launch _) | .error (.runtime _) | .error (.io _) => exact unknown _
    | .ok output =>
      dsimp only
      split
      · exact failed _
      · cases language.compileArtifact with
        | none => exact compiled
        | some artifact =>
          refine free (.holds folder artifact) trivial _ _ fun held => ?_
          cases held
          · exact failed _
          · exact compiled

theorem wp_writeAll (files : List (String × String))
    {Q : Except Workspace.Fault Unit → σ → Prop} (h : ∀ r, Q r stage) :
    (SpecialJudge.writeAll files).wp effect Q stage := by
  induction files with
  | nil => exact h _
  | cons file rest ih =>
    refine free (.write .judge file.1 file.2) trivial _ _ fun reply => ?_
    cases reply with
    | error fault => exact h _
    | ok _ => exact ih

theorem wp_check (j : SpecialJudge) (index : Nat) (case : TestCase) (output : String)
    {Q : SpecialJudge.Ruling → σ → Prop} (h : ∀ r, Q r stage) :
    (j.check s index case output).wp effect Q stage := by
  unfold SpecialJudge.check
  refine (Program.wp_bind _ _ _ _).2 (wp_writeAll free _ fun written => ?_)
  cases written with
  | error fault => exact h _
  | ok _ =>
    refine (Program.wp_bind _ _ _ _).2 (wp_execute free _ fun r => ?_)
    cases r with
    | error fault => exact h _
    | ok output => exact h _

theorem wp_resultOf (run : Run) (output : Sandbox.Output) {Q : TestCaseResult → σ → Prop}
    (h : ∀ r : TestCaseResult, r.index = run.index → Q r stage) :
    (resultOf s run output).wp effect Q stage := by
  unfold resultOf
  dsimp only
  split
  · exact h _ rfl
  · split
    · refine (Program.wp_bind _ _ _ _).2 (wp_check free s _ _ _ _ fun ruling => ?_)
      exact h _ rfl
    · exact h _ rfl
    · split <;> exact h _ rfl

theorem wp_runCase (run : Run) {Q : TestCaseResult → σ → Prop}
    (h : ∀ r : TestCaseResult, r.index = run.index → Q r stage) :
    (runCase s run).wp effect Q stage := by
  refine (Program.wp_bind _ _ _ _).2 (free (.write ..) trivial _ _ fun written => ?_)
  cases written with
  | error fault => exact h _ rfl
  | ok _ =>
    refine (Program.wp_bind _ _ _ _).2 (wp_execute free _ fun r => ?_)
    match r with
    | .ok output => exact wp_resultOf free s run output h
    | .error (.timeout _) => exact h _ rfl
    | .error (.launch _) | .error (.runtime _) | .error (.io _) => exact h _ rfl

/-- The tasks give results of some of the runs, in their order. -/
theorem wp_runTasks (runs : List Run) {Q : List (Option TestCaseResult) → σ → Prop}
    (h : ∀ found : List (Option TestCaseResult),
      ((found.filterMap id).map (·.index)).Sublist (runs.map (·.index)) → Q found stage) :
    (runs.mapM (runTask s)).wp effect Q stage := by
  induction runs generalizing Q with
  | nil => exact h [] (List.Sublist.refl _)
  | cons run rest ih =>
    rw [List.mapM_cons, Program.wp_bind, runTask, Program.wp_bind]
    refine wp_runCase free s run fun result index => ?_
    refine (Program.wp_bind _ _ _ _).2 (free (.joined _) trivial _ _ fun joined => ?_)
    refine (Program.wp_bind _ _ _ _).2 (ih fun found sub => h _ ?_)
    cases joined with
    | false => exact sub.cons _
    | true =>
      rw [List.map_cons, ← index]
      exact sub.cons_cons _

theorem wp_runCases (problem : Problem) (language : Language) (limits : Limits)
    (judge : Option SpecialJudge) {Q : List TestCaseResult → σ → Prop}
    (h : ∀ results : List TestCaseResult,
      results.map (·.index) = List.range' 1 problem.testcases.length → Q results stage) :
    (runCases s problem language limits judge).wp effect Q stage := by
  unfold runCases
  refine (Program.wp_bind _ _ _ _).2 (wp_runTasks free s _ fun found sub => h _ (indices_settle ?_))
  rwa [index_runs] at sub

theorem wp_prepare (language : Language) (code : String)
    {Q : Except SpecialJudge.Fault SpecialJudge → σ → Prop} (h : ∀ r, Q r stage) :
    (SpecialJudge.prepare s language code).run.wp effect Q stage := by
  refine (Program.wp_run_bind _ _ _ _).2 (free (.write ..) trivial _ _ fun written => ?_)
  cases written with
  | error fault => exact h _
  | ok _ =>
    refine (Program.wp_run_bind _ _ _ _).2 ?_
    refine (Program.wp_bind _ _ _ _).2 (wp_compile free s language .judge _ fun o _ => ?_)
    cases o with
    | compiled => exact h _
    | failed verdict message => exact h _

theorem wp_ofProblem (problem : Problem)
    {Q : Except SpecialJudge.Fault SpecialJudge → σ → Prop} (h : ∀ r, Q r stage) :
    (SpecialJudge.ofProblem s problem).run.wp effect Q stage := by
  unfold SpecialJudge.ofProblem
  cases problem.specialCode with
  | none => exact h _
  | some code =>
    cases problem.specialLanguageId with
    | none => exact h _
    | some id =>
      refine (Program.wp_run_bind _ _ _ _).2 (free (.store (.language id)) trivial _ _ fun reply => ?_)
      match reply with
      | .error fault => exact h _
      | .ok none => exact h _
      | .ok (some language) =>
        refine (Program.wp_run_bind _ _ _ _).2 (free .makeJudgeFolder trivial _ _ fun made => ?_)
        cases made with
        | error fault => exact h _
        | ok _ => exact wp_prepare free s language code h

theorem wp_judgeStep (problem : Problem)
    {Q : Except SpecialJudge.Fault (Option SpecialJudge) → σ → Prop} (h : ∀ r, Q r stage) :
    (judgeStep s problem).wp effect Q stage := by
  unfold judgeStep
  split
  · exact (Program.wp_bind _ _ _ _).2 (wp_ofProblem free s problem fun r => h _)
  · exact h _

end Judging

end Arbiter

/-! Stages. -/

namespace Arbiter.Judging

/-- How far a pass has come, by what it has done to the record of its submission. -/
inductive Stage
  /-- The record is as it was found. -/
  | begun
  /-- The record shows no judgment. -/
  | cleared
  /-- The outcome of the pass is stored. -/
  | settled
deriving DecidableEq

/-- A submission that is judged, and the problem it is for, if there is one. -/
structure Docket where
  id : Int64
  problemId : Int64
  problem : Option Problem

/-- The number of test cases of a submission. -/
def Docket.count (d : Docket) : Nat := d.problem.elim 0 (·.testcases.length)

/-- What a pass over the submission of a docket may ask at each stage, and what comes of it. The
record is there, the store does not fail, and all else may reply as it likes. -/
def Stage.effect (d : Docket) : Program.Effect Work.Request Work.Request.Reply Stage
  | .store (.submission id), s, K =>
    id = d.id ∧ ∀ r : Submission, r.id = d.id → r.problemId = d.problemId → K (.ok (some r)) s
  | .store (.problem id), s, K => id = d.problemId ∧ K (.ok d.problem) s
  | .store (.language _), s, K => ∀ reply, K reply s
  | .store (.reset id), s, K => s = .begun ∧ id = d.id ∧ K (.ok ()) .cleared
  | .store (.setStatus id status), s, K =>
    s = .cleared ∧ id = d.id ∧ (status = .compiling ∨ status = .judging) ∧ K (.ok ()) .cleared
  | .store (.commit id o), s, K =>
    s = .cleared ∧ id = d.id ∧ o.Full d.count ∧ K (.ok ()) .settled
  | .store (.saveGraph ..), s, K => ∀ reply, K reply s
  | .store (.addResolved _), s, K => ∀ count, K (.ok count) s
  | .store (.submissionsOf ..), _, _ | .store (.task _), _, _ | .store (.completeTask ..), _, _ => False
  | .openWorkspace _, s, K | .makeJudgeFolder, s, K | .write .., s, K => ∀ reply, K reply s
  | .holds .., s, K | .joined _, s, K => ∀ reply, K reply s
  | .launch _, s, K => ∀ reply, K reply s
  | .wait .., s, K => ∀ reply, K reply s
  | .remove _, s, K => ∀ reply, K reply s
  | .moments, s, K => ∀ reply, K reply s

theorem Stage.free_effect (d : Docket) : Work.Free (Stage.effect d) := by
  intro q free s K h
  unfold Stage.effect
  split <;> first | exact h | exact free.elim

section Store

/-! What a pass does to the record of its submission. -/

variable {d : Docket} {α ε σ : Type} {effect : Program.Effect Work.Request Work.Request.Reply σ}
  (s : SandboxSettings)

theorem wp_step {stage : σ} (fault : ε → Fault) (w : Work (Except ε α))
    (Q : Except Fault α → σ → Prop) :
    (step fault w).run.wp effect Q stage ↔
      w.wp effect (fun r t =>
        match r with
        | .ok a => Q (.ok a) t
        | .error e => Q (.error (fault e)) t) stage := by
  refine (Program.wp_run_bind _ _ _ _).trans ((Program.wp_run_lift _ _ _).trans (iff_of_eq ?_))
  refine congrArg (fun K => w.wp effect K stage) ?_
  funext r t
  cases r <;> rfl

theorem wp_find {stage : σ} (absent : Fault) (w : Work (Except Store.Fault (Option α)))
    (Q : Except Fault α → σ → Prop) :
    (find absent w).run.wp effect Q stage ↔
      w.wp effect (fun r t =>
        match r with
        | .ok (some a) => Q (.ok a) t
        | .ok none => Q (.error absent) t
        | .error e => Q (.error (.store e)) t) stage := by
  refine (Program.wp_run_bind _ _ _ _).trans ((wp_step _ _ _).trans (iff_of_eq ?_))
  refine congrArg (fun K => w.wp effect K stage) ?_
  funext r t
  match r with
  | .ok (some a) => rfl
  | .ok none => rfl
  | .error e => rfl

theorem wp_attachGraph (submission : Submission) {stage : Stage} {Q : Unit → Stage → Prop}
    (h : Q () stage) : (attachGraph submission).wp (Stage.effect d) Q stage := by
  unfold attachGraph
  split
  · exact h
  · exact fun _ => h

/-- A full outcome is stored, and what comes after it changes nothing. -/
theorem wp_finish {submission : Submission} (same : submission.id = d.id) (language : Language)
    {outcome : JudgeOutcome} (full : outcome.Full d.count) {Q : Except Fault Status → Stage → Prop}
    (h : ∀ status, Q (.ok status) .settled) :
    (finish submission language outcome).run.wp (Stage.effect d) Q .cleared := by
  refine (Program.wp_run_bind _ _ _ _).2 ((wp_step _ _ _).2 ?_)
  refine ⟨rfl, same, full, ?_⟩
  show Program.wp _ (ExceptT.run (if language.isPython = true then _ else _)) _ _
  split
  · refine (Program.wp_run_bind _ _ _ _).2 ((Program.wp_run_lift _ _ _).2 ?_)
    exact wp_attachGraph submission (h _)
  · exact h _

theorem wp_compileStep (language : Language) (limits : Limits)
    {Q : Except Fault CompileOutcome → Stage → Prop}
    (h : ∀ o, (∀ v m, o = .failed v m → v = .compileError ∨ v = .unknown) →
      Q (.ok o) .cleared) :
    (compileStep s d.id language limits).run.wp (Stage.effect d) Q .cleared := by
  unfold compileStep
  split
  · exact h _ (by simp)
  · refine (Program.wp_run_bind _ _ _ _).2 ((wp_step _ _ _).2 ?_)
    refine ⟨rfl, rfl, .inl rfl, ?_⟩
    exact (Program.wp_run_lift _ _ _).2 (wp_compile (Stage.free_effect d) s language .work _ h)

theorem wp_casesStep {submission : Submission} (same : submission.id = d.id) {problem : Problem}
    (found : d.problem = some problem) (language : Language) (limits : Limits)
    (judge : Option SpecialJudge) {Q : Except Fault Status → Stage → Prop}
    (h : ∀ status, Q (.ok status) .settled) :
    (casesStep s submission problem language limits judge).run.wp (Stage.effect d) Q .cleared := by
  refine (Program.wp_run_bind _ _ _ _).2 ((wp_step _ _ _).2 ?_)
  refine ⟨rfl, same, .inr rfl, ?_⟩
  refine (Program.wp_run_bind _ _ _ _).2 ((Program.wp_run_lift _ _ _).2 ?_)
  refine wp_runCases (Stage.free_effect d) s problem language limits judge fun results indices => ?_
  have full : (JudgeOutcome.ofResults results).Full d.count := by
    refine JudgeOutcome.full_ofResults (.of_eq ?_)
    rw [indices, Docket.count, found]
    rfl
  refine (Program.wp_run_bind _ _ _ _).2 (wp_finish same language full fun status => ?_)
  show Program.wp _ (ExceptT.run (if _ then _ else _)) _ _
  split
  · refine (Program.wp_run_bind _ _ _ _).2 ((wp_step _ _ _).2 ?_)
    exact fun count => h _
  · exact h _

/-- A pass that is not finished has cleared the record and stored nothing. -/
theorem wp_attempt {Q : Except Fault Status → Stage → Prop}
    (finished : ∀ status, Q (.ok status) .settled) (stopped : ∀ fault, Q (.error fault) .cleared) :
    (attempt s d.id).run.wp (Stage.effect d) Q .begun := by
  refine (Program.wp_run_bind _ _ _ _).2 ((wp_find _ _ _).2 ?_)
  refine ⟨rfl, fun submission sameId sameProblem => ?_⟩
  refine (Program.wp_run_bind _ _ _ _).2 ((wp_step _ _ _).2 ?_)
  refine ⟨rfl, rfl, ?_⟩
  refine (Program.wp_run_bind _ _ _ _).2 ((wp_find _ _ _).2 ?_)
  refine ⟨sameProblem, ?_⟩
  cases found : d.problem with
  | none => exact stopped _
  | some problem =>
    refine (Program.wp_run_bind _ _ _ _).2 ((wp_find _ _ _).2 fun reply => ?_)
    match reply with
    | .error fault => exact stopped _
    | .ok none => exact stopped _
    | .ok (some language) =>
      refine (Program.wp_run_bind _ _ _ _).2 ((wp_step _ _ _).2 fun opened => ?_)
      cases opened with
      | error fault => exact stopped _
      | ok _ =>
        refine (Program.wp_run_bind _ _ _ _).2 ((wp_step _ _ _).2 fun written => ?_)
        cases written with
        | error fault => exact stopped _
        | ok _ =>
          have count : problem.testcases.length = d.count := by rw [Docket.count, found]; rfl
          refine (Program.wp_run_bind _ _ _ _).2 (wp_compileStep s language _ fun o verdicts => ?_)
          cases o with
          | failed verdict message =>
            refine wp_finish sameId language ?_ finished
            rw [count]
            exact JudgeOutcome.full_failed _ _ (verdicts _ _ rfl)
          | compiled =>
            refine (Program.wp_run_bind _ _ _ _).2 ((Program.wp_run_lift _ _ _).2 ?_)
            refine wp_judgeStep (Stage.free_effect d) s problem fun prepared => ?_
            cases prepared with
            | error fault =>
              refine wp_finish sameId language ?_ finished
              rw [count]
              exact JudgeOutcome.full_failed _ _ (.inr rfl)
            | ok judge => exact wp_casesStep s sameId found language _ judge finished

theorem wp_caseCount {stage : Stage} {Q : Nat → Stage → Prop} (h : Q d.count stage) :
    (caseCount d.id).wp (Stage.effect d) Q stage := by
  refine (Program.wp_bind _ _ _ _).2 ⟨rfl, fun submission _ sameProblem => ?_⟩
  refine (Program.wp_bind _ _ _ _).2 ⟨sameProblem, ?_⟩
  unfold Docket.count at h
  cases found : d.problem with
  | none =>
    rw [found] at h
    exact h
  | some problem =>
    rw [found] at h
    exact h

/-- Every pass over a submission that is there ends with one full outcome stored. -/
theorem wp_judge : (judge s d.id).run.wp (Stage.effect d) (fun _ stage => stage = .settled) .begun := by
  refine (Program.wp_run_bind _ _ _ _).2 ((Program.wp_run_lift _ _ _).2 ?_)
  refine wp_attempt s (fun status => rfl) fun fault => ?_
  refine (Program.wp_run_bind _ _ _ _).2 ((Program.wp_run_lift _ _ _).2 ?_)
  refine wp_caseCount ?_
  refine (Program.wp_run_bind _ _ _ _).2 ((wp_step _ _ _).2 ?_)
  exact ⟨rfl, rfl, JudgeOutcome.full_failed _ _ (.inr rfl), rfl⟩

end Store

end Arbiter.Judging
