import Arbiter.Proofs.Judging.Stage
import Arbiter.Proofs.Work.Scope

/-! One request of a job and what comes of it on a store. Main statement: a job keeps to what it is for
from its first request to its last, and each request of a pass over a submission that is there turns the
pass to its next stage or leaves it where it is. -/

namespace Arbiter

namespace Store

open Judging (Docket)

/-- The docket of a submission that is there. -/
def docket? (s : Store) (id : Int64) : Option Docket :=
  (s.submissions.get? id).map fun r => ⟨id, r.problemId, s.problems.get? r.problemId⟩

theorem docket?_reply (q : Request) (s : Store) : (reply q s).2.docket? = s.docket? := by
  funext id
  unfold docket?
  rw [get?_reply, problems_reply, Option.map_map]
  refine congrArg (fun f => (s.submissions.get? id).map f) ?_
  funext r
  simp

theorem docket?_eq_some {s : Store} {id : Int64} {d : Docket} (h : s.docket? id = some d) :
    ∃ r, s.submissions.get? id = some r ∧ d = ⟨id, r.problemId, s.problems.get? r.problemId⟩ := by
  obtain ⟨r, found, rfl⟩ := Option.map_eq_some_iff.1 h
  exact ⟨r, found, rfl⟩

end Store

namespace Judging

/-- A pass over a submission that is not there finds nothing and changes nothing. -/
def missing (id : Int64) : Program.Effect Work.Request Work.Request.Reply Unit
  | .store (.submission i), s, K => i = id ∧ K (.ok none) s
  | .store (.commit i _), s, K => i = id ∧ K (.error (.noSubmission id)) s
  | _, _, _ => False

theorem wp_attempt_missing (s : SandboxSettings) (id : Int64) {Q : Except Fault Status → Unit → Prop}
    (h : ∀ fault, Q (.error fault) ()) : (attempt s id).run.wp (missing id) Q () := by
  refine (Program.wp_run_bind _ _ _ _).2 ((wp_find _ _ _).2 ?_)
  exact ⟨rfl, h _⟩

theorem wp_judge_missing (s : SandboxSettings) (id : Int64) :
    (judge s id).run.wp (missing id) (fun _ _ => True) () := by
  refine (Program.wp_run_bind _ _ _ _).2 ((Program.wp_run_lift _ _ _).2 ?_)
  refine wp_attempt_missing s id fun fault => ?_
  refine (Program.wp_run_bind _ _ _ _).2 ((Program.wp_run_lift _ _ _).2 ?_)
  refine (Program.wp_bind _ _ _ _).2 ⟨rfl, ?_⟩
  refine (Program.wp_run_bind _ _ _ _).2 ((wp_step _ _ _).2 ?_)
  exact ⟨rfl, trivial⟩

/-- A request takes a pass from a stage to the next one, or leaves it where it is. -/
inductive Stage.Turn (d : Docket) : Store.Request → Stage → Stage → Prop
  | read {q : Store.Request} {stage : Stage} (h : q.rewrites? = none) : Turn d q stage stage
  | clear : Turn d (.reset d.id) .begun .cleared
  | mark {status : Status} (h : status = .compiling ∨ status = .judging) :
    Turn d (.setStatus d.id status) .cleared .cleared
  | commit {o : JudgeOutcome} (full : o.Full d.count) : Turn d (.commit d.id o) .cleared .settled

theorem Stage.Turn.rewrites? {d : Docket} {q : Store.Request} {stage stage' : Stage}
    (h : Turn d q stage stage') {id : Int64} (other : id ≠ d.id) : q.rewrites? ≠ some id := by
  cases h with
  | read h => simp [h]
  | clear => simpa [Store.Request.rewrites?] using other.symm
  | mark h => simpa [Store.Request.rewrites?] using other.symm
  | commit full => simpa [Store.Request.rewrites?] using other.symm

/-- The store replies as a pass expects, and takes it to the next stage. -/
theorem Stage.exists_turn {d : Docket} {store : Store} (keyed : store.Keyed)
    (docket : store.docket? d.id = some d) {q : Store.Request} {stage : Stage}
    {K : q.Reply → Stage → Prop} (h : Stage.effect d (.store q) stage K) :
    ∃ stage', K (Store.reply q store).1 stage' ∧ Stage.Turn d q stage stage' := by
  obtain ⟨r, found, same⟩ := Store.docket?_eq_some docket
  have ok : ∀ change, (store.changeSubmission d.id change).1 = .ok () := by
    intro change
    rw [Store.changeSubmission_fst, found]
    rfl
  cases q with
  | submission id =>
    obtain ⟨rfl, h⟩ := h
    refine ⟨stage, ?_, .read rfl⟩
    show K (.ok (store.submissions.get? d.id)) stage
    rw [found]
    exact h r (keyed _ _ found) (congrArg Docket.problemId same).symm
  | problem id =>
    obtain ⟨rfl, h⟩ := h
    refine ⟨stage, ?_, .read rfl⟩
    have problem : d.problem = store.problems.get? d.problemId := by rw [same]
    rw [problem] at h
    exact h
  | language id => exact ⟨stage, h _, .read rfl⟩
  | reset id =>
    obtain ⟨rfl, rfl, h⟩ := h
    have replied : (Store.reply (.reset d.id) store).1 = .ok () := ok _
    refine ⟨_, ?_, .clear⟩
    rw [replied]
    exact h
  | setStatus id status =>
    obtain ⟨rfl, rfl, known, h⟩ := h
    have replied : (Store.reply (.setStatus d.id status) store).1 = .ok () := ok _
    refine ⟨_, ?_, .mark known⟩
    rw [replied]
    exact h
  | commit id o =>
    obtain ⟨rfl, rfl, full, h⟩ := h
    have replied : (Store.reply (.commit d.id o) store).1 = .ok () := ok _
    refine ⟨_, ?_, .commit full⟩
    rw [replied]
    exact h
  | saveGraph id graph => exact ⟨stage, h _, .read rfl⟩
  | addResolved user => exact ⟨stage, h _, .read rfl⟩
  | submissionsOf problem language => exact h.elim
  | task id => exact h.elim
  | completeTask id outcome => exact h.elim

theorem Stage.effect_outside {d : Docket} {q : Work.Request} (outside : ¬ q.IsStore) {stage : Stage}
    {K : q.Reply → Stage → Prop} (h : Stage.effect d q stage K) (reply : q.Reply) : K reply stage := by
  cases q with
  | store q => exact (outside trivial).elim
  | _ => exact h reply

end Judging

open Judging (Stage Docket)

/-- The work left of a job keeps to what the job is for, and a pass over a submission that is there
has come to the stage. -/
def Running.Fits (docket? : Int64 → Option Docket) (run : Running) (stage : Stage) : Prop :=
  match run.job.judges? with
  | none => run.rest.Only Work.Request.Harmless
  | some id =>
    match docket? id with
    | none => run.rest.wp (Judging.missing id) (fun _ _ => True) ()
    | some d => run.rest.wp (Stage.effect d) (fun _ t => t = .settled) stage

theorem Job.wp_work {σ : Type} {effect : Program.Effect Work.Request Work.Request.Reply σ}
    (s : SandboxSettings) {job : Job} {id : Int64} (h : job.judges? = some id) {Q : σ → Prop}
    {stage : σ} (judged : (Judging.judge s id).run.wp effect (fun _ t => Q t) stage) :
    (job.work s).run.wp effect (fun _ t => Q t) stage := by
  have same : job.work s = (Job.judge id).work s := by
    cases job with
    | judge i | rejudge i =>
      obtain rfl : i = id := Option.some.inj h
      rfl
    | plagiarism | buildGraph => cases h
  rw [same]
  refine (Program.wp_run_bind _ _ _ _).2 ((Program.wp_run_lift _ _ _).2 ?_)
  refine (congrArg (fun K => (Judging.judge s id).run.wp effect K stage) ?_).mpr judged
  funext result t
  cases result <;> rfl

namespace Running

variable {docket? : Int64 → Option Docket} {job : Job} {stage : Stage}

theorem fits_began (s : SandboxSettings) (job : Job)
    (known : ∀ id d, docket? id = some d → d.id = id) :
    Fits docket? ⟨job, (job.work s).run⟩ .begun := by
  unfold Fits
  cases judges : job.judges? with
  | none => exact Job.only_work s judges
  | some id =>
    dsimp only
    cases docket : docket? id with
    | none => exact Job.wp_work s judges (Judging.wp_judge_missing s id)
    | some d =>
      obtain rfl := known id d docket
      exact Job.wp_work s judges (Judging.wp_judge s)

theorem Fits.asked {store : Store} (keyed : store.Keyed) {q : Store.Request}
    {next : q.Reply → Work (Except Work.Fault Unit)}
    (fits : Fits store.docket? ⟨job, Program.ask (.store q) next⟩ stage) :
    ∃ stage', Fits store.docket? ⟨job, next (Store.reply q store).1⟩ stage' ∧
      ∀ d, store.docket? d.id = some d →
        if job.judges? = some d.id then Stage.Turn d q stage stage' else q.rewrites? ≠ some d.id := by
  unfold Fits at fits ⊢
  cases judges : job.judges? with
  | none =>
    rw [judges] at fits
    refine ⟨stage, fits.2 _, fun d _ => ?_⟩
    have harmless : q.rewrites? = none := fits.1
    simp [harmless]
  | some id =>
    rw [judges] at fits
    dsimp only at fits ⊢
    cases docket : store.docket? id with
    | none =>
      rw [docket] at fits
      have absent : store.submissions.get? id = none := Option.map_eq_none_iff.1 docket
      have others : ∀ d, store.docket? d.id = some d → id ≠ d.id := by
        rintro d there rfl
        rw [docket] at there
        cases there
      cases q with
      | submission i =>
        obtain ⟨rfl, goesOn⟩ := fits
        refine ⟨stage, ?_, fun d there => ?_⟩
        · show (next (.ok (store.submissions.get? _))).wp _ _ _
          rw [absent]
          exact goesOn
        · rw [if_neg (by simpa using others d there)]
          simp [Store.Request.rewrites?]
      | commit i o =>
        obtain ⟨rfl, goesOn⟩ := fits
        refine ⟨stage, ?_, fun d there => ?_⟩
        · have replied : (Store.reply (.commit i o) store).1 = .error (.noSubmission i) := by
            show (store.changeSubmission i _).1 = _
            rw [Store.changeSubmission_fst, absent]
            rfl
          rw [replied]
          exact goesOn
        · rw [if_neg (by simpa using others d there)]
          simpa [Store.Request.rewrites?] using others d there
      | _ => exact fits.elim
    | some found =>
      rw [docket] at fits
      obtain ⟨r, -, same⟩ := Store.docket?_eq_some docket
      obtain rfl : found.id = id := by rw [same]
      obtain ⟨stage', goesOn, turn⟩ := Stage.exists_turn keyed docket fits
      refine ⟨stage', goesOn, fun d there => ?_⟩
      by_cases own : found.id = d.id
      · rw [own, there] at docket
        obtain rfl := Option.some.inj docket
        rw [if_pos rfl]
        exact turn
      · rw [if_neg (by simpa using own)]
        exact turn.rewrites? (Ne.symm own)

theorem Fits.acted {q : Work.Request} {next : q.Reply → Work (Except Work.Fault Unit)}
    (fits : Fits docket? ⟨job, Program.ask q next⟩ stage) (outside : ¬ q.IsStore) (reply : q.Reply) :
    Fits docket? ⟨job, next reply⟩ stage := by
  unfold Fits at fits ⊢
  cases judges : job.judges? with
  | none =>
    rw [judges] at fits
    exact fits.2 reply
  | some id =>
    rw [judges] at fits
    dsimp only at fits ⊢
    cases docket : docket? id with
    | none =>
      rw [docket] at fits
      cases q with
      | store q => exact (outside trivial).elim
      | _ => exact fits.elim
    | some d =>
      rw [docket] at fits
      exact Stage.effect_outside outside fits reply

theorem Fits.ended {result : Except Work.Fault Unit} (fits : Fits docket? ⟨job, Program.done result⟩ stage)
    {id : Int64} {d : Docket} (judges : job.judges? = some id) (docket : docket? id = some d) :
    stage = .settled := by
  unfold Fits at fits
  rw [judges] at fits
  dsimp only at fits
  rw [docket] at fits
  exact fits

end Running

end Arbiter
