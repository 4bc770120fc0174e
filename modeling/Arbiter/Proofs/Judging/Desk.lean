import Arbiter.Proofs.Judging.Turn

/-! A system of jobs as one submission sees it. Main statement: whatever the jobs are and however they
take turns, what a submission shows and the passes over it are a desk, at which each pass goes through
its stages. -/

namespace Arbiter

open Function (update)
open Judging (Stage Docket)

/-- What a submission shows, and the stages that the passes over it have come to, by their workers. -/
structure Desk where
  shown : JudgeOutcome
  passes : Nat → Option Stage

namespace JudgeOutcome

/-- What a submission shows that has been cleared. -/
def none : JudgeOutcome := ⟨.pending, 0, 0, 0, [], .none⟩

end JudgeOutcome

/-- What can happen at a desk, with whether a pass begins, and the outcome that is stored. -/
inductive Desk.Step (count : Nat) : Desk → Bool → Option JudgeOutcome → Desk → Prop
  | rest (desk : Desk) : Step count desk false none desk
  | begin {desk : Desk} {i : Nat} (free : desk.passes i = none) :
    Step count desk true none ⟨desk.shown, update desk.passes i (some .begun)⟩
  | clear {desk : Desk} {i : Nat} (here : desk.passes i = some .begun) :
    Step count desk false none ⟨.none, update desk.passes i (some .cleared)⟩
  | mark {desk : Desk} {i : Nat} {status : Status} (here : desk.passes i = some .cleared)
    (known : status = .compiling ∨ status = .judging) :
    Step count desk false none ⟨{ desk.shown with status }, desk.passes⟩
  | commit {desk : Desk} {i : Nat} {o : JudgeOutcome} (here : desk.passes i = some .cleared)
    (full : o.Full count) : Step count desk false (some o) ⟨o, update desk.passes i (some .settled)⟩
  | leave {desk : Desk} {i : Nat} (here : desk.passes i = some .settled) :
    Step count desk false none ⟨desk.shown, update desk.passes i none⟩

namespace System

variable {s : SandboxSettings} {admits : System → Event → Prop}

/-- Every job keeps to what it is for. -/
structure Tracked (x : System) (stages : Nat → Stage) : Prop where
  keyed : x.store.Keyed
  fits : ∀ i run, x.running i = some run → run.Fits x.store.docket? (stages i)

/-- The stage of a worker's pass over a submission, if it has one. -/
def passOf (id : Int64) (run : Option Running) (stage : Stage) : Option Stage :=
  run.bind fun r => if r.job.judges? = some id then some stage else none

theorem passOf_own {id : Int64} {job : Job} (h : job.judges? = some id)
    (rest : Work (Except Work.Fault Unit)) (stage : Stage) :
    passOf id (some ⟨job, rest⟩) stage = some stage :=
  if_pos h

theorem passOf_other {id : Int64} {job : Job} (h : job.judges? ≠ some id)
    (rest : Work (Except Work.Fault Unit)) (stage : Stage) :
    passOf id (some ⟨job, rest⟩) stage = none :=
  if_neg h

/-- The system as the submission of a docket sees it. -/
structure View (x : System) (stages : Nat → Stage) (d : Docket) (desk : Desk) : Prop where
  docket : x.store.docket? d.id = some d
  shown : (x.store.submissions.get? d.id).map (·.outcome) = some desk.shown
  passes : ∀ i, desk.passes i = passOf d.id (x.running i) (stages i)

theorem tracked_idle {store : Store} (keyed : store.Keyed) (stages : Nat → Stage) :
    Tracked (idle store) stages :=
  ⟨keyed, fun _ _ h => nomatch h⟩

theorem view_idle {store : Store} {d : Docket} {r : Submission} (stages : Nat → Stage)
    (docket : store.docket? d.id = some d) (found : store.submissions.get? d.id = some r) :
    View (idle store) stages d ⟨r.outcome, fun _ => none⟩ :=
  ⟨docket, congrArg _ found, fun _ => rfl⟩

/-- A worker moves and the store stays as it was to all others. -/
theorem Tracked.update {x : System} {stages : Nat → Stage} (tracked : Tracked x stages)
    {store : Store} (keyed : store.Keyed) (dockets : store.docket? = x.store.docket?) (i : Nat)
    {run : Option Running} {stage : Stage} (fits : ∀ r, run = some r → r.Fits store.docket? stage) :
    Tracked ⟨store, update x.running i run⟩ (update stages i stage) := by
  refine ⟨keyed, fun j r here => ?_⟩
  by_cases same : j = i
  · subst same
    rw [Function.update_self]
    exact fits r ((Function.update_self j run x.running).symm.trans here)
  · rw [Function.update_of_ne same, dockets]
    exact tracked.fits j r ((Function.update_of_ne same run x.running).symm.trans here)

theorem View.update {x : System} {stages : Nat → Stage} {d : Docket} {desk : Desk}
    (view : View x stages d desk) {store : Store} (dockets : store.docket? = x.store.docket?)
    {shown : JudgeOutcome} (seen : (store.submissions.get? d.id).map (·.outcome) = some shown) (i : Nat)
    (run : Option Running) (stage : Stage) :
    View ⟨store, update x.running i run⟩ (update stages i stage) d
      ⟨shown, update desk.passes i (passOf d.id run stage)⟩ := by
  refine ⟨by rw [dockets]; exact view.docket, seen, fun j => ?_⟩
  by_cases same : j = i
  · subst same
    simp only [Function.update_self]
  · simp only [Function.update_of_ne same]
    exact view.passes j

/-- A request that writes no judgment of a submission leaves what it shows. -/
theorem outcome_edit {q : Store.Request} {id : Int64} (h : q.rewrites? ≠ some id) (r : Submission) :
    (q.edit id r).outcome = r.outcome := by
  cases q with
  | setStatus i status | commit i outcome | reset i =>
    have other : i ≠ id := by simpa [Store.Request.rewrites?] using h
    simp [Store.Request.edit, other]
  | saveGraph i graph =>
    simp only [Store.Request.edit]
    split <;> rfl
  | _ => rfl

theorem shown_reply {store : Store} {id : Int64} {shown : JudgeOutcome} {q : Store.Request}
    (seen : (store.submissions.get? id).map (·.outcome) = some shown) {edited : JudgeOutcome}
    (h : ∀ r : Submission, r.outcome = shown → (q.edit id r).outcome = edited) :
    ((Store.reply q store).2.submissions.get? id).map (·.outcome) = some edited := by
  obtain ⟨r, found, same⟩ := Option.map_eq_some_iff.1 seen
  rw [Store.get?_reply, found]
  exact congrArg some (h r same)

theorem commits?_asked {q : Store.Request} {id : Int64} (h : q.rewrites? ≠ some id) (i : Nat) :
    (Event.asked i q).commits? id = none := by
  cases q with
  | commit j outcome =>
    have other : j ≠ id := by simpa [Store.Request.rewrites?] using h
    exact if_neg other
  | _ => rfl

theorem update_passes {desk : Desk} {i : Nat} {slot : Option Stage} (h : desk.passes i = slot) :
    update desk.passes i slot = desk.passes := by
  rw [← h, Function.update_eq_self]

/-- What happens in the system is something that can happen at the desk, or leaves the desk alone. -/
theorem Move.exists_step {x y : System} {e : Event} (move : Move s x e y) {stages : Nat → Stage}
    (tracked : Tracked x stages) {d : Docket} {desk : Desk} (view : View x stages d desk) :
    ∃ stages' desk', Tracked y stages' ∧ View y stages' d desk' ∧
      desk.Step d.count (e.begins d.id) (e.commits? d.id) desk' := by
  cases move with
  | @began i job free =>
    have known : ∀ id d, x.store.docket? id = some d → d.id = id := by
      intro id d docket
      obtain ⟨r, -, rfl⟩ := Store.docket?_eq_some docket
      rfl
    refine ⟨_, _, tracked.update tracked.keyed rfl i fun r same => ?_,
      view.update rfl view.shown i _ .begun, ?_⟩
    · obtain rfl := Option.some.inj same
      exact Running.fits_began s job known
    · have slot : desk.passes i = none := by rw [view.passes, free]; rfl
      show desk.Step _ (decide (job.judges? = some d.id)) none _
      by_cases judges : job.judges? = some d.id
      · rw [decide_eq_true judges, passOf_own judges]
        exact .begin slot
      · rw [decide_eq_false judges, passOf_other judges, update_passes slot]
        exact .rest desk
  | @asked i job q next here =>
    obtain ⟨stage', fits, turns⟩ := (tracked.fits i _ here).asked tracked.keyed
    have turns := turns d view.docket
    have slot := view.passes i
    rw [here] at slot
    have moved : Tracked ⟨(Store.reply q x.store).2, update x.running i
        (some ⟨job, next (Store.reply q x.store).1⟩)⟩ (update stages i stage') := by
      refine tracked.update (tracked.keyed.reply q) (Store.docket?_reply q _) i fun r same => ?_
      obtain rfl := Option.some.inj same
      rw [Store.docket?_reply]
      exact fits
    have seen : ∀ shown, (∀ r : Submission, r.outcome = desk.shown →
        (q.edit d.id r).outcome = shown) → View _ _ d ⟨shown, _⟩ := fun shown h =>
      view.update (Store.docket?_reply q x.store) (shown_reply view.shown h) i
        (some ⟨job, next (Store.reply q x.store).1⟩) stage'
    have unseen : q.rewrites? ≠ some d.id → ∀ r : Submission, r.outcome = desk.shown →
        (q.edit d.id r).outcome = desk.shown :=
      fun h r same => (outcome_edit h r).trans same
    by_cases judges : job.judges? = some d.id
    · rw [if_pos judges] at turns
      rw [passOf_own judges] at slot seen
      generalize stages i = stage at turns slot
      cases turns with
      | read harmless =>
        have other : q.rewrites? ≠ some d.id := by simp [harmless]
        refine ⟨_, _, moved, seen _ (unseen other), ?_⟩
        rw [commits?_asked other, update_passes slot]
        exact .rest desk
      | clear =>
        refine ⟨_, _, moved, seen .none fun r _ => ?_, .clear slot⟩
        simp [Store.Request.edit, Submission.outcome, Submission.reset, JudgeOutcome.none]
      | @mark status known =>
        refine ⟨_, _, moved, seen { desk.shown with status } fun r same => ?_, ?_⟩
        · simp [Store.Request.edit, Submission.outcome, ← same]
        · rw [update_passes slot]
          exact .mark slot known
      | @commit o full =>
        refine ⟨_, _, moved, seen o fun r _ => ?_, ?_⟩
        · simp [Store.Request.edit]
        · have stored : (Event.asked i (.commit d.id o)).commits? d.id = some o := if_pos rfl
          rw [stored]
          exact .commit slot full
    · rw [if_neg judges] at turns
      rw [passOf_other judges] at slot seen
      refine ⟨_, _, moved, seen _ (unseen turns), ?_⟩
      rw [commits?_asked turns, update_passes slot]
      exact .rest desk
  | @acted i job q next here outside reply =>
    have slot := view.passes i
    rw [here] at slot
    refine ⟨_, _, tracked.update tracked.keyed rfl i fun r same => ?_,
      view.update rfl view.shown i _ (stages i), ?_⟩
    · obtain rfl := Option.some.inj same
      exact (tracked.fits i _ here).acted outside reply
    · have same : passOf d.id (some ⟨job, next reply⟩) (stages i) = desk.passes i := slot.symm
      rw [same, update_passes rfl]
      exact .rest desk
  | @ended i job result here =>
    have slot := view.passes i
    rw [here] at slot
    refine ⟨_, _, tracked.update tracked.keyed rfl i (fun r same => by cases same),
      view.update rfl view.shown i none (stages i), ?_⟩
    by_cases judges : job.judges? = some d.id
    · rw [passOf_own judges] at slot
      rw [(tracked.fits i _ here).ended judges view.docket] at slot
      exact .leave slot
    · rw [passOf_other judges] at slot
      show desk.Step _ _ _ ⟨_, update desk.passes i none⟩
      rw [update_passes slot]
      exact .rest desk

/-- What holds of the desk at first and is kept by all that can happen there holds at the end of every
run. -/
theorem Run.exists_desk {store : Store} (keyed : store.Keyed) {d : Docket} {r : Submission}
    (docket : store.docket? d.id = some d) (found : store.submissions.get? d.id = some r)
    {past : List Event} {y : System} (run : Run s admits (idle store) past y)
    {I : List Event → Desk → Prop} (first : I [] ⟨r.outcome, fun _ => none⟩)
    (kept : ∀ past x stages e desk desk', View x stages d desk → admits x e → I past desk →
      desk.Step d.count (e.begins d.id) (e.commits? d.id) desk' → I (past ++ [e]) desk') :
    ∃ stages desk, Tracked y stages ∧ View y stages d desk ∧ I past desk := by
  induction run with
  | refl => exact ⟨fun _ => .begun, _, tracked_idle keyed _, view_idle _ docket found, first⟩
  | step run admitted move ih =>
    obtain ⟨stages, desk, tracked, view, holds⟩ := ih
    obtain ⟨stages', desk', tracked', view', step⟩ := move.exists_step tracked view
    exact ⟨stages', desk', tracked', view', kept _ _ _ _ _ _ view admitted holds step⟩

end System

end Arbiter
