import Arbiter.Proofs.Judging.Desk

/-! What submissions show while jobs run. Main statements: where no two passes over one submission run
at once, a reader finds either no judgment of it or one full judgment, at all times; and wherever passes
over one submission race, what it shows once they have ended is the outcome stored last. -/

namespace Arbiter

open Judging (Stage Docket)

namespace Desk

/-- At most one pass is at the desk, and no part of a judgment shows. -/
structure Consistent (count : Nat) (desk : Desk) : Prop where
  one : ∀ i j a b, desk.passes i = some a → desk.passes j = some b → i = j
  cleared : ∀ i, desk.passes i = some .cleared → desk.shown.Blank
  shown : desk.shown.Blank ∨ desk.shown.Full count

theorem consistent_of_blank {count : Nat} {shown : JudgeOutcome} (h : shown.Blank) :
    Consistent count ⟨shown, fun _ => none⟩ where
  one := by
    intro i j a b there
    cases there
  cleared := fun _ _ => h
  shown := .inl h

/-- The one pass at a desk moves on. -/
theorem Consistent.update {count : Nat} {desk : Desk} (h : desk.Consistent count) {i : Nat}
    {before : Stage} (here : desk.passes i = some before) {shown : JudgeOutcome} {slot : Option Stage}
    (cleared : slot = some .cleared → shown.Blank) (full : shown.Blank ∨ shown.Full count) :
    Consistent count ⟨shown, Function.update desk.passes i slot⟩ := by
  have only : ∀ j a, Function.update desk.passes i slot j = some a → j = i := by
    intro j a there
    by_cases same : j = i
    · exact same
    · rw [Function.update_of_ne same] at there
      exact h.one j i a before there here
  refine ⟨fun j k a b hj hk => (only j a hj).trans (only k b hk).symm, fun j hj => ?_, full⟩
  obtain rfl := only j _ hj
  exact cleared ((Function.update_self j slot desk.passes).symm.trans hj)

theorem Consistent.step {count : Nat} {desk desk' : Desk} {begins : Bool}
    {committed : Option JudgeOutcome} (h : desk.Consistent count)
    (step : desk.Step count begins committed desk')
    (alone : begins = true → ∀ i, desk.passes i = none) : desk'.Consistent count := by
  cases step with
  | rest => exact h
  | @begin i free =>
    have nobody := alone rfl
    have only : ∀ j a, Function.update desk.passes i (some Stage.begun) j = some a →
        j = i ∧ a = .begun := by
      intro j a there
      by_cases same : j = i
      · subst same
        rw [Function.update_self] at there
        exact ⟨rfl, (Option.some.inj there).symm⟩
      · rw [Function.update_of_ne same, nobody j] at there
        cases there
    refine ⟨fun j k a b hj hk => (only j a hj).1.trans (only k b hk).1.symm, fun j hj => ?_, h.shown⟩
    cases (only j _ hj).2
  | clear here =>
    have blank : JudgeOutcome.none.Blank := ⟨.inl rfl, rfl, rfl, rfl, rfl, rfl⟩
    exact h.update here (fun _ => blank) (.inl blank)
  | @mark i status here known =>
    have blank := h.cleared i here
    have marked : JudgeOutcome.Blank { desk.shown with status } :=
      { blank with status := .inr known }
    exact ⟨h.one, fun _ _ => marked, .inl marked⟩
  | commit here full => exact h.update here (fun same => nomatch same) (.inr full)
  | leave here => exact h.update here (fun same => nomatch same) h.shown

/-- Some pass has still to store its outcome, or none ever began, or the outcome stored last shows. -/
def Settling (id : Int64) (past : List System.Event) (desk : Desk) : Prop :=
  (∃ i stage, desk.passes i = some stage ∧ stage ≠ .settled) ∨
    (∀ e ∈ past, e.begins id = false) ∨
    (System.lastCommit id past = some desk.shown ∧ desk.shown.status.isTerminal = true)

theorem Settling.step {count : Nat} {id : Int64} {past : List System.Event} {e : System.Event}
    {desk desk' : Desk} (h : desk.Settling id past)
    (step : desk.Step count (e.begins id) (e.commits? id) desk') :
    desk'.Settling id (past ++ [e]) := by
  -- A pass that moves to a stage before its last one owes an outcome.
  have owes : ∀ {shown passes} (i : Nat) {stage : Stage}, stage ≠ .settled →
      Settling id (past ++ [e]) ⟨shown, Function.update passes i (some stage)⟩ :=
    fun i stage unsettled => .inl ⟨i, stage, Function.update_self i _ _, unsettled⟩
  generalize begins : e.begins id = b at step
  generalize committed : e.commits? id = c at step
  have same : b = false → c = none → desk'.shown = desk.shown →
      (∀ i stage, desk.passes i = some stage → stage ≠ .settled → desk'.passes i = some stage) →
      desk'.Settling id (past ++ [e]) := by
    rintro rfl rfl shown stays
    rcases h with ⟨i, stage, there, unsettled⟩ | never | ⟨last, terminal⟩
    · exact .inl ⟨i, stage, stays i stage there unsettled, unsettled⟩
    · refine .inr (.inl fun f hf => ?_)
      rcases List.mem_append.1 hf with hf | hf
      · exact never f hf
      · rwa [List.mem_singleton.1 hf]
    · refine .inr (.inr ⟨?_, shown ▸ terminal⟩)
      rw [System.lastCommit_append, committed, shown]
      exact last
  cases step with
  | rest => exact same rfl rfl rfl fun _ _ there _ => there
  | @begin i free => exact owes i (by decide)
  | @clear i here => exact owes i (by decide)
  | @mark i status here known => exact .inl ⟨i, .cleared, here, by decide⟩
  | commit here full =>
    refine .inr (.inr ⟨?_, full.isTerminal⟩)
    rw [System.lastCommit_append, committed]
    rfl
  | @leave i here =>
    refine same rfl rfl rfl fun j stage there unsettled => ?_
    by_cases at_i : j = i
    · subst at_i
      rw [here] at there
      exact absurd (Option.some.inj there).symm unsettled
    · exact (Function.update_of_ne at_i _ _).trans there

end Desk

namespace System

variable {s : SandboxSettings} {admits : System → Event → Prop}

/-- Records neither come nor go, and stay with their problems. -/
theorem Run.docket? {x y : System} {past : List Event} (run : Run s admits x past y) :
    y.store.docket? = x.store.docket? := by
  induction run with
  | refl => rfl
  | step run admitted move ih =>
    cases move with
    | asked here => exact (Store.docket?_reply _ _).trans ih
    | began | acted | ended => exact ih

theorem View.outcome {x : System} {stages : Nat → Stage} {d : Docket} {desk : Desk}
    (view : View x stages d desk) {r : Submission} (found : x.store.submissions.get? d.id = some r) :
    r.outcome = desk.shown := by
  have seen := view.shown
  rw [found] at seen
  exact Option.some.inj seen

theorem View.alone {x : System} {stages : Nat → Stage} {d : Docket} {desk : Desk}
    (view : View x stages d desk) {e : Event} (alone : Alone x e) (begins : e.begins d.id = true)
    (i : Nat) : desk.passes i = none := by
  cases e with
  | began worker job =>
    rw [view.passes i]
    cases here : x.running i with
    | none => rfl
    | some r => exact passOf_other (alone d.id (of_decide_eq_true begins) i r here) _ _
  | asked | acted | ended => cases begins

/-- If passes over one submission never overlap, then every submission shows no judgment or one full
judgment at all times. -/
theorem submission_blank_or_full {start : Store}
    (fresh : ∀ id r, start.submissions.get? id = some r →
      ∃ code language problem user, r = .fresh id code language problem user)
    {past : List Event} {now : System} (run : Run s Alone (idle start) past now) {id : Int64}
    {r : Submission} (found : now.store.submissions.get? id = some r) :
    r.outcome.Blank ∨ r.outcome.Full (now.store.caseCount r.problemId) := by
  have keyed : start.Keyed := by
    intro i first there
    obtain ⟨code, language, problem, user, rfl⟩ := fresh i first there
    rfl
  let d : Docket := ⟨id, r.problemId, now.store.problems.get? r.problemId⟩
  have docket : now.store.docket? id = some d := by
    unfold Store.docket?
    rw [found]
    rfl
  rw [run.docket?] at docket
  have docket : start.docket? d.id = some d := docket
  obtain ⟨first, there, -⟩ := Store.docket?_eq_some docket
  have blank : first.outcome.Blank := by
    obtain ⟨code, language, problem, user, rfl⟩ := fresh id first there
    exact ⟨.inl rfl, rfl, rfl, rfl, rfl, rfl⟩
  obtain ⟨stages, desk, -, view, consistent⟩ := run.exists_desk keyed docket there
    (I := fun _ => Desk.Consistent d.count) (Desk.consistent_of_blank blank)
    (fun _ _ _ _ _ _ view alone consistent step => consistent.step step (view.alone alone))
  rw [view.outcome found]
  exact consistent.shown

/-- A store with one submission, to a problem with two test cases. -/
def lone : Store :=
  (Store.empty.insertProblem ⟨1, none, none, [⟨"1", "1"⟩, ⟨"2", "4"⟩], .standard, none, none⟩
    ).insertSubmission (.fresh 1 "print(int(input()) ** 2)" 1 1 1)

theorem lone_keyed : lone.Keyed := (Store.keyed_empty.insertProblem _).insertSubmission _

theorem lone_fresh : ∀ id r, lone.submissions.get? id = some r →
    ∃ code language problem user, r = .fresh id code language problem user := by
  intro id r found
  have only : (if id = 1 then some (Submission.fresh 1 "print(int(input()) ** 2)" 1 1 1) else none) = some r := by
    rw [← found]
    exact (Table.get?_insert .empty 1 id _).symm
  split at only
  · rename_i same
    rw [same]
    exact ⟨_, _, _, _, (Option.some.inj only).symm⟩
  · cases only

/-- A pass over the lone submission taken to its end. -/
theorem submission_blank_or_full_lone : ∃ past now r,
    Run {} Alone (idle lone) past now ∧ now.store.submissions.get? 1 = some r ∧
      (r.outcome.Blank ∨ r.outcome.Full (now.store.caseCount r.problemId)) := by
  have admitted : ∀ x e, (∀ i job, e ≠ Event.began i job) → Alone x e := by
    intro x e other
    cases e with
    | began i job => exact absurd rfl (other i job)
    | asked | acted | ended => trivial
  have first : Alone (idle lone) (.began 0 (.judge 1)) := fun _ _ _ _ none => nomatch none
  obtain ⟨later, now, rest, -⟩ :=
    exists_run_rest admitted 0 (.judge 1) _ ((idle lone).begin {} 0 (.judge 1)) rfl
  have run := (Run.one first (.began (.judge 1) rfl)).trans rest
  have there : (now.store.docket? 1).isSome := by
    rw [run.docket?]
    rfl
  obtain ⟨r, found, -⟩ := Store.docket?_eq_some (Option.eq_some_of_isSome there)
  exact ⟨_, now, r, run, found, submission_blank_or_full lone_fresh run found⟩

/-- Once all passes over a submission have ended, what it shows is the outcome stored last. -/
theorem last_commit_shown {start : Store} (keyed : start.Keyed) {id : Int64} {before : Submission}
    (found : start.submissions.get? id = some before) {past : List Event} {now : System}
    (run : Run s Free (idle start) past now) (judged : ∃ e ∈ past, e.begins id = true)
    (ended : ∀ i r, now.running i = some r → r.job.judges? ≠ some id) :
    ∃ o r, lastCommit id past = some o ∧ now.store.submissions.get? id = some r ∧ r.outcome = o ∧
      r.status.isTerminal = true := by
  let d : Docket := ⟨id, before.problemId, start.problems.get? before.problemId⟩
  have docket : start.docket? d.id = some d := by
    unfold Store.docket?
    rw [found]
    rfl
  obtain ⟨stages, desk, -, view, settling⟩ := run.exists_desk keyed docket found
    (I := fun past => Desk.Settling id past) (.inr (.inl fun _ none => nomatch none))
    (fun _ _ _ _ _ _ _ _ settling step => settling.step step)
  obtain ⟨r, there, same⟩ := Option.map_eq_some_iff.1 view.shown
  rcases settling with ⟨i, stage, pass, -⟩ | never | ⟨last, terminal⟩
  · rw [view.passes i] at pass
    obtain ⟨running, here, own⟩ := Option.bind_eq_some_iff.1 pass
    rw [if_neg (ended i running here)] at own
    cases own
  · obtain ⟨e, he, begins⟩ := judged
    rw [never e he] at begins
    cases begins
  · rw [← same] at last terminal
    exact ⟨_, r, last, there, rfl, terminal⟩

/-- Two passes over the lone submission that begin one after the other and then race. -/
theorem last_commit_shown_lone : ∃ past now o r,
    Run {} Free (idle lone) past now ∧ lastCommit 1 past = some o ∧
      now.store.submissions.get? 1 = some r ∧ r.outcome = o ∧ r.status.isTerminal = true := by
  have free : ∀ x e, (∀ i job, e ≠ Event.began i job) → Free x e := fun _ _ _ => trivial
  let both := ((idle lone).begin {} 0 (.judge 1)).begin {} 1 (.rejudge 1)
  have begun : Run {} Free (idle lone) [.began 0 (.judge 1), .began 1 (.rejudge 1)] both :=
    (Run.one trivial (.began (.judge 1) rfl)).step trivial (.began (.rejudge 1) rfl)
  obtain ⟨later, x, first, left⟩ := exists_run_rest free 0 (.judge 1) _ both rfl
  have waits : x.running 1 = some ⟨.rejudge 1, ((Job.rejudge 1).work {}).run⟩ := by
    rw [left]
    rfl
  obtain ⟨last, now, second, nobody⟩ := exists_run_rest free 1 (.rejudge 1) _ x waits
  have run := (begun.trans first).trans second
  have ended : ∀ i r, now.running i = some r → r.job.judges? ≠ some 1 := by
    intro i r here
    rw [nobody, left] at here
    simp only [both, begin, Function.update_apply, idle] at here
    grind
  obtain ⟨o, r, shown⟩ := last_commit_shown lone_keyed rfl run ⟨.began 0 (.judge 1), by simp, rfl⟩ ended
  exact ⟨_, now, o, r, run, shown⟩

end System

end Arbiter
