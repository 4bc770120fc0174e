import Arbiter.Proofs.Judging.Afresh
import Arbiter.Proofs.Judging.Answers
import Mathlib.Data.List.Forall2
import Mathlib.Data.List.ReduceOption

/-! The course of a judging pass: what is exchanged up to its test cases, during them, where their tasks
take turns in any order, and after them. Main statement: a pass that takes its test cases one after the
other has such a course. -/

namespace Arbiter

namespace Program

variable {Request : Type} {Reply : Request → Type} {α ι : Type}

/-- Programs that go on one after the other are woven of their paths. -/
theorem Path.of_mapM [DecidableEq ι] {f : ι → Program Request Reply α} {is : List ι}
    (distinct : is.Nodup) {past : List (Exchange Request Reply)} {found : List α}
    (path : Path (is.mapM f) past (done found)) : ∃ during : List (ι × Exchange Request Reply),
      past = during.map (·.2) ∧ (∀ e ∈ during, e.1 ∈ is) ∧
      List.Forall₂ (fun i a => Path (f i) (own i during) (done a)) is found := by
  induction is generalizing past found with
  | nil =>
    obtain ⟨rfl, rfl⟩ := Path.of_done (a := []) path
    exact ⟨[], rfl, nofun, .nil⟩
  | cons i is ih =>
    obtain ⟨outside, distinct⟩ := List.nodup_cons.1 distinct
    rw [List.mapM_cons] at path
    obtain ⟨a, first, later, rfl, here, goesOn⟩ := path.of_bind
    obtain ⟨found, rest, last, rfl, others, ended⟩ := goesOn.of_bind
    obtain ⟨rfl, rfl⟩ := ended.of_done
    obtain ⟨during, rfl, members, woven⟩ := ih distinct others
    have none : own i during = [] := by
      refine List.filterMap_eq_nil_iff.2 fun e he => if_neg ?_
      rintro rfl
      exact outside (members e he)
    refine ⟨first.map (fun e => (i, e)) ++ during, by simp, ?_, ?_⟩
    · intro e he
      rcases List.mem_append.1 he with he | he
      · obtain ⟨_, -, rfl⟩ := List.mem_map.1 he
        exact List.mem_cons_self
      · exact .tail _ (members e he)
    · refine .cons ?_ ?_
      · rwa [own_append, own_map_same, none, List.append_nil]
      · have others : ∀ j ∈ is, i ≠ j := fun j hj same => outside (same ▸ hj)
        refine ((List.forall₂_and_left _ _).2 ⟨others, woven⟩).imp fun j b => ?_
        rintro ⟨other, path⟩
        rwa [own_append, own_map_other other, List.nil_append]

end Program

open Program (Path done own)

namespace Judging

/-- A pass up to its test cases, which its record shows by then. -/
def approach (s : SandboxSettings) (id : Int64) : ExceptT Fault Work (Status ⊕ Prepared) := do
  match ← prepare s id with
  | .inl status => return .inl status
  | .inr p =>
    step .store (Work.store (.setStatus p.submission.id .judging))
    return .inr p

/-- What a pass does with the results of its test cases. -/
def report (p : Prepared) (results : List TestCaseResult) : ExceptT Fault Work Status := do
  let outcome := JudgeOutcome.ofResults results
  let status ← finish p.submission p.language outcome
  if outcome.worst = .accepted then
    let _ ← step .store (Work.store (.addResolved p.submission.userId))
  return status

/-- What tasks exchange, each told by its place. -/
abbrev TaskTraffic := List (Nat × Program.Exchange Work.Request Work.Request.Reply)

variable (s : SandboxSettings) (id : Int64)

/-- What a pass exchanges before, during and after its test cases, up to its end. -/
inductive Course : Traffic → TaskTraffic → Traffic → Prop
  /-- The pass comes to a status without running any test case. -/
  | ended {before after : Traffic} {status : Status} {ending : Except Fault Status}
    (opening : Path (approach s id).run before (done (.ok (.inl status))))
    (closing : Path (conclude id (pure status)).run after (done ending)) : Course before [] after
  /-- The pass stops at a fault before any test case is run. -/
  | failed {before after : Traffic} {fault : Fault} {ending : Except Fault Status}
    (opening : Path (approach s id).run before (done (.error fault)))
    (closing : Path (conclude id (throw fault)).run after (done ending)) : Course before [] after
  /-- Each test case has a task of its own. The tasks go on as they like and come back in any order. -/
  | full {before after : Traffic} {during : TaskTraffic} {p : Prepared}
    {found : List (Option TestCaseResult)} {finished : List TestCaseResult} {ending : Except Fault Status}
    (opening : Path (approach s id).run before (done (.ok (.inr p))))
    (inside : ∀ e ∈ during, e.1 < p.problem.testcases.length)
    (tasks : List.Forall₂ (fun i o => Path (p.task s i) (own i during) (done o))
      (List.range p.problem.testcases.length) found)
    (order : finished.Perm found.reduceOption)
    (closing : Path (conclude id (report p (settle p.problem.testcases.length finished))).run after
      (done ending)) : Course before during after

theorem attempt_eq_approach : attempt s id = (do
    match ← approach s id with
    | .inl status => return status
    | .inr p => report p (← runCases s p.problem p.language p.limits p.judge)) := by
  rw [attempt_eq, approach]
  simp only [bind_assoc]
  refine congrArg _ (funext fun ready => ?_)
  cases ready with
  | inl status => rfl
  | inr p => simp only [casesStep, report, bind_assoc, pure_bind]

variable {s id}

theorem conclude_run (w : ExceptT Fault Work Status) : (conclude id w).run =
    w.run >>= fun r => (conclude id (ExceptT.mk (pure r))).run := by
  unfold conclude Work.ending
  simp only [ExceptT.run_bind, ExceptT.run_lift, ExceptT.run_mk, map_pure, pure_bind, bind_map_left]

/-- A pass that stops at a fault takes account of it, and so does one that goes on. -/
theorem path_conclude {α : Type} {w : ExceptT Fault Work α} {f : α → ExceptT Fault Work Status}
    {past : Traffic} {ending : Except Fault Status}
    (path : Path (conclude id (w >>= f)).run past (done ending)) :
    (∃ fault first second, past = first ++ second ∧ Path w.run first (done (.error fault)) ∧
      Path (conclude id (throw fault)).run second (done ending)) ∨
    ∃ a first second, past = first ++ second ∧ Path w.run first (done (.ok a)) ∧
      Path (conclude id (f a)).run second (done ending) := by
  rw [conclude_run] at path
  obtain ⟨r, first, second, rfl, here, there⟩ := path.of_bind
  rcases here.of_run_bind with ⟨fault, rfl, stopped⟩ | ⟨a, first, middle, rfl, begun, goesOn⟩
  · exact .inl ⟨fault, first, second, rfl, stopped, there⟩
  · refine .inr ⟨a, first, middle ++ second, List.append_assoc _ _ _, begun, ?_⟩
    rw [conclude_run]
    exact goesOn.bind there

theorem exists_course {past : Traffic} {ending : Except Fault Status}
    (path : Path (judge s id).run past (done ending)) :
    ∃ before during after, Course s id before during after ∧
      past = before ++ (during.map (·.2) ++ after) := by
  have path : Path (conclude id (attempt s id)).run past (done ending) := path
  rw [attempt_eq_approach] at path
  rcases path_conclude path with ⟨fault, before, after, rfl, opening, closing⟩ |
    ⟨ready, before, later, rfl, opening, goesOn⟩
  · exact ⟨before, [], after, .failed opening closing, rfl⟩
  · cases ready with
    | inl status => exact ⟨before, [], later, .ended opening goesOn, rfl⟩
    | inr p =>
      rcases path_conclude goesOn with ⟨fault, _, _, rfl, none, -⟩ | ⟨results, middle, after, rfl, here, closing⟩
      · obtain ⟨_, none, -⟩ := none.of_run_lift
        cases none
      · obtain ⟨results, same, here⟩ := here.of_run_lift
        cases same
        rw [runCases_eq] at here
        obtain ⟨found, during, last, rfl, tasks, ended⟩ := here.of_bind
        obtain ⟨rfl, rfl⟩ := ended.of_done
        obtain ⟨during, rfl, inside, woven⟩ := tasks.of_mapM List.nodup_range
        refine ⟨before, during, after, .full opening (fun e he => List.mem_range.1 (inside e he)) woven
          (.refl _) closing, by simp⟩

end Judging

end Arbiter
