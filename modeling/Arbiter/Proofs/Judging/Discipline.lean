import Arbiter.Proofs.Judging.Handles
import Arbiter.Proofs.Judging.Settle

/-! The order that a pass keeps to with its sandboxes. Main statement: in whatever order the tasks of its
test cases go on and however its sandboxes fail, a pass compiles first, runs test cases only once all they
need is ready, and waits for and removes every sandbox that it starts, once. -/

namespace Arbiter.Judging

open Program (Path done own)
open Sandbox (Folder Spec)

/-- A sandbox without network that runs as the user and at the place that the settings give. -/
structure Guarded (s : SandboxSettings) (spec : Spec) : Prop where
  network : spec.networkDisabled = true
  user : spec.user = s.user
  mountPoint : spec.mountPoint = s.mountPoint

/-- All sandboxes that are started, or refused, are of `P`. -/
def Launches (P : Spec → Prop) (past : Traffic) : Prop :=
  ∀ spec reply, ⟨Work.Request.launch spec, reply⟩ ∈ past → P spec

/-- What a pass does with sandboxes before, during and after its test cases. -/
structure Disciplined (s : SandboxSettings) (id : Int64) (before : Traffic) (during : TaskTraffic)
    (after : Traffic) : Prop where
  /-- It compiles first, and runs a test case only if all it needs is ready. -/
  opening : ∃ ready, Opening s id before ready (calls before) ∧ (ready = none → during = []) ∧
    ∀ p ∈ ready, (∀ e ∈ during, e.1 < p.problem.testcases.length) ∧
      ∀ i run, (runs p.problem p.language p.limits p.judge)[i]? = some run →
        CaseCalls s run (calls (own i during))
  closing : calls after = []
  paired : ∀ sandbox, Paired sandbox (before ++ (during.map (·.2) ++ after))
  guarded : Launches (Guarded s) (before ++ (during.map (·.2) ++ after))
  /-- Only what is compiled can be written. -/
  readOnly : Launches (·.readOnly = true) (during.map (·.2))

variable {s : SandboxSettings} {id : Int64} {past later : Traffic} {P : Spec → Prop}

theorem launches_nil : Launches P [] := by
  intro spec reply none
  cases none

theorem Launches.append (first : Launches P past) (second : Launches P later) :
    Launches P (past ++ later) :=
  fun spec reply h => (List.mem_append.1 h).elim (first spec reply) (second spec reply)

theorem launches_of_calls (h : Launches P (calls past)) : Launches P past :=
  fun spec reply here => h spec reply (List.mem_filter.2 ⟨here, rfl⟩)

theorem launches_of_own {during : TaskTraffic} (h : ∀ i, Launches P (own i during)) :
    Launches P (during.map (·.2)) := by
  intro spec reply here
  obtain ⟨⟨i, e⟩, member, rfl⟩ := List.mem_map.1 here
  exact h i spec reply (Program.mem_own.2 member)

theorem Sandboxed.launches {spec : Spec} {ending : Except Sandbox.Fault Sandbox.Output}
    (run : Sandboxed spec ending past) (h : P spec) : Launches P past := by
  intro other reply here
  cases run with
  | refused fault =>
    cases List.mem_singleton.1 here
    exact h
  | ran sandbox ending removed =>
    rcases List.mem_cons.1 here with same | here
    · cases same
      exact h
    · rcases List.mem_cons.1 here with same | here
      · cases same
      · cases List.mem_singleton.1 here

theorem Compiles.guarded {known : Traffic} {language : Language} {folder : Folder}
    {memoryLimitMb : UInt32} {outcome : CompileOutcome}
    (h : Compiles s known language folder memoryLimitMb outcome past) : Launches (Guarded s) past := by
  cases h with
  | unneeded => exact launches_nil
  | ran _ run => exact run.launches ⟨rfl, rfl, rfl⟩

theorem Opening.guarded {known : Traffic} {ready : Option Prepared}
    (h : Opening s id known ready past) : Launches (Guarded s) past := by
  cases h with
  | unstarted => exact launches_nil
  | stopped _ compile => exact compile.guarded
  | unjudged _ _ compile judge => exact compile.guarded.append judge.guarded
  | standard _ _ _ compile => exact compile.guarded
  | special _ _ _ compile _ _ _ judge => exact compile.guarded.append judge.guarded

theorem CaseCalls.guarded {run : Run} (h : CaseCalls s run past) :
    Launches (fun spec => Guarded s spec ∧ spec.readOnly = true) past := by
  cases h with
  | unstarted => exact launches_nil
  | ran ran => exact ran.launches ⟨⟨rfl, rfl, rfl⟩, rfl⟩
  | checked _ _ ran _ checked =>
    exact (ran.launches ⟨⟨rfl, rfl, rfl⟩, rfl⟩).append (checked.launches ⟨⟨rfl, rfl, rfl⟩, rfl⟩)

/-- It is enough to know what the opening, each of the test cases and the closing do. -/
theorem disciplined_of_parts {before after : Traffic} {during : TaskTraffic} {ready : Option Prepared}
    (opening : Opening s id before ready (calls before)) (idle : ready = none → during = [])
    (inside : ∀ p ∈ ready, ∀ e ∈ during, e.1 < p.problem.testcases.length)
    (cases : ∀ p ∈ ready, ∀ i run, (runs p.problem p.language p.limits p.judge)[i]? = some run →
      CaseCalls s run (calls (own i during)))
    (closing : calls after = []) : Disciplined s id before during after := by
  have bound : ∃ n, ∀ e ∈ during, e.1 < n := by
    cases ready with
    | none => exact ⟨0, by simp [idle rfl]⟩
    | some p => exact ⟨_, inside p rfl⟩
  have each : ∀ i, own i during = [] ∨ ∃ run, CaseCalls s run (calls (own i during)) := by
    intro i
    cases ready with
    | none => exact .inl (by rw [idle rfl]; rfl)
    | some p =>
      by_cases fits : i < p.problem.testcases.length
      · have here : i < (runs p.problem p.language p.limits p.judge).length := by simpa [runs] using fits
        exact .inr ⟨_, cases p rfl i _ (List.getElem?_eq_getElem here)⟩
      · refine .inl (List.filterMap_eq_nil_iff.2 fun e he => if_neg ?_)
        rintro rfl
        exact fits (inside p rfl e he)
  have pairs : ∀ sandbox i, Paired sandbox (own i during) := by
    intro sandbox i
    rcases each i with none | ⟨run, used⟩
    · rw [none]
      exact paired_nil
    · exact paired_of_calls used.paired
  have launched : ∀ i, Launches (fun spec => Guarded s spec ∧ spec.readOnly = true) (own i during) := by
    intro i
    rcases each i with none | ⟨run, used⟩
    · rw [none]
      exact launches_nil
    · exact launches_of_calls used.guarded
  have during_launched := launches_of_own launched
  have after_launched : Launches (Guarded s) after := launches_of_calls (closing ▸ launches_nil)
  obtain ⟨n, bound⟩ := bound
  refine ⟨⟨ready, opening, idle, fun p some => ⟨inside p some, cases p some⟩⟩, closing, ?_, ?_, ?_⟩
  · intro sandbox
    have last : Paired sandbox after := paired_of_calls (closing ▸ paired_nil)
    exact (paired_of_calls opening.paired).append ((paired_of_own bound (pairs sandbox)).append last)
  · exact (launches_of_calls opening.guarded).append (Launches.append
      (fun spec reply here => (during_launched spec reply here).1) after_launched)
  · exact fun spec reply here => (during_launched spec reply here).2

theorem disciplined_of_course {before after : Traffic} {during : TaskTraffic}
    (course : Course s id before during after) : Disciplined s id before during after := by
  cases course with
  | @ended _ status _ opening closing =>
    have used : Opening s id before none (calls before) := opening_of_approach opening
    have quiet : Quiet (conclude id (pure status)).run := quiet_conclude id trivial
    exact disciplined_of_parts used (fun _ => rfl) (by simp) (by simp) (quiet.calls_eq closing)
  | @failed _ fault _ opening closing =>
    have used : Opening s id before none (calls before) := opening_of_approach opening
    have quiet : Quiet (conclude id (throw fault)).run := quiet_conclude id trivial
    exact disciplined_of_parts used (fun _ => rfl) (by simp) (by simp) (quiet.calls_eq closing)
  | @full _ _ p found finished _ opening inside tasks order closing =>
    have ends : ∀ i run, (runs p.problem p.language p.limits p.judge)[i]? = some run →
        CaseCalls s run (calls (own i during)) := by
      intro i run here
      have fits : i < p.problem.testcases.length := by
        have := (List.getElem?_eq_some_iff.1 here).1
        simpa [runs] using this
      obtain ⟨length, each⟩ := List.forall₂_iff_get.1 tasks
      have path := each i (by simpa using fits) (by simpa [← length] using fits)
      rw [List.get_eq_getElem, List.getElem_range] at path
      exact path_task here path
    have used : Opening s id before (some p) (calls before) := opening_of_approach opening
    have quiet := quiet_conclude id (quiet_report p (settle p.problem.testcases.length finished))
    refine disciplined_of_parts used (by simp) (fun q same => ?_) (fun q same => ?_) (quiet.calls_eq closing)
    · cases Option.some.inj same
      exact inside
    · cases Option.some.inj same
      exact ends

/-- Every pass keeps to the order of its sandboxes and cleans up after itself, and one that takes its test
cases in turn is such a pass. -/
theorem pass_disciplined (s : SandboxSettings) (id : Int64) :
    (∀ before during after, Course s id before during after → Disciplined s id before during after) ∧
    ∀ past ending, Path (judge s id).run past (done ending) → ∃ before during after,
      Course s id before during after ∧ past = before ++ (during.map (·.2) ++ after) :=
  ⟨fun _ _ _ => disciplined_of_course, fun _ _ => exists_course⟩

theorem exists_path_approach : ∃ past,
    Path (approach {} 10).run past (done (.ok (.inr twoCasesReady))) := by
  obtain ⟨past, path⟩ := exists_path_prepare
  constructor
  exact path.bind (.ask (Except.ok ()) (.refl _))

theorem exists_path_checked : ∃ past result,
    Path (twoCasesReady.task {} 0) past (done result) ∧ (calls past).length = 6 := by
  constructor
  constructor
  constructor
  · apply Path.ask (Except.ok ())
    apply Path.ask (Except.ok ⟨"c1"⟩)
    apply Path.ask (Except.ok { stdout := "3" })
    apply Path.ask (Except.error (.runtime "busy"))
    apply Path.ask (Except.ok ())
    apply Path.ask (Except.ok ())
    apply Path.ask (Except.ok ())
    apply Path.ask (Except.ok ⟨"c2"⟩)
    apply Path.ask (Except.error (.io "lost"))
    apply Path.ask (Except.ok ())
    apply Path.ask true
    exact .refl _
  · rfl

theorem exists_path_refused : ∃ past result,
    Path (twoCasesReady.task {} 1) past (done result) ∧ (calls past).length = 1 := by
  constructor
  constructor
  constructor
  · apply Path.ask (Except.ok ())
    apply Path.ask (Except.error (.launch "no image"))
    apply Path.ask true
    exact .refl _
  · rfl

/-- One test case is checked, though nothing is heard of its judge, and the other is not started. -/
theorem pass_disciplined_twoCases : ∃ before during after, Course {} 10 before during after ∧
    (calls (own 0 during)).length = 6 ∧ (calls (own 1 during)).length = 1 ∧
    Disciplined {} 10 before during after := by
  obtain ⟨before, opening⟩ := exists_path_approach
  obtain ⟨first, checked, path, six⟩ := exists_path_checked
  obtain ⟨second, refused, path', one⟩ := exists_path_refused
  obtain ⟨after, closing⟩ := Program.ends_run Rehearsal.reply
    (conclude 10 (report twoCasesReady (settle 2 [checked, refused].reduceOption))).run twoCasesRehearsal
  have own_first : own 0 (first.map (fun e => (0, e)) ++ second.map fun e => (1, e)) = first := by
    rw [Program.own_append, Program.own_map_same, Program.own_map_other (by decide), List.append_nil]
  have own_second : own 1 (first.map (fun e => (0, e)) ++ second.map fun e => (1, e)) = second := by
    rw [Program.own_append, Program.own_map_same, Program.own_map_other (by decide), List.nil_append]
  have course : Course {} 10 before (first.map (fun e => (0, e)) ++ second.map fun e => (1, e)) after := by
    refine .full opening ?_ (.cons ?_ (.cons ?_ .nil)) (.refl _) closing
    · intro e he
      rcases List.mem_append.1 he with he | he
      · obtain ⟨_, -, rfl⟩ := List.mem_map.1 he
        exact Nat.zero_lt_two
      · obtain ⟨_, -, rfl⟩ := List.mem_map.1 he
        exact Nat.one_lt_two
    · rwa [own_first]
    · rwa [own_second]
  refine ⟨_, _, _, course, ?_, ?_, (pass_disciplined {} 10).1 _ _ _ course⟩
  · rwa [own_first]
  · rwa [own_second]

end Arbiter.Judging
