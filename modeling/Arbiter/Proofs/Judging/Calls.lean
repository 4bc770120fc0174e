import Arbiter.Proofs.Judging.Course

/-! The sandboxes that a pass starts, as its parts start them. Main statements: before its test cases a
pass compiles, and is ready for them only if that succeeds; a test case is run once at most, and checked
only after a clean run. -/

namespace Arbiter

open Program (Path done own)
open Sandbox (Folder Handle Spec)

/-- The request is one to sandboxes. -/
def Work.Request.isCall : Work.Request → Bool
  | .launch _ | .wait .. | .remove _ => true
  | _ => false

/-- The sandbox of a compile command. -/
def SandboxSettings.compileSpec (s : SandboxSettings) (language : Language) (command : String)
    (folder : Folder) (memoryLimitMb : UInt32) : Spec :=
  s.spec language.image (Judging.arguments command) folder false
    (Judging.cappedProduct memoryLimitMb s.compileMemoryFactor) s.compileTimeout

namespace Judging

/-- The sandbox in which a special judge decides the test case with an index. -/
def SpecialJudge.spec (s : SandboxSettings) (j : SpecialJudge) (index : Nat) : Spec :=
  s.spec j.language.image (arguments j.language.runCommand ++
    [toString index ++ ".in", toString index ++ ".out", toString index ++ ".ans"]) .judge true
    j.language.memoryLimitMb s.checkTimeout

/-- What is exchanged with sandboxes. -/
def calls (past : Traffic) : Traffic := past.filter (·.1.isCall)

@[simp] theorem calls_append (past later : Traffic) :
    calls (past ++ later) = calls past ++ calls later :=
  List.filter_append _ _

@[simp] theorem calls_nil : calls [] = [] := rfl

/-- One use of a sandbox, which ends in some way. -/
inductive Sandboxed (spec : Spec) : Except Sandbox.Fault Sandbox.Output → Traffic → Prop
  | refused (fault : Sandbox.Fault) :
    Sandboxed spec (.error fault) [⟨.launch spec, Except.error fault⟩]
  | ran (sandbox : Handle) (ending : Except Sandbox.Fault Sandbox.Output)
    (removed : Except Sandbox.Fault Unit) : Sandboxed spec ending
      [⟨.launch spec, Except.ok sandbox⟩, ⟨.wait sandbox spec.wallTimeout, ending⟩,
        ⟨.remove sandbox, removed⟩]

/-- The sandboxes of a compile step that comes to an outcome. -/
inductive Compiles (s : SandboxSettings) (past : Traffic) (language : Language) (folder : Folder)
    (memoryLimitMb : UInt32) : CompileOutcome → Traffic → Prop
  | unneeded (none : language.compileCommand = none) :
    Compiles s past language folder memoryLimitMb .compiled []
  /-- It has succeeded only if the command did and its product, if it is to have one, is there. -/
  | ran {command : String} {outcome : CompileOutcome} {ending : Except Sandbox.Fault Sandbox.Output}
    {used : Traffic} (needed : language.compileCommand = some command)
    (run : Sandboxed (s.compileSpec language command folder memoryLimitMb) ending used)
    (success : outcome = .compiled → (∃ output, ending = .ok output ∧ output.exitCode = 0) ∧
      ∀ artifact ∈ language.compileArtifact, ⟨Work.Request.holds folder artifact, true⟩ ∈ past) :
    Compiles s past language folder memoryLimitMb outcome used

/-- The records that a pass over a submission has read. -/
structure Read (id : Int64) (past : Traffic) (submission : Submission) (problem : Problem)
    (language : Language) : Prop where
  ofSubmission : ⟨Work.Request.store (.submission id), Except.ok (some submission)⟩ ∈ past
  ofProblem : ⟨Work.Request.store (.problem submission.problemId), Except.ok (some problem)⟩ ∈ past
  ofLanguage : ⟨Work.Request.store (.language submission.languageId), Except.ok (some language)⟩ ∈ past

/-- The sandboxes of a pass before its test cases, which are ready to be run or not. -/
inductive Opening (s : SandboxSettings) (id : Int64) (past : Traffic) : Option Prepared → Traffic → Prop
  | unstarted : Opening s id past none []
  /-- The program did not compile, or the special judge was not got as far as to be compiled. -/
  | stopped {submission : Submission} {problem : Problem} {language : Language}
    {outcome : CompileOutcome} {used : Traffic} (read : Read id past submission problem language)
    (compile : Compiles s past language .work
      (Limits.effective problem.timeLimitMs problem.memoryLimitMb language).memoryMb outcome used) :
    Opening s id past none used
  /-- The special judge did not compile. -/
  | unjudged {submission : Submission} {problem : Problem} {language spoken : Language}
    {outcome : CompileOutcome} {first second : Traffic}
    (read : Read id past submission problem language) (special : problem.judgeMode = .special)
    (compile : Compiles s past language .work
      (Limits.effective problem.timeLimitMs problem.memoryLimitMb language).memoryMb .compiled first)
    (judge : Compiles s past spoken .judge spoken.memoryLimitMb outcome second) :
    Opening s id past none (first ++ second)
  | standard {p : Prepared} {used : Traffic} (read : Read id past p.submission p.problem p.language)
    (limits : p.limits = .effective p.problem.timeLimitMs p.problem.memoryLimitMb p.language)
    (standard : p.problem.judgeMode ≠ .special)
    (compile : Compiles s past p.language .work p.limits.memoryMb .compiled used) :
    Opening s id past (some p) used
  | special {p : Prepared} {judge : SpecialJudge} {code : String} {first second : Traffic}
    (read : Read id past p.submission p.problem p.language)
    (limits : p.limits = .effective p.problem.timeLimitMs p.problem.memoryLimitMb p.language)
    (special : p.problem.judgeMode = .special)
    (compile : Compiles s past p.language .work p.limits.memoryMb .compiled first)
    (ready : p.judge = some judge) (source : p.problem.specialCode = some code)
    (written : ⟨Work.Request.write .judge judge.language.sourceFile code, Except.ok ()⟩ ∈ past)
    (judge : Compiles s past judge.language .judge judge.language.memoryLimitMb .compiled second) :
    Opening s id past (some p) (first ++ second)

/-- A program that ended by itself and kept to its limits. -/
structure Clean (limits : Limits) (output : Sandbox.Output) : Prop where
  exit : output.exitCode = 0
  time : (Sandbox.splitErrors output.stderr).1.elim 0 (·.cpuMs) ≤ limits.timeMs
  memory : (max ((Sandbox.splitErrors output.stderr).1.elim 0 (·.maxRssKb)) output.peakMemoryKb).toNat ≤
    limits.memoryKb
  alive : output.oomKilled = false

/-- The sandboxes of one test case. -/
inductive CaseCalls (s : SandboxSettings) (run : Run) : Traffic → Prop
  | unstarted : CaseCalls s run []
  | ran {ending : Except Sandbox.Fault Sandbox.Output} {used : Traffic}
    (ran : Sandboxed (run.spec s) ending used) : CaseCalls s run used
  | checked {output : Sandbox.Output} {judge : SpecialJudge}
    {ending : Except Sandbox.Fault Sandbox.Output} {first second : Traffic}
    (special : run.mode = .special) (ready : run.judge = some judge)
    (ran : Sandboxed (run.spec s) (.ok output) first) (clean : Clean run.limits output)
    (checked : Sandboxed (judge.spec s run.index) ending second) : CaseCalls s run (first ++ second)

section Quiet

/-! What a pass does without any sandbox. -/

variable {α ε : Type} {past : Traffic}

/-- The work starts no sandbox. -/
abbrev Quiet (w : Work α) : Prop := w.Only fun q => q.isCall = false

theorem Quiet.calls_eq {w rest : Work α} (quiet : Quiet w) (path : Path w past rest) : calls past = [] := by
  induction path with
  | refl => rfl
  | ask reply _ ih =>
    rw [calls, List.filter_cons_of_neg (by simp [quiet.1])]
    exact ih (quiet.2 reply)

theorem quiet_store (q : Store.Request) : Quiet (Work.store q) := ⟨rfl, fun _ => trivial⟩

theorem mem_of_store {q : Store.Request} {reply : q.Reply} (path : Path (Work.store q) past (done reply)) :
    ⟨Work.Request.store q, reply⟩ ∈ past := by
  rw [path.of_request]
  exact List.mem_singleton_self _

section Parts

/-! Parts of a pass that put requests of one kind only. -/

variable {P : Work.Request → Prop}

theorem only_step {fault : ε → Fault} {w : Work (Except ε α)} (only : w.Only P) :
    (step fault w).run.Only P := by
  refine only.run_lift.run_bind fun r => ?_
  cases r <;> trivial

theorem only_find {absent : Fault} {w : Work (Except Store.Fault (Option α))} (only : w.Only P) :
    (find absent w).run.Only P := by
  refine (only_step only).run_bind fun x => ?_
  cases x <;> trivial

theorem only_attachGraph (submission : Submission)
    (saves : ∀ graph, P (.store (.saveGraph submission.id graph))) : (attachGraph submission).Only P := by
  unfold attachGraph
  split
  · trivial
  · exact ⟨saves _, fun _ => trivial⟩

theorem only_caseCount (id : Int64) (finds : P (.store (.submission id)))
    (reads : ∀ problem, P (.store (.problem problem))) : (caseCount id).Only P := by
  refine ⟨finds, fun found => ?_⟩
  match found with
  | .ok (some submission) =>
    refine ⟨reads _, fun found => ?_⟩
    match found with
    | .ok (some problem) => trivial
    | .ok none | .error _ => trivial
  | .ok none | .error _ => trivial

end Parts

theorem quiet_step {fault : ε → Fault} {w : Work (Except ε α)} (quiet : Quiet w) :
    Quiet (step fault w).run := only_step quiet

theorem quiet_find {absent : Fault} {w : Work (Except Store.Fault (Option α))} (quiet : Quiet w) :
    Quiet (find absent w).run := only_find quiet

theorem quiet_finish (submission : Submission) (language : Language) (outcome : JudgeOutcome) :
    Quiet (finish submission language outcome).run := by
  refine (quiet_step (quiet_store _)).run_bind fun _ => ?_
  show Quiet (ExceptT.run (if language.isPython = true then _ else _))
  split
  · exact (only_attachGraph submission fun _ => rfl).run_lift.run_bind fun _ => trivial
  · trivial

theorem quiet_report (p : Prepared) (results : List TestCaseResult) : Quiet (report p results).run := by
  refine (quiet_finish _ _ _).run_bind fun status => ?_
  show Quiet (ExceptT.run (if _ then _ else _))
  split
  · exact (quiet_step (quiet_store _)).run_bind fun _ => trivial
  · trivial

theorem quiet_conclude (id : Int64) {w : ExceptT Fault Work Status} (quiet : Quiet w.run) :
    Quiet (conclude id w).run := by
  refine (Program.Only.run_lift quiet).run_bind fun r => ?_
  cases r with
  | ok status => trivial
  | error fault =>
    refine (only_caseCount (P := fun q => q.isCall = false) id rfl fun _ => rfl).run_lift.run_bind fun count => ?_
    exact (quiet_step (quiet_store _)).run_bind fun _ => trivial

theorem quiet_writeAll (files : List (String × String)) : Quiet (SpecialJudge.writeAll files) := by
  induction files with
  | nil => trivial
  | cons f rest ih =>
    refine ⟨rfl, fun reply => ?_⟩
    cases reply with
    | error fault => trivial
    | ok _ => exact ih

end Quiet

section Opening

variable {α ε : Type} {s : SandboxSettings} {id : Int64} {past known : Traffic}

theorem path_step {fault : ε → Fault} {w : Work (Except ε α)} {r : Except Fault α}
    (path : Path (step fault w).run past (done r)) :
    (∃ e, r = .error (fault e) ∧ Path w past (done (.error e))) ∨
      ∃ a, r = .ok a ∧ Path w past (done (.ok a)) := by
  obtain ⟨x, first, second, rfl, here, there⟩ := path.of_lift_bind
  cases x with
  | error e =>
    obtain ⟨rfl, rfl⟩ := there.of_done
    exact .inl ⟨e, rfl, by simpa using here⟩
  | ok a =>
    obtain ⟨rfl, rfl⟩ := there.of_done
    exact .inr ⟨a, rfl, by simpa using here⟩

theorem path_find {absent : Fault} {w : Work (Except Store.Fault (Option α))} {a : α}
    (path : Path (find absent w).run past (done (.ok a))) : Path w past (done (.ok (some a))) := by
  rcases path.of_run_bind with ⟨_, none, -⟩ | ⟨x, first, second, rfl, here, there⟩
  · cases none
  · rcases path_step here with ⟨_, none, -⟩ | ⟨x, same, here⟩
    · cases none
    · cases same
      cases x with
      | none => cases (there.of_done).2
      | some a =>
        obtain ⟨rfl, same⟩ := there.of_done
        cases same
        simpa using here

theorem path_execute {spec : Spec} {ending : Except Sandbox.Fault Sandbox.Output}
    (path : Path (Work.execute spec) past (done ending)) : Sandboxed spec ending past := by
  obtain ⟨launched, later, rfl, rest⟩ := path.of_ask
  cases launched with
  | error fault =>
    obtain ⟨rfl, rfl⟩ := rest.of_done
    exact .refused fault
  | ok sandbox =>
    obtain ⟨ending', later, rfl, waited⟩ := rest.of_ask
    obtain ⟨removed, later, rfl, ended⟩ := waited.of_ask
    obtain ⟨rfl, rfl⟩ := ended.of_done
    exact .ran sandbox _ removed

theorem Sandboxed.calls_eq {spec : Spec} {ending : Except Sandbox.Fault Sandbox.Output}
    (run : Sandboxed spec ending past) : calls past = past := by
  cases run <;> rfl

theorem Compiles.mono {language : Language} {folder : Folder} {memoryLimitMb : UInt32}
    {outcome : CompileOutcome} {used : Traffic} (more : past ⊆ known)
    (h : Compiles s past language folder memoryLimitMb outcome used) :
    Compiles s known language folder memoryLimitMb outcome used := by
  cases h with
  | unneeded none => exact .unneeded none
  | ran needed run success =>
    exact .ran needed run fun compiled => (success compiled).imp_right fun held artifact some =>
      more (held artifact some)

theorem path_compile {language : Language} {folder : Folder} {memoryLimitMb : UInt32}
    {outcome : CompileOutcome} (path : Path (compile s language folder memoryLimitMb) past (done outcome)) :
    Compiles s past language folder memoryLimitMb outcome (calls past) := by
  unfold compile at path
  cases needed : language.compileCommand with
  | none =>
    rw [needed] at path
    obtain ⟨rfl, rfl⟩ := path.of_done
    exact .unneeded needed
  | some command =>
    rw [needed] at path
    obtain ⟨ending, first, second, rfl, here, there⟩ := path.of_bind
    have run : Sandboxed (s.compileSpec language command folder memoryLimitMb) ending first :=
      path_execute here
    have used : Sandboxed (s.compileSpec language command folder memoryLimitMb) ending
        (calls first ++ []) := by rwa [run.calls_eq, List.append_nil]
    rw [calls_append]
    match ending with
    | .error (.timeout _) | .error (.launch _) | .error (.runtime _) | .error (.io _) =>
      obtain ⟨rfl, rfl⟩ := there.of_done
      exact .ran needed used nofun
    | .ok output =>
      dsimp only at there
      split at there
      · obtain ⟨rfl, rfl⟩ := there.of_done
        exact .ran needed used nofun
      · rename_i exit
        have exit : output.exitCode = 0 := not_not.1 exit
        cases product : language.compileArtifact with
        | none =>
          rw [product] at there
          obtain ⟨rfl, rfl⟩ := there.of_done
          exact .ran needed used fun _ => ⟨⟨output, rfl, exit⟩, by simp [product]⟩
        | some artifact =>
          rw [product] at there
          obtain ⟨held, rest, rfl, looked⟩ := there.of_ask
          cases held with
          | false =>
            obtain ⟨rfl, rfl⟩ := looked.of_done
            exact .ran needed used nofun
          | true =>
            obtain ⟨rfl, rfl⟩ := looked.of_done
            exact .ran needed used fun _ => ⟨⟨output, rfl, exit⟩, by simp [product]⟩

/-- The step of the program, if it does not end in a fault of the store. -/
theorem path_compileStep {language : Language} {limits : Limits} {r : Except Fault CompileOutcome}
    (path : Path (compileStep s id language limits).run past (done r)) :
    (∃ fault, r = .error fault) ∧ calls past = [] ∨ ∃ outcome, r = .ok outcome ∧
      Compiles s past language .work limits.memoryMb outcome (calls past) := by
  unfold compileStep at path
  split at path
  · rename_i none
    obtain ⟨rfl, rfl⟩ := path.of_done
    exact .inr ⟨_, rfl, .unneeded (Option.isNone_iff_eq_none.1 none)⟩
  · rcases path.of_run_bind with ⟨fault, rfl, stopped⟩ | ⟨_, first, second, rfl, marked, goesOn⟩
    · exact .inl ⟨⟨fault, rfl⟩, (quiet_step (quiet_store _)).calls_eq stopped⟩
    · obtain ⟨outcome, rfl, compiled⟩ := goesOn.of_run_lift
      refine .inr ⟨outcome, rfl, ?_⟩
      rw [calls_append, (quiet_step (quiet_store _)).calls_eq marked, List.nil_append]
      exact (path_compile compiled).mono (List.subset_append_right _ _)

/-- The sandboxes of the special judge's step, and what it comes to. -/
inductive JudgeCalls (s : SandboxSettings) (past : Traffic) (problem : Problem) :
    Except SpecialJudge.Fault (Option SpecialJudge) → Traffic → Prop
  | standard (standard : problem.judgeMode ≠ .special) : JudgeCalls s past problem (.ok none) []
  | unready (special : problem.judgeMode = .special) (fault : SpecialJudge.Fault) :
    JudgeCalls s past problem (.error fault) []
  | failed {spoken : Language} {outcome : CompileOutcome} {used : Traffic}
    (special : problem.judgeMode = .special)
    (compile : Compiles s past spoken .judge spoken.memoryLimitMb outcome used)
    (fault : SpecialJudge.Fault) : JudgeCalls s past problem (.error fault) used
  | ready {spoken : Language} {code : String} {used : Traffic} (special : problem.judgeMode = .special)
    (source : problem.specialCode = some code)
    (written : ⟨Work.Request.write .judge spoken.sourceFile code, Except.ok ()⟩ ∈ past)
    (compile : Compiles s past spoken .judge spoken.memoryLimitMb .compiled used) :
    JudgeCalls s past problem (.ok (some ⟨spoken⟩)) used

theorem JudgeCalls.mono {problem : Problem} {r : Except SpecialJudge.Fault (Option SpecialJudge)}
    {used : Traffic} (more : past ⊆ known) (h : JudgeCalls s past problem r used) :
    JudgeCalls s known problem r used := by
  cases h with
  | standard standard => exact .standard standard
  | unready special fault => exact .unready special fault
  | failed special compile fault => exact .failed special (compile.mono more) fault
  | ready special source written compile => exact .ready special source (more written) (compile.mono more)

theorem path_prepareJudge {problem : Problem} (special : problem.judgeMode = .special)
    {code : String} (source : problem.specialCode = some code) {language : Language}
    {made : Except SpecialJudge.Fault SpecialJudge}
    (path : Path (SpecialJudge.prepare s language code).run past (done made)) :
    JudgeCalls s past problem (made.map some) (calls past) := by
  unfold SpecialJudge.prepare at path
  obtain ⟨written, first, second, rfl, wrote, goesOn⟩ := path.of_lift_bind
  cases wrote.of_request
  have quiet : calls [⟨Work.Request.write .judge language.sourceFile code, written⟩] = [] := rfl
  rw [calls_append, quiet, List.nil_append]
  cases written with
  | error fault =>
    obtain ⟨rfl, rfl⟩ := goesOn.of_done
    exact .unready special _
  | ok _ =>
    obtain ⟨outcome, used, last, rfl, compiled, ended⟩ := Path.of_lift_bind goesOn
    have compile := (path_compile compiled).mono (List.subset_cons_self
      ⟨Work.Request.write .judge language.sourceFile code, Except.ok ()⟩ used)
    cases outcome with
    | failed verdict message =>
      obtain ⟨rfl, rfl⟩ := ended.of_done
      rw [List.append_nil]
      exact .failed special compile _
    | compiled =>
      obtain ⟨rfl, rfl⟩ := ended.of_done
      rw [List.append_nil]
      exact .ready special source List.mem_cons_self compile

theorem path_ofProblem {problem : Problem} (special : problem.judgeMode = .special)
    {made : Except SpecialJudge.Fault SpecialJudge}
    (path : Path (SpecialJudge.ofProblem s problem).run past (done made)) :
    JudgeCalls s past problem (made.map some) (calls past) := by
  unfold SpecialJudge.ofProblem at path
  cases source : problem.specialCode with
  | none =>
    rw [source] at path
    obtain ⟨rfl, rfl⟩ := path.of_done
    exact .unready special _
  | some code =>
    rw [source] at path
    cases spoken : problem.specialLanguageId with
    | none =>
      rw [spoken] at path
      obtain ⟨rfl, rfl⟩ := path.of_done
      exact .unready special _
    | some id =>
      rw [spoken] at path
      obtain ⟨found, first, second, rfl, asked, goesOn⟩ := Path.of_lift_bind path
      rw [calls_append, (quiet_store _).calls_eq asked, List.nil_append]
      match found with
      | .error _ | .ok none =>
        obtain ⟨rfl, rfl⟩ := goesOn.of_done
        exact .unready special _
      | .ok (some language) =>
        obtain ⟨folder, making, later, rfl, opened, prepares⟩ := Path.of_lift_bind goesOn
        cases opened.of_request
        have quiet : calls [⟨Work.Request.makeJudgeFolder, folder⟩] = [] := rfl
        rw [calls_append, quiet, List.nil_append]
        cases folder with
        | error _ =>
          obtain ⟨rfl, rfl⟩ := prepares.of_done
          exact .unready special _
        | ok _ =>
          refine (path_prepareJudge special source prepares).mono fun e he => ?_
          exact List.mem_append_right _ (List.mem_append_right _ he)

theorem path_judgeStep {problem : Problem} {r : Except SpecialJudge.Fault (Option SpecialJudge)}
    (path : Path (judgeStep s problem) past (done r)) : JudgeCalls s past problem r (calls past) := by
  unfold judgeStep at path
  split at path
  · rename_i special
    obtain ⟨made, first, second, rfl, here, ended⟩ := path.of_bind
    obtain ⟨rfl, rfl⟩ := ended.of_done
    rw [List.append_nil]
    exact path_ofProblem special here
  · rename_i standard
    obtain ⟨rfl, rfl⟩ := path.of_done
    exact .standard standard

/-- What a pass has prepared, if it has. -/
def ready? : Except Fault (Status ⊕ Prepared) → Option Prepared
  | .ok (.inr p) => some p
  | _ => none

/-- A pass that ends with an outcome runs no test cases. -/
theorem path_finish_inl {submission : Submission} {language : Language} {outcome : JudgeOutcome}
    {result : Except Fault (Status ⊕ Prepared)}
    (path : Path (do return .inl (← finish submission language outcome) :
      ExceptT Fault Work (Status ⊕ Prepared)).run past (done result)) :
    ready? result = none ∧ calls past = [] := by
  rcases path.of_run_bind with ⟨fault, rfl, stopped⟩ | ⟨status, first, second, rfl, stored, ended⟩
  · exact ⟨rfl, (quiet_finish _ _ _).calls_eq stopped⟩
  · obtain ⟨rfl, rfl⟩ := ended.of_done
    rw [List.append_nil]
    exact ⟨rfl, (quiet_finish _ _ _).calls_eq stored⟩

theorem quiet_openWorkspace (label : String) : Quiet (Work.openWorkspace label) := ⟨rfl, fun _ => trivial⟩

theorem quiet_write (folder : Folder) (name contents : String) : Quiet (Work.write folder name contents) :=
  ⟨rfl, fun _ => trivial⟩

theorem Read.mono {submission : Submission} {problem : Problem} {language : Language}
    (more : past ⊆ known) (read : Read id past submission problem language) :
    Read id known submission problem language :=
  ⟨more read.ofSubmission, more read.ofProblem, more read.ofLanguage⟩

/-- The opening of a pass whose records are there. -/
theorem opening_of_setUp {submission : Submission} {problem : Problem} {language : Language}
    {result : Except Fault (Status ⊕ Prepared)} (more : past ⊆ known)
    (read : Read id known submission problem language)
    (path : Path (setUp s id submission problem language).run past (done result)) :
    Opening s id known (ready? result) (calls past) := by
  unfold setUp at path
  rcases path.of_run_bind with ⟨fault, rfl, stopped⟩ | ⟨_, opening, later, rfl, opened, writes⟩
  · rw [(quiet_step (quiet_openWorkspace _)).calls_eq stopped]
    exact .unstarted
  rw [calls_append, (quiet_step (quiet_openWorkspace _)).calls_eq opened, List.nil_append]
  rcases writes.of_run_bind with ⟨fault, rfl, stopped⟩ | ⟨_, writing, later, rfl, wrote, compiles⟩
  · rw [(quiet_step (quiet_write _ _ _)).calls_eq stopped]
    exact .unstarted
  rw [calls_append, (quiet_step (quiet_write _ _ _)).calls_eq wrote, List.nil_append]
  rcases compiles.of_run_bind with ⟨fault, rfl, stopped⟩ | ⟨outcome, compiling, later, rfl, compiled, goesOn⟩
  · rcases path_compileStep stopped with ⟨-, none⟩ | ⟨_, none, -⟩
    · rw [none]
      exact .unstarted
    · cases none
  rcases path_compileStep compiled with ⟨⟨_, none⟩, -⟩ | ⟨_, same, compile⟩
  · cases none
  cases same
  have compile := compile.mono fun e he => more (by simp [he])
  rw [calls_append]
  cases outcome with
  | failed verdict message =>
    obtain ⟨unready, none⟩ := path_finish_inl goesOn
    rw [unready, none, List.append_nil]
    exact .stopped read compile
  | compiled =>
    obtain ⟨judge, judging, last, rfl, judged, ended⟩ := Path.of_lift_bind goesOn
    have judged := (path_judgeStep judged).mono fun e he => more (by simp [he])
    rw [calls_append]
    cases judge with
    | error fault =>
      obtain ⟨unready, none⟩ := path_finish_inl ended
      rw [unready, none, List.append_nil]
      generalize calls judging = used at judged
      cases judged with
      | unready =>
        rw [List.append_nil]
        exact .stopped read compile
      | failed special compile' => exact .unjudged read special compile compile'
    | ok judge =>
      obtain ⟨rfl, rfl⟩ := ended.of_done
      rw [calls_nil, List.append_nil]
      generalize calls judging = used at judged
      cases judged with
      | standard standard =>
        rw [List.append_nil]
        exact .standard read rfl standard compile
      | ready special source written compile' =>
        exact .special read rfl special compile rfl source written compile'

theorem Opening.mono {ready : Option Prepared} {used : Traffic} (more : past ⊆ known)
    (h : Opening s id past ready used) : Opening s id known ready used := by
  cases h with
  | unstarted => exact .unstarted
  | stopped read compile => exact .stopped (read.mono more) (compile.mono more)
  | unjudged read special compile judge =>
    exact .unjudged (read.mono more) special (compile.mono more) (judge.mono more)
  | standard read limits standard compile =>
    exact .standard (read.mono more) limits standard (compile.mono more)
  | special read limits special compile ready source written judge =>
    exact .special (read.mono more) limits special (compile.mono more) ready source (more written)
      (judge.mono more)

theorem opening_of_prepare {result : Except Fault (Status ⊕ Prepared)}
    (path : Path (prepare s id).run past (done result)) :
    Opening s id past (ready? result) (calls past) := by
  unfold prepare at path
  rcases path.of_run_bind with ⟨fault, rfl, stopped⟩ | ⟨submission, first, later, rfl, found, clears⟩
  · rw [(quiet_find (quiet_store _)).calls_eq stopped]
    exact .unstarted
  rw [calls_append, (quiet_find (quiet_store _)).calls_eq found, List.nil_append]
  rcases clears.of_run_bind with ⟨fault, rfl, stopped⟩ | ⟨_, second, later, rfl, cleared, finds⟩
  · rw [(quiet_step (quiet_store _)).calls_eq stopped]
    exact .unstarted
  rw [calls_append, (quiet_step (quiet_store _)).calls_eq cleared, List.nil_append]
  rcases finds.of_run_bind with ⟨fault, rfl, stopped⟩ | ⟨problem, third, later, rfl, posed, speaks⟩
  · rw [(quiet_find (quiet_store _)).calls_eq stopped]
    exact .unstarted
  rw [calls_append, (quiet_find (quiet_store _)).calls_eq posed, List.nil_append]
  rcases speaks.of_run_bind with ⟨fault, rfl, stopped⟩ | ⟨language, fourth, later, rfl, spoken, goesOn⟩
  · rw [(quiet_find (quiet_store _)).calls_eq stopped]
    exact .unstarted
  rw [calls_append, (quiet_find (quiet_store _)).calls_eq spoken, List.nil_append]
  have ofSubmission := mem_of_store (path_find found)
  have ofProblem := mem_of_store (path_find posed)
  have ofLanguage := mem_of_store (path_find spoken)
  refine opening_of_setUp (fun e he => by simp [he]) ⟨?_, ?_, ?_⟩ goesOn
  · exact List.mem_append_left _ ofSubmission
  · exact List.mem_append_right _ (List.mem_append_right _ (List.mem_append_left _ ofProblem))
  · exact List.mem_append_right _ (List.mem_append_right _ (List.mem_append_right _
      (List.mem_append_left _ ofLanguage)))

/-- A pass can stop after it has prepared its test cases. -/
theorem Opening.unready {p : Prepared} {used : Traffic} (h : Opening s id past (some p) used) :
    Opening s id past none used := by
  cases h with
  | standard read limits standard compile =>
    rw [limits] at compile
    exact .stopped read compile
  | special read limits special compile ready source written compile' =>
    rw [limits] at compile
    exact .unjudged read special compile compile'

theorem opening_of_approach {result : Except Fault (Status ⊕ Prepared)}
    (path : Path (approach s id).run past (done result)) :
    Opening s id past (ready? result) (calls past) := by
  unfold approach at path
  rcases path.of_run_bind with ⟨fault, rfl, stopped⟩ | ⟨ready, first, later, rfl, prepared, marks⟩
  · exact opening_of_prepare stopped
  have opening := (opening_of_prepare prepared).mono (List.subset_append_left first later)
  cases ready with
  | inl status =>
    obtain ⟨rfl, rfl⟩ := marks.of_done
    rwa [List.append_nil] at opening ⊢
  | inr p =>
    rw [calls_append]
    rcases marks.of_run_bind with ⟨fault, rfl, stopped⟩ | ⟨_, marking, last, rfl, marked, ended⟩
    · rw [(quiet_step (quiet_store _)).calls_eq stopped, List.append_nil]
      exact opening.unready
    · obtain ⟨rfl, rfl⟩ := ended.of_done
      simpa [(quiet_step (quiet_store _)).calls_eq marked] using opening

end Opening

section Cases

variable {s : SandboxSettings} {past : Traffic}

theorem clean_of_limitVerdict {limits : Limits} {output : Sandbox.Output}
    (none : limitVerdict? limits ((Sandbox.splitErrors output.stderr).1.elim 0 (·.cpuMs))
      (max ((Sandbox.splitErrors output.stderr).1.elim 0 (·.maxRssKb)) output.peakMemoryKb).toNat
      output = none) : Clean limits output := by
  unfold limitVerdict? at none
  split at none
  · cases none
  split at none
  · cases none
  split at none
  · cases none
  rename_i time memory exit
  simp only [not_or] at memory
  exact ⟨not_not.1 exit, UInt32.not_lt.1 time, Nat.not_lt.1 memory.1, by simpa using memory.2.2⟩

theorem path_check {j : SpecialJudge} {index : Nat} {case : TestCase} {output : String}
    {ruling : SpecialJudge.Ruling} (path : Path (j.check s index case output) past (done ruling)) :
    calls past = [] ∨ ∃ ending, Sandboxed (j.spec s index) ending (calls past) := by
  obtain ⟨written, first, second, rfl, wrote, goesOn⟩ := path.of_bind
  rw [calls_append, (quiet_writeAll _).calls_eq wrote, List.nil_append]
  cases written with
  | error fault =>
    obtain ⟨rfl, rfl⟩ := goesOn.of_done
    exact .inl rfl
  | ok _ =>
    obtain ⟨ending, used, last, rfl, executed, ended⟩ := goesOn.of_bind
    have checked : Sandboxed (j.spec s index) ending used := path_execute executed
    have none : last = [] := by cases ending <;> exact ended.of_done.1
    rw [none, List.append_nil, checked.calls_eq]
    exact .inr ⟨ending, checked⟩

theorem path_resultOf {run : Run} {output : Sandbox.Output} {result : TestCaseResult}
    (path : Path (resultOf s run output) past (done result)) :
    calls past = [] ∨ ∃ judge ending, run.mode = .special ∧ run.judge = some judge ∧
      Clean run.limits output ∧ Sandboxed (judge.spec s run.index) ending (calls past) := by
  unfold resultOf at path
  dsimp only at path
  split at path
  · obtain ⟨rfl, rfl⟩ := path.of_done
    exact .inl rfl
  · rename_i none
    split at path
    · rename_i judge special ready
      obtain ⟨ruling, first, second, rfl, checked, ended⟩ := path.of_bind
      obtain ⟨rfl, rfl⟩ := ended.of_done
      rw [List.append_nil]
      refine (path_check checked).imp_right fun ⟨ending, used⟩ => ?_
      exact ⟨judge, ending, special, ready, clean_of_limitVerdict none, used⟩
    · obtain ⟨rfl, rfl⟩ := path.of_done
      exact .inl rfl
    · split at path <;> (obtain ⟨rfl, rfl⟩ := path.of_done; exact .inl rfl)

theorem path_runCase {run : Run} {result : TestCaseResult}
    (path : Path (runCase s run) past (done result)) : CaseCalls s run (calls past) := by
  obtain ⟨written, first, second, rfl, wrote, goesOn⟩ := path.of_bind
  rw [calls_append, (quiet_write _ _ _).calls_eq wrote, List.nil_append]
  cases written with
  | error fault =>
    obtain ⟨rfl, rfl⟩ := goesOn.of_done
    exact .unstarted
  | ok _ =>
    obtain ⟨ending, used, last, rfl, executed, judges⟩ := goesOn.of_bind
    have ran : Sandboxed (run.spec s) ending used := path_execute executed
    rw [calls_append, ran.calls_eq]
    match ending with
    | .error (.timeout _) | .error (.launch _) | .error (.runtime _) | .error (.io _) =>
      obtain ⟨rfl, rfl⟩ := judges.of_done
      rw [calls_nil, List.append_nil]
      exact .ran ran
    | .ok output =>
      rcases path_resultOf judges with none | ⟨judge, ending, special, ready, clean, checked⟩
      · rw [none, List.append_nil]
        exact .ran ran
      · exact .checked special ready ran clean checked

theorem path_task {p : Prepared} {i : Nat} {run : Run} {result : Option TestCaseResult}
    (here : (runs p.problem p.language p.limits p.judge)[i]? = some run)
    (path : Path (p.task s i) past (done result)) : CaseCalls s run (calls past) := by
  unfold Prepared.task at path
  rw [here] at path
  obtain ⟨found, first, second, rfl, ran, joins⟩ := path.of_bind
  obtain ⟨joined, last, rfl, ended⟩ := joins.of_ask
  have quiet : Quiet (do return if ← Work.joined run.index then some found else none) :=
    ⟨rfl, fun _ => trivial⟩
  rw [calls_append, quiet.calls_eq joins, List.append_nil]
  exact path_runCase ran

end Cases

end Judging

end Arbiter
