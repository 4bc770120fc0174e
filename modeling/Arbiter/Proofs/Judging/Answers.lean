import Arbiter.Proofs.Judging.Stage
import Arbiter.Proofs.Work.History
import Arbiter.Proofs.Work.Scope

/-! The files that a pass writes, and which of them are there when its program is started on a test
case. The directory of the special judge lies inside of the one that the program is given, so answers
can be read there. Main statement: in whatever order the test cases go on, these are answers of other
cases only, on which the program was started before. -/

namespace Arbiter

open Sandbox (Folder)

/-- All files below a folder, by their paths from there. -/
def Workspace.tree (w : Workspace) : Folder → Workspace.Files
  | .work => w.files ++ (w.judgeFiles.getD []).map fun f => (judgeFolderName ++ "/" ++ f.1, f.2)
  | .judge => w.judgeFiles.getD []

/-- What a request starts, and on which directory. -/
def Work.Request.launches? : Work.Request → Option (Folder × List String)
  | .launch spec => some (spec.folder, spec.command)
  | _ => none

namespace Judging

/-- A pass whose test cases can be run. -/
structure Prepared where
  submission : Submission
  problem : Problem
  language : Language
  limits : Limits
  judge : Option SpecialJudge

/-- A pass over records that are there up to its test cases, or to the status that it ends in without
them. -/
def setUp (s : SandboxSettings) (id : Int64) (submission : Submission) (problem : Problem)
    (language : Language) : ExceptT Fault Work (Status ⊕ Prepared) := do
  let limits := Limits.effective problem.timeLimitMs problem.memoryLimitMb language
  let count := problem.testcases.length
  step .workspace (Work.openWorkspace (workspaceLabel id))
  step .source (Work.write .work language.sourceFile submission.code)
  match ← compileStep s id language limits with
  | .failed verdict message =>
    return .inl (← finish submission language (.failed count verdict message))
  | .compiled =>
    match ← judgeStep s problem with
    | .error fault => return .inl (← finish submission language (.failed count .unknown fault.message))
    | .ok judge => return .inr ⟨submission, problem, language, limits, judge⟩

/-- A pass up to its test cases. -/
def prepare (s : SandboxSettings) (id : Int64) : ExceptT Fault Work (Status ⊕ Prepared) := do
  let submission ← find (.noSubmission id) (Work.store (.submission id))
  step .store (Work.store (.reset id))
  let problem ← find (.noProblem submission.problemId) (Work.store (.problem submission.problemId))
  let language ←
    find (.noLanguage submission.languageId) (Work.store (.language submission.languageId))
  setUp s id submission problem language

/-- A pass prepares its test cases and then runs them. -/
theorem attempt_eq (s : SandboxSettings) (id : Int64) : attempt s id = (do
    match ← prepare s id with
    | .inl status => return status
    | .inr p => casesStep s p.submission p.problem p.language p.limits p.judge) := by
  unfold attempt prepare setUp
  simp only [bind_assoc]
  refine congrArg _ (funext fun submission => ?_)
  refine congrArg _ (funext fun _ => ?_)
  refine congrArg _ (funext fun problem => ?_)
  refine congrArg _ (funext fun language => ?_)
  refine congrArg _ (funext fun _ => ?_)
  refine congrArg _ (funext fun _ => ?_)
  refine congrArg _ (funext fun ending => ?_)
  cases ending with
  | failed verdict message => simp
  | compiled =>
    simp only [bind_assoc]
    refine congrArg _ (funext fun judge => ?_)
    cases judge <;> simp

/-- The run on the test case at a place, from zero on, as a task of its own. -/
def Prepared.task (s : SandboxSettings) (p : Prepared) (i : Nat) : Work (Option TestCaseResult) :=
  match (runs p.problem p.language p.limits p.judge)[i]? with
  | some run => runTask s run
  | none => return none

/-- The tasks in the order of the test cases are what a pass does with them. -/
theorem runCases_eq (s : SandboxSettings) (p : Prepared) :
    runCases s p.problem p.language p.limits p.judge = (do
      let finished ← (List.range p.problem.testcases.length).mapM (p.task s)
      return settle p.problem.testcases.length (finished.filterMap id)) := by
  have each : (runs p.problem p.language p.limits p.judge).map some =
      (List.range p.problem.testcases.length).map
        ((runs p.problem p.language p.limits p.judge)[·]?) := by
    refine List.ext_getElem? fun i => ?_
    by_cases inside : i < p.problem.testcases.length
    · simp [runs, inside]
    · simp [runs, inside]
  have ran : (runs p.problem p.language p.limits p.judge).mapM (runTask s) =
      ((runs p.problem p.language p.limits p.judge).map some).mapM fun run? =>
        match run? with
        | some run => runTask s run
        | none => return none := by
    rw [List.mapM_map]
    rfl
  rw [runCases, ran, each, List.mapM_map]
  rfl

theorem exists_case {problem : Problem} {language : Language} {limits : Limits}
    {judge : Option SpecialJudge} {i : Nat} {run : Run}
    (here : (runs problem language limits judge)[i]? = some run) :
    ∃ case, problem.testcases[i]? = some case ∧ run.index = i + 1 ∧ run.case = case := by
  simp only [runs, List.getElem?_map, List.getElem?_zipIdx, Option.map_map,
    Option.map_eq_some_iff] at here
  obtain ⟨case, there, rfl⟩ := here
  exact ⟨case, there, Nat.add_comm 1 i, rfl⟩

/-- The sandbox of a run. -/
def Run.spec (s : SandboxSettings) (r : Run) : Sandbox.Spec :=
  s.spec r.language.image
    (Sandbox.wrapCommand r.language.runCommand (toString r.index ++ ".in")) .work true
    r.limits.memoryMb (s.wallBudget r.limits.timeMs)

/-- Requests of a task with their replies. -/
abbrev Traffic := List (Program.Exchange Work.Request Work.Request.Reply)

namespace Prepared

/-- The sources that are written before any test case is run. -/
inductive Source (p : Prepared) : Folder → String → String → Prop
  | program : Source p .work p.language.sourceFile p.submission.code
  | judge {language : Language} {code : String} (judge : p.judge = some ⟨language⟩)
    (source : p.problem.specialCode = some code) : Source p .judge language.sourceFile code

/-- A file for the test case at a place that is its input, or an output that the program gave. -/
inductive Sheet (p : Prepared) (i : Nat) (past : Traffic) : Folder → String → String → Prop
  | input {case : TestCase} (here : p.problem.testcases[i]? = some case) (folder : Folder) :
    Sheet p i past folder (toString (i + 1) ++ ".in") case.input
  | output {sandbox : Sandbox.Handle} {budget : Duration} {output : Sandbox.Output}
    (said : ⟨Work.Request.wait sandbox budget, Except.ok output⟩ ∈ past) :
    Sheet p i past .judge (toString (i + 1) ++ ".out") output.stdout

/-- The file with the expected output of the test case at a place. -/
inductive Answer (p : Prepared) (i : Nat) : Folder → String → String → Prop
  | mk {case : TestCase} (here : p.problem.testcases[i]? = some case) :
    Answer p i .judge (toString (i + 1) ++ ".ans") case.expectedOutput

/-- The program was started on the test case at a place. -/
def Launched (s : SandboxSettings) (p : Prepared) (i : Nat) (past : Traffic) : Prop :=
  ∃ run reply, (runs p.problem p.language p.limits p.judge)[i]? = some run ∧
    ⟨Work.Request.launch (run.spec s), reply⟩ ∈ past

/-- What the task of a case may ask: it writes sheets and, once the program was started, its answer. -/
def Fits (s : SandboxSettings) (p : Prepared) (i : Nat) (past : Traffic) : Work.Request → Prop
  | .write folder name contents =>
    p.Sheet i past folder name contents ∨ p.Answer i folder name contents ∧ p.Launched s i past
  | .launch spec => spec.folder = .work →
    ∀ folder name contents reply, ⟨Work.Request.write folder name contents, reply⟩ ∈ past →
      ¬ p.Answer i folder name contents
  | _ => True

variable (s : SandboxSettings) {p : Prepared} {i : Nat} {past : Traffic}

/-- What a sandbox leaves in the history of a task. -/
structure Ran (spec : Sandbox.Spec) (ending : Except Sandbox.Fault Sandbox.Output)
    (later : Traffic) : Prop where
  launched : ∃ reply, ⟨Work.Request.launch spec, reply⟩ ∈ later
  said (output : Sandbox.Output) : ending = .ok output →
    ∃ sandbox budget, ⟨Work.Request.wait sandbox budget, Except.ok output⟩ ∈ later

theorem wp_execute_fits {spec : Sandbox.Spec} (fits : p.Fits s i past (.launch spec))
    {Q : Except Sandbox.Fault Sandbox.Output → Traffic → Prop}
    (h : ∀ ending later, Ran spec ending later → Q ending (past ++ later)) :
    (Work.execute spec).wp (Program.admitting (p.Fits s i)) Q past := by
  refine ⟨fits, fun reply => ?_⟩
  cases reply with
  | error fault =>
    refine h (.error fault) _ ⟨⟨_, List.mem_singleton_self _⟩, fun output none => ?_⟩
    cases none
  | ok sandbox =>
    refine ⟨trivial, fun ending => ⟨trivial, fun removed => ?_⟩⟩
    have left := h ending [⟨.launch spec, .ok sandbox⟩, ⟨.wait sandbox spec.wallTimeout, ending⟩,
      ⟨.remove sandbox, removed⟩] ⟨⟨_, List.mem_cons_self⟩, fun output same => ?_⟩
    · rw [List.append_assoc, List.append_assoc]
      exact left
    · subst same
      exact ⟨sandbox, spec.wallTimeout, by simp⟩

theorem Sheet.append {folder : Folder} {name contents : String}
    (sheet : p.Sheet i past folder name contents) (later : Traffic) :
    p.Sheet i (past ++ later) folder name contents := by
  cases sheet with
  | input here => exact .input here folder
  | output said => exact .output (List.mem_append_left _ said)

theorem Launched.append (launched : p.Launched s i past) (later : Traffic) :
    p.Launched s i (past ++ later) := by
  obtain ⟨run, reply, here, started⟩ := launched
  exact ⟨run, reply, here, List.mem_append_left _ started⟩

theorem wp_writeAll_fits (files : List (String × String))
    (fits : ∀ f ∈ files, ∀ later, p.Fits s i (past ++ later) (.write .judge f.1 f.2))
    {Q : Except Workspace.Fault Unit → Traffic → Prop} (h : ∀ r later, Q r (past ++ later)) :
    (SpecialJudge.writeAll files).wp (Program.admitting (p.Fits s i)) Q past := by
  induction files generalizing past with
  | nil =>
    have ended := h (.ok ()) []
    rwa [List.append_nil] at ended
  | cons f rest ih =>
    have first := fits f List.mem_cons_self []
    rw [List.append_nil] at first
    refine ⟨first, fun reply => ?_⟩
    cases reply with
    | error fault => exact h _ _
    | ok _ =>
      refine ih (fun g here later => ?_) fun r later => ?_
      · rw [List.append_assoc]
        exact fits g (List.mem_cons_of_mem _ here) _
      · rw [List.append_assoc]
        exact h _ _

/-- A special judge gets the answer after the program was started. -/
theorem wp_check_fits (j : SpecialJudge) {case : TestCase}
    (here : p.problem.testcases[i]? = some case) (launched : p.Launched s i past)
    {sandbox : Sandbox.Handle} {budget : Duration} {output : Sandbox.Output}
    (said : ⟨Work.Request.wait sandbox budget, Except.ok output⟩ ∈ past)
    {Q : SpecialJudge.Ruling → Traffic → Prop} (h : ∀ ruling later, Q ruling later) :
    (j.check s (i + 1) case output.stdout).wp (Program.admitting (p.Fits s i)) Q past := by
  refine (Program.wp_bind _ _ _ _).2 (wp_writeAll_fits s _ (fun f file later => ?_) fun r later => ?_)
  · simp only [List.mem_cons, List.not_mem_nil, or_false] at file
    rcases file with rfl | rfl | rfl
    · exact .inl (.input here .judge)
    · exact .inl (.output (List.mem_append_left _ said))
    · exact .inr ⟨.mk here, launched.append s later⟩
  · cases r with
    | error fault => exact h _ _
    | ok _ =>
      refine (Program.wp_bind _ _ _ _).2 (wp_execute_fits s ?_ fun ending later _ => ?_)
      · intro own
        cases own
      · cases ending <;> exact h _ _

theorem wp_resultOf_fits {run : Run}
    (here : (runs p.problem p.language p.limits p.judge)[i]? = some run)
    (launched : p.Launched s i past) {sandbox : Sandbox.Handle} {budget : Duration}
    {output : Sandbox.Output} (said : ⟨Work.Request.wait sandbox budget, Except.ok output⟩ ∈ past)
    {Q : TestCaseResult → Traffic → Prop} (h : ∀ result later, Q result later) :
    (resultOf s run output).wp (Program.admitting (p.Fits s i)) Q past := by
  obtain ⟨case, there, index, same⟩ := exists_case here
  unfold resultOf
  dsimp only
  split
  · exact h _ _
  · split
    · rw [index, same]
      refine (Program.wp_bind _ _ _ _).2 (wp_check_fits s _ there launched said fun ruling later => ?_)
      exact h _ _
    · exact h _ _
    · split <;> exact h _ _

theorem wp_task_fits : (p.task s i).wp (Program.admitting (p.Fits s i)) (fun _ _ => True) [] := by
  unfold task
  split
  · rename_i run here
    obtain ⟨case, there, index, same⟩ := exists_case here
    refine (Program.wp_bind _ _ _ _).2 ((Program.wp_bind _ _ _ _).2 ⟨?_, fun written => ?_⟩)
    · rw [index, same]
      exact .inl (.input there .work)
    · cases written with
      | error fault => exact ⟨trivial, fun _ => trivial⟩
      | ok _ =>
        refine (Program.wp_bind _ _ _ _).2 (wp_execute_fits s ?_ fun ending later ran => ?_)
        · intro own folder name contents reply earlier answer
          cases List.mem_singleton.1 earlier
          cases answer
        · have joined (result : TestCaseResult) (later : Traffic) :
              (do return if ← Work.joined run.index then some result else none :
                Work (Option TestCaseResult)).wp (Program.admitting (p.Fits s i))
                (fun _ _ => True) later := ⟨trivial, fun _ => trivial⟩
          match ending with
          | .ok output =>
            obtain ⟨reply, started⟩ := ran.launched
            obtain ⟨sandbox, budget, said⟩ := ran.said output rfl
            exact wp_resultOf_fits s here ⟨run, reply, here, List.mem_append_right _ started⟩
              (List.mem_append_right _ said) joined
          | .error (.timeout _) => exact joined _ _
          | .error (.launch _) | .error (.runtime _) | .error (.io _) => exact joined _ _
  · trivial

end Prepared

section Preparing

variable (s : SandboxSettings)

/-- The request writes no file. -/
def WritesNothing : Work.Request → Prop
  | .write .. => False
  | _ => True

theorem only_execute (spec : Sandbox.Spec) : (Work.execute spec).Only WritesNothing := by
  refine ⟨trivial, fun reply => ?_⟩
  cases reply with
  | error fault => trivial
  | ok sandbox => exact ⟨trivial, fun _ => ⟨trivial, fun _ => trivial⟩⟩

theorem only_compile (language : Language) (folder : Folder) (memoryLimitMb : UInt32) :
    (compile s language folder memoryLimitMb).Only WritesNothing := by
  unfold compile
  cases language.compileCommand with
  | none => trivial
  | some command =>
    refine (only_execute _).bind fun ending => ?_
    match ending with
    | .error (.timeout _) => trivial
    | .error (.launch _) | .error (.runtime _) | .error (.io _) => trivial
    | .ok output =>
      dsimp only
      split
      · trivial
      · cases language.compileArtifact with
        | none => trivial
        | some artifact =>
          refine ⟨trivial, fun held => ?_⟩
          cases held <;> trivial

/-- The files that are written, by folder and name. -/
abbrev Written := List (Folder × String × String)

/-- Surroundings that reply as they like and keep what is written. -/
def noting : Program.Effect Work.Request Work.Request.Reply Written
  | .write folder name contents, files, K => ∀ reply, K reply (files ++ [(folder, name, contents)])
  | _, files, K => ∀ reply, K reply files

theorem wp_noting_of_only {α : Type} {w : Work α} (only : w.Only WritesNothing) {files : Written}
    {Q : α → Written → Prop} (h : ∀ a, Q a files) : w.wp noting Q files := by
  induction w with
  | done a => exact h a
  | ask q next ih =>
    cases q with
    | write folder name contents => exact only.1.elim
    | _ => exact fun reply => ih reply (only.2 reply)

theorem exists_written {α : Type} {w : Work α} {a : α} {later : Traffic}
    (path : Program.Path w later (Program.done a)) {files : Written} {Q : α → Written → Prop}
    (h : w.wp noting Q files) : ∃ all, Q a all ∧ files ⊆ all ∧
      ∀ folder name contents reply, ⟨Work.Request.write folder name contents, reply⟩ ∈ later →
        (folder, name, contents) ∈ all := by
  generalize ended : Program.done a = rest at path
  induction path generalizing files with
  | refl w =>
    subst ended
    exact ⟨files, h, fun _ => id, fun _ _ _ _ none => nomatch none⟩
  | @ask q next reply later rest goesOn ih =>
    cases q with
    | write folder name contents =>
      obtain ⟨all, left, kept, written⟩ := ih (h reply) ended
      refine ⟨all, left, fun f here => kept (List.mem_append_left _ here), ?_⟩
      intro folder' name' contents' reply' here
      rcases List.mem_cons.1 here with same | here
      · cases same
        exact kept (List.mem_append_right _ (List.mem_singleton_self _))
      · exact written _ _ _ _ here
    | _ =>
      obtain ⟨all, left, kept, written⟩ := ih (h reply) ended
      refine ⟨all, left, kept, ?_⟩
      intro folder' name' contents' reply' here
      rcases List.mem_cons.1 here with same | here
      · cases same
      · exact written _ _ _ _ here

theorem wp_noting_of_forall {α : Type} (w : Work α) {Q : α → Written → Prop}
    (h : ∀ a files, Q a files) (files : Written) : w.wp noting Q files := by
  induction w generalizing files with
  | done a => exact h a files
  | ask q next ih =>
    cases q with
    | _ => exact fun reply => ih reply _

/-- Where test cases can be run, the files that were written are the sources. -/
def SourcesOnly (result : Except Fault (Status ⊕ Prepared)) (files : Written) : Prop :=
  ∀ p, result = .ok (.inr p) → ∀ f ∈ files, p.Source f.1 f.2.1 f.2.2

theorem sourcesOnly_error (fault : Fault) (files : Written) : SourcesOnly (.error fault) files :=
  fun _ none => nomatch none

/-- A pass that ends without running test cases is not looked at any more. -/
theorem wp_noting_finish (submission : Submission) (language : Language) (outcome : JudgeOutcome)
    (files : Written) :
    (do return .inl (← finish submission language outcome) :
      ExceptT Fault Work (Status ⊕ Prepared)).run.wp noting SourcesOnly files := by
  refine (Program.wp_run_bind _ _ _ _).2 (wp_noting_of_forall _ (fun result files => ?_) files)
  cases result with
  | error fault => exact sourcesOnly_error fault files
  | ok status => exact fun _ none => nomatch none

theorem wp_noting_judgeStep {problem : Problem} {files : Written}
    {Q : Except SpecialJudge.Fault (Option SpecialJudge) → Written → Prop}
    (stopped : ∀ fault files, Q (.error fault) files) (standard : Q (.ok none) files)
    (ready : ∀ language code, problem.specialCode = some code →
      Q (.ok (some ⟨language⟩)) (files ++ [(.judge, language.sourceFile, code)])) :
    (judgeStep s problem).wp noting Q files := by
  unfold judgeStep
  split
  · refine (Program.wp_bind _ _ _ _).2 ?_
    unfold SpecialJudge.ofProblem
    cases source : problem.specialCode with
    | none => exact stopped _ _
    | some code =>
      cases problem.specialLanguageId with
      | none => exact stopped _ _
      | some id =>
        refine (Program.wp_run_bind _ _ _ _).2 fun reply => ?_
        match reply with
        | .error fault => exact stopped _ _
        | .ok none => exact stopped _ _
        | .ok (some language) =>
          refine (Program.wp_run_bind _ _ _ _).2 fun made => ?_
          cases made with
          | error fault => exact stopped _ _
          | ok _ =>
            refine (Program.wp_run_bind _ _ _ _).2 fun written => ?_
            cases written with
            | error fault => exact stopped _ _
            | ok _ =>
              refine (Program.wp_run_bind _ _ _ _).2 ?_
              refine (Program.wp_bind _ _ _ _).2 (wp_noting_of_only (only_compile s _ _ _) fun o => ?_)
              cases o with
              | compiled => exact ready language code source
              | failed verdict message => exact stopped _ _
  · exact standard

theorem only_compileStep (id : Int64) (language : Language) (limits : Limits) :
    (compileStep s id language limits).run.Only WritesNothing := by
  unfold compileStep
  split
  · trivial
  · refine Program.Only.run_bind (Program.Only.run_bind ⟨trivial, fun reply => trivial⟩ ?_) ?_
    · intro reply
      cases reply <;> trivial
    · exact fun _ => (only_compile s _ _ _).run_lift

theorem wp_noting_setUp (id : Int64) (submission : Submission) (problem : Problem)
    (language : Language) :
    (setUp s id submission problem language).run.wp noting SourcesOnly [] := by
  unfold setUp
  refine (Program.wp_run_bind _ _ _ _).2 ((wp_step _ _ _).2 fun opened => ?_)
  cases opened with
  | error fault => exact sourcesOnly_error _ _
  | ok _ =>
    refine (Program.wp_run_bind _ _ _ _).2 ((wp_step _ _ _).2 fun written => ?_)
    cases written with
    | error fault => exact sourcesOnly_error _ _
    | ok _ =>
      refine (Program.wp_run_bind _ _ _ _).2 ?_
      refine wp_noting_of_only (only_compileStep s id language _) fun ending => ?_
      match ending with
      | .error fault => exact sourcesOnly_error _ _
      | .ok (.failed verdict message) => exact wp_noting_finish _ _ _ _
      | .ok .compiled =>
        refine (Program.wp_run_bind _ _ _ _).2 ((Program.wp_run_lift _ _ _).2 ?_)
        refine wp_noting_judgeStep s (fun fault files => wp_noting_finish _ _ _ _) ?_ ?_
        · intro p same f here
          cases same
          cases List.mem_singleton.1 here
          exact .program
        · intro spoken code source p same f here
          cases same
          rcases List.mem_append.1 here with here | here
          · cases List.mem_singleton.1 here
            exact .program
          · cases List.mem_singleton.1 here
            exact .judge rfl source

theorem wp_noting_prepare (id : Int64) : (prepare s id).run.wp noting SourcesOnly [] := by
  unfold prepare
  refine (Program.wp_run_bind _ _ _ _).2 ((wp_find _ _ _).2 fun reply => ?_)
  match reply with
  | .error fault => exact sourcesOnly_error _ _
  | .ok none => exact sourcesOnly_error _ _
  | .ok (some submission) =>
    refine (Program.wp_run_bind _ _ _ _).2 ((wp_step _ _ _).2 fun cleared => ?_)
    cases cleared with
    | error fault => exact sourcesOnly_error _ _
    | ok _ =>
      refine (Program.wp_run_bind _ _ _ _).2 ((wp_find _ _ _).2 fun reply => ?_)
      match reply with
      | .error fault => exact sourcesOnly_error _ _
      | .ok none => exact sourcesOnly_error _ _
      | .ok (some problem) =>
        refine (Program.wp_run_bind _ _ _ _).2 ((wp_find _ _ _).2 fun reply => ?_)
        match reply with
        | .error fault => exact sourcesOnly_error _ _
        | .ok none => exact sourcesOnly_error _ _
        | .ok (some language) => exact wp_noting_setUp s id submission problem language

end Preparing

section Mounted

variable {s : SandboxSettings} {id : Int64} {p : Prepared} {past : Traffic}
  {during before after : List (Nat × Program.Exchange Work.Request Work.Request.Reply)}

/-- Before the test cases only sources are written. -/
theorem source_of_written
    (ready : Program.Path (prepare s id).run past (Program.done (.ok (.inr p)))) {folder : Folder}
    {name contents : String} {reply} (here : ⟨Work.Request.write folder name contents, reply⟩ ∈ past) :
    p.Source folder name contents := by
  obtain ⟨all, sources, -, written⟩ := exists_written ready (wp_noting_prepare s id)
  exact sources p rfl _ (written folder name contents reply here)

/-- When the program is started on a test case, whatever the judge has written by then is a source, an
input, an output that the program gave, or the answer of another case, on which it was started before. -/
theorem source_or_sheet_or_answer
    (ready : Program.Path (prepare s id).run past (Program.done (.ok (.inr p))))
    (woven : Program.Woven (p.task s) during) {i : Nat} {run : Run} {started}
    (now : during = before ++ (i, ⟨Work.Request.launch (run.spec s), started⟩) :: after)
    {folder : Folder} {name contents : String}
    (written : (∃ reply, ⟨Work.Request.write folder name contents, reply⟩ ∈ past) ∨
      ∃ j reply, (j, ⟨Work.Request.write folder name contents, reply⟩) ∈ before) :
    p.Source folder name contents ∨
      (∃ j, p.Sheet j (Program.own j before) folder name contents) ∨
      ∃ j, j ≠ i ∧ p.Answer j folder name contents ∧ p.Launched s j (Program.own j before) := by
  rcases written with ⟨reply, here⟩ | ⟨j, reply, here⟩
  · exact .inl (source_of_written ready here)
  · have admitted (k : Nat) := Prepared.wp_task_fits s (p := p) (i := k)
    have unanswered := woven.admitted admitted now rfl
    obtain ⟨first, rest, split⟩ := List.append_of_mem here
    have written : during = first ++ (j, ⟨.write folder name contents, reply⟩) ::
        (rest ++ (i, ⟨.launch (run.spec s), started⟩) :: after) := by
      rw [now, split, List.append_assoc]
      rfl
    have later : Program.own j before = Program.own j first ++ Program.own j
        ((j, ⟨.write folder name contents, reply⟩) :: rest) := by
      rw [split, Program.own_append]
    rcases woven.admitted admitted written with sheet | ⟨answer, launched⟩
    · refine .inr (.inl ⟨j, ?_⟩)
      rw [later]
      exact sheet.append _
    · refine .inr (.inr ⟨j, ?_, answer, ?_⟩)
      · rintro rfl
        exact unanswered folder name contents reply (Program.mem_own.2 here) answer
      · rw [later]
        exact launched.append s _

end Mounted

section TwoCases

/-! A problem with two test cases and a special judge. -/

/-- A language whose programs are not compiled. -/
def script : Language where
  id := 2
  name := "python"
  fileExt := ".py"
  compileCommand := none
  compileArtifact := none
  runCommand := "python3 main.py"
  image := "python-judge:latest"
  timeLimitMs := 1000
  memoryLimitMb := 256

def twoCases : Problem where
  id := 1
  timeLimitMs := none
  memoryLimitMb := none
  testcases := [⟨"in0", "3"⟩, ⟨"in1", "5"⟩]
  judgeMode := .special
  specialCode := some "print(7)"
  specialLanguageId := some 2

def guess : Submission := .fresh 10 "print(3)" 2 1 7

def twoCasesReady : Prepared := ⟨guess, twoCases, script, ⟨1000, 256⟩, some ⟨script⟩⟩

def twoCasesRehearsal : Rehearsal where
  store := ((Store.empty.insertLanguage script).insertProblem twoCases).insertSubmission guess
  script := [{ ending := .exits { stdout := "3" } }, { ending := .exits { stdout := "10" } }]

/-- The second test case is started on a directory in which the answer of the first one stands. -/
theorem answer_mounted_twoCases :
    ((judge {} 10).run.asked Rehearsal.reply twoCasesRehearsal)[22]?.map
      (fun e => (e.1.launches?, e.2.workspace.tree .work)) =
    some (some (.work, Sandbox.wrapCommand script.runCommand "2.in"), [("main.py", "print(3)"),
      ("1.in", "in0"), ("2.in", "in1"), ("spj/main.py", "print(7)"), ("spj/1.in", "in0"),
      ("spj/1.out", "3"), ("spj/1.ans", "3")]) := by
  decide +kernel

theorem exists_path_prepare : ∃ past,
    Program.Path (prepare {} 10).run past (Program.done (.ok (.inr twoCasesReady))) := by
  constructor
  apply Program.Path.ask (Except.ok (some guess))
  apply Program.Path.ask (Except.ok ())
  apply Program.Path.ask (Except.ok (some twoCases))
  apply Program.Path.ask (Except.ok (some script))
  apply Program.Path.ask (Except.ok ())
  apply Program.Path.ask (Except.ok ())
  apply Program.Path.ask (Except.ok (some script))
  apply Program.Path.ask (Except.ok ())
  apply Program.Path.ask (Except.ok ())
  exact .refl _

theorem exists_path_first : ∃ past rest, Program.Path (twoCasesReady.task {} 0) past rest ∧
    ⟨Work.Request.write .judge (toString 1 ++ ".ans") "3", Except.ok ()⟩ ∈ past := by
  constructor
  constructor
  constructor
  · apply Program.Path.ask (Except.ok ())
    apply Program.Path.ask (Except.ok ⟨"c1"⟩)
    apply Program.Path.ask (Except.ok { stdout := "3" })
    apply Program.Path.ask (Except.ok ())
    apply Program.Path.ask (Except.ok ())
    apply Program.Path.ask (Except.ok ())
    apply Program.Path.ask (Except.ok ())
    exact .refl _
  · simp

def secondRun : Run := ⟨2, ⟨"in1", "5"⟩, script, ⟨1000, 256⟩, .special, some ⟨script⟩⟩

/-- How the task of the second test case begins. -/
def secondStart : Traffic :=
  [⟨.write .work (toString 2 ++ ".in") "in1", Except.ok ()⟩,
    ⟨.launch (secondRun.spec {}), Except.ok ⟨"c3"⟩⟩]

theorem exists_path_second : ∃ past rest, Program.Path (twoCasesReady.task {} 1) past rest ∧
    past = secondStart := by
  constructor
  constructor
  constructor
  · apply Program.Path.ask (Except.ok ())
    apply Program.Path.ask (Except.ok ⟨"c3"⟩)
    exact .refl _
  · congr

theorem woven_twoCases {first : Traffic} {rest : Work (Option TestCaseResult)}
    (path : Program.Path (twoCasesReady.task {} 0) first rest) :
    Program.Woven (twoCasesReady.task {})
      (first.map (fun e => (0, e)) ++ secondStart.map fun e => (1, e)) := by
  intro i
  rw [Program.own_append]
  match i with
  | 0 =>
    rw [Program.own_map_same, Program.own_map_other (by decide), List.append_nil]
    exact ⟨rest, path⟩
  | 1 =>
    rw [Program.own_map_same, Program.own_map_other (by decide), List.nil_append]
    obtain ⟨_, rest', path', rfl⟩ := exists_path_second
    exact ⟨rest', path'⟩
  | i + 2 =>
    rw [Program.own_map_other (by omega), Program.own_map_other (by omega)]
    exact ⟨_, .refl _⟩

/-- The second test case is started after the answer of the first one was written. -/
theorem source_or_sheet_or_answer_twoCases :
    ∃ (past : Traffic) (before : List (Nat × Program.Exchange Work.Request Work.Request.Reply)),
      Program.Path (prepare {} 10).run past (Program.done (.ok (.inr twoCasesReady))) ∧
      Program.Woven (twoCasesReady.task {})
        (before ++ [(1, ⟨.launch (secondRun.spec {}), Except.ok ⟨"c3"⟩⟩)]) ∧
      (twoCasesReady.Source .judge (toString 1 ++ ".ans") "3" ∨
        (∃ j, twoCasesReady.Sheet j (Program.own j before) .judge (toString 1 ++ ".ans") "3") ∨
        ∃ j, j ≠ 1 ∧ twoCasesReady.Answer j .judge (toString 1 ++ ".ans") "3" ∧
          twoCasesReady.Launched {} j (Program.own j before)) := by
  obtain ⟨past, ready⟩ := exists_path_prepare
  obtain ⟨first, rest, path, answered⟩ := exists_path_first
  have woven : Program.Woven (twoCasesReady.task {}) (first.map (fun e => (0, e)) ++
      [(1, ⟨.write .work (toString 2 ++ ".in") "in1", Except.ok ()⟩)] ++
      [(1, ⟨.launch (secondRun.spec {}), Except.ok ⟨"c3"⟩⟩)]) := by
    rw [List.append_assoc]
    exact woven_twoCases path
  refine ⟨past, _, ready, woven, ?_⟩
  refine source_or_sheet_or_answer ready woven rfl (.inr ⟨0, Except.ok (), ?_⟩)
  exact List.mem_append_left _ (List.mem_map.2 ⟨_, answered, rfl⟩)

end TwoCases

end Judging

end Arbiter
