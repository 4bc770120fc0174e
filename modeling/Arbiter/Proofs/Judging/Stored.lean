import Arbiter.Proofs.Judging.Calls
import Arbiter.Proofs.Judging.Settle

/-! What a pass stores of what it comes to. Main statement: in whatever order its test cases go on and
however the store fails, a pass first stores and counts nothing; then it stores one outcome, and counts it if
it is accepted; and it stores another one only where one of these two requests fails. -/

namespace Arbiter

namespace Program

variable {Request : Type} {Reply : Request → Type} {α : Type} {P : Request → Prop}

/-- Surroundings that reply as they like, to requests of `P` only. -/
def within (P : Request → Prop) : Effect Request Reply Unit := fun q _ K => P q ∧ ∀ reply, K reply ()

theorem Path.within {p : Program Request Reply α} {a : α} {past : List (Exchange Request Reply)}
    (path : Path p past (done a)) {Q : α → Unit → Prop} (h : p.wp (within P) Q ()) :
    (∀ e ∈ past, P e.1) ∧ Q a () := by
  induction p generalizing past with
  | done b =>
    obtain ⟨rfl, rfl⟩ := path.of_done
    exact ⟨nofun, h⟩
  | ask q next ih =>
    obtain ⟨reply, later, rfl, goesOn⟩ := path.of_ask
    obtain ⟨rest, ended⟩ := ih reply goesOn (h.2 reply)
    exact ⟨List.forall_mem_cons.2 ⟨h.1, rest⟩, ended⟩

theorem Only.wp {p : Program Request Reply α} (only : p.Only P) : p.wp (within P) (fun _ _ => True) () := by
  induction p with
  | done a => trivial
  | ask q next ih => exact ⟨only.1, fun reply => ih reply (only.2 reply)⟩

theorem Path.only {p : Program Request Reply α} {a : α} {past : List (Exchange Request Reply)}
    (path : Path p past (done a)) (only : p.Only P) : ∀ e ∈ past, P e.1 :=
  (path.within only.wp).1

end Program

open Program (Path done own)

/-- The request neither stores an outcome nor counts one. -/
def Work.Request.Early : Work.Request → Prop
  | .store (.commit ..) | .store (.addResolved _) => False
  | _ => True

/-- The request changes what judging shows of a submission, or counts an outcome. -/
def Work.Request.isMark : Work.Request → Bool
  | .store (.addResolved _) => true
  | .store q => q.rewrites?.isSome
  | _ => false

/-- The outcome that a request stores. -/
def Work.Request.stored? : Work.Request → Option JudgeOutcome
  | .store (.commit _ o) => some o
  | _ => none

theorem Work.Request.late_of_stored {q : Work.Request} {o : JudgeOutcome} (stored : q.stored? = some o) :
    ¬ q.Early ∧ q.isMark = true := by
  unfold stored? at stored
  split at stored
  · exact ⟨id, rfl⟩
  · cases stored

namespace Judging

/-- What was exchanged to change what judging shows, and to count it. -/
def marks (past : Traffic) : Traffic := past.filter (·.1.isMark)

theorem marks_append (first later : Traffic) : marks (first ++ later) = marks first ++ marks later :=
  List.filter_append _ _

theorem free_within {P : Work.Request → Prop} (free : ∀ q : Work.Request, q.IsFree → P q) :
    Work.Free (Program.within P : Program.Effect Work.Request Work.Request.Reply Unit) :=
  fun q h _ _ K => ⟨free q h, K⟩

theorem early_of_free (q : Work.Request) (free : q.IsFree) : q.Early := by
  cases q with
  | store q => cases q <;> trivial
  | _ => trivial

section Reached

/-! A pass up to its test cases. -/

variable {s : SandboxSettings} {id : Int64} {past known : Traffic}

/-- A program that does not compile fails all test cases in one of two ways. -/
theorem path_compileStep_early {language : Language} {limits : Limits} {r : Except Fault CompileOutcome}
    (path : Path (compileStep s id language limits).run past (done r)) :
    (∀ e ∈ past, e.1.Early) ∧
      ∀ verdict message, r = .ok (.failed verdict message) →
        verdict = .compileError ∨ verdict = .unknown := by
  refine path.within (Q := fun r _ => ∀ verdict message, r = .ok (.failed verdict message) →
    verdict = .compileError ∨ verdict = .unknown) ?_
  have free := free_within early_of_free
  unfold compileStep
  split
  · exact nofun
  · refine (Program.wp_run_bind _ _ _ _).2 ((wp_step _ _ _).2 ⟨trivial, fun reply => ?_⟩)
    cases reply with
    | error fault => exact nofun
    | ok _ =>
      refine (Program.wp_run_lift _ _ _).2 (wp_compile free s language .work _ fun o verdicts => ?_)
      exact fun verdict message same => verdicts verdict message (Except.ok.inj same)

theorem early_judgeStep {problem : Problem} {r : Except SpecialJudge.Fault (Option SpecialJudge)}
    (path : Path (judgeStep s problem) past (done r)) : ∀ e ∈ past, e.1.Early :=
  (path.within (Q := fun _ _ => True) (wp_judgeStep (free_within early_of_free) s problem fun _ => trivial)).1

/-- A pass up to its test cases has stored nothing, or it has come to the failure of all of them. -/
inductive Reached (id : Int64) (known : Traffic) : Traffic → Except Fault (Status ⊕ Prepared) → Prop
  | early {past : Traffic} {result : Except Fault (Status ⊕ Prepared)} (early : ∀ e ∈ past, e.1.Early)
    (unended : ∀ status, result ≠ .ok (.inl status)) : Reached id known past result
  | failed {submission : Submission} {problem : Problem} {language : Language} {verdict : Verdict}
    {message : String} {opening ending : Traffic} {ended : Except Fault Status}
    (early : ∀ e ∈ opening, e.1.Early) (read : Read id known submission problem language)
    (unrun : verdict = .compileError ∨ verdict = .unknown)
    (stored : Path (finish submission language (.failed problem.testcases.length verdict message)).run ending
      (done ended)) : Reached id known (opening ++ ending) (ended.map .inl)

theorem Reached.after {first : Traffic} {result : Except Fault (Status ⊕ Prepared)}
    (before : ∀ e ∈ first, e.1.Early) (h : Reached id known past result) :
    Reached id known (first ++ past) result := by
  cases h with
  | early early unended => exact .early (List.forall_mem_append.2 ⟨before, early⟩) unended
  | failed early read unrun stored =>
    rw [← List.append_assoc]
    exact .failed (List.forall_mem_append.2 ⟨before, early⟩) read unrun stored

theorem Reached.mono {more : Traffic} {result : Except Fault (Status ⊕ Prepared)} (sub : known ⊆ more)
    (h : Reached id known past result) : Reached id more past result := by
  cases h with
  | early early unended => exact .early early unended
  | failed early read unrun stored => exact .failed early (read.mono sub) unrun stored

/-- A pass that goes on to its test cases has stored nothing. -/
theorem Reached.early_of_inr {p : Prepared} (h : Reached id known past (.ok (.inr p))) :
    ∀ e ∈ past, e.1.Early := by
  generalize same : (Except.ok (.inr p) : Except Fault (Status ⊕ Prepared)) = result at h
  cases h with
  | early early => exact early
  | @failed _ _ _ _ _ _ _ ended =>
    cases ended <;> cases same

theorem reached_of_finish {submission : Submission} {problem : Problem} {language : Language}
    {verdict : Verdict} {message : String} {result : Except Fault (Status ⊕ Prepared)}
    (read : Read id known submission problem language)
    (unrun : verdict = .compileError ∨ verdict = .unknown)
    (path : Path (do return .inl (← finish submission language
      (.failed problem.testcases.length verdict message)) :
        ExceptT Fault Work (Status ⊕ Prepared)).run past (done result)) :
    Reached id known past result := by
  have begin : ∀ e ∈ ([] : Traffic), e.1.Early := List.forall_mem_nil _
  rcases path.of_run_bind with ⟨fault, rfl, stopped⟩ | ⟨status, first, second, rfl, stored, ended⟩
  · exact .failed begin read unrun stopped
  · obtain ⟨rfl, rfl⟩ := ended.of_done
    rw [List.append_nil]
    exact .failed begin read unrun stored

theorem reached_of_setUp {submission : Submission} {problem : Problem} {language : Language}
    {result : Except Fault (Status ⊕ Prepared)} (read : Read id known submission problem language)
    (path : Path (setUp s id submission problem language).run past (done result)) :
    Reached id known past result := by
  unfold setUp at path
  have opens : (Work.openWorkspace (workspaceLabel id)).Only Work.Request.Early := ⟨trivial, fun _ => trivial⟩
  have writes : (Work.write .work language.sourceFile submission.code).Only Work.Request.Early :=
    ⟨trivial, fun _ => trivial⟩
  rcases path.of_run_bind with ⟨fault, rfl, stopped⟩ | ⟨_, opening, later, rfl, opened, path⟩
  · exact .early (stopped.only (only_step opens)) nofun
  refine Reached.after (opened.only (only_step opens)) ?_
  rcases path.of_run_bind with ⟨fault, rfl, stopped⟩ | ⟨_, writing, later, rfl, wrote, path⟩
  · exact .early (stopped.only (only_step writes)) nofun
  refine Reached.after (wrote.only (only_step writes)) ?_
  rcases path.of_run_bind with ⟨fault, rfl, stopped⟩ | ⟨outcome, compiling, later, rfl, compiled, path⟩
  · exact .early (path_compileStep_early stopped).1 nofun
  obtain ⟨early, verdicts⟩ := path_compileStep_early compiled
  refine Reached.after early ?_
  cases outcome with
  | failed verdict message => exact reached_of_finish read (verdicts _ _ rfl) path
  | compiled =>
    obtain ⟨judge, judging, last, rfl, judged, ended⟩ := Path.of_lift_bind path
    refine Reached.after (early_judgeStep judged) ?_
    cases judge with
    | error fault => exact reached_of_finish read (.inr rfl) ended
    | ok judge =>
      obtain ⟨rfl, rfl⟩ := ended.of_done
      exact .early (List.forall_mem_nil _) nofun

theorem reached_of_prepare {result : Except Fault (Status ⊕ Prepared)}
    (path : Path (prepare s id).run past (done result)) : Reached id past past result := by
  unfold prepare at path
  have asks : ∀ q : Store.Request, Work.Request.Early (.store q) → (Work.store q).Only Work.Request.Early :=
    fun q early => ⟨early, fun _ => trivial⟩
  rcases path.of_run_bind with ⟨fault, rfl, stopped⟩ | ⟨submission, first, later, rfl, found, path⟩
  · exact .early (stopped.only (only_find (asks _ trivial))) nofun
  refine Reached.after (found.only (only_find (asks _ trivial))) ?_
  rcases path.of_run_bind with ⟨fault, rfl, stopped⟩ | ⟨_, second, later, rfl, cleared, path⟩
  · exact .early (stopped.only (only_step (asks _ trivial))) nofun
  refine Reached.after (cleared.only (only_step (asks _ trivial))) ?_
  rcases path.of_run_bind with ⟨fault, rfl, stopped⟩ | ⟨problem, third, later, rfl, posed, path⟩
  · exact .early (stopped.only (only_find (asks _ trivial))) nofun
  refine Reached.after (posed.only (only_find (asks _ trivial))) ?_
  rcases path.of_run_bind with ⟨fault, rfl, stopped⟩ | ⟨language, fourth, later, rfl, spoken, path⟩
  · exact .early (stopped.only (only_find (asks _ trivial))) nofun
  refine Reached.after (spoken.only (only_find (asks _ trivial))) ?_
  have ofSubmission := mem_of_store (path_find found)
  have ofProblem := mem_of_store (path_find posed)
  have ofLanguage := mem_of_store (path_find spoken)
  refine reached_of_setUp ⟨List.mem_append_left _ ofSubmission, ?_, ?_⟩ path
  · exact List.mem_append_right _ (List.mem_append_right _ (List.mem_append_left _ ofProblem))
  · exact List.mem_append_right _ (List.mem_append_right _ (List.mem_append_right _
      (List.mem_append_left _ ofLanguage)))

theorem reached_of_approach {result : Except Fault (Status ⊕ Prepared)}
    (path : Path (approach s id).run past (done result)) : Reached id past past result := by
  unfold approach at path
  rcases path.of_run_bind with ⟨fault, rfl, stopped⟩ | ⟨ready, first, later, rfl, prepared, path⟩
  · exact reached_of_prepare stopped
  have reached := (reached_of_prepare prepared).mono (List.subset_append_left first later)
  cases ready with
  | inl status =>
    obtain ⟨rfl, rfl⟩ := path.of_done
    rwa [List.append_nil] at reached ⊢
  | inr p =>
    have marks : (step Fault.store (Work.store (.setStatus p.submission.id .judging))).run.Only
        Work.Request.Early := only_step ⟨trivial, fun _ => trivial⟩
    have early : ∀ e ∈ first, e.1.Early := reached.early_of_inr
    rcases path.of_run_bind with ⟨fault, rfl, stopped⟩ | ⟨_, marking, last, rfl, marked, ended⟩
    · exact Reached.after early (.early (stopped.only marks) nofun)
    · obtain ⟨rfl, rfl⟩ := ended.of_done
      rw [List.append_nil]
      exact Reached.after early (.early (marked.only marks) nofun)

end Reached

section Reported

/-! What is stored and counted, and what comes of it. -/

variable {s : SandboxSettings} {id : Int64} {past : Traffic} {o : JudgeOutcome}

/-- An outcome is stored, and may be counted if it is accepted. -/
inductive Reported (o : JudgeOutcome) : Traffic → Except Fault Status → Prop
  | stored {id : Int64} : Reported o [⟨.store (.commit id o), Except.ok ()⟩] (.ok o.status)
  | refused {id : Int64} (fault : Store.Fault) :
    Reported o [⟨.store (.commit id o), Except.error fault⟩] (.error (.commit id fault))
  | counted {id user : Int64} {n : Nat} (accepted : o.worst = .accepted) :
    Reported o [⟨.store (.commit id o), Except.ok ()⟩, ⟨.store (.addResolved user), Except.ok n⟩]
      (.ok o.status)
  | uncounted {id user : Int64} (accepted : o.worst = .accepted) (fault : Store.Fault) :
    Reported o [⟨.store (.commit id o), Except.ok ()⟩, ⟨.store (.addResolved user), Except.error fault⟩]
      (.error (.store fault))

/-- The outcome of a pass that stops at a fault. -/
def fallback (fault : Fault) (count : Nat) : JudgeOutcome :=
  .failed count .unknown ("Main orchestrator failed: " ++ fault.message)

/-- A fault that a pass has stopped at is stored as its outcome. -/
inductive Concluded (id : Int64) : Except Fault Status → Traffic → Prop
  | ended (status : Status) : Concluded id (.ok status) []
  | stopped (fault : Fault) (count : Nat) (reply : Except Store.Fault Unit) :
    Concluded id (.error fault) [⟨.store (.commit id (fallback fault count)), reply⟩]

theorem marks_eq_nil {α : Type} {w : Work α} {a : α} (path : Path w past (done a))
    (plain : w.Only fun q => q.isMark = false) : marks past = [] :=
  List.filter_eq_nil_iff.2 fun e here => by simp [path.only plain e here]

theorem marks_cons {q : Work.Request} {reply : q.Reply} (mark : q.isMark = true) :
    marks (⟨q, reply⟩ :: past) = ⟨q, reply⟩ :: marks past :=
  List.filter_cons_of_pos mark

theorem path_step_store {fault : Store.Fault → Fault} {q : Store.Request} {r : Except Fault q.Answer}
    (path : Path (step fault (Work.store q)).run past (done r)) :
    (∃ e, r = .error (fault e) ∧ past = [⟨.store q, Except.error e⟩]) ∨
      ∃ a, r = .ok a ∧ past = [⟨.store q, Except.ok a⟩] := by
  rcases path_step path with ⟨e, same, asked⟩ | ⟨a, same, asked⟩
  · exact .inl ⟨e, same, asked.of_request⟩
  · exact .inr ⟨a, same, asked.of_request⟩

theorem path_finish {submission : Submission} {language : Language} {r : Except Fault Status}
    (path : Path (finish submission language o).run past (done r)) :
    (∃ fault, r = .error (.commit submission.id fault) ∧
      marks past = [⟨.store (.commit submission.id o), Except.error fault⟩]) ∨
    r = .ok o.status ∧ marks past = [⟨.store (.commit submission.id o), Except.ok ()⟩] := by
  rcases path.of_run_bind with ⟨fault, rfl, stopped⟩ | ⟨_, first, later, rfl, stored, goesOn⟩
  · rcases path_step_store stopped with ⟨fault, same, rfl⟩ | ⟨_, none, -⟩
    · cases same
      exact .inl ⟨fault, rfl, rfl⟩
    · cases none
  rcases path_step_store stored with ⟨_, none, -⟩ | ⟨_, -, rfl⟩
  · cases none
  have attached : r = .ok o.status ∧ marks later = [] := by
    have path : Path (ExceptT.run (if language.isPython = true then _ else _)) later (done r) := goesOn
    split at path
    · obtain ⟨_, first, last, rfl, attached, ended⟩ := Path.of_lift_bind path
      obtain ⟨rfl, rfl⟩ := ended.of_done
      rw [List.append_nil]
      exact ⟨rfl, marks_eq_nil attached (only_attachGraph submission fun _ => rfl)⟩
    · obtain ⟨rfl, rfl⟩ := path.of_done
      exact ⟨rfl, rfl⟩
  exact .inr ⟨attached.1, (marks_cons rfl).trans (congrArg _ attached.2)⟩

theorem reported_of_finish {submission : Submission} {language : Language} {r : Except Fault Status}
    (path : Path (finish submission language o).run past (done r)) : Reported o (marks past) r := by
  rcases path_finish path with ⟨fault, rfl, same⟩ | ⟨rfl, same⟩
  · rw [same]
    exact .refused fault
  · rw [same]
    exact .stored

theorem reported_of_report {p : Prepared} {results : List TestCaseResult} {r : Except Fault Status}
    (path : Path (report p results).run past (done r)) : Reported (.ofResults results) (marks past) r := by
  rcases path.of_run_bind with ⟨fault, rfl, stopped⟩ | ⟨status, first, later, rfl, stored, goesOn⟩
  · exact reported_of_finish stopped
  rcases path_finish stored with ⟨_, none, -⟩ | ⟨same, marked⟩
  · cases none
  cases same
  rw [marks_append, marked]
  have path : Path (ExceptT.run (if (JudgeOutcome.ofResults results).worst = .accepted then _ else _)) later
    (done r) := goesOn
  split at path
  · rename_i accepted
    rcases path.of_run_bind with ⟨fault, rfl, stopped⟩ | ⟨_, counting, last, rfl, counted, ended⟩
    · rcases path_step_store stopped with ⟨fault, same, rfl⟩ | ⟨_, none, -⟩
      · cases same
        exact .uncounted accepted fault
      · cases none
    · obtain ⟨rfl, rfl⟩ := ended.of_done
      rcases path_step_store counted with ⟨_, none, -⟩ | ⟨n, -, rfl⟩
      · cases none
      · exact .counted accepted
  · obtain ⟨rfl, rfl⟩ := path.of_done
    exact .stored

theorem concluded_of_throw {fault : Fault} {ending : Except Fault Status}
    (path : Path (conclude id (throw fault)).run past (done ending)) :
    Concluded id (.error fault) (marks past) := by
  obtain ⟨_, none, rest, rfl, thrown, path⟩ := Path.of_lift_bind path
  obtain ⟨rfl, rfl⟩ := thrown.of_done
  obtain ⟨count, first, later, rfl, counted, path⟩ := Path.of_lift_bind path
  rw [List.nil_append, marks_append, marks_eq_nil counted (only_caseCount id rfl fun _ => rfl), List.nil_append]
  rcases path.of_run_bind with ⟨_, -, stopped⟩ | ⟨_, storing, last, rfl, stored, ended⟩
  · rcases path_step_store stopped with ⟨_, -, rfl⟩ | ⟨_, none, -⟩
    · exact .stopped fault count _
    · cases none
  · obtain ⟨rfl, -⟩ := ended.of_done
    rcases path_step_store stored with ⟨_, none, -⟩ | ⟨_, -, rfl⟩
    · cases none
    · exact .stopped fault count _

theorem path_conclude_pure {status : Status} {ending : Except Fault Status}
    (path : Path (conclude id (pure status)).run past (done ending)) : past = [] := by
  obtain ⟨_, none, rest, rfl, returned, path⟩ := Path.of_lift_bind path
  obtain ⟨rfl, rfl⟩ := returned.of_done
  exact path.of_done.1

theorem concluded_of_path {r ending : Except Fault Status}
    (path : Path (conclude id (ExceptT.mk (pure r))).run past (done ending)) :
    Concluded id r (marks past) := by
  cases r with
  | error fault => exact concluded_of_throw path
  | ok status =>
    rw [path_conclude_pure path]
    exact .ended status

end Reported

section Stores

variable {s : SandboxSettings} {id : Int64} {before after past : Traffic} {during : TaskTraffic}
  {p : Prepared} {found : List (Option TestCaseResult)}

/-- The outcome that a pass has come to by what it has read and what its test cases have ended in. -/
inductive Computed (s : SandboxSettings) (id : Int64) (before : Traffic) (during : TaskTraffic) :
    JudgeOutcome → Prop
  | failed {submission : Submission} {problem : Problem} {language : Language} {verdict : Verdict}
    {message : String} (read : Read id before submission problem language)
    (unrun : verdict = .compileError ∨ verdict = .unknown) :
    Computed s id before during (.failed problem.testcases.length verdict message)
  | judged {p : Prepared} {found : List (Option TestCaseResult)}
    (read : Read id before p.submission p.problem p.language)
    (tasks : List.Forall₂ (fun i o => Path (p.task s i) (own i during) (done o))
      (List.range p.problem.testcases.length) found) :
    Computed s id before during (.ofResults (accounted found))

/-- A pass stores the outcome that it has come to, or the fault that it has stopped at. -/
inductive Stores (id : Int64) (P : JudgeOutcome → Prop) : Traffic → Prop
  | stopped {fault : Fault} {marked : Traffic} (concluded : Concluded id (.error fault) marked) :
    Stores id P marked
  | reported {o : JudgeOutcome} {r : Except Fault Status} {first second : Traffic} (computed : P o)
    (reported : Reported o first r) (concluded : Concluded id r second) : Stores id P (first ++ second)

theorem Opening.read {used : Traffic} (opening : Opening s id past (some p) used) :
    Read id past p.submission p.problem p.language := by
  cases opening with
  | standard read => exact read
  | special read => exact read

theorem early_task {i : Nat} {result : Option TestCaseResult} (path : Path (p.task s i) past (done result)) :
    ∀ e ∈ past, e.1.Early := by
  refine (path.within (Q := fun _ _ => True) ?_).1
  unfold Prepared.task
  split
  · exact (Program.wp_bind _ _ _ _).2 (wp_runCase (free_within early_of_free) s _ fun _ _ =>
      ⟨trivial, fun _ => trivial⟩)
  · trivial

/-- The tasks of a pass are the runs on its test cases. -/
theorem ends_of_tasks (tasks : List.Forall₂ (fun i o => Path (p.task s i) (own i during) (done o))
      (List.range p.problem.testcases.length) found) :
    List.Forall₂ (fun r o => (runTask s r).Ends o) (runs p.problem p.language p.limits p.judge) found := by
  obtain ⟨length, each⟩ := List.forall₂_iff_get.1 tasks
  have count : (runs p.problem p.language p.limits p.judge).length = p.problem.testcases.length := by
    simp [runs]
  rw [List.length_range] at length
  refine List.forall₂_iff_get.2 ⟨count.trans length, fun i here there => ⟨own i during, ?_⟩⟩
  have path := each i (by simpa [length] using there) there
  rw [List.get_eq_getElem, List.getElem_range] at path
  unfold Prepared.task at path
  rwa [List.getElem?_eq_getElem here] at path

theorem early_during (inside : ∀ e ∈ during, e.1 < p.problem.testcases.length)
    (tasks : List.Forall₂ (fun i o => Path (p.task s i) (own i during) (done o))
      (List.range p.problem.testcases.length) found) : ∀ e ∈ during.map (·.2), e.1.Early := by
  intro e he
  obtain ⟨⟨i, e⟩, here, rfl⟩ := List.mem_map.1 he
  obtain ⟨length, each⟩ := List.forall₂_iff_get.1 tasks
  have fits : i < (List.range p.problem.testcases.length).length := by simpa using inside _ here
  have path := each i fits (length ▸ fits)
  rw [List.get_eq_getElem, List.getElem_range] at path
  exact early_task path e (Program.mem_own.2 here)

/-- A pass that ends without running any test case. -/
theorem stores_of_reached {r ending : Except Fault Status} (reached : Reached id before before (r.map .inl))
    (closing : Path (conclude id (ExceptT.mk (pure r))).run after (done ending)) :
    ∃ opening ending, before ++ after = opening ++ ending ∧ (∀ e ∈ opening, e.1.Early) ∧
      Stores id (Computed s id before during) (marks ending) := by
  have concluded := concluded_of_path closing
  generalize same : (r.map .inl : Except Fault (Status ⊕ Prepared)) = result at reached
  generalize all : before = past at reached
  cases reached with
  | early early unended =>
    subst all
    cases r with
    | ok status => exact absurd same.symm (unended status)
    | error fault => exact ⟨before, after, rfl, early, .stopped concluded⟩
  | @failed _ _ _ _ _ opening ending ended early read unrun stored =>
    have same : r = ended := by
      cases r <;> cases ended <;> cases same <;> rfl
    subst same
    subst all
    refine ⟨opening, ending ++ after, List.append_assoc _ _ _, early, ?_⟩
    rw [marks_append]
    exact .reported (.failed read unrun) (reported_of_finish stored) concluded

theorem stores_of_course (course : Course s id before during after) :
    ∃ opening ending, before ++ (during.map (·.2) ++ after) = opening ++ ending ∧
      (∀ e ∈ opening, e.1.Early) ∧ Stores id (Computed s id before during) (marks ending) := by
  cases course with
  | ended opening closing => exact stores_of_reached (r := .ok _) (reached_of_approach opening) closing
  | failed opening closing => exact stores_of_reached (r := .error _) (reached_of_approach opening) closing
  | @full _ _ p found finished _ opening inside tasks order closing =>
    have early : ∀ e ∈ before ++ during.map (·.2), e.1.Early :=
      List.forall_mem_append.2 ⟨(reached_of_approach opening).early_of_inr, early_during inside tasks⟩
    obtain ⟨owned, length⟩ := own_of_ends s (ends_of_tasks tasks)
    have settled : settle p.problem.testcases.length finished = accounted found := by
      rw [← length]
      exact owned.settle_eq order
    rw [settled, conclude_run] at closing
    obtain ⟨r, first, second, rfl, reported, concludes⟩ := closing.of_bind
    refine ⟨before ++ during.map (·.2), first ++ second, (List.append_assoc _ _ _).symm, early, ?_⟩
    rw [marks_append]
    exact .reported (.judged (opening_of_approach opening).read tasks) (reported_of_report reported)
      (concluded_of_path concludes)

theorem Reported.eq_of_stored {o : JudgeOutcome} {marked : Traffic} {r : Except Fault Status}
    (h : Reported o marked r) : ∀ e ∈ marked, ∀ o' ∈ e.1.stored?, o' = o := by
  cases h <;> simp [Work.Request.stored?, eq_comm]

theorem Concluded.exists_of_stored {marked : Traffic} {r : Except Fault Status} (h : Concluded id r marked) :
    ∀ e ∈ marked, ∀ o ∈ e.1.stored?, ∃ fault count, o = fallback fault count := by
  cases h with
  | ended => exact List.forall_mem_nil _
  | stopped fault count reply =>
    rintro e here o same
    cases List.mem_singleton.1 here
    exact ⟨fault, count, (Option.some.inj same).symm⟩

/-- All that a pass stores is what it has come to, or the fault that it has stopped at. -/
theorem computed_or_fallback (course : Course s id before during after)
    {e : Program.Exchange Work.Request Work.Request.Reply}
    (here : e ∈ before ++ (during.map (·.2) ++ after)) {o : JudgeOutcome} (stored : e.1.stored? = some o) :
    Computed s id before during o ∨ ∃ fault count, o = fallback fault count := by
  obtain ⟨opening, ending, all, early, stores⟩ := stores_of_course course
  obtain ⟨late, mark⟩ := Work.Request.late_of_stored stored
  rw [all] at here
  have marked : e ∈ marks ending :=
    List.mem_filter.2 ⟨(List.mem_append.1 here).resolve_left fun here => late (early _ here), mark⟩
  generalize marks ending = past at stores marked
  cases stores with
  | stopped concluded => exact .inr (concluded.exists_of_stored _ marked o stored)
  | reported computed reported concluded =>
    rcases List.mem_append.1 marked with first | second
    · rw [reported.eq_of_stored _ first o stored]
      exact .inl computed
    · exact .inr (concluded.exists_of_stored _ second o stored)

end Stores

section OneCase

/-! A problem with one test case, and a program that is accepted. -/

/-- A language whose programs are not compiled, and of which no graphs are made. -/
def perl : Language where
  id := 2
  name := "perl"
  fileExt := ".pl"
  compileCommand := none
  compileArtifact := none
  runCommand := "perl main.pl"
  image := "perl-judge:latest"
  timeLimitMs := 1000
  memoryLimitMb := 256

def oneCase : Problem where
  id := 1
  timeLimitMs := none
  memoryLimitMb := none
  testcases := [⟨"in0", "3"⟩]
  judgeMode := .strict
  specialCode := none
  specialLanguageId := none

def oneCaseReady : Prepared := ⟨guess, oneCase, perl, ⟨1000, 256⟩, none⟩

/-- The result of a program that is accepted on the test case. -/
def right : TestCaseResult := ⟨1, .accepted, 0, 0, 10, "3", ""⟩

theorem isPython_perl : perl.isPython = false := by decide +kernel

theorem settle_right : settle 1 [right] = [right] := by decide +kernel

theorem worst_right : (JudgeOutcome.ofResults [right]).worst = .accepted := by decide +kernel

theorem exists_path_oneCase : ∃ past,
    Path (approach {} 10).run past (done (.ok (.inr oneCaseReady))) := by
  constructor
  apply Path.ask (Except.ok (some guess))
  apply Path.ask (Except.ok ())
  apply Path.ask (Except.ok (some oneCase))
  apply Path.ask (Except.ok (some perl))
  apply Path.ask (Except.ok ())
  apply Path.ask (Except.ok ())
  apply Path.ask (Except.ok ())
  exact .refl _

theorem exists_path_right : ∃ past, Path (oneCaseReady.task {} 0) past (done (some right)) := by
  constructor
  apply Path.ask (Except.ok ())
  apply Path.ask (Except.ok ⟨"c1"⟩)
  apply Path.ask (Except.ok { stdout := "3" })
  apply Path.ask (Except.ok ())
  apply Path.ask true
  exact .refl _

/-- What is exchanged after the test case where its outcome is stored and cannot be counted. -/
def uncounted (fault : Store.Fault) : Traffic :=
  [⟨.store (.commit 10 (.ofResults [right])), Except.ok ()⟩, ⟨.store (.addResolved 7), Except.error fault⟩,
    ⟨.store (.submission 10), Except.ok (some guess)⟩, ⟨.store (.problem 1), Except.ok (some oneCase)⟩,
    ⟨.store (.commit 10 (fallback (.store fault) 1)), Except.ok ()⟩]

theorem path_uncounted (fault : Store.Fault) :
    Path (conclude 10 (report oneCaseReady (settle 1 [right]))).run (uncounted fault)
      (done (.ok .error)) := by
  have other : oneCaseReady.language.isPython = false := isPython_perl
  have path : ∃ past, Path (conclude 10 (report oneCaseReady (settle 1 [right]))).run past
      (done (.ok .error)) ∧ past = uncounted fault := by
    rw [settle_right]
    constructor
    constructor
    · apply Path.ask (Except.ok ())
      rw [other, worst_right]
      apply Path.ask (Except.error fault)
      apply Path.ask (Except.ok (some guess))
      apply Path.ask (Except.ok (some oneCase))
      apply Path.ask (Except.ok ())
      exact .refl _
    · rfl
  obtain ⟨_, path, rfl⟩ := path
  exact path

theorem exists_course_uncounted (fault : Store.Fault) :
    ∃ before during, Course {} 10 before during (uncounted fault) := by
  obtain ⟨before, opening⟩ := exists_path_oneCase
  obtain ⟨ran, path⟩ := exists_path_right
  have own_ran : own 0 (ran.map fun e => (0, e)) = ran := Program.own_map_same ran
  have task : List.Forall₂
      (fun i o => Path (oneCaseReady.task {} i) (own i (ran.map fun e => (0, e))) (done o)) [0] [some right] := .cons (by rwa [own_ran]) .nil
  refine ⟨before, ran.map fun e => (0, e), .full opening ?_ task (.refl _) (path_uncounted fault)⟩
  intro e he
  obtain ⟨_, -, rfl⟩ := List.mem_map.1 he
  exact Nat.zero_lt_one

end OneCase

end Judging

end Arbiter
