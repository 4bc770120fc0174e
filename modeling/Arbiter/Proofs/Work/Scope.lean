import Arbiter.Proofs.Store.Frame
import Arbiter.Proofs.Work.System
import Arbiter.Proofs.Work.History

/-! What jobs keep to. Main statement: jobs that do not judge never write a judgment, whatever the
store replies. -/

namespace Arbiter

namespace Program

variable {Request : Type} {Reply : Request → Type} {α β : Type}

/-- Every request that the program can come to put is one of `P`. -/
def Only (P : Request → Prop) : Program Request Reply α → Prop
  | done _ => True
  | ask q next => P q ∧ ∀ r, (next r).Only P

variable {P : Request → Prop}

theorem Only.andThen {p : Program Request Reply α} {f : α → Program Request Reply β}
    (hp : p.Only P) (hf : ∀ a, (f a).Only P) : (p.andThen f).Only P := by
  induction p with
  | done a => exact hf a
  | ask q next ih => exact ⟨hp.1, fun r => ih r (hp.2 r)⟩

theorem Only.bind {p : Program Request Reply α} {f : α → Program Request Reply β}
    (hp : p.Only P) (hf : ∀ a, (f a).Only P) : (p >>= f).Only P :=
  hp.andThen hf

theorem only_request {q : Request} (h : P q) :
    (request q : Program Request Reply (Reply q)).Only P :=
  ⟨h, fun _ => trivial⟩

theorem Only.run_bind {ε : Type} {p : ExceptT ε (Program Request Reply) α}
    {f : α → ExceptT ε (Program Request Reply) β} (hp : p.run.Only P) (hf : ∀ a, (f a).run.Only P) :
    (p >>= f).run.Only P := by
  refine hp.bind fun r => ?_
  cases r with
  | ok a => exact hf a
  | error e => trivial

theorem Only.run_lift {ε : Type} {p : Program Request Reply α} (hp : p.Only P) :
    (liftM p : ExceptT ε (Program Request Reply) α).run.Only P :=
  hp.bind fun _ => trivial

theorem Only.mono {Q : Request → Prop} {p : Program Request Reply α} (h : p.Only P)
    (imp : ∀ q, P q → Q q) : p.Only Q := by
  induction p with
  | done a => trivial
  | ask q next ih => exact ⟨imp q h.1, fun r => ih r (h.2 r)⟩

end Program

open Program (Only only_request)

/-- The request writes no judgment. -/
def Work.Request.Harmless : Work.Request → Prop
  | .store q => q.rewrites? = none
  | _ => True

namespace Plagiarism

/-- The request is one for what is to be compared. -/
def Gathers : Work.Request → Prop
  | .store (.task _) | .store (.submission _) | .store (.submissionsOf ..) | .store (.saveGraph ..) => True
  | .moments => True
  | _ => False

/-- The request is one that a run of the task may put. -/
def Asks (id : Int64) (q : Work.Request) : Prop := Gathers q ∨ ∃ o, q = .store (.completeTask id o)

variable {α : Type} {P : Work.Request → Prop}

theorem only_step {w : Work (Except Store.Fault α)} (h : w.Only P) : (step w).run.Only P := by
  refine h.run_lift.run_bind fun r => ?_
  cases r with
  | ok a => trivial
  | error fault => trivial

theorem only_store {q : Store.Request} (h : P (.store q)) : (Work.store q).Only P :=
  only_request (P := P) (q := Work.Request.store q) h

theorem only_ensureGraph (submission : Submission) :
    (ensureGraph submission).run.Only Gathers := by
  unfold ensureGraph
  cases submission.graph with
  | some graph => trivial
  | none =>
    cases Dependence.Graph.ofSource submission.code with
    | error fault => trivial
    | ok graph => exact (only_step (only_store trivial)).run_bind fun _ => trivial

theorem only_buildGraph (id : Int64) : (buildGraph id).run.Only Gathers := by
  refine (only_step (only_store trivial)).run_bind fun found => ?_
  cases found with
  | none => trivial
  | some submission => exact only_ensureGraph submission

theorem only_compareAll (target : Dependence.Graph) (candidates : List Submission) :
    (compareAll target candidates).Only Gathers := by
  induction candidates with
  | nil => trivial
  | cons candidate rest ih =>
    refine (only_ensureGraph candidate).bind fun graph => ih.bind fun scored => ?_
    cases graph <;> trivial

theorem only_evaluate (task : PlagiarismTask) : (evaluate task).run.Only Gathers := by
  refine (only_step (only_store trivial)).run_bind fun found => ?_
  cases found with
  | none => trivial
  | some target =>
    refine (only_step (only_store trivial)).run_bind fun peers => ?_
    show Program.Only _ (ExceptT.run (if _ then _ else _))
    split
    · trivial
    · refine (only_ensureGraph target).run_bind fun graph => ?_
      refine (Only.run_lift (only_request trivial)).run_bind fun moments => ?_
      exact (only_compareAll graph _).run_lift.run_bind fun _ => trivial

theorem only_run (id : Int64) : (run id).run.Only (Asks id) := by
  refine (only_step (only_store (.inl trivial))).run_bind fun found => ?_
  cases found with
  | none => trivial
  | some task =>
    have gathers := (only_evaluate task).mono (Q := Asks id) fun _ => .inl
    refine gathers.run_lift.run_bind fun findings => ?_
    exact (only_step (only_store (.inr ⟨_, rfl⟩))).run_bind fun _ => trivial

theorem harmless_of_gathers (q : Work.Request) (h : Gathers q) : q.Harmless := by
  cases q with
  | store q => cases q <;> first | rfl | exact h.elim
  | _ => trivial

theorem harmless_of_asks {id : Int64} (q : Work.Request) (h : Asks id q) : q.Harmless := by
  rcases h with gathers | ⟨o, rfl⟩
  · exact harmless_of_gathers q gathers
  · rfl

end Plagiarism

/-- A job that judges nothing writes no judgment. -/
theorem Job.only_work (s : SandboxSettings) {job : Job} (h : job.judges? = none) :
    (job.work s).run.Only Work.Request.Harmless := by
  cases job with
  | judge id => cases h
  | rejudge id => cases h
  | plagiarism id =>
    refine ((Plagiarism.only_run id).mono Plagiarism.harmless_of_asks).run_lift.run_bind fun result => ?_
    cases result <;> trivial
  | buildGraph id =>
    refine ((Plagiarism.only_buildGraph id).mono Plagiarism.harmless_of_gathers).run_lift.run_bind
      fun result => ?_
    cases result <;> trivial

end Arbiter
