import Arbiter.Proofs.Store.Frame
import Arbiter.Work.Rehearsal
import Arbiter.Work.Core
import Mathlib.Logic.Function.Basic

/-! Work that has a store to itself, and jobs that run at once on one store. Each worker goes on with its job
by one request at a time; the store replies to its own requests, and everything else replies as it likes.
Between two requests of one worker any others may come. -/

namespace Arbiter

namespace Program

variable {Request : Type} {Reply : Request → Type} {α β ε σ : Type}
  (reply : (q : Request) → σ → Reply q × σ)

/-- Work that may stop with a fault goes on only after a result. -/
theorem run_run_bind (p : ExceptT ε (Program Request Reply) α)
    (f : α → ExceptT ε (Program Request Reply) β) (s : σ) :
    (p >>= f).run.run reply s =
      match p.run.run reply s with
      | (.ok a, t) => (f a).run.run reply t
      | (.error e, t) => (.error e, t) := by
  rw [ExceptT.run_bind, run_bind]
  rcases p.run.run reply s with ⟨_ | _, t⟩ <;> rfl

variable {reply}

theorem run_run_bind_ok {p : ExceptT ε (Program Request Reply) α}
    (f : α → ExceptT ε (Program Request Reply) β) {s s' : σ} {a : α}
    (first : p.run.run reply s = (.ok a, s')) :
    (p >>= f).run.run reply s = (f a).run.run reply s' := by
  rw [run_run_bind, first]

theorem run_run_bind_error {p : ExceptT ε (Program Request Reply) α}
    (f : α → ExceptT ε (Program Request Reply) β) {s s' : σ} {e : ε}
    (first : p.run.run reply s = (.error e, s')) :
    (p >>= f).run.run reply s = (.error e, s') := by
  rw [run_run_bind, first]

variable (reply)

theorem run_run_lift (p : Program Request Reply α) (s : σ) :
    (liftM p : ExceptT ε (Program Request Reply) α).run.run reply s =
      (.ok (p.run reply s).1, (p.run reply s).2) :=
  run_andThen reply p _ s

end Program

namespace Work

/-- The replies of surroundings of any kind, with a state. -/
abbrev Outside (σ : Type) := (q : Request) → σ → q.Reply × σ

variable {σ : Type}

/-- What a request gets from a store and the surroundings of the work, and both after it. -/
def alone (outside : Outside σ) : (q : Request) → Store × σ → q.Reply × (Store × σ)
  | .store q, (s, t) => ((Store.reply q s).1, (Store.reply q s).2, t)
  | q, (s, t) => ((outside q t).1, s, (outside q t).2)

@[simp] theorem run_store (outside : Outside σ) (q : Store.Request) (s : Store) (t : σ) :
    (store q).run (alone outside) (s, t) = ((Store.reply q s).1, (Store.reply q s).2, t) := rfl

theorem run_ending {α ε ε' : Type} (outside : Outside σ) (w : ExceptT ε Work α) (x : Store × σ) :
    (ending w : ExceptT ε' Work (Except ε α)).run.run (alone outside) x =
      (.ok (w.run.run (alone outside) x).1, (w.run.run (alone outside) x).2) :=
  Program.run_run_lift _ _ _

end Work

end Arbiter

/-! Jobs at once. -/

namespace Arbiter

/-- The submission that a job judges. -/
def Job.judges? : Job → Option Int64
  | judge id | rejudge id => some id
  | plagiarism _ | buildGraph _ => none

/-- A job that is under way, with the work that is left of it. -/
structure Running where
  job : Job
  rest : Work (Except Work.Fault Unit)

/-- The request goes to the store. -/
def Work.Request.IsStore : Work.Request → Prop
  | .store _ => True
  | _ => False

/-- A store and the workers on it, some of which have a job. -/
structure System where
  store : Store
  running : Nat → Option Running

namespace System

open Function (update)

/-- No job is under way yet. -/
def idle (store : Store) : System := ⟨store, fun _ => none⟩

/-- A worker has taken a job up. -/
def begin (x : System) (s : SandboxSettings) (i : Nat) (job : Job) : System :=
  ⟨x.store, update x.running i (some ⟨job, (job.work s).run⟩)⟩

inductive Event
  | began (worker : Nat) (job : Job)
  | asked (worker : Nat) (q : Store.Request)
  /-- A request that does not go to the store. -/
  | acted (worker : Nat)
  | ended (worker : Nat)

/-- What can happen next. -/
inductive Move (s : SandboxSettings) : System → Event → System → Prop
  | began {x : System} {i : Nat} (job : Job) (free : x.running i = none) :
    Move s x (.began i job) (x.begin s i job)
  | asked {x : System} {i : Nat} {job : Job} {q : Store.Request} {next}
    (here : x.running i = some ⟨job, Program.ask (.store q) next⟩) :
    Move s x (.asked i q)
      ⟨(Store.reply q x.store).2,
        update x.running i (some ⟨job, next (Store.reply q x.store).1⟩)⟩
  | acted {x : System} {i : Nat} {job : Job} {q : Work.Request} {next}
    (here : x.running i = some ⟨job, Program.ask q next⟩) (outside : ¬ q.IsStore) (reply : q.Reply) :
    Move s x (.acted i) ⟨x.store, update x.running i (some ⟨job, next reply⟩)⟩
  | ended {x : System} {i : Nat} {job : Job} {result}
    (here : x.running i = some ⟨job, Program.done result⟩) :
    Move s x (.ended i) ⟨x.store, update x.running i none⟩

/-- Some moves in turn, each of which is admitted where it happens. -/
inductive Run (s : SandboxSettings) (admits : System → Event → Prop) :
    System → List Event → System → Prop
  | refl (x : System) : Run s admits x [] x
  | step {x y z : System} {past : List Event} {e : Event} (run : Run s admits x past y)
    (admitted : admits y e) (move : Move s y e z) : Run s admits x (past ++ [e]) z

/-- Anything that can happen may happen. -/
def Free (_ : System) (_ : Event) : Prop := True

/-- A pass begins only where no pass over its submission is under way. -/
def Alone (x : System) : Event → Prop
  | .began _ job =>
    ∀ id, job.judges? = some id → ∀ i r, x.running i = some r → r.job.judges? ≠ some id
  | _ => True

/-- A pass over the submission begins with the event. -/
def Event.begins (id : Int64) : Event → Bool
  | .began _ job => job.judges? = some id
  | _ => false

/-- The outcome that the event stores for the submission. -/
def Event.commits? (id : Int64) : Event → Option JudgeOutcome
  | .asked _ (.commit i outcome) => if i = id then some outcome else none
  | _ => none

/-- The outcome that was stored for the submission last. -/
def lastCommit (id : Int64) (past : List Event) : Option JudgeOutcome :=
  (past.filterMap (·.commits? id)).getLast?

@[simp] theorem lastCommit_append (id : Int64) (past : List Event) (e : Event) :
    lastCommit id (past ++ [e]) = (e.commits? id).or (lastCommit id past) := by
  unfold lastCommit
  rw [List.filterMap_append, List.getLast?_append]
  cases committed : e.commits? id with
  | none => simp [committed]
  | some o => simp [committed]

variable {s : SandboxSettings} {admits : System → Event → Prop}

theorem Run.trans {x y z : System} {past later : List Event} (first : Run s admits x past y)
    (second : Run s admits y later z) : Run s admits x (past ++ later) z := by
  induction second with
  | refl => rwa [List.append_nil]
  | step _ admitted move ih =>
    rw [← List.append_assoc]
    exact .step ih admitted move

theorem Run.one {x y : System} {e : Event} (admitted : admits x e) (move : Move s x e y) :
    Run s admits x [e] y :=
  .step (.refl x) admitted move

/-- A job can always be taken to its end. -/
theorem exists_run_rest (admitted : ∀ x e, (∀ i job, e ≠ .began i job) → admits x e) (i : Nat)
    (job : Job) (rest : Work (Except Work.Fault Unit)) (x : System)
    (here : x.running i = some ⟨job, rest⟩) :
    ∃ later y, Run s admits x later y ∧ y.running = update x.running i none := by
  induction rest generalizing x with
  | done result =>
    exact ⟨_, _, .one (admitted _ _ (by simp)) (.ended here), rfl⟩
  | ask q next ih =>
    have goOn : ∀ (e : Event) (store : Store) (reply : q.Reply), admits x e →
        Move s x e ⟨store, update x.running i (some ⟨job, next reply⟩)⟩ →
        ∃ later y, Run s admits x later y ∧ y.running = update x.running i none := by
      intro e store reply may move
      obtain ⟨later, y, run, ended⟩ := ih reply
        ⟨store, update x.running i (some ⟨job, next reply⟩)⟩ (Function.update_self i _ _)
      refine ⟨[e] ++ later, y, (Run.one may move).trans run, ?_⟩
      rw [ended]
      exact Function.update_idem _ _ _
    by_cases isStore : q.IsStore
    · cases q with
      | store q => exact goOn _ _ _ (admitted _ _ (by simp)) (.asked here)
      | _ => exact isStore.elim
    · have reply : q.Reply := (Rehearsal.reply q {}).1
      exact goOn _ _ reply (admitted _ _ (by simp)) (.acted here isStore reply)

end System

end Arbiter
