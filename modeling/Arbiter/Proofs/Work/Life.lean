import Arbiter.Proofs.Work.System

/-! Jobs that run at once while users put requests of their own: new records, and new tasks. Main
statement: from any state a job can be taken from its beginning to its end as if it were alone. -/

namespace Arbiter

/-- What users ask of a store. -/
inductive Use
  | insertSubmission (r : Submission)
  | insertProblem (p : Problem)
  | insertLanguage (l : Language)
  | createTask (submission problem : Int64) (threshold : Float)

namespace Store

/-- The store after a request of a user. -/
def use (s : Store) : Use → Store
  | .insertSubmission r => s.insertSubmission r
  | .insertProblem p => s.insertProblem p
  | .insertLanguage l => s.insertLanguage l
  | .createTask submission problem threshold => (s.createTask submission problem threshold).2

/-- There is an identifier left for a task, where one is asked for. -/
def HasRoom (s : Store) : Use → Prop
  | .createTask .. => s.lastTask < Int64.maxValue
  | _ => True

end Store

namespace System

open Function (update)
open Work (Outside alone)

/-- What can happen next: a job goes on, or a user puts a request. -/
inductive Change (s : SandboxSettings) : System → Event ⊕ Use → System → Prop
  | moved {x y : System} {e : Event} (move : Move s x e y) : Change s x (.inl e) y
  | used {x : System} {u : Use} (room : x.store.HasRoom u) :
    Change s x (.inr u) ⟨x.store.use u, x.running⟩

/-- Some changes in turn. -/
inductive Life (s : SandboxSettings) : System → List (Event ⊕ Use) → System → Prop
  | refl (x : System) : Life s x [] x
  | step {x y z : System} {past : List (Event ⊕ Use)} {e : Event ⊕ Use} (life : Life s x past y)
    (change : Change s y e z) : Life s x (past ++ [e]) z

variable {s : SandboxSettings} {x y z : System} {past later : List (Event ⊕ Use)}

theorem Life.trans (first : Life s x past y) (second : Life s y later z) :
    Life s x (past ++ later) z := by
  induction second with
  | refl => rwa [List.append_nil]
  | step _ change ih =>
    rw [← List.append_assoc]
    exact .step ih change

theorem Life.one {e : Event ⊕ Use} (change : Change s x e y) : Life s x [e] y :=
  .step (.refl x) change

theorem Life.use (x : System) {u : Use} (room : x.store.HasRoom u) :
    Life s x [.inr u] ⟨x.store.use u, x.running⟩ :=
  .one (.used room)

/-- At every point of a history there is a state that it has come to. -/
theorem Life.split (life : Life s x (past ++ later) z) : ∃ y, Life s x past y ∧ Life s y later z := by
  generalize whole : past ++ later = events at life
  induction life generalizing later with
  | refl =>
    obtain ⟨rfl, rfl⟩ := List.append_eq_nil_iff.1 whole
    exact ⟨x, .refl x, .refl x⟩
  | step life change ih =>
    rcases List.eq_nil_or_concat later with rfl | ⟨init, last, rfl⟩
    · rw [List.append_nil] at whole
      exact ⟨_, whole ▸ .step life change, .refl _⟩
    · rw [List.concat_eq_append, ← List.append_assoc] at whole
      obtain ⟨same, ends⟩ := List.append_inj' whole rfl
      obtain ⟨y, first, second⟩ := ih same
      rw [List.concat_eq_append, ends]
      exact ⟨y, first, .step second change⟩

theorem Life.last {e : Event ⊕ Use} (life : Life s x (past ++ [e]) z) :
    ∃ y, Life s x past y ∧ Change s y e z := by
  generalize whole : past ++ [e] = events at life
  cases life with
  | refl => simp at whole
  | step life change =>
    obtain ⟨rfl, ends⟩ := List.append_inj' whole rfl
    obtain rfl := (List.cons.inj ends).1
    exact ⟨_, life, change⟩

/-- Every event of a history happens in a state that the history has come to. -/
theorem Life.at {e : Event ⊕ Use} (life : Life s x (past ++ e :: later) z) :
    ∃ y y', Life s x past y ∧ Change s y e y' := by
  rw [List.append_cons] at life
  obtain ⟨y', first, -⟩ := life.split
  obtain ⟨y, before, change⟩ := first.last
  exact ⟨y, y', before, change⟩

/-- What holds of all work that is under way holds of it after one worker has gone on. -/
theorem forall_running_update {P : Running → Prop} {running : Nat → Option Running}
    (held : ∀ i r, running i = some r → P r) {i : Nat} {slot : Option Running}
    (own : ∀ r, slot = some r → P r) (j : Nat) (r : Running)
    (here : update running i slot j = some r) : P r := by
  by_cases same : j = i
  · subst same
    rw [Function.update_self] at here
    exact own r here
  · rw [Function.update_of_ne same] at here
    exact held j r here

variable {σ : Type}

/-- Work that is under way can go on to its end as if it were alone. -/
theorem exists_life_rest (outside : Outside σ) (i : Nat) (job : Job) (x : System)
    (rest : Work (Except Work.Fault Unit)) (t : σ) :
    ∃ later : List Event, Life s ⟨x.store, update x.running i (some ⟨job, rest⟩)⟩ (later.map .inl)
      ⟨(rest.run (alone outside) (x.store, t)).2.1, update x.running i none⟩ := by
  induction rest generalizing x t with
  | done result =>
    have move := Move.ended (s := s)
      (x := ⟨x.store, update x.running i (some ⟨job, Program.done result⟩)⟩) (Function.update_self i _ _)
    rw [Function.update_idem] at move
    exact ⟨[.ended i], .one (.moved move)⟩
  | ask q next ih =>
    have goOn {e : Event} {store : Store} (reply : q.Reply) (t' : σ)
        (move : Move s ⟨x.store, update x.running i (some ⟨job, Program.ask q next⟩)⟩ e
          ⟨store, update (update x.running i (some ⟨job, Program.ask q next⟩)) i (some ⟨job, next reply⟩)⟩) :
        ∃ later : List Event,
          Life s ⟨x.store, update x.running i (some ⟨job, Program.ask q next⟩)⟩ (later.map .inl)
          ⟨((next reply).run (alone outside) (store, t')).2.1, update x.running i none⟩ := by
      rw [Function.update_idem] at move
      obtain ⟨later, life⟩ := ih reply ⟨store, x.running⟩ t'
      exact ⟨e :: later, (Life.one (.moved move)).trans life⟩
    have here := Function.update_self i (some (⟨job, Program.ask q next⟩ : Running)) x.running
    cases q with
    | store q => exact goOn _ t (.asked here)
    | _ => exact goOn _ _ (.acted here (by exact not_false) _)

/-- A worker that is free can take a job up and do all of it as if it were alone. -/
theorem exists_life_work (outside : Outside σ) {i : Nat} (job : Job) (free : x.running i = none) (t : σ) :
    ∃ later : List Event,
      Life s x (later.map .inl) ⟨((job.work s).run.run (alone outside) (x.store, t)).2.1, x.running⟩ := by
  obtain ⟨later, life⟩ := exists_life_rest (s := s) outside i job x (job.work s).run t
  have kept : update x.running i none = x.running := by
    rw [← free]
    exact Function.update_eq_self i x.running
  rw [kept] at life
  exact ⟨.began i job :: later, (Life.one (.moved (.began job free))).trans life⟩

end System

end Arbiter
