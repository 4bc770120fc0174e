import Arbiter.Work.Request

/-! Programs by what holds when they end, whatever their surroundings reply, and by what they put and what
they get. Main statement: where every program of a group puts only requests that its own past admits, so
does the group, in whatever order the programs go on. -/

namespace Arbiter

namespace Program

variable {Request : Type} {Reply : Request → Type} {α β σ : Type}

theorem andThen_done (p : Program Request Reply α) : p.andThen done = p := by
  induction p with
  | done a => rfl
  | ask q next ih => exact congrArg (ask q) (funext ih)

theorem andThen_assoc {γ : Type} (p : Program Request Reply α) (f : α → Program Request Reply β)
    (g : β → Program Request Reply γ) :
    (p.andThen f).andThen g = p.andThen fun a => (f a).andThen g := by
  induction p with
  | done a => rfl
  | ask q next ih => exact congrArg (ask q) (funext ih)

instance : LawfulMonad (Program Request Reply) :=
  LawfulMonad.mk' _ (fun p => andThen_done p) (fun _ _ => rfl) (fun p f g => andThen_assoc p f g)

/-- Surroundings: after a request in a state, `K` has to hold of every reply and state that can
follow. -/
abbrev Effect (Request : Type) (Reply : Request → Type) (σ : Type) :=
  (q : Request) → σ → (Reply q → σ → Prop) → Prop

/-- The program ends with `Q` from the state `s`, whatever follows its requests. -/
def wp (effect : Effect Request Reply σ) :
    Program Request Reply α → (α → σ → Prop) → σ → Prop
  | done a, Q, s => Q a s
  | ask q next, Q, s => effect q s fun r t => (next r).wp effect Q t

/-- Surroundings that ask for less where less is asked of the end. -/
def Effect.Mono (effect : Effect Request Reply σ) : Prop :=
  ∀ q s (K K' : Reply q → σ → Prop), (∀ r t, K r t → K' r t) → effect q s K → effect q s K'

variable {effect : Effect Request Reply σ}

@[simp] theorem wp_pure (a : α) (Q : α → σ → Prop) (s : σ) :
    (pure a : Program Request Reply α).wp effect Q s ↔ Q a s := Iff.rfl

@[simp] theorem wp_request (q : Request) (Q : Reply q → σ → Prop) (s : σ) :
    (request q : Program Request Reply (Reply q)).wp effect Q s ↔ effect q s Q := Iff.rfl

theorem wp_andThen (p : Program Request Reply α) (f : α → Program Request Reply β)
    (Q : β → σ → Prop) (s : σ) :
    (p.andThen f).wp effect Q s ↔ p.wp effect (fun a => (f a).wp effect Q) s := by
  induction p generalizing s with
  | done a => rfl
  | ask q next ih =>
    have step : (fun r t => ((next r).andThen f).wp effect Q t) =
        fun r t => (next r).wp effect (fun a => (f a).wp effect Q) t := by
      funext r t
      exact propext (ih r t)
    show effect q s _ ↔ effect q s _
    rw [step]

@[simp] theorem wp_bind (p : Program Request Reply α) (f : α → Program Request Reply β)
    (Q : β → σ → Prop) (s : σ) :
    (p >>= f).wp effect Q s ↔ p.wp effect (fun a => (f a).wp effect Q) s :=
  wp_andThen p f Q s

/-- Work that may stop with a fault goes on only after a result. -/
theorem wp_run_bind {ε : Type} (p : ExceptT ε (Program Request Reply) α)
    (f : α → ExceptT ε (Program Request Reply) β) (Q : Except ε β → σ → Prop) (s : σ) :
    (p >>= f).run.wp effect Q s ↔
      p.run.wp effect (fun r t =>
        match r with
        | .ok a => (f a).run.wp effect Q t
        | .error e => Q (.error e) t) s := by
  rw [ExceptT.run_bind, wp_bind]
  refine iff_of_eq (congrArg (fun K => p.run.wp effect K s) ?_)
  funext r t
  cases r <;> rfl

theorem wp_run_lift {ε : Type} (p : Program Request Reply α) (Q : Except ε α → σ → Prop) (s : σ) :
    (liftM p : ExceptT ε (Program Request Reply) α).run.wp effect Q s ↔
      p.wp effect (fun a t => Q (.ok a) t) s :=
  wp_andThen p _ Q s

theorem wp_mono (mono : effect.Mono) {p : Program Request Reply α} {Q Q' : α → σ → Prop} {s : σ}
    (h : p.wp effect Q s) (hQ : ∀ a t, Q a t → Q' a t) : p.wp effect Q' s := by
  induction p generalizing s with
  | done a => exact hQ a s h
  | ask q next ih => exact mono q s _ _ (fun r t => ih r) h

end Program

end Arbiter

/-! What programs put and what they get. -/

namespace Arbiter

namespace Program

variable {Request : Type} {Reply : Request → Type} {α σ ι : Type}

/-- A request and its reply. -/
abbrev Exchange (Request : Type) (Reply : Request → Type) := (q : Request) × Reply q

/-- The program can put these requests and get these replies, and goes on with the second one. -/
inductive Path : Program Request Reply α → List (Exchange Request Reply) →
    Program Request Reply α → Prop
  | refl (p : Program Request Reply α) : Path p [] p
  | ask {q : Request} {next : Reply q → Program Request Reply α} (reply : Reply q)
    {later : List (Exchange Request Reply)} {rest : Program Request Reply α}
    (goesOn : Path (next reply) later rest) : Path (ask q next) (⟨q, reply⟩ :: later) rest

section Parts

/-! A path to the end of a program that is made of parts is made of their paths. -/

variable {β ε : Type} {p : Program Request Reply α} {a : α} {b : β}
  {past : List (Exchange Request Reply)}

theorem Path.of_done {a b : α} (path : Path (done a : Program Request Reply α) past (done b)) :
    past = [] ∧ b = a := by
  cases path
  exact ⟨rfl, rfl⟩

theorem Path.of_ask {q : Request} {next : Reply q → Program Request Reply α}
    (path : Path (Program.ask q next) past (done a)) :
    ∃ reply later, past = ⟨q, reply⟩ :: later ∧ Path (next reply) later (done a) := by
  cases path with
  | ask reply goesOn => exact ⟨reply, _, rfl, goesOn⟩

theorem Path.of_request {q : Request} {reply : Reply q} (path : Path (request q) past (done reply)) :
    past = [⟨q, reply⟩] := by
  obtain ⟨reply', later, rfl, goesOn⟩ := path.of_ask
  obtain ⟨rfl, rfl⟩ := goesOn.of_done
  rfl

theorem Path.of_bind {f : α → Program Request Reply β} (path : Path (p >>= f) past (done b)) :
    ∃ a first second, past = first ++ second ∧ Path p first (done a) ∧ Path (f a) second (done b) := by
  induction p generalizing past with
  | done a => exact ⟨a, [], past, rfl, .refl _, path⟩
  | ask q next ih =>
    obtain ⟨reply, later, rfl, goesOn⟩ := path.of_ask
    obtain ⟨a, first, second, rfl, here, there⟩ := ih reply goesOn
    exact ⟨a, _, second, rfl, .ask reply here, there⟩

theorem Path.bind {f : α → Program Request Reply β} {later : List (Exchange Request Reply)}
    {rest : Program Request Reply β} (path : Path p past (done a)) (goesOn : Path (f a) later rest) :
    Path (p >>= f) (past ++ later) rest := by
  induction p generalizing past with
  | done a' =>
    obtain ⟨rfl, rfl⟩ := path.of_done
    exact goesOn
  | ask q next ih =>
    obtain ⟨reply, past, rfl, here⟩ := path.of_ask
    exact .ask reply (ih reply here)

/-- Work that may stop with a fault goes on only after a result. -/
theorem Path.of_run_bind {w : ExceptT ε (Program Request Reply) α}
    {f : α → ExceptT ε (Program Request Reply) β} {r : Except ε β}
    (path : Path (w >>= f).run past (done r)) :
    (∃ e, r = .error e ∧ Path w.run past (done (.error e))) ∨
      ∃ a first second, past = first ++ second ∧ Path w.run first (done (.ok a)) ∧
        Path (f a).run second (done r) := by
  rw [ExceptT.run_bind] at path
  obtain ⟨x, first, second, rfl, here, there⟩ := path.of_bind
  cases x with
  | ok a => exact .inr ⟨a, first, second, rfl, here, there⟩
  | error e =>
    obtain ⟨rfl, rfl⟩ := there.of_done
    exact .inl ⟨e, rfl, by simpa using here⟩

theorem Path.of_run_lift {r : Except ε α}
    (path : Path (liftM p : ExceptT ε (Program Request Reply) α).run past (done r)) :
    ∃ a, r = .ok a ∧ Path p past (done a) := by
  have path : Path (p >>= fun a => done (Except.ok (ε := ε) a)) past (done r) := path
  obtain ⟨a, first, second, rfl, here, there⟩ := path.of_bind
  obtain ⟨rfl, rfl⟩ := there.of_done
  exact ⟨a, rfl, by simpa using here⟩

/-- Work that cannot stop is followed by what goes on with it. -/
theorem Path.of_lift_bind {f : α → ExceptT ε (Program Request Reply) β} {r : Except ε β}
    (path : Path ((liftM p : ExceptT ε (Program Request Reply) α) >>= f).run past (done r)) :
    ∃ a first second, past = first ++ second ∧ Path p first (done a) ∧
      Path (f a).run second (done r) := by
  rcases path.of_run_bind with ⟨e, -, none⟩ | ⟨a, first, second, rfl, here, there⟩
  · obtain ⟨_, none, -⟩ := none.of_run_lift
    cases none
  · obtain ⟨a, same, here⟩ := here.of_run_lift
    cases same
    exact ⟨a, first, second, rfl, here, there⟩

end Parts

/-- Surroundings that reply as they like. They keep what was exchanged, and `P` has to admit every
request after that. -/
def admitting (P : List (Exchange Request Reply) → Request → Prop) :
    Effect Request Reply (List (Exchange Request Reply)) :=
  fun q past K => P past q ∧ ∀ reply, K reply (past ++ [⟨q, reply⟩])

variable {P : List (Exchange Request Reply) → Request → Prop}

/-- Every request on a path is admitted after those before it. -/
theorem Path.admitted {p rest : Program Request Reply α} {later : List (Exchange Request Reply)}
    (path : Path p later rest) {Q : α → List (Exchange Request Reply) → Prop}
    {past : List (Exchange Request Reply)} (h : p.wp (admitting P) Q past)
    {before after : List (Exchange Request Reply)} {e : Exchange Request Reply}
    (here : later = before ++ e :: after) : P (past ++ before) e.1 := by
  induction path generalizing past before with
  | refl p => simp at here
  | @ask q next reply later rest goesOn ih =>
    cases before with
    | nil =>
      obtain ⟨rfl, rfl⟩ := List.cons.inj here
      rw [List.append_nil]
      exact h.1
    | cons first before =>
      obtain ⟨rfl, left⟩ := List.cons.inj here
      have admitted := ih (h.2 reply) left
      rwa [List.append_assoc] at admitted

/-- What one of several programs has exchanged. -/
def own [DecidableEq ι] (i : ι) (past : List (ι × Exchange Request Reply)) :
    List (Exchange Request Reply) :=
  past.filterMap fun e => if e.1 = i then some e.2 else none

/-- A history of programs that take turns in any order: the part of each one is a path of it. -/
def Woven [DecidableEq ι] (programs : ι → Program Request Reply α)
    (past : List (ι × Exchange Request Reply)) : Prop :=
  ∀ i, ∃ rest, Path (programs i) (own i past) rest

section Woven

variable [DecidableEq ι] {i j : ι} {past before after : List (ι × Exchange Request Reply)}
  {e : Exchange Request Reply}

theorem mem_own : e ∈ own i past ↔ (i, e) ∈ past := by
  simp only [own, List.mem_filterMap, Option.ite_none_right_eq_some, Option.some.injEq]
  constructor
  · rintro ⟨⟨_, _⟩, here, rfl, rfl⟩
    exact here
  · intro here
    exact ⟨(i, e), here, rfl, rfl⟩

theorem own_append (later : List (ι × Exchange Request Reply)) :
    own i (past ++ later) = own i past ++ own i later :=
  List.filterMap_append

theorem own_map_same (later : List (Exchange Request Reply)) :
    own i (later.map fun e => (i, e)) = later := by
  have kept : (fun e : ι × Exchange Request Reply => if e.1 = i then some e.2 else none) ∘
      (fun e => (i, e)) = some := funext fun _ => if_pos rfl
  rw [own, List.filterMap_map, kept, List.filterMap_some]

theorem own_map_other (other : j ≠ i) (later : List (Exchange Request Reply)) :
    own i (later.map fun e => (j, e)) = [] := by
  simp [own, List.filterMap_map, other]

theorem Woven.admitted {programs : ι → Program Request Reply α} (woven : Woven programs past)
    {P : ι → List (Exchange Request Reply) → Request → Prop}
    (h : ∀ i, (programs i).wp (admitting (P i)) (fun _ _ => True) [])
    (here : past = before ++ (i, e) :: after) : P i (own i before) e.1 := by
  obtain ⟨rest, path⟩ := woven i
  have split : own i past = own i before ++ e :: own i after := by
    rw [here, own_append]
    exact congrArg (own i before ++ ·) (List.filterMap_cons_some (if_pos rfl))
  exact path.admitted (h i) split

end Woven

/-- The requests that a program puts as it runs, each with the state that it meets. -/
def asked (reply : (q : Request) → σ → Reply q × σ) : Program Request Reply α → σ → List (Request × σ)
  | done _, _ => []
  | ask q next, s => (q, s) :: (next (reply q s).1).asked reply (reply q s).2

end Program

end Arbiter
