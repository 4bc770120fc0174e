import Arbiter.Proofs.Work.System

/-! Several pieces of work on one store, each in surroundings of its own. They take turns of one request
each, in any order. Main statement: taking the pieces to their ends one after the other is one of these
orders. -/

namespace Arbiter

open Function (update)

theorem Work.alone_outside {σ : Type} {outside : Work.Outside σ} {q : Work.Request}
    (away : ¬ q.IsStore) (s : Store) (t : σ) :
    Work.alone outside q (s, t) = ((outside q t).1, s, (outside q t).2) := by
  cases q with
  | store q => exact (away trivial).elim
  | _ => rfl

/-- A store, what is left of each piece of work, and the state of its surroundings. -/
structure Crowd (ι σ : Type) where
  store : Store
  rest : ι → Work (Except Work.Fault Unit)
  around : ι → σ

namespace Crowd

variable {ι σ : Type} [DecidableEq ι] (outside : ι → Work.Outside σ)

/-- A member has the store and its surroundings reply to its next request, if there is one. -/
def turn (x : Crowd ι σ) (i : ι) : Crowd ι σ :=
  match x.rest i with
  | Program.done _ => x
  | Program.ask q next =>
    let (reply, store, around) := Work.alone (outside i) q (x.store, x.around i)
    ⟨store, update x.rest i (next reply), update x.around i around⟩

/-- Members take turns in the given order. -/
def play (x : Crowd ι σ) (turns : List ι) : Crowd ι σ := turns.foldl (turn outside) x

/-- A member goes on to its end without any other coming between. -/
def finish (x : Crowd ι σ) (i : ι) : Crowd ι σ :=
  let (result, store, around) := (x.rest i).run (Work.alone (outside i)) (x.store, x.around i)
  ⟨store, update x.rest i (Program.done result), update x.around i around⟩

/-- No work is left. -/
def Ended (x : Crowd ι σ) : Prop := ∀ i, ∃ result, x.rest i = Program.done result

variable {outside}

theorem play_append (x : Crowd ι σ) (turns later : List ι) :
    x.play outside (turns ++ later) = (x.play outside turns).play outside later :=
  List.foldl_append

theorem exists_turns_rest (i : ι) (rest : Work (Except Work.Fault Unit)) (x : Crowd ι σ)
    (here : x.rest i = rest) : ∃ n, x.finish outside i = x.play outside (List.replicate n i) := by
  induction rest generalizing x with
  | done result =>
    refine ⟨0, ?_⟩
    show finish outside x i = x
    rw [finish, here]
    show Crowd.mk x.store (update x.rest i _) (update x.around i _) = x
    rw [← here, Function.update_eq_self, Function.update_eq_self]
  | ask q next ih =>
    obtain ⟨n, same⟩ := ih (Work.alone (outside i) q (x.store, x.around i)).1 (x.turn outside i) (by
      rw [turn, here]
      exact Function.update_self i _ _)
    refine ⟨n + 1, ?_⟩
    rw [List.replicate_succ]
    refine Eq.trans ?_ same
    rw [finish, finish, turn, here]
    simp [Program.run]

/-- To go on to its end is to take some turns. -/
theorem exists_turns (x : Crowd ι σ) (i : ι) :
    ∃ n, x.finish outside i = x.play outside (List.replicate n i) :=
  exists_turns_rest i _ x rfl

theorem exists_turns_order (x : Crowd ι σ) (order : List ι) :
    ∃ turns, order.foldl (finish outside) x = x.play outside turns := by
  induction order generalizing x with
  | nil => exact ⟨[], rfl⟩
  | cons i rest ih =>
    obtain ⟨n, first⟩ := exists_turns x i
    obtain ⟨turns, later⟩ := ih (x.finish outside i)
    refine ⟨List.replicate n i ++ turns, ?_⟩
    rw [List.foldl_cons, later, play_append, first]

theorem rest_finish_self (x : Crowd ι σ) (i : ι) :
    ∃ result, (x.finish outside i).rest i = Program.done result :=
  ⟨_, Function.update_self i _ _⟩

theorem rest_finish_done (x : Crowd ι σ) (i j : ι) (ended : ∃ result, x.rest i = Program.done result) :
    ∃ result, (x.finish outside j).rest i = Program.done result := by
  by_cases same : i = j
  · subst same
    exact rest_finish_self x i
  · have other : (x.finish outside j).rest i = x.rest i := Function.update_of_ne same _ _
    rwa [other]

theorem rest_order_done (order : List ι) (x : Crowd ι σ) (i : ι)
    (h : i ∈ order ∨ ∃ result, x.rest i = Program.done result) :
    ∃ result, (order.foldl (finish outside) x).rest i = Program.done result := by
  induction order generalizing x with
  | nil => exact h.resolve_left List.not_mem_nil
  | cons j rest ih =>
    rw [List.foldl_cons]
    apply ih
    rcases h with here | ended
    · rcases List.mem_cons.1 here with rfl | later
      · exact .inr (rest_finish_self x i)
      · exact .inl later
    · exact .inr (rest_finish_done x i j ended)

/-- All work is done once every member was taken to its end. -/
theorem ended_order (x : Crowd ι σ) {order : List ι} (all : ∀ i, i ∈ order) :
    (order.foldl (finish outside) x).Ended :=
  fun i => rest_order_done order x i (.inl (all i))

end Crowd

end Arbiter
