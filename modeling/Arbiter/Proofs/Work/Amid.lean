import Arbiter.Proofs.Judging.Stage
import Arbiter.Proofs.Work.Life

/-! Work on a store that others work on at the same time. Main statement: where all that is done leads
from stores of a class to stores of the class, each part of it comes to something that the replies of
such stores lead to. -/

namespace Arbiter

namespace Work

/-- The request leads from stores of the class to stores of the class. -/
def Keeps (C : Store → Prop) (q : Store.Request) : Prop := ∀ t, C t → C (Store.reply q t).2

/-- Surroundings that keep the store in a class, as the work has to do in turn. A reply is that of any
store of the class, since the store may have changed since the last one. -/
def among (C : Store → Prop) : Program.Effect Request Request.Reply Unit
  | .store q, _, K => Keeps C q ∧ ∀ t, C t → K (Store.reply q t).1 ()
  | .openWorkspace _, _, K | .makeJudgeFolder, _, K | .write .., _, K => ∀ reply, K reply ()
  | .holds .., _, K | .joined _, _, K => ∀ reply, K reply ()
  | .launch _, _, K => ∀ reply, K reply ()
  | .wait .., _, K => ∀ reply, K reply ()
  | .remove _, _, K => ∀ reply, K reply ()
  | .moments, _, K => ∀ reply, K reply ()

variable {C : Store → Prop}

theorem among_outside {q : Request} (outside : ¬ q.IsStore) {K : q.Reply → Unit → Prop}
    (h : among C q () K) (reply : q.Reply) : K reply () := by
  cases q with
  | store q => exact (outside trivial).elim
  | _ => exact h reply

theorem mono_among (C : Store → Prop) : (among C).Mono := by
  intro q _ K K' imp h
  cases q with
  | store q => exact ⟨h.1, fun t here => imp _ _ (h.2 t here)⟩
  | _ => exact fun reply => imp _ _ (h reply)

theorem free_among (C : Store → Prop) : Free (among C) := by
  intro q free _ K h
  cases q with
  | store q =>
    cases q with
    | language id => exact ⟨fun _ here => here, fun _ _ => h _⟩
    | _ => exact free.elim
  | _ => exact h

/-- What some work comes to in a class it also comes to in the part of the class that all requests
keep to. -/
theorem wp_among_and {α : Type} {D : Store → Prop} (stays : ∀ q, Keeps D q) {p : Work α}
    {Q : α → Unit → Prop} (h : p.wp (among C) Q ()) : p.wp (among fun t => C t ∧ D t) Q () := by
  induction p with
  | done a => exact h
  | ask q next ih =>
    cases q with
    | store q =>
      exact ⟨fun t here => ⟨h.1 t here.1, stays q t here.2⟩, fun t here => ih _ (h.2 t here.1)⟩
    | _ => exact fun reply => ih reply (h reply)

end Work

namespace System

open Work (among)

/-- Some work that is done next to the jobs, and what it comes to. Before each of its requests to the
store, and after the last one, anything may happen. -/
inductive Amid (s : SandboxSettings) {α : Type} :
    System → Work α → α → List (Event ⊕ Use) → System → Prop
  | ended {x y : System} {a : α} {past : List (Event ⊕ Use)} (life : Life s x past y) :
    Amid s x (Program.done a) a past y
  | asked {x y z : System} {a : α} {past later : List (Event ⊕ Use)} {q : Store.Request} {next}
    (life : Life s x past y)
    (rest : Amid s ⟨(Store.reply q y.store).2, y.running⟩ (next (Store.reply q y.store).1) a later z) :
    Amid s x (Program.ask (.store q) next) a (past ++ later) z
  | acted {x z : System} {a : α} {later : List (Event ⊕ Use)} {q : Work.Request} {next}
    (outside : ¬ q.IsStore) (reply : q.Reply) (rest : Amid s x (next reply) a later z) :
    Amid s x (Program.ask q next) a later z

theorem Amid.of_ended {s : SandboxSettings} {α : Type} {a b : α} {x y : System}
    {past : List (Event ⊕ Use)} (amid : Amid s x (Program.done a) b past y) : b = a ∧ Life s x past y := by
  cases amid with
  | ended life => exact ⟨rfl, life⟩

theorem Amid.of_asked {s : SandboxSettings} {α : Type} {a : α} {q : Store.Request} {next} {x z : System}
    {all : List (Event ⊕ Use)} (amid : Amid s x (Program.ask (.store q) next) a all z) :
    ∃ past later y, all = past ++ later ∧ Life s x past y ∧
      Amid s ⟨(Store.reply q y.store).2, y.running⟩ (next (Store.reply q y.store).1) a later z := by
  cases amid with
  | asked life rest => exact ⟨_, _, _, rfl, life, rest⟩
  | acted outside => exact (outside trivial).elim

/-- The store is in the class, and no job that is under way leads out of it. -/
structure Keeping (C : Store → Prop) (x : System) : Prop where
  store : C x.store
  running (i : Nat) (r : Running) : x.running i = some r → r.rest.wp (among C) (fun _ _ => True) ()

variable {s : SandboxSettings} {C : Store → Prop} {x y : System} {past : List (Event ⊕ Use)}

theorem keeping_idle {store : Store} (here : C store) : (idle store).Keeping C := by
  refine ⟨here, fun i r under => ?_⟩
  cases under

section Jobs

variable (jobs : ∀ job : Job, (job.work s).run.wp (among C) (fun _ _ => True) ())

include jobs

theorem Keeping.move (keeping : x.Keeping C) {e : Event} (move : Move s x e y) : y.Keeping C := by
  cases move with
  | began job free =>
    refine ⟨keeping.store, forall_running_update keeping.running fun r here => ?_⟩
    obtain rfl := Option.some.inj here
    exact jobs job
  | asked here =>
    obtain ⟨keeps, replied⟩ := keeping.running _ _ here
    refine ⟨keeps _ keeping.store, forall_running_update keeping.running fun r there => ?_⟩
    obtain rfl := Option.some.inj there
    exact replied _ keeping.store
  | acted here outside reply =>
    refine ⟨keeping.store, forall_running_update keeping.running fun r there => ?_⟩
    obtain rfl := Option.some.inj there
    exact Work.among_outside outside (keeping.running _ _ here) reply
  | ended here =>
    refine ⟨keeping.store, forall_running_update keeping.running fun r none => ?_⟩
    cases none

/-- What holds of the store holds of it at all times, if all jobs and users keep to it. -/
theorem Keeping.life (keeping : x.Keeping C) (life : Life s x past y)
    (uses : ∀ u, .inr u ∈ past → ∀ t, C t → C (t.use u)) : y.Keeping C := by
  induction life with
  | refl => exact keeping
  | @step _ _ before e _ change ih =>
    have kept := ih fun u here => uses u (List.mem_append_left _ here)
    cases change with
    | moved move => exact kept.move jobs move
    | @used u room =>
      have last : Sum.inr u ∈ before ++ [Sum.inr u] := List.mem_append_right _ List.mem_cons_self
      exact ⟨uses u last _ kept.store, kept.running⟩

/-- Work that is done next to the jobs comes to what is known of it in the class, and the store stays in
the class. -/
theorem Keeping.amid (keeping : x.Keeping C) {α : Type} {p : Work α} {Q : α → Unit → Prop}
    (known : p.wp (among C) Q ()) {a : α} (amid : Amid s x p a past y)
    (uses : ∀ u, .inr u ∈ past → ∀ t, C t → C (t.use u)) : Q a () ∧ y.Keeping C := by
  induction amid with
  | ended life => exact ⟨known, keeping.life jobs life uses⟩
  | asked life rest ih =>
    have before := keeping.life jobs life fun u here => uses u (List.mem_append_left _ here)
    obtain ⟨keeps, replied⟩ := known
    refine ih ⟨keeps _ before.store, before.running⟩ (replied _ before.store) fun u here => ?_
    exact uses u (List.mem_append_right _ here)
  | acted outside reply rest ih => exact ih keeping (Work.among_outside outside known reply) uses

end Jobs

variable {σ : Type}

/-- Work that nothing comes between is done as if it were alone. -/
theorem amid_alone (outside : Work.Outside σ) {α : Type} (p : Work α) (store : Store) (t : σ)
    (running : Nat → Option Running) :
    Amid s ⟨store, running⟩ p (p.run (Work.alone outside) (store, t)).1 []
      ⟨(p.run (Work.alone outside) (store, t)).2.1, running⟩ := by
  induction p generalizing store t with
  | done a => exact .ended (.refl _)
  | ask q next ih =>
    cases q with
    | store q => exact .asked (.refl _) (ih _ _ t)
    | _ => exact .acted not_false _ (ih _ store _)

end System

end Arbiter
