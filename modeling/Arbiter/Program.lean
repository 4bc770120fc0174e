/-! Programs that put requests to their surroundings and go on with the replies. What a request does
is said elsewhere, so that one program can be run on a store, in a rehearsal or between the steps of
other programs. -/

namespace Arbiter

inductive Program (Request : Type) (Reply : Request → Type) (α : Type)
  | done (a : α)
  | ask (q : Request) (next : Reply q → Program Request Reply α)

namespace Program

variable {Request : Type} {Reply : Request → Type} {α β σ : Type}

/-- Goes on with `f` after `p`. -/
def andThen (p : Program Request Reply α) (f : α → Program Request Reply β) :
    Program Request Reply β :=
  match p with
  | done a => f a
  | ask q next => ask q fun r => (next r).andThen f

instance : Monad (Program Request Reply) where
  pure := done
  bind := andThen

/-- The program that puts one request. -/
def request (q : Request) : Program Request Reply (Reply q) := ask q done

/-- Runs a program in surroundings with a state. -/
def run (reply : (q : Request) → σ → Reply q × σ) : Program Request Reply α → σ → α × σ
  | done a, s => (a, s)
  | ask q next, s => (next (reply q s).1).run reply (reply q s).2

@[simp] theorem run_pure (reply : (q : Request) → σ → Reply q × σ) (a : α) (s : σ) :
    (pure a : Program Request Reply α).run reply s = (a, s) := rfl

@[simp] theorem run_request (reply : (q : Request) → σ → Reply q × σ) (q : Request) (s : σ) :
    (request q).run reply s = reply q s := rfl

theorem run_andThen (reply : (q : Request) → σ → Reply q × σ) (p : Program Request Reply α)
    (f : α → Program Request Reply β) (s : σ) :
    (p.andThen f).run reply s = (f (p.run reply s).1).run reply (p.run reply s).2 := by
  induction p generalizing s with
  | done a => rfl
  | ask q next ih => exact ih _ _

@[simp] theorem run_bind (reply : (q : Request) → σ → Reply q × σ) (p : Program Request Reply α)
    (f : α → Program Request Reply β) (s : σ) :
    (p >>= f).run reply s = (f (p.run reply s).1).run reply (p.run reply s).2 :=
  run_andThen reply p f s

end Program

end Arbiter
