import Arbiter.Proofs.Parsing.Cover
import Arbiter.Syntax.Parser.Grammar
import Mathlib.Data.List.Forall2

/-! Parsers that agree. Two parsers agree if on tokens of the same kinds, wherever they stand, they give
the same. It is enough here that they do so on tokens that weigh less than a bound, and what they leave
weighs less than another one. -/

namespace Arbiter.Syntax

/-- The number of characters that stand in the source for a token. -/
def TokenKind.weight (k : TokenKind) : Nat := (k.text?.getD "").length

def kindsOf (ts : List Token) : List TokenKind := ts.map (·.kind)

def weight (ts : List Token) : Nat := (kindsOf ts).foldr (fun k n => k.weight + n) 0

@[simp] theorem weight_cons (t : Token) (ts : List Token) :
    weight (t :: ts) = t.kind.weight + weight ts := rfl

theorem weight_tail_le (ts : List Token) : weight ts.tail ≤ weight ts := by
  cases ts with
  | nil => exact Nat.le_refl _
  | cons t ts => simp

section Kinds

variable {ts us : List Token}

theorem headKind_congr (h : kindsOf ts = kindsOf us) : headKind ts = headKind us := by
  cases ts <;> cases us <;> simp_all [kindsOf, headKind]

theorem kindsOf_tail (h : kindsOf ts = kindsOf us) : kindsOf ts.tail = kindsOf us.tail := by
  simpa [kindsOf, List.map_tail] using congrArg List.tail h

theorem length_congr (h : kindsOf ts = kindsOf us) : ts.length = us.length := by
  simpa [kindsOf] using congrArg List.length h

/-- A token with a text makes the rest lighter. -/
theorem weight_tail_lt {k : TokenKind} (here : headKind ts = k) (heavy : 0 < k.weight) :
    weight ts.tail < weight ts := by
  cases ts with
  | nil =>
    obtain rfl : TokenKind.endMarker = k := here
    exact absurd heavy (Nat.lt_irrefl 0)
  | cons t ts =>
    obtain rfl : t.kind = k := here
    exact Nat.lt_add_of_pos_left heavy

end Kinds

section Outcomes

variable {α β γ δ : Type} {R : α → β → Prop} {S : γ → δ → Prop}

/-- Two computations come to the same: to values that `R` holds of, or to faults with the same cause. -/
inductive SameOutcome (R : α → β → Prop) : Except Fault α → Except Fault β → Prop
  | ok {a : α} {b : β} (value : R a b) : SameOutcome R (.ok a) (.ok b)
  | error {f g : Fault} (cause : f.cause = g.cause) : SameOutcome R (.error f) (.error g)

theorem SameOutcome.bind {x : Except Fault α} {y : Except Fault β} {f : α → Except Fault γ}
    {g : β → Except Fault δ} (first : SameOutcome R x y)
    (next : ∀ a b, R a b → SameOutcome S (f a) (g b)) : SameOutcome S (x >>= f) (y >>= g) := by
  cases first with
  | ok value => exact next _ _ value
  | error cause => exact .error cause

theorem SameOutcome.imp {R' : α → β → Prop} {x : Except Fault α} {y : Except Fault β}
    (same : SameOutcome R x y) (le : ∀ a b, R a b → R' a b) : SameOutcome R' x y := by
  cases same with
  | ok value => exact .ok (le _ _ value)
  | error cause => exact .error cause

end Outcomes

namespace Parser

variable {α β γ δ : Type} {w w' w'' : Nat}

/-- Two parsers gave values that `R` holds of, and left tokens of the same kinds that weigh less than
`w`. -/
structure SameLeft (w : Nat) (R : α → β → Prop) (x : α × List Token) (y : β × List Token) : Prop where
  value : R x.1 y.1
  kinds : kindsOf x.2 = kindsOf y.2
  light : weight x.2 < w

/-- The parsers agree up to `R` on tokens that weigh less than `w`, and leave such that weigh less than
`w'`. -/
def AgreeUpTo (R : α → β → Prop) (w w' : Nat) (p : Parser α) (q : Parser β) : Prop :=
  ∀ ts us, kindsOf ts = kindsOf us → weight ts < w → SameOutcome (SameLeft w' R) (p ts) (q us)

abbrev Agree (w w' : Nat) (p q : Parser α) : Prop := AgreeUpTo Eq w w' p q

section Runs

variable {R : α → β → Prop} {S : γ → δ → Prop} {p : Parser α} {q : Parser β}

theorem AgreeUpTo.bind {f : α → Parser γ} {g : β → Parser δ} (hp : AgreeUpTo R w w' p q)
    (hf : ∀ a b, R a b → AgreeUpTo S w' w'' (f a) (g b)) : AgreeUpTo S w w'' (p >>= f) (q >>= g) :=
  fun ts us kinds light => (hp ts us kinds light).bind fun _ _ left =>
    hf _ _ left.value _ _ left.kinds left.light

theorem AgreeUpTo.mono {v v' : Nat} (h : AgreeUpTo R w w' p q) (before : v ≤ w) (after : w' ≤ v') :
    AgreeUpTo R v v' p q :=
  fun ts us kinds light => (h ts us kinds (Nat.lt_of_lt_of_le light before)).imp fun _ _ left =>
    ⟨left.value, left.kinds, Nat.lt_of_lt_of_le left.light after⟩

theorem AgreeUpTo.imp {R' : α → β → Prop} (h : AgreeUpTo R w w' p q) (le : ∀ a b, R a b → R' a b) :
    AgreeUpTo R' w w' p q :=
  fun ts us kinds light => (h ts us kinds light).imp fun _ _ left =>
    ⟨le _ _ left.value, left.kinds, left.light⟩

/-- No tokens weigh less than nothing. -/
theorem agreeUpTo_zero : AgreeUpTo R 0 w' p q := fun _ _ _ light => absurd light (Nat.not_lt_zero _)

theorem agreeUpTo_pure {a : α} {b : β} (h : R a b) : AgreeUpTo R w w (pure a) (pure b) :=
  fun _ _ kinds light => .ok ⟨h, kinds, light⟩

theorem agreeUpTo_fail (cause : Cause) : AgreeUpTo R w w' (fail cause) (fail cause) :=
  fun _ _ _ _ => .error rfl

end Runs

section Steps

variable {p q : Parser α}

theorem AgreeUpTo.then {f g : α → Parser β} (hp : Agree w w' p q)
    (hf : ∀ a, Agree w' w'' (f a) (g a)) : Agree w w'' (p >>= f) (q >>= g) := by
  refine hp.bind fun a b same => ?_
  subst same
  exact hf a

theorem agree_pure (a : α) : Agree w w (pure a) (pure a) := agreeUpTo_pure rfl

/-- What is left is lighter than it may be. -/
theorem agree_return (a : α) : Agree w (w + 1) (pure a) (pure a) :=
  (agree_pure a).mono (Nat.le_refl w) (Nat.le_succ w)

theorem agree_fail (cause : Cause) : Agree w w' (fail cause : Parser α) (fail cause) :=
  agreeUpTo_fail cause

theorem AgreeUpTo.map (f : α → β) (h : Agree w w' p q) : Agree w w' (f <$> p) (f <$> q) := by
  have same : Agree w w' (p >>= fun a => pure (f a)) (q >>= fun a => pure (f a)) :=
    h.then fun a => agree_pure (f a)
  rwa [bind_pure_comp, bind_pure_comp] at same

theorem agree_peek : Agree w w peek peek := fun _ _ kinds light =>
  .ok ⟨headKind_congr kinds, kinds, light⟩

theorem agree_peekSecond : Agree w w peekSecond peekSecond := fun _ _ kinds light =>
  .ok ⟨headKind_congr (kindsOf_tail kinds), kinds, light⟩

theorem agree_advance : Agree w w advance advance := fun ts _ kinds light =>
  .ok ⟨rfl, kindsOf_tail kinds, Nat.lt_of_le_of_lt (weight_tail_le ts) light⟩

theorem agree_at (k : TokenKind) : Agree w w (at? k) (at? k) := fun _ _ kinds light =>
  .ok ⟨congrArg (· == k) (headKind_congr kinds), kinds, light⟩

/-- A choice by whether the next token is there; one with a text makes the rest lighter. -/
theorem agree_of_take {k : TokenKind} {f g : Bool → Parser α} (heavy : 0 < k.weight)
    (taken : Agree w w' (f true) (g true)) (left : Agree (w + 1) w' (f false) (g false)) :
    Agree (w + 1) w' (eat? k >>= f) (eat? k >>= g) := by
  intro ts us kinds light
  show SameOutcome (SameLeft w' Eq) (eat? k ts >>= fun x => f x.1 x.2) (eat? k us >>= fun x => g x.1 x.2)
  unfold eat?
  rw [← headKind_congr kinds]
  cases here : headKind ts == k with
  | true =>
    have lighter := weight_tail_lt (eq_of_beq here) heavy
    exact taken ts.tail us.tail (kindsOf_tail kinds) (Nat.lt_of_lt_of_le lighter (Nat.le_of_lt_succ light))
  | false => exact left ts us kinds light

theorem agree_eat (k : TokenKind) : Agree w w (eat? k) (eat? k) := by
  intro ts us kinds light
  unfold eat?
  rw [← headKind_congr kinds]
  cases headKind ts == k with
  | true => exact .ok ⟨rfl, kindsOf_tail kinds, Nat.lt_of_le_of_lt (weight_tail_le ts) light⟩
  | false => exact .ok ⟨rfl, kinds, light⟩

end Steps

section Choices

variable {A B A' B' : Parser α}

theorem agree_ite {c : Prop} [Decidable c] (hA : Agree w w' A A') (hB : Agree w w' B B') :
    Agree w w' (if c then A else B) (if c then A' else B') := by
  split
  · exact hA
  · exact hB

theorem agree_of_eat {k : TokenKind} (hA : Agree w w' A A') (hB : Agree w w' B B') :
    Agree w w' (do if ← eat? k then A else B) (do if ← eat? k then A' else B') :=
  (agree_eat k).then fun _ => agree_ite hA hB

/-- The same where the token, which has a text, makes what is left lighter. -/
theorem agree_of_taken {k : TokenKind} (heavy : 0 < k.weight) (hA : Agree w w' A A')
    (hB : Agree (w + 1) w' B B') :
    Agree (w + 1) w' (do if ← eat? k then A else B) (do if ← eat? k then A' else B') :=
  agree_of_take heavy hA hB

theorem agree_of_at {k : TokenKind} (hA : Agree w w' A A') (hB : Agree w w' B B') :
    Agree w w' (do if ← at? k then A else B) (do if ← at? k then A' else B') :=
  (agree_at k).then fun _ => agree_ite hA hB

end Choices

/-- The parsers agree where a token of kind `k` comes first. -/
def AgreeIf (k : TokenKind) (w w' : Nat) (p q : Parser α) : Prop :=
  ∀ ts us, headKind ts = k → kindsOf ts = kindsOf us → weight ts < w → SameOutcome (SameLeft w' Eq) (p ts) (q us)

section First

variable {k : TokenKind} {p q : Parser α}

theorem AgreeUpTo.agreeIf (h : Agree w w' p q) : AgreeIf k w w' p q :=
  fun ts us _ kinds light => h ts us kinds light

theorem agree_of_peek {f g : TokenKind → Parser α} (h : ∀ k, AgreeIf k w w' (f k) (g k)) :
    Agree w w' (peek >>= f) (peek >>= g) := by
  intro ts us kinds light
  show SameOutcome (SameLeft w' Eq) (f (headKind ts) ts) (g (headKind us) us)
  rw [← headKind_congr kinds]
  exact h _ ts us rfl kinds light

/-- A token with a text that is taken makes what is left lighter. -/
theorem agreeIf_advance (heavy : 0 < k.weight) (h : Agree w w' p q) :
    AgreeIf k (w + 1) w' (do advance; p) (do advance; q) := by
  intro ts us here kinds light
  have lighter := weight_tail_lt here heavy
  exact h ts.tail us.tail (kindsOf_tail kinds) (Nat.lt_of_lt_of_le lighter (Nat.le_of_lt_succ light))

theorem agree_of_atIf {A B A' B' : Parser α} (hA : AgreeIf k w w' A A') (hB : Agree w w' B B') :
    Agree w w' (do if ← at? k then A else B) (do if ← at? k then A' else B') := by
  intro ts us kinds light
  show SameOutcome (SameLeft w' Eq) ((if (headKind ts == k) = true then A else B) ts)
    ((if (headKind us == k) = true then A' else B') us)
  rw [← headKind_congr kinds]
  split
  · rename_i here
    exact hA ts us (eq_of_beq here) kinds light
  · exact hB ts us kinds light

end First

theorem agree_expectOp (symbol : String) : Agree w w (expectOp symbol) (expectOp symbol) :=
  (agree_eat _).then fun _ => agree_ite (agree_fail _) (agree_pure ())

theorem agree_expectWord (word : String) : Agree w w (expectWord word) (expectWord word) :=
  (agree_eat _).then fun _ => agree_ite (agree_fail _) (agree_pure ())

theorem agree_takeOp {symbol : String} (heavy : 0 < symbol.length) :
    Agree (w + 1) w (expectOp symbol) (expectOp symbol) :=
  agree_of_take (k := .op symbol) heavy (agree_pure ()) (agree_fail _)

theorem agree_takeWord {word : String} (heavy : 0 < word.length) :
    Agree (w + 1) w (expectWord word) (expectWord word) :=
  agree_of_take (k := .name word) heavy (agree_pure ()) (agree_fail _)

theorem agree_expectNewline : Agree w w expectNewline expectNewline :=
  (agree_eat _).then fun _ => agree_ite (agree_fail _) (agree_pure ())

theorem agree_expectName : Agree w w expectName expectName := by
  refine agree_peek.then fun k => ?_
  split
  · exact agree_ite (agree_fail _) (agree_advance.then fun _ => agree_pure _)
  · exact agree_fail _

theorem agree_optionally {p q : Parser α} (condition : Bool) (h : Agree w w p q) :
    Agree w w (optionally condition p) (optionally condition q) :=
  agree_ite (h.map some) (agree_pure none)

section Lists

variable {R : α → β → Prop}

theorem agreeUpTo_collectFor {next : List α → Parser (Option α)} {next' : List β → Parser (Option β)}
    (h : ∀ xs ys, List.Forall₂ R xs ys → AgreeUpTo (Option.Rel R) w w (next xs) (next' ys)) :
    ∀ rounds xs ys, List.Forall₂ R xs ys →
      AgreeUpTo (List.Forall₂ R) w w (collectFor next rounds xs) (collectFor next' rounds ys) := by
  intro rounds
  induction rounds with
  | zero => exact fun _ _ _ => agreeUpTo_fail _
  | succ rounds ih =>
    intro xs ys alike
    refine (h xs ys alike).bind fun a b rel => ?_
    cases rel with
    | none => exact agreeUpTo_pure (List.rel_reverse alike)
    | some rel => exact ih _ _ (.cons rel alike)

theorem agreeUpTo_collect {next : List α → Parser (Option α)} {next' : List β → Parser (Option β)}
    (h : ∀ xs ys, List.Forall₂ R xs ys → AgreeUpTo (Option.Rel R) w w (next xs) (next' ys)) :
    AgreeUpTo (List.Forall₂ R) w w (collect next) (collect next') := by
  refine (h [] [] .nil).bind fun a b rel => ?_
  cases rel with
  | none => exact agreeUpTo_pure .nil
  | some rel =>
    intro ts us kinds light
    show SameOutcome (SameLeft w _) (collectFor next (ts.length + 1) _ ts) (collectFor next' (us.length + 1) _ us)
    rw [length_congr kinds]
    exact agreeUpTo_collectFor h _ _ _ (.cons rel .nil) ts us kinds light

theorem agree_collect {next next' : List α → Parser (Option α)}
    (h : ∀ xs, Agree w w (next xs) (next' xs)) : Agree w w (collect next) (collect next') := by
  have step : ∀ xs ys, List.Forall₂ Eq xs ys → AgreeUpTo (Option.Rel Eq) w w (next xs) (next' ys) := by
    intro xs ys same
    obtain rfl := List.forall₂_eq_eq_eq ▸ same
    refine (h xs).imp ?_
    rintro (_ | a) _ rfl
    · exact .none
    · exact .some rfl
  exact (agreeUpTo_collect step).imp fun as bs same => List.forall₂_eq_eq_eq ▸ same

theorem agree_many {next next' : Parser (Option α)} (h : Agree w w next next') :
    Agree w w (many next) (many next') :=
  agree_collect fun _ => h

theorem agree_afterCommas {stop stop' : Parser Bool} {p q : Parser α} (hs : Agree w w stop stop')
    (h : Agree w w p q) : Agree w w (afterCommas stop p) (afterCommas stop' q) := by
  refine agree_many ((agree_eat _).then fun _ => agree_ite (agree_pure none) ?_)
  exact hs.then fun _ => agree_ite (agree_pure none) (h.map some)

theorem agree_commaList (closing : String) {p q : Parser α} (h : Agree w w p q) :
    Agree w w (commaList closing p) (commaList closing q) := by
  refine agree_of_at (agree_pure []) (h.then fun first => ?_)
  exact (agree_afterCommas (agree_at _) h).then fun rest => agree_pure _

/-- The items behind marks of one kind. -/
theorem agree_many_optionally {k : TokenKind} {p q : Parser α} (h : Agree w w p q) :
    Agree w w (many do optionally (← eat? k) p) (many do optionally (← eat? k) q) :=
  agree_many ((agree_eat k).then fun b => agree_optionally b h)

/-- What follows a mark that may be missing. -/
theorem agree_of_optionally {k : TokenKind} {p q : Parser α} {f g : Option α → Parser γ}
    (h : Agree w w p q) (hf : ∀ o, Agree w w' (f o) (g o)) :
    Agree w w' (do
        let o ← optionally (← eat? k) p
        f o)
      (do
        let o ← optionally (← eat? k) q
        g o) :=
  (agree_eat k).then fun b => (agree_optionally b h).then hf

theorem agree_commas {stop stop' : Parser Bool} {p q : Parser α} {f g : List α → Parser γ}
    (hs : Agree w w stop stop') (h : Agree w w p q) (hf : ∀ as, Agree w w' (f as) (g as)) :
    Agree w w' (do
        let first ← p
        let rest ← afterCommas stop p
        f (first :: rest))
      (do
        let first ← q
        let rest ← afterCommas stop' q
        g (first :: rest)) :=
  h.then fun first => (agree_afterCommas hs h).then fun rest => hf (first :: rest)

end Lists

theorem agree_atExpr : Agree w w atExpr atExpr := agree_peek.then fun _ => agree_pure _

theorem agree_atGenerator : Agree w w atGenerator atGenerator := by
  refine agree_of_at (agree_pure true) (agree_of_at ?_ (agree_pure false))
  exact agree_peekSecond.then fun _ => agree_pure _

theorem agree_target (ctx : Context) (e : Expr) : Agree w w (target ctx e) (target ctx e) := by
  unfold target
  split
  · exact agree_pure _
  · exact agree_fail _

theorem agree_targets (ctx : Context) (es : List Expr) : Agree w w (targets ctx es) (targets ctx es) := by
  unfold targets
  split
  · exact agree_pure _
  · exact agree_fail _

theorem agree_separated (before : List α) : Agree w w (separated before) (separated before) :=
  agree_ite (agree_pure true) (agree_eat _)

section Expressions

variable {operand operand' item item' : Parser Expr}

theorem agree_starOr (ho : Agree w w operand operand') (hi : Agree w w item item') :
    Agree w w (starOr operand item) (starOr operand' item') :=
  agree_of_eat (ho.then fun _ => agree_pure _) hi

theorem agree_itemOrTuple (h : Agree w w item item') : Agree w w (itemOrTuple item) (itemOrTuple item') := by
  refine h.then fun first => agree_of_at ?_ (agree_pure first)
  exact (agree_afterCommas (agree_atExpr.map not) h).then fun rest => agree_pure _

end Expressions

end Parser

end Arbiter.Syntax
