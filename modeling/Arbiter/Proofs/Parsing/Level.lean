import Arbiter.Proofs.Parsing.Kinds
import Arbiter.Syntax.Parser

/-! The parsers of the binding strengths. Each reads what the next tighter one reads, and goes on where
its own operators follow. Main statement: an expression that one of them reads is read by every looser
one, up to where something follows that goes on with it. -/

namespace Arbiter.Syntax

open TokenKind (op name)
open Syntax.Parser

namespace Parser

variable {operand : Parser Expr} {ops : List BinaryOp} {tighter : List (List BinaryOp)}
  {K K' K'' : List TokenKind} {e left right r : Expr} {o : BinaryOp}

theorem takes_eatBinary (h : ops.find? (·.symbol == o.symbol) = some o) :
    Takes (eatBinary? ops) (op o.symbol :: K) (some o) K := by
  refine takes_peek.bind ?_
  simp only [headOf_cons, h]
  exact (takes_advance _).bind (takes_pure _)

theorem takes_eatBinary_other (h : ∀ o ∈ ops, headOf K ≠ op o.symbol) :
    Takes (eatBinary? ops) K none K := by
  refine takes_peek.bind ?_
  cases here : headOf K with
  | op symbol =>
    have missing : ops.find? (·.symbol == symbol) = none := by
      rw [List.find?_eq_none]
      intro o ho same
      exact h o ho (here.trans (congrArg op (beq_iff_eq.1 same).symm))
    simp only [missing]
    exact takes_pure none
  | _ => exact takes_pure none

/-- The operator and right operand that come next in a chain, if any. -/
def chainNext (operand : Parser Expr) (ops : List BinaryOp) (tighter : List (List BinaryOp)) :
    Parser (Option (BinaryOp × Expr)) := do
  match ← eatBinary? ops with
  | some o => return some (o, ← binaryChain operand tighter)
  | none => return none

/-- A chain that starts with `e` goes on over `K` to become `r`. -/
def Grows (operand : Parser Expr) (ops : List BinaryOp) (tighter : List (List BinaryOp)) (e : Expr)
    (K : List TokenKind) (r : Expr) (K' : List TokenKind) : Prop :=
  ∃ items, Items (fun _ => chainNext operand ops tighter) [] K items K' ∧
    items.foldl (fun left x => Expr.binary left x.1 x.2) e = r

theorem Grows.takes (first : Takes (binaryChain operand tighter) K e K')
    (grows : Grows operand ops tighter e K' r K'') :
    Takes (binaryChain operand (ops :: tighter)) K r K'' := by
  obtain ⟨items, chain, rfl⟩ := grows
  exact first.bind (chain.takes_many.bind (takes_pure _))

theorem Grows.step (member : ops.find? (·.symbol == o.symbol) = some o)
    (second : Takes (binaryChain operand tighter) K right K') (shorter : K'.length ≤ K.length)
    (grows : Grows operand ops tighter (.binary left o right) K' r K'') :
    Grows operand ops tighter left (op o.symbol :: K) r K'' := by
  obtain ⟨items, chain, rfl⟩ := grows
  refine ⟨(o, right) :: items, .cons ?_ (Nat.lt_succ_of_le shorter) (chain.of_const _), rfl⟩
  exact (takes_eatBinary member).bind (second.bind (takes_pure _))

theorem grows_stop (h : ∀ o ∈ ops, headOf K ≠ op o.symbol) : Grows operand ops tighter e K e K :=
  ⟨[], .nil ((takes_eatBinary_other h).bind (takes_pure none)), rfl⟩

theorem takes_eatCompareOp_other (h : Stop Strength.compare K) : Takes eatCompareOp? K none K := by
  refine takes_peek.bind ?_
  have other : ∀ k : TokenKind, Strength.compare ≤ k.joins → headOf K ≠ k := fun k => h.ne
  split
  · exact absurd ‹_› (other _ (by decide))
  · exact absurd ‹_› (other _ (by decide))
  · exact absurd ‹_› (other _ (by decide))
  · exact absurd ‹_› (other _ (by decide))
  · exact absurd ‹_› (other _ (by decide))
  · exact absurd ‹_› (other _ (by decide))
  · exact absurd ‹_› (other _ (by decide))
  · exact absurd ‹_› (other _ (by decide))
  · exact absurd ‹_› (other _ (by decide))
  · exact takes_pure none

theorem takes_boolChain_one {b : BoolOp} {word : String} (first : Takes operand K e K')
    (h : headOf K' ≠ name word) : Takes (boolChain b word operand) K e K' := by
  refine first.bind ?_
  have none : Items (fun _ => do optionally (← eatWord word) operand) [] K' [] K' :=
    .nil ((takes_eat_other h).bind (takes_optionally_false _))
  exact none.takes_many.bind (takes_pure e)

end Parser

namespace Grammar

/-- What a power is raised from. -/
def base (g : Grammar) : Parser Expr := do
  if ← eatWord "await" then Expr.await <$> g.primary else g.primary

theorem power_eq (g : Grammar) : g.power = (do
    let base ← g.base
    if ← eatOp "**" then return .binary base .pow (← g.factor)
    else return base) := by
  funext ts
  unfold power base
  simp only [bind, StateT.bind, eatWord, eat?]
  by_cases here : headKind ts == name "await"
  · simp only [here, if_true]
    rfl
  · simp only [here]
    rfl

/-- The parser of what binds at least as tightly as `s`. -/
def level (g : Grammar) (s : Nat) : Parser Expr :=
  match s with
  | 0 | 1 | 2 | 3 => g.testRule
  | 4 => g.orTestRule
  | 5 => boolChain .and "and" g.notTestRule
  | 6 => g.notTestRule
  | 7 => g.comparison
  | 14 => g.factorRule
  | 15 => g.power
  | 16 => g.base
  | 17 => g.primary
  | _ => binaryChain g.factorRule (binaryLevels.drop (s - Strength.bitOr))

/-- The trailers that follow an operand `e` make it `r`. -/
def Trails (g : Grammar) (e : Expr) (K : List TokenKind) (r : Expr) (K' : List TokenKind) : Prop :=
  ∃ trailers, Items (fun _ => g.trailer?) [] K trailers K' ∧ trailers.foldl Trailer.apply e = r

/-- The parser of strength `s` has read `e` and goes on over `K` to give `r`. -/
def More (g : Grammar) (s : Nat) (e : Expr) (K : List TokenKind) (r : Expr) (K' : List TokenKind) :
    Prop :=
  match s with
  | 17 => g.Trails e K r K'
  | 8 | 9 | 10 | 11 | 12 | 13 =>
    Grows g.factorRule (binaryLevels.getD (s - Strength.bitOr) [])
      (binaryLevels.drop (s + 1 - Strength.bitOr)) e K r K'
  | _ => r = e ∧ K' = K ∧ Stop s K

variable {g : Grammar} {s : Nat} {e r : Expr} {K K' : List TokenKind}

theorem Trails.takes {K₀ : List TokenKind} (first : Takes g.atom K₀ e K) (trails : g.Trails e K r K') :
    Takes g.primary K₀ r K' := by
  obtain ⟨trailers, chain, rfl⟩ := trails
  exact first.bind (chain.takes_many.bind (takes_pure _))

theorem trails_stop (h : Stop Strength.atom K) : g.Trails e K e K := by
  refine ⟨[], .nil ?_, rfl⟩
  refine takes_of_not_eat (h.ne (by decide)) (takes_of_not_eat (h.ne (by decide)) ?_)
  exact takes_of_not_eat (h.ne (by decide)) (takes_pure none)

theorem Trails.step {t : Trailer} {K₁ : List TokenKind} (first : Takes g.trailer? K (some t) K₁)
    (shorter : K₁.length < K.length) (trails : g.Trails (t.apply e) K₁ r K') : g.Trails e K r K' := by
  obtain ⟨trailers, chain, rfl⟩ := trails
  exact ⟨t :: trailers, .cons first shorter (chain.of_const _), rfl⟩

/-- The operators of a chain are those of its strength. -/
theorem strength_of_mem_level {o : BinaryOp} (lower : Strength.bitOr ≤ s) (upper : s ≤ Strength.term)
    (h : o ∈ binaryLevels.getD (s - Strength.bitOr) []) : o.strength = s := by
  have range : s = 8 ∨ s = 9 ∨ s = 10 ∨ s = 11 ∨ s = 12 ∨ s = 13 := by
    unfold Strength.bitOr at lower
    unfold Strength.term at upper
    omega
  rcases range with rfl | rfl | rfl | rfl | rfl | rfl <;> revert o <;> decide

theorem more_of_stop (h : Stop s K) : g.More s e K e K := by
  have grows : Strength.bitOr ≤ s → s ≤ Strength.term →
      Grows g.factorRule (binaryLevels.getD (s - Strength.bitOr) [])
        (binaryLevels.drop (s + 1 - Strength.bitOr)) e K e K := by
    intro lower upper
    refine grows_stop fun o ho => h.ne ?_
    rw [joins_symbol]
    exact Nat.le_of_eq (strength_of_mem_level lower upper ho).symm
  unfold More
  split
  · exact trails_stop h
  · exact grows (by decide) (by decide)
  · exact grows (by decide) (by decide)
  · exact grows (by decide) (by decide)
  · exact grows (by decide) (by decide)
  · exact grows (by decide) (by decide)
  · exact grows (by decide) (by decide)
  · exact ⟨rfl, rfl, h⟩

theorem headOf_ne_of_opens {k : TokenKind} (h : k.opens < (headOf K).opens) : headOf K ≠ k := by
  rintro rfl
  exact Nat.lt_irrefl _ h

/-- What the next tighter parser reads is read by this one, which then goes on. -/
theorem takes_looser {K₀ : List TokenKind} (lower : Strength.named ≤ s) (upper : s < Strength.atom)
    (tight : Takes (g.level (s + 1)) K₀ e K) (opens : s < (headOf K₀).opens)
    (more : g.More s e K r K') : Takes (g.level s) K₀ r K' := by
  have chain : Strength.bitOr ≤ s → s ≤ Strength.term →
      Takes (binaryChain g.factorRule (binaryLevels.drop (s + 1 - Strength.bitOr))) K₀ e K →
      Grows g.factorRule (binaryLevels.getD (s - Strength.bitOr) [])
        (binaryLevels.drop (s + 1 - Strength.bitOr)) e K r K' →
      Takes (binaryChain g.factorRule (binaryLevels.getD (s - Strength.bitOr) [] ::
        binaryLevels.drop (s + 1 - Strength.bitOr))) K₀ r K' :=
    fun _ _ first grows => grows.takes first
  have range : s = 2 ∨ s = 3 ∨ s = 4 ∨ s = 5 ∨ s = 6 ∨ s = 7 ∨ s = 8 ∨ s = 9 ∨ s = 10 ∨ s = 11 ∨
      s = 12 ∨ s = 13 ∨ s = 14 ∨ s = 15 ∨ s = 16 := by
    unfold Strength.named at lower
    unfold Strength.atom at upper
    omega
  rcases range with rfl | rfl | rfl | rfl | rfl | rfl | rfl | rfl | rfl | rfl | rfl | rfl | rfl | rfl | rfl
  · obtain ⟨rfl, rfl, -⟩ := more
    exact tight
  · obtain ⟨rfl, rfl, stop⟩ := more
    refine takes_of_not_at (headOf_ne_of_opens (k := name "lambda") opens) ?_
    have whole : Takes g.conditional K₀ r K' :=
      Takes.bind tight (takes_of_not_eat (stop.ne (by decide)) (takes_pure r))
    exact whole.bind (takes_of_not_at (stop.ne (by decide)) (takes_pure r))
  · obtain ⟨rfl, rfl, stop⟩ := more
    exact takes_boolChain_one tight (stop.ne (by decide))
  · obtain ⟨rfl, rfl, stop⟩ := more
    exact takes_boolChain_one tight (stop.ne (by decide))
  · obtain ⟨rfl, rfl, stop⟩ := more
    exact takes_of_not_eat (headOf_ne_of_opens (k := name "not") opens) tight
  · obtain ⟨rfl, rfl, stop⟩ := more
    refine Takes.bind tight ?_
    refine Takes.bind (Items.nil ?_).takes_many (takes_pure r)
    exact (takes_eatCompareOp_other stop).bind (takes_pure none)
  · exact chain (by decide) (by decide) tight more
  · exact chain (by decide) (by decide) tight more
  · exact chain (by decide) (by decide) tight more
  · exact chain (by decide) (by decide) tight more
  · exact chain (by decide) (by decide) tight more
  · exact chain (by decide) (by decide) tight more
  · obtain ⟨rfl, rfl, stop⟩ := more
    refine takes_peek.bind ?_
    have other : ∀ k : TokenKind, k.opens ≤ 14 → headOf K₀ ≠ k := fun k hk =>
      headOf_ne_of_opens (Nat.lt_of_le_of_lt hk opens)
    split
    · exact absurd ‹_› (other _ (by decide))
    · exact absurd ‹_› (other _ (by decide))
    · exact absurd ‹_› (other _ (by decide))
    · exact tight
  · obtain ⟨rfl, rfl, stop⟩ := more
    show Takes g.power _ _ _
    rw [power_eq]
    exact Takes.bind tight (takes_of_not_eat (stop.ne (by decide)) (takes_pure r))
  · obtain ⟨rfl, rfl, stop⟩ := more
    exact takes_of_not_eat (headOf_ne_of_opens (k := name "await") opens) tight

/-- What is read at some strength is read at all looser ones. -/
theorem takes_level {ks : List TokenKind} {top : Nat} (upper : top ≤ Strength.atom)
    (opens : ∀ K, top ≤ (headOf (ks ++ K)).opens)
    (atTop : ∀ K r K', Stop (top + 1) K → g.More top e K r K' → Takes (g.level top) (ks ++ K) r K')
    (lower : Strength.named ≤ s) (le : s ≤ top) (stop : Stop (s + 1) K) (more : g.More s e K r K') :
    Takes (g.level s) (ks ++ K) r K' := by
  have down : ∀ d s K r K', s + d = top → Strength.named ≤ s → Stop (s + 1) K → g.More s e K r K' →
      Takes (g.level s) (ks ++ K) r K' := by
    intro d
    induction d with
    | zero =>
      intro s K r K' same _ stop more
      obtain rfl : s = top := by omega
      exact atTop K r K' stop more
    | succ d ih =>
      intro s K r K' same lower stop more
      have tight := ih (s + 1) K e K (by omega) (by omega) (stop.mono (by omega)) (more_of_stop stop)
      exact takes_looser lower (by omega) tight (Nat.lt_of_lt_of_le (by omega) (opens K)) more
  exact down (top - s) s K r K' (by omega) lower stop more

end Grammar

end Arbiter.Syntax
