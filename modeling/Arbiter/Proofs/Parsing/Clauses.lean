import Arbiter.Proofs.Parsing.Displays

/-! Reading the parts that are no expressions of their own: the clauses of comprehensions, the items of
displays and calls, and indices. -/

namespace Arbiter.Syntax

open TokenKind (op name)
open Syntax.Parser

/-! Clauses of comprehensions. -/

section Clauses

variable {n : Nat} {K : List TokenKind} {gens : List Generator} {ifs : List Expr}

theorem readableClauses_nil : ReadableClauses [] := by
  intro n closing K _ _
  exact .nil ((takes_not_atGenerator (K := op closing :: K) (by simp) (by simp)).bind
    (takes_optionally_false _))

theorem stop_conditions {s : Nat} (lower : Strength.test < s) (more : Stop s K) (ifs : List Expr) :
    Stop s (conditionKinds ifs ++ K) := by
  cases ifs with
  | nil => exact more
  | cons e ifs => exact lower

theorem takes_conditions (h : ∀ e ∈ ifs, Readable e) (enough : (conditionKinds ifs).length ≤ n)
    (stop : Stop Strength.test K) :
    Takes (many do optionally (← eatWord "if") (grammar (n + 1)).orTest) (conditionKinds ifs ++ K) ifs
      K := by
  have items : Items (fun _ => do optionally (← eatWord "if") (grammar (n + 1)).orTest) []
      (conditionKinds ifs ++ K) ifs K := by
    induction ifs with
    | nil => exact .nil ((takes_eat_other (stop.ne (by decide))).bind (takes_optionally_false _))
    | cons e ifs ih =>
      simp only [conditionKinds, List.length_append, List.length_cons] at enough
      have rest := ih (fun e he => h e (.tail _ he)) (by omega)
      have after : Stop Strength.or (conditionKinds ifs ++ K) :=
        stop_conditions (by decide) (stop.mono (by decide)) ifs
      have first : Takes (grammar (n + 1)).orTest
          (e.kindsWithin Strength.or e.kinds ++ (conditionKinds ifs ++ K)) e (conditionKinds ifs ++ K) :=
        (h e List.mem_cons_self).whole (s := Strength.or) (by decide) (by omega) (by decide)
          (Nat.le_refl _) after
      rw [conditionKinds, List.append_assoc, List.cons_append]
      refine .cons ((takes_eat _).bind (takes_optionally_true first)) ?_ (rest.of_const _)
      simp only [List.length_cons, List.length_append]
      omega
  exact items.takes_many

theorem takes_target {ctx : Context} {e t : Expr} (h : e.asTarget? ctx = some t) :
    Takes (Parser.target ctx e) K t K := by
  unfold Parser.target
  rw [h]
  exact takes_pure t

/-- One clause, whose target has the tokens of the expression that it is made from. -/
theorem takes_generator {head target iter : Expr} {isAsync : Bool} (hh : Readable head)
    (ht : head.asTarget? .store = some target) (hi : Readable iter) (hc : ∀ e ∈ ifs, Readable e)
    (enough : (generatorKinds [⟨target, iter, ifs, isAsync⟩]).length ≤ n)
    (stop : Stop Strength.test K) :
    Takes (grammar (n + 1)).generator (generatorKinds [⟨target, iter, ifs, isAsync⟩] ++ K)
      ⟨target, iter, ifs, isAsync⟩ K := by
  have same := alike_of_asTarget head ht
  have tight : head.strength = Strength.atom := by
    cases head <;> first | rfl | cases ht
  have headKinds : target.kindsWithin Strength.test target.kinds =
      head.kindsWithin Strength.bitOr head.kinds := by
    unfold Expr.kindsWithin
    rw [same.kinds, same.strength, tight]
    rfl
  have kinds : generatorKinds [⟨target, iter, ifs, isAsync⟩] ++ K =
      (if isAsync then [name "async"] else []) ++ name "for" ::
        (head.kindsWithin Strength.bitOr head.kinds ++ name "in" ::
          (iter.kindsWithin Strength.or iter.kinds ++ (conditionKinds ifs ++ K))) := by
    simp [generatorKinds, headKinds]
  have total : (head.kindsWithin Strength.bitOr head.kinds).length +
      (iter.kindsWithin Strength.or iter.kinds).length + (conditionKinds ifs).length + 2 ≤ n := by
    refine Nat.le_trans ?_ enough
    simp only [generatorKinds, headKinds, List.length_append, List.length_cons]
    omega
  have targets : Takes (itemOrTuple (starOr (grammar (n + 1)).bitOr (grammar (n + 1)).bitOr))
      (head.kindsWithin Strength.bitOr head.kinds ++ name "in" ::
        (iter.kindsWithin Strength.or iter.kinds ++ (conditionKinds ifs ++ K))) head
      (name "in" :: (iter.kindsWithin Strength.or iter.kinds ++ (conditionKinds ifs ++ K))) := by
    refine Takes.bind (takes_of_not_eat (hh.front_ne (by decide) (by decide) _)
      (hh.inBitOr (by omega) (stop_cons (by decide) _))) ?_
    exact takes_of_not_at (by simp) (takes_pure head)
  have after : Stop Strength.or (conditionKinds ifs ++ K) :=
    stop_conditions (by decide) (stop.mono (by decide)) ifs
  have source : Takes (grammar (n + 1)).orTest
      (iter.kindsWithin Strength.or iter.kinds ++ (conditionKinds ifs ++ K)) iter
      (conditionKinds ifs ++ K) :=
    hi.whole (s := Strength.or) (by decide) (by omega) (by decide) (Nat.le_refl _) after
  have body : Takes (do
      expectWord "for"
      let head ← itemOrTuple (starOr (grammar (n + 1)).bitOr (grammar (n + 1)).bitOr)
      let head ← Parser.target .store head
      expectWord "in"
      let iter ← (grammar (n + 1)).orTest
      let ifs ← many do optionally (← eatWord "if") (grammar (n + 1)).orTest
      return Generator.mk head iter ifs isAsync)
      (name "for" :: (head.kindsWithin Strength.bitOr head.kinds ++ name "in" ::
        (iter.kindsWithin Strength.or iter.kinds ++ (conditionKinds ifs ++ K))))
      ⟨target, iter, ifs, isAsync⟩ K := by
    refine (takes_expectWord _).bind (targets.bind ((takes_target ht).bind ?_))
    exact (takes_expectWord _).bind
      (source.bind ((takes_conditions hc (by omega) stop).bind (takes_pure _)))
  rw [kinds]
  cases isAsync with
  | false => exact (takes_eat_other (by simp)).bind body
  | true => exact (takes_eat _).bind body

theorem readableClauses_cons {head target iter : Expr} {isAsync : Bool} (hh : Readable head)
    (ht : head.asTarget? .store = some target) (hi : Readable iter) (hc : ∀ e ∈ ifs, Readable e)
    (hg : ReadableClauses gens) : ReadableClauses (⟨target, iter, ifs, isAsync⟩ :: gens) := by
  intro n closing K member enough
  have kinds : generatorKinds (⟨target, iter, ifs, isAsync⟩ :: gens) =
      generatorKinds [⟨target, iter, ifs, isAsync⟩] ++ generatorKinds gens := by
    simp [generatorKinds]
  rw [kinds, List.length_append] at enough
  have opens : Takes atGenerator
      (generatorKinds [⟨target, iter, ifs, isAsync⟩] ++ (generatorKinds gens ++ op closing :: K)) true _ :=
    Readable.takes_atGenerator (List.cons_ne_nil _ _) _
  have first := takes_generator (K := generatorKinds gens ++ op closing :: K) hh ht hi hc
    (Nat.le_trans (Nat.le_add_right _ _) enough) (Readable.stop_clauses member gens K)
  rw [kinds, List.append_assoc]
  refine .cons (opens.bind (takes_optionally_true first)) ?_
    ((hg member (Nat.le_trans (Nat.le_add_left _ _) enough)).of_const _)
  have longer : 0 < (generatorKinds [⟨target, iter, ifs, isAsync⟩]).length := by
    cases isAsync <;> simp [generatorKinds]
  simp only [List.length_append]
  omega

end Clauses

/-! Items. -/

section Items

variable {e : Expr}

theorem readableItem_of_readable (h : Readable e) : ReadableItem e := by
  have front : Begins Strength.test (e.kindsWithin Strength.test e.kinds) := h.opening.within (by decide)
  refine ⟨fun K => .inl (front.opens_le K), fun {n K} enough stop => ?_, fun {n K} enough follows => ?_⟩
  · exact takes_of_not_eat (h.front_ne (by decide) (by decide) _) (h.inTest enough stop)
  · have whole := h.inTest enough (follows.stop (by decide) (by decide))
    refine takes_of_not_eat (h.front_ne (by decide) (by decide) _) ?_
    refine takes_of_not_eat (h.front_ne (by decide) (by decide) _) ?_
    refine takes_peek.bind (takes_peekSecond.bind ?_)
    obtain ⟨k, rest, kinds, -, second⟩ := front.append (follows.ne (by decide) (by decide))
    split
    · rename_i id first sign
      rw [kinds] at first sign
      exact absurd sign (second id first)
    · exact whole.bind (follows.noGenerator.bind (takes_pure _))

theorem readableItem_starred (h : Readable e) : ReadableItem (.starred e .load) := by
  have kinds : (Expr.starred e .load).kindsWithin Strength.test (Expr.starred e .load).kinds =
      op "*" :: e.kindsWithin Strength.bitOr e.kinds := rfl
  refine ⟨fun K => .inr rfl, fun {n K} enough stop => ?_, fun {n K} enough follows => ?_⟩
  · rw [kinds, List.length_cons] at enough
    rw [kinds]
    have operand := h.inBitOr (Nat.le_of_succ_le enough) (stop.mono (by decide))
    exact takes_of_eat (operand.bind (takes_pure _))
  · rw [kinds, List.length_cons] at enough
    rw [kinds]
    -- A looser parser reads the operand here than the one that it is rendered for.
    have operand : Takes (grammar (n + 1)).test (e.kindsWithin Strength.bitOr e.kinds ++ K) e K :=
      h.whole (s := Strength.test) (by decide) (by omega) (by decide) (by decide)
        (follows.stop (by decide) (by decide))
    exact takes_of_eat (operand.bind (takes_pure _))

end Items

/-! Indices. -/

section Indices

variable {e : Expr} {n : Nat} {K : List TokenKind}

theorem readableEntry_of_item (h : ReadableItem e) : ReadableEntry e := by
  refine ⟨fun K => h.front_ne (by decide) (by decide) K, fun {n K} enough follows => ?_⟩
  have item := h.reads enough (follows.stop (by decide) (by decide))
  have noColon := takes_at (K := e.kindsWithin Strength.test e.kinds ++ K) (op ":")
  rw [beq_false_of_ne (h.front_ne (by decide) (by decide) K)] at noColon
  refine noColon.bind ((takes_optionally_true item).bind ?_)
  exact takes_of_not_eat (follows.ne (by decide) (by decide)) (takes_pure e)

/-! A bound of a slice, which may be missing. -/

theorem headOf_bound {bound : Option Expr} (h : ∀ e ∈ bound, Readable e) {k : TokenKind}
    (opens : k.opens < Strength.test) (K : List TokenKind) :
    (headOf (optionKinds [] bound ++ K) == k) = (bound.isNone && headOf K == k) := by
  cases bound with
  | none => rfl
  | some e => exact beq_false_of_ne ((h e rfl).front_ne (by decide) opens K)

theorem takes_bound {p : Parser Expr} {bound : Option Expr} {present : Bool}
    (same : present = bound.isSome)
    (h : ∀ e ∈ bound, Takes p (e.kindsWithin Strength.test e.kinds ++ K) e K) :
    Takes (optionally present p) (optionKinds [] bound ++ K) bound K := by
  subst same
  cases bound with
  | none => exact takes_optionally_false _
  | some e => exact takes_optionally_true (h e rfl)

theorem readableEntry_slice {lower upper step : Option Expr} (hl : ∀ e ∈ lower, Readable e)
    (hu : ∀ e ∈ upper, Readable e) (hs : ∀ e ∈ step, Readable e) :
    ReadableEntry (.slice lower upper step) := by
  have kinds : ∀ K, (Expr.slice lower upper step).kindsWithin Strength.test
      (Expr.slice lower upper step).kinds ++ K =
        optionKinds [] lower ++ op ":" :: (optionKinds [] upper ++ (optionKinds [op ":"] step ++ K)) := by
    intro K
    show (Expr.slice lower upper step).kinds ++ K = _
    simp [Expr.kinds]
  refine ⟨fun K => ?_, fun {n K} enough follows => ?_⟩
  · rw [kinds]
    have front := headOf_bound hl (k := op "]") (by decide)
      (op ":" :: (optionKinds [] upper ++ (optionKinds [op ":"] step ++ K)))
    rw [headOf_cons, show (op ":" == op "]") = false from rfl, Bool.and_false] at front
    exact ne_of_beq_false front
  · have total : (optionKinds [] lower).length + (optionKinds [] upper).length +
        (optionKinds [] step).length + 1 ≤ n := by
      have size := congrArg List.length (kinds [])
      have steps : (optionKinds [] step).length ≤ (optionKinds [op ":"] step).length := by
        cases step <;> simp [optionKinds]
      simp only [List.length_append, List.length_cons, List.length_nil] at size
      omega
    have size : ∀ bound : Option Expr, ∀ e ∈ bound,
        (e.kindsWithin Strength.test e.kinds).length ≤ (optionKinds [] bound).length := by
      rintro _ e ⟨⟩
      exact Nat.le_refl _
    have stop : Stop Strength.test (optionKinds [op ":"] step ++ K) := by
      cases step with
      | none => exact follows.stop (by decide) (by decide)
      | some e => exact stop_cons (by decide) _
    have last : headOf (optionKinds [op ":"] step ++ K) = op ":" ∨
        headOf (optionKinds [op ":"] step ++ K) = op "]" ∨
        headOf (optionKinds [op ":"] step ++ K) = op "," := by
      cases step with
      | none => exact .inr (follows.elim .inr .inl)
      | some e => exact .inl rfl
    have stepped : Takes (eatOp ":") (optionKinds [op ":"] step ++ K) step.isSome
        (optionKinds [] step ++ K) := by
      cases step with
      | none => exact takes_eat_other (follows.ne (by decide) (by decide))
      | some e => exact takes_eat _
    have lowerTaken : Takes (optionally
        (!(headOf (optionKinds [] lower ++ op ":" ::
          (optionKinds [] upper ++ (optionKinds [op ":"] step ++ K))) == op ":"))
        (starOr (grammar (n + 1)).bitOr (grammar (n + 1)).test))
        (optionKinds [] lower ++ op ":" :: (optionKinds [] upper ++ (optionKinds [op ":"] step ++ K)))
        lower (op ":" :: (optionKinds [] upper ++ (optionKinds [op ":"] step ++ K))) := by
      refine takes_bound ?_ fun e he => ?_
      · rw [headOf_bound hl (by decide)]
        cases lower <;> rfl
      · have := size lower e he
        exact takes_of_not_eat ((hl e he).front_ne (by decide) (by decide) _)
          ((hl e he).inTest (by omega) (stop_cons (by decide) _))
    have upperTaken : Takes (optionally
        (!((headOf (optionKinds [] upper ++ (optionKinds [op ":"] step ++ K)) == op ":") ||
          (headOf (optionKinds [] upper ++ (optionKinds [op ":"] step ++ K)) == op "]") ||
          (headOf (optionKinds [] upper ++ (optionKinds [op ":"] step ++ K)) == op ",")))
        (grammar (n + 1)).test)
        (optionKinds [] upper ++ (optionKinds [op ":"] step ++ K)) upper
        (optionKinds [op ":"] step ++ K) := by
      refine takes_bound ?_ fun e he => ?_
      · rw [headOf_bound hu (by decide), headOf_bound hu (by decide), headOf_bound hu (by decide)]
        rcases last with same | same | same <;> rw [same] <;> cases upper <;> rfl
      · have := size upper e he
        exact (hu e he).inTest (by omega) stop
    have stepTaken : Takes (optionally
        (step.isSome && !((headOf (optionKinds [] step ++ K) == op "]") ||
          (headOf (optionKinds [] step ++ K) == op ","))) (grammar (n + 1)).test)
        (optionKinds [] step ++ K) step K := by
      refine takes_bound ?_ fun e he => ?_
      · rw [headOf_bound hs (by decide), headOf_bound hs (by decide)]
        cases step <;> rfl
      · have := size step e he
        exact (hs e he).inTest (by omega) (follows.stop (by decide) (by decide))
    rw [kinds]
    refine (takes_at _).bind (lowerTaken.bind (takes_of_eat ?_))
    refine (takes_at _).bind ((takes_at _).bind ((takes_at _).bind (upperTaken.bind ?_)))
    exact stepped.bind ((takes_at _).bind ((takes_at _).bind (stepTaken.bind (takes_pure _))))

theorem readableIndex_of_entry (single : ∀ elts ctx, e ≠ .tuple elts ctx) (h : ReadableEntry e) :
    ReadableIndex e := by
  intro n K enough
  have kinds : indexKinds e = e.kindsWithin Strength.test e.kinds := by
    cases e with
    | tuple elts ctx => exact absurd rfl (single elts ctx)
    | _ => rfl
  rw [kinds] at enough ⊢
  exact (h.reads enough (.inr rfl)).bind (takes_of_not_at (by simp) (takes_pure e))

theorem readableIndex_noEntry : ReadableIndex (.tuple [] .load) := by
  intro n K enough
  have empty : Readable (.tuple [] .load) := .tuple (.tuple nofun) nofun
  have item := readableItem_of_readable empty
  have entry := (readableEntry_of_item item).reads (K := op "]" :: K) enough (.inr rfl)
  exact entry.bind (takes_of_not_at (by simp) (takes_pure _))

theorem readableIndex_entries {elts : List Expr} (some : elts ≠ [])
    (h : ∀ e ∈ elts, ReadableEntry e) : ReadableIndex (.tuple elts .load) := by
  intro n K enough
  obtain ⟨first, more, rfl⟩ := List.exists_cons_of_ne_nil some
  have kinds : indexKinds (.tuple (first :: more) .load) =
      tupleKinds (kindsOfItems Strength.test (first :: more)) := rfl
  rw [kinds, tupleKinds, List.length_append] at enough
  have bound : ∀ e ∈ first :: more, (e.kindsWithin Strength.test e.kinds).length ≤ n :=
    fun e he => Nat.le_trans (length_item_le he) (Nat.le_trans (Nat.le_add_right _ _) enough)
  have hf := h first List.mem_cons_self
  rw [kinds, tupleKinds, List.append_assoc, commaKinds_items, kindsOfItems_eq, List.length_map]
  -- A comma follows the first entry, whether or not a second entry does.
  cases more with
  | nil =>
    refine (hf.reads (bound _ List.mem_cons_self) (.inl rfl)).bind (takes_of_at rfl ?_)
    exact Takes.bind (takes_afterCommas_stop (takes_at (op "]"))) (takes_pure _)
  | cons second more =>
    refine (hf.reads (bound _ List.mem_cons_self) (.inl rfl)).bind (takes_of_at rfl ?_)
    refine Takes.bind (takes_afterCommas (P := Follows "]") (fun _ => .inl rfl) (.inr rfl)
      (fun e he K follows => ⟨?_, ?_⟩) (takes_commaNext_none (by simp))) (takes_pure _)
    · have stays := takes_at (K := e.kindsWithin Strength.test e.kinds ++ K) (op "]")
      rwa [beq_false_of_ne ((h e (.tail _ he)).front K)] at stays
    · exact (h e (.tail _ he)).reads (bound e (.tail _ he)) follows

end Indices

end Arbiter.Syntax
