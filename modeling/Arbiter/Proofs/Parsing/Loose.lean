import Arbiter.Proofs.Parsing.Operators

/-! Reading what binds loosest: conditional expressions, functions, named values and yields. -/

namespace Arbiter.Syntax

open TokenKind (op)
open Syntax.Parser

/-! Parameters of a function. -/

theorem takes_argument {g : Grammar} {arg : Argument} {K : List TokenKind}
    (named : IsIdentifier arg.name) (bare : arg.annotation = none) :
    Takes (g.argument false) (argumentKinds arg ++ K) arg K := by
  obtain ⟨id, annotation⟩ := arg
  obtain rfl : annotation = none := bare
  exact (takes_expectName named.notKeyword).bind (takes_pure _)

theorem param_front {p : Param} (K : List TokenKind) : headOf (p.kinds ++ K) ≠ op ":" := by
  match p with
  | .plain ⟨id, annotation⟩ default => simp [Param.kinds, argumentKinds]
  | .posOnlyMarker => simp [Param.kinds]
  | .varArgs none => simp [Param.kinds]
  | .varArgs (some arg) => simp [Param.kinds]
  | .kwArgs arg => simp [Param.kinds]

theorem takes_param {p : Param} {n : Nat} {K : List TokenKind} (plain : p.IsPlain)
    (h : ∀ d ∈ p.default?, Readable d) (enough : p.kinds.length ≤ n) (follows : Follows ":" K) :
    Takes ((grammar (n + 1)).param ":" false) (p.kinds ++ K) p K := by
  match p with
  | .plain ⟨id, annotation⟩ default =>
    have start : headOf ((Param.plain ⟨id, annotation⟩ default).kinds ++ K) = .name id := rfl
    refine takes_of_not_eat (by simp [start]) (takes_of_not_eat (by simp [start]) ?_)
    refine takes_of_not_eat (by simp [start]) ?_
    rw [Param.kinds, List.length_append] at enough
    rw [Param.kinds, List.append_assoc]
    refine (takes_argument plain.1 plain.2).bind ?_
    cases default with
    | none =>
      have noValue : headOf K ≠ op "=" := follows.ne (by decide) (by decide)
      exact (takes_eat_other noValue).bind ((takes_optionally_false _).bind (takes_pure _))
    | some d =>
      have fits : (d.kindsWithin Strength.test d.kinds).length + 1 ≤ n :=
        Nat.le_trans (Nat.le_add_left _ _) enough
      have value := (h d rfl).inTest (Nat.le_of_succ_le fits) (follows.stop (by decide) (by decide))
      exact (takes_eat _).bind ((takes_optionally_true value).bind (takes_pure _))
  | .posOnlyMarker => exact takes_of_eat (takes_pure _)
  | .varArgs none =>
    have bare : (headOf K == op "," || headOf K == op ":") = true := by
      rcases follows with same | same <;> rw [same] <;> rfl
    refine takes_of_not_eat (by simp [Param.kinds]) (takes_of_not_eat (by simp [Param.kinds]) ?_)
    refine takes_of_eat ((takes_at _).bind ((takes_at _).bind ?_))
    show Takes (optionally (!(headOf K == op "," || headOf K == op ":"))
      ((grammar (n + 1)).argument false) >>= _) _ _ _
    rw [bare]
    exact (takes_optionally_false _).bind (takes_pure _)
  | .varArgs (some ⟨id, annotation⟩) =>
    have taken := takes_optionally_true (takes_argument (g := grammar (n + 1)) (K := K) plain.1 plain.2)
    refine takes_of_not_eat (by simp [Param.kinds]) (takes_of_not_eat (by simp [Param.kinds]) ?_)
    exact takes_of_eat ((takes_at _).bind ((takes_at _).bind (taken.bind (takes_pure _))))
  | .kwArgs arg =>
    refine takes_of_not_eat (by simp [Param.kinds]) (takes_of_eat ?_)
    exact (takes_argument plain.1 plain.2).bind (takes_pure _)

theorem takes_atExpr (K : List TokenKind) : Takes atExpr K (startsExpr (headOf K)) K :=
  takes_peek.bind (takes_pure _)

/-- An operand begins where the parser looks for one. -/
theorem startsExpr_of_opens {k : TokenKind} (h : Strength.named ≤ k.opens) : startsExpr k = true := by
  cases k with
  | op s =>
    have known : ∀ s ∈ ["(", "[", "\x7b", "...", "+", "-", "~"], startsExpr (op s) = true := by decide
    simp only [TokenKind.opens] at h
    split_ifs at h with bracket sign
    · exact known s (List.mem_append_left ["+", "-", "~"] bracket)
    · exact known s (List.mem_append_right ["(", "[", "\x7b", "..."] sign)
    · exact absurd h (by decide)
  | name w =>
    have known : ∀ w ∈ ["lambda", "not", "await", "True", "False", "None"],
        startsExpr (.name w) = true := by decide
    simp only [TokenKind.opens] at h
    split_ifs at h with first second third fourth keyword
    · exact known w (by simp [first])
    · exact known w (by simp [second])
    · exact known w (by simp [third])
    · exact absurd h (by decide)
    · exact absurd h (by decide)
    · cases reserved : isKeyword w with
      | false => simp [startsExpr, reserved]
      | true =>
        rw [reserved, Bool.true_and] at keyword
        unfold constantWord? at keyword
        split at keyword
        · exact known _ (by decide)
        · exact known _ (by decide)
        · exact known _ (by decide)
        · exact absurd rfl keyword
  | number _ | string _ => rfl
  | _ => exact absurd h (by decide)

namespace Readable

variable {e value body test orelse : Expr}

theorem lambda {params : List Param} (regular : Regular .strict (.expr (.lambda params body)))
    (plain : ∀ p ∈ params, p.IsPlain) (hd : ∀ p ∈ params, ∀ d ∈ p.default?, Readable d)
    (hb : Readable body) : Readable (.lambda params body) := by
  refine of_top regular (Nat.le_of_ble_eq_true rfl) fun {n K r K'} enough _ more => ?_
  obtain ⟨rfl, rfl, stop⟩ : r = .lambda params body ∧ K' = K ∧ Stop Strength.test K := more
  have kinds : (Expr.lambda params body).kinds ++ K' = .name "lambda" ::
      (commaKinds (params.map Param.kinds) ++
        op ":" :: (body.kindsWithin Strength.test body.kinds ++ K')) := by
    simp [Expr.kinds, paramKinds_eq]
  have fuel : (commaKinds (params.map Param.kinds)).length +
      (body.kindsWithin Strength.test body.kinds).length + 2 ≤ n := by
    simpa [Expr.kinds, paramKinds_eq, Nat.add_assoc] using enough
  obtain ⟨m, rfl⟩ : ∃ m, n = m + 1 := ⟨n - 1, by omega⟩
  have list : Takes ((grammar (m + 1)).params ":" false)
      (commaKinds (params.map Param.kinds) ++
        op ":" :: (body.kindsWithin Strength.test body.kinds ++ K')) params
      (op ":" :: (body.kindsWithin Strength.test body.kinds ++ K')) := by
    refine takes_commaList (P := Follows ":") (by decide) (fun _ => .inl rfl) (.inr rfl) ?_
    intro p hp K follows
    have fits : p.kinds.length ≤ m :=
      Nat.le_trans (length_le_commaKinds (List.mem_map_of_mem hp)) (by omega)
    exact ⟨param_front K, takes_param (plain p hp) (hd p hp) fits follows⟩
  have inner := hb.inTest (n := m) (K := K') (by omega) stop
  rw [kinds]
  refine takes_of_at rfl ((takes_expectWord _).bind ?_)
  exact list.bind ((takes_expectOp _).bind (inner.bind (takes_pure _)))

theorem ifElse (regular : Regular .strict (.expr (.ifElse test body orelse))) (ht : Readable test)
    (hb : Readable body) (ho : Readable orelse) : Readable (.ifElse test body orelse) := by
  refine of_top regular (Nat.le_of_ble_eq_true rfl) fun {n K r K'} enough _ more => ?_
  obtain ⟨rfl, rfl, stop⟩ : r = .ifElse test body orelse ∧ K' = K ∧ Stop Strength.test K := more
  have kinds : (Expr.ifElse test body orelse).kinds ++ K' = body.kindsWithin Strength.or body.kinds ++
      .name "if" :: (test.kindsWithin Strength.or test.kinds ++
        .name "else" :: (orelse.kindsWithin Strength.test orelse.kinds ++ K')) := by
    simp [Expr.kinds]
  have fuel : (body.kindsWithin Strength.or body.kinds).length +
      (test.kindsWithin Strength.or test.kinds).length +
      (orelse.kindsWithin Strength.test orelse.kinds).length + 2 ≤ n := by
    refine Nat.le_trans (Nat.le_of_eq ?_) enough
    simp only [Expr.kinds, List.length_cons, List.length_append]
    omega
  obtain ⟨m, rfl⟩ : ∃ m, n = m + 1 := ⟨n - 1, by omega⟩
  have first : Takes (grammar (m + 1)).orTestRule (body.kindsWithin Strength.or body.kinds ++
      .name "if" :: (test.kindsWithin Strength.or test.kinds ++
        .name "else" :: (orelse.kindsWithin Strength.test orelse.kinds ++ K'))) body _ :=
    hb.whole (s := Strength.or) (by decide) (by omega) (by decide) (Nat.le_refl _)
      (stop_cons (by decide) _)
  have second : Takes (grammar (m + 1)).orTestRule (test.kindsWithin Strength.or test.kinds ++
        .name "else" :: (orelse.kindsWithin Strength.test orelse.kinds ++ K')) test _ :=
    ht.whole (s := Strength.or) (by decide) (by omega) (by decide) (Nat.le_refl _)
      (stop_cons (by decide) _)
  have third := ho.inTest (n := m) (K := K') (by omega) stop
  have whole : Takes (grammar (m + 1)).conditional _ _ K' :=
    first.bind (takes_of_eat (second.bind ((takes_expectWord _).bind (third.bind (takes_pure _)))))
  rw [kinds]
  refine takes_of_not_at (hb.front_ne (by decide) (by decide) _) ?_
  exact whole.bind (takes_of_not_at (stop.ne (by decide)) (takes_pure _))

theorem named {id : String} (regular : Regular .strict (.expr (.named (.name id .store) value)))
    (hi : IsIdentifier id) (hv : Readable value) : Readable (.named (.name id .store) value) := by
  refine of_top regular (Nat.le_of_ble_eq_true rfl) fun {n K r K'} enough stop more => ?_
  obtain ⟨rfl, rfl, -⟩ : r = .named (.name id .store) value ∧ K' = K ∧ Stop Strength.named K := more
  have kinds : (Expr.named (.name id .store) value).kinds ++ K' =
      .name id :: op ":=" :: (value.kindsWithin Strength.test value.kinds ++ K') := rfl
  have fuel : (value.kindsWithin Strength.test value.kinds).length + 2 ≤ n := enough
  obtain ⟨m, rfl⟩ : ∃ m, n = m + 1 := ⟨n - 1, by omega⟩
  have target := Readable.name hi
  have first : Takes (grammar (m + 1)).orTestRule
      ((Expr.name id .load).kindsWithin Strength.or (Expr.name id .load).kinds ++
        op ":=" :: (value.kindsWithin Strength.test value.kinds ++ K')) (.name id .load) _ :=
    target.whole (s := Strength.or) (by decide) (Nat.le_add_left 1 m) (by decide) (Nat.le_refl _)
      (stop_cons (by decide) _)
  have whole : Takes (grammar (m + 1)).conditional _ _ _ :=
    first.bind (takes_of_not_eat (by simp) (takes_pure _))
  have second := hv.inTest (n := m) (K := K') (by omega) stop
  have other : headOf ((Expr.name id .load).kindsWithin Strength.or (Expr.name id .load).kinds ++
        op ":=" :: (value.kindsWithin Strength.test value.kinds ++ K')) ≠ .name "lambda" :=
    target.front_ne (by decide) (by decide) _
  exact takes_of_not_at other (whole.bind (takes_of_at rfl
    ((takes_advance _).bind (second.bind (takes_pure _)))))

/-! Yields, which stand between brackets only. -/

/-- It is enough to read what comes after the bracket. -/
theorem of_yield (regular : Regular .strict (.expr e)) (loose : e.strength = Strength.yield)
    (front : ∀ K, headOf (e.kinds ++ K) = .name "yield")
    (inner : ∀ {n K}, e.kinds.length < n →
      Takes (grammar n).yieldExpr (e.kinds ++ op ")" :: K) e (op ")" :: K)) : Readable e := by
  refine ⟨regular.begins, fun _ lower le => ?_, fun {n K} enough => ?_⟩
  · exact absurd (Nat.le_trans lower le) (by rw [loose]; decide)
  · refine (takes_expectOp _).bind (takes_of_not_eat (by rw [front]; nofun) ?_)
    exact takes_of_at (front _) ((inner enough).bind ((takes_expectOp _).bind (takes_pure _)))

theorem yieldFrom (regular : Regular .strict (.expr (.yieldFrom value))) (h : Readable value) :
    Readable (.yieldFrom value) := by
  refine of_yield regular rfl (fun _ => rfl) fun {n K} enough => ?_
  have fuel : (value.kindsWithin Strength.test value.kinds).length + 2 < n := enough
  obtain ⟨m, rfl⟩ : ∃ m, n = m + 1 := ⟨n - 1, by omega⟩
  have inner := h.inTest (n := m) (K := op ")" :: K) (by omega) (stop_cons (by decide) _)
  exact (takes_expectWord _).bind (takes_of_eat (inner.bind (takes_pure _)))

theorem yield {value : Option Expr} (regular : Regular .strict (.expr (.yield value)))
    (h : ∀ e ∈ value, Readable e) : Readable (.yield value) := by
  refine of_yield regular rfl (fun _ => rfl) fun {n K} enough => ?_
  obtain ⟨m, rfl⟩ : ∃ m, n = m + 1 := ⟨n - 1, by omega⟩
  refine (takes_expectWord _).bind ?_
  cases value with
  | none =>
    refine takes_of_not_eat (by simp [optionKinds]) ?_
    exact (takes_atExpr _).bind ((takes_optionally_false _).bind (takes_pure _))
  | some e =>
    have he := h e rfl
    have fuel : (e.kindsWithin Strength.test e.kinds).length + 1 < m + 1 := enough
    have inner := he.inTest (n := m) (K := op ")" :: K) (by omega) (stop_cons (by decide) _)
    have front : Begins Strength.test (e.kindsWithin Strength.test e.kinds) :=
      he.opening.within (by decide)
    have starts := takes_atExpr (e.kindsWithin Strength.test e.kinds ++ op ")" :: K)
    rw [startsExpr_of_opens (Nat.le_trans (by decide) (front.opens_le _))] at starts
    have items : Takes (grammar (m + 1)).items (e.kindsWithin Strength.test e.kinds ++ op ")" :: K) e
        (op ")" :: K) :=
      Takes.bind (takes_of_not_eat (he.front_ne (by decide) (by decide) _) inner)
        (takes_of_not_at (by simp) (takes_pure e))
    refine takes_of_not_eat (he.front_ne (by decide) (by decide) _) ?_
    exact starts.bind ((takes_optionally_true items).bind (takes_pure _))

end Readable

end Arbiter.Syntax
