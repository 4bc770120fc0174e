import Arbiter.Proofs.Parsing.Clauses

/-! Reading what operators form, and members, subscripts and calls. What is before a trailer is read first
and goes on with it. A chain of operands that groups to the left is read along the chain, and an operand
after an operator that groups to the right or stands before it is read one level deeper. -/

namespace Arbiter.Syntax

open TokenKind (op)
open Syntax.Parser
open Grammar (CallItem Trailer)

/-! Arguments of calls. -/

namespace Grammar

def CallItem.kinds : CallItem → List TokenKind
  | .positional e => e.kindsWithin Strength.test e.kinds
  | .keyword k => k.kinds

/-- The positional arguments and then the keywords, as they are rendered. -/
def callItems (args : List Expr) (keywords : List Keyword) : List CallItem :=
  args.map .positional ++ keywords.map .keyword

variable {args : List Expr} {keywords : List Keyword}

theorem kinds_callItems : (callItems args keywords).map CallItem.kinds =
    kindsOfItems Strength.test args ++ keywordKinds keywords := by
  rw [callItems, List.map_append, List.map_map, List.map_map, kindsOfItems_eq, keywordKinds_eq]
  rfl

theorem positional_callItems : (callItems args keywords).filterMap CallItem.positional? = args := by
  rw [callItems, List.filterMap_append, List.filterMap_map, List.filterMap_map]
  have first : CallItem.positional? ∘ CallItem.positional = some := rfl
  have second : CallItem.positional? ∘ CallItem.keyword = fun _ => none := rfl
  rw [first, second, List.filterMap_some, List.filterMap_none, List.append_nil]

theorem keyword_callItems : (callItems args keywords).filterMap CallItem.keyword? = keywords := by
  rw [callItems, List.filterMap_append, List.filterMap_map, List.filterMap_map]
  have first : CallItem.keyword? ∘ CallItem.positional = fun _ => none := rfl
  have second : CallItem.keyword? ∘ CallItem.keyword = some := rfl
  rw [first, second, List.filterMap_some, List.filterMap_none, List.nil_append]

end Grammar

theorem takes_keyword {k : Keyword} {n : Nat} {K : List TokenKind} (h : Readable k.value)
    (named : ∀ arg ∈ k.arg, IsIdentifier arg) (enough : k.kinds.length ≤ n) (follows : Follows ")" K) :
    Takes (grammar (n + 1)).callItem (k.kinds ++ K) (.keyword k) K := by
  have stop : Stop Strength.test K := follows.stop (by decide) (by decide)
  obtain ⟨arg, value⟩ := k
  cases arg with
  | none =>
    rw [Keyword.kinds, List.length_cons] at enough
    -- A looser parser reads the value here than the one that it is rendered for.
    have whole : Takes (grammar (n + 1)).test (value.kindsWithin Strength.bitOr value.kinds ++ K) value K :=
      h.whole (s := Strength.test) (by decide) (Nat.le_of_succ_le enough) (by decide) (by decide) stop
    exact takes_of_not_eat (by simp [Keyword.kinds]) (takes_of_eat (whole.bind (takes_pure _)))
  | some arg =>
    rw [Keyword.kinds, List.length_cons, List.length_cons] at enough
    refine takes_of_not_eat (by simp [Keyword.kinds]) (takes_of_not_eat (by simp [Keyword.kinds]) ?_)
    refine takes_peek.bind (takes_peekSecond.bind ?_)
    refine (takes_expectName (named arg rfl).notKeyword).bind ((takes_advance _).bind ?_)
    exact (h.inTest (Nat.le_of_succ_le (Nat.le_of_succ_le enough)) stop).bind (takes_pure _)

theorem keyword_front {k : Keyword} (K : List TokenKind) : headOf (k.kinds ++ K) ≠ op ")" := by
  obtain ⟨arg, value⟩ := k
  cases arg <;> simp [Keyword.kinds]

namespace Readable

variable {value : Expr}

/-- It is enough to read the trailer. -/
theorem of_trailer {t : Trailer} {ks : List TokenKind} (regular : Regular .strict (.expr (t.apply value)))
    (hv : Readable value)
    (kinds : (t.apply value).kinds = value.kindsWithin Strength.atom value.kinds ++ ks)
    (goesOn : ∀ K, Stop (Strength.atom + 1) (ks ++ K)) (long : 0 < ks.length)
    (trailer : ∀ {n K}, ks.length ≤ n → Takes (grammar n).trailer? (ks ++ K) (some t) K) :
    Readable (t.apply value) := by
  have tight : (t.apply value).strength = Strength.atom := by cases t <;> rfl
  refine of_top regular (by rw [tight]; decide) ?_
  rw [tight]
  intro n K r K' enough stop more
  rw [kinds, List.length_append] at enough
  rw [kinds, List.append_assoc]
  refine hv.within (s := Strength.atom) (Nat.le_refl _) (by omega) (by decide) (Nat.le_refl _)
    (goesOn K) (Grammar.Trails.step (trailer (by omega)) ?_ more)
  rw [List.length_append]
  omega

theorem member {attr : String} (regular : Regular .strict (.expr (.attribute value attr .load)))
    (hv : Readable value) (ha : IsIdentifier attr) : Readable (.attribute value attr .load) := by
  refine of_trailer (t := .member attr) regular hv rfl (fun K => stop_cons (by decide) _) (by simp)
    fun _ => ?_
  refine takes_of_not_eat (by simp) (takes_of_not_eat (by simp) (takes_of_eat ?_))
  exact (takes_expectName ha.notKeyword).bind (takes_pure _)

theorem subscript {index : Expr} (regular : Regular .strict (.expr (.subscript value index .load)))
    (hv : Readable value) (hi : ReadableIndex index) : Readable (.subscript value index .load) := by
  have kinds : (Expr.subscript value index .load).kinds =
      value.kindsWithin Strength.atom value.kinds ++ op "[" :: (indexKinds index ++ [op "]"]) := by
    rw [Rendered.kinds_subscript, List.append_assoc]
    rfl
  refine of_trailer (t := .subscript index) regular hv kinds (fun K => stop_cons (by decide) _)
    (by simp) fun {n K} enough => ?_
  rw [List.length_cons, List.length_append] at enough
  obtain ⟨m, rfl⟩ : ∃ m, n = m + 1 := ⟨n - 1, by omega⟩
  rw [List.cons_append, List.append_assoc]
  refine takes_of_not_eat (by simp) (takes_of_eat ?_)
  exact Takes.bind (hi (by omega)) ((takes_expectOp _).bind (takes_pure _))

theorem call {args : List Expr} {keywords : List Keyword}
    (regular : Regular .strict (.expr (.call value args keywords))) (hv : Readable value)
    (ha : ∀ e ∈ args, ReadableItem e) (hk : ∀ k ∈ keywords, Readable k.value)
    (named : ∀ k ∈ keywords, ∀ arg ∈ k.arg, IsIdentifier arg) :
    Readable (.call value args keywords) := by
  have kinds : (Expr.call value args keywords).kinds = value.kindsWithin Strength.atom value.kinds ++
      op "(" :: (commaKinds ((Grammar.callItems args keywords).map CallItem.kinds) ++ [op ")"]) := by
    rw [Grammar.kinds_callItems, Expr.kinds, List.append_assoc]
    rfl
  refine of_trailer (t := .call args keywords) regular hv kinds (fun K => stop_cons (by decide) _)
    (by simp) fun {n K} enough => ?_
  rw [List.length_cons, List.length_append] at enough
  obtain ⟨m, rfl⟩ : ∃ m, n = m + 1 := ⟨n - 1, by omega⟩
  have items : Takes (commaList ")" (grammar (m + 1)).callItem)
      (commaKinds ((Grammar.callItems args keywords).map CallItem.kinds) ++ op ")" :: K)
      (Grammar.callItems args keywords) (op ")" :: K) := by
    refine takes_commaList (P := Follows ")") (by decide) (fun _ => .inl rfl) (.inr rfl) ?_
    intro item found K follows
    have fits : item.kinds.length ≤ m :=
      Nat.le_trans (length_le_commaKinds (List.mem_map_of_mem found)) (by omega)
    rcases List.mem_append.1 found with found | found
    · obtain ⟨e, he, rfl⟩ := List.mem_map.1 found
      exact ⟨(ha e he).front_ne (by decide) (by decide) K, (ha e he).argument fits follows⟩
    · obtain ⟨k, hm, rfl⟩ := List.mem_map.1 found
      exact ⟨keyword_front K, takes_keyword (hk k hm) (named k hm) fits follows⟩
  rw [List.cons_append, List.append_assoc]
  refine takes_of_eat (Takes.bind (items.bind (takes_pure _)) ?_)
  rw [Grammar.positional_callItems, Grammar.keyword_callItems]
  exact (takes_expectOp _).bind (takes_pure _)

end Readable

end Arbiter.Syntax

/-! Operators. -/

namespace Arbiter.Syntax

open TokenKind (op)
open Syntax.Parser

/-- No operator stands between signed operands alone. -/
theorem joins_ne_factor (k : TokenKind) : k.joins ≠ Strength.factor := by
  cases k with
  | op s =>
    have symbol : (BinaryOp.ofSymbol? s).elim 0 (·.strength) ≠ Strength.factor := by
      cases BinaryOp.ofSymbol? s with
      | none => decide
      | some o => cases o <;> decide
    simp only [TokenKind.joins]
    split_ifs
    · decide
    · decide
    · decide
    · exact symbol
  | name w =>
    simp only [TokenKind.joins]
    split_ifs <;> decide
  | _ => exact Nat.ne_of_beq_eq_false rfl

theorem Stop.factor {K : List TokenKind} (h : Stop Strength.power K) : Stop Strength.factor K :=
  Nat.lt_of_le_of_ne (Nat.le_of_lt_succ h) (joins_ne_factor _)

namespace Grammar

variable {g : Grammar} {e r : Expr} {o : BinaryOp} {K K' : List TokenKind}

/-- A chain goes on with its operators, other than a power, which is no chain. -/
theorem more_binary (chains : o ≠ .pow) : g.More o.strength e K r K' ↔
    Grows g.factorRule (binaryLevels.getD (o.strength - Strength.bitOr) [])
      (binaryLevels.drop (o.strength + 1 - Strength.bitOr)) e K r K' := by
  cases o <;> first | exact Iff.rfl | exact absurd rfl chains

theorem level_binary (chains : o ≠ .pow) : g.level (o.strength + 1) =
    binaryChain g.factorRule (binaryLevels.drop (o.strength + 1 - Strength.bitOr)) := by
  cases o <;> first | rfl | exact absurd rfl chains

theorem find_level (chains : o ≠ .pow) :
    (binaryLevels.getD (o.strength - Strength.bitOr) []).find? (·.symbol == o.symbol) = some o := by
  cases o <;> first | rfl | exact absurd rfl chains

end Grammar

namespace Readable

variable {left right value : Expr}

theorem binary {o : BinaryOp} (chains : o ≠ .pow) (regular : Regular .strict (.expr (.binary left o right)))
    (hl : Readable left) (hr : Readable right) : Readable (.binary left o right) := by
  have range : Strength.named ≤ o.strength ∧ o.strength + 1 ≤ Strength.atom := by cases o <;> decide
  have leftStrength : o.leftStrength = o.strength := if_neg chains
  have rightStrength : o.rightStrength = o.strength + 1 := if_neg chains
  refine of_top regular range.1 fun {n K r K'} enough stop more => ?_
  have stop : Stop (o.strength + 1) K := stop
  have more : (grammar n).More o.strength (.binary left o right) K r K' := more
  have fuel : (left.kindsWithin o.strength left.kinds).length +
      (right.kindsWithin (o.strength + 1) right.kinds).length + 1 ≤ n := by
    simpa [Expr.kinds, leftStrength, rightStrength, Nat.add_assoc] using enough
  have second : Takes ((grammar n).level (o.strength + 1))
      (right.kindsWithin (o.strength + 1) right.kinds ++ K) right K :=
    hr.whole range.2 (by omega) (by omega) (Nat.le_refl _) stop
  rw [Grammar.level_binary chains] at second
  have shorter : K.length ≤ (right.kindsWithin (o.strength + 1) right.kinds ++ K).length := by
    rw [List.length_append]
    omega
  have grows : (grammar n).More o.strength left
      (op o.symbol :: (right.kindsWithin (o.strength + 1) right.kinds ++ K)) r K' :=
    (Grammar.more_binary chains).2 (Grows.step (Grammar.find_level chains) second shorter
      ((Grammar.more_binary chains).1 more))
  rw [Expr.kinds, leftStrength, rightStrength, List.append_assoc]
  refine hl.within (by omega) (by omega) range.1 (Nat.le_refl _) ?_ grows
  exact stop_cons (by rw [joins_symbol]; exact Nat.lt_succ_self _) _

theorem pow (regular : Regular .strict (.expr (.binary left .pow right))) (hl : Readable left)
    (hr : Readable right) : Readable (.binary left .pow right) := by
  refine of_top regular (Nat.le_of_ble_eq_true rfl) fun {n K r K'} enough _ more => ?_
  obtain ⟨rfl, rfl, stop⟩ : r = .binary left .pow right ∧ K' = K ∧ Stop Strength.power K := more
  have kinds : (Expr.binary left .pow right).kinds ++ K' =
      left.kindsWithin (Strength.power + 1) left.kinds ++
        op "**" :: (right.kindsWithin Strength.factor right.kinds ++ K') := by
    rw [Expr.kinds, List.append_assoc]
    rfl
  rw [Expr.kinds, List.length_append, List.length_cons] at enough
  have fuel : (left.kindsWithin (Strength.power + 1) left.kinds).length +
      (right.kindsWithin Strength.factor right.kinds).length + 1 ≤ n := enough
  obtain ⟨m, rfl⟩ : ∃ m, n = m + 1 := ⟨n - 1, by omega⟩
  have first : Takes (grammar (m + 1)).base
      (left.kindsWithin (Strength.power + 1) left.kinds ++
        op "**" :: (right.kindsWithin Strength.factor right.kinds ++ K')) left
      (op "**" :: (right.kindsWithin Strength.factor right.kinds ++ K')) :=
    hl.whole (s := Strength.power + 1) (by decide) (by omega) (by decide) (Nat.le_refl _)
      (stop_cons (by decide) _)
  have second : Takes (grammar (m + 1)).factor (right.kindsWithin Strength.factor right.kinds ++ K')
      right K' :=
    hr.whole (s := Strength.factor) (by decide) (by omega) (by decide) (Nat.le_refl _) stop.factor
  rw [kinds]
  show Takes (grammar (m + 1)).power _ _ _
  rw [Grammar.power_eq]
  exact first.bind (takes_of_eat (second.bind (takes_pure _)))

theorem sign {o : UnaryOp} (symbol : o ≠ .not) (regular : Regular .strict (.expr (.unary o value)))
    (h : Readable value) : Readable (.unary o value) := by
  have tight : o.strength = Strength.factor := by cases o <;> first | rfl | exact absurd rfl symbol
  refine of_top regular (by show 2 ≤ o.strength; rw [tight]; decide) fun {n K r K'} enough _ more => ?_
  have more : (grammar n).More o.strength (.unary o value) K r K' := more
  rw [tight] at more
  obtain ⟨rfl, rfl, stop⟩ := more
  have fuel : (value.kindsWithin Strength.factor value.kinds).length + 1 ≤ n := by
    simpa [Expr.kinds, tight] using enough
  obtain ⟨m, rfl⟩ : ∃ m, n = m + 1 := ⟨n - 1, by omega⟩
  have operand : Takes (grammar (m + 1)).factor (value.kindsWithin Strength.factor value.kinds ++ K')
      value K' :=
    h.whole (s := Strength.factor) (by decide) (by omega) (by decide) (Nat.le_refl _) stop
  show Takes ((grammar (m + 1)).level o.strength) (o.kind :: _ ++ K') _ _
  rw [tight]
  refine takes_peek.bind ?_
  cases o with
  | not => exact absurd rfl symbol
  | _ => exact (takes_advance _).bind (operand.bind (takes_pure _))

theorem not (regular : Regular .strict (.expr (.unary .not value))) (h : Readable value) :
    Readable (.unary .not value) := by
  refine of_top regular (Nat.le_of_ble_eq_true rfl) fun {n K r K'} enough _ more => ?_
  obtain ⟨rfl, rfl, stop⟩ : r = .unary .not value ∧ K' = K ∧ Stop Strength.not K := more
  have fuel : (value.kindsWithin Strength.not value.kinds).length + 1 ≤ n := enough
  obtain ⟨m, rfl⟩ : ∃ m, n = m + 1 := ⟨n - 1, by omega⟩
  have operand : Takes (grammar (m + 1)).notTest (value.kindsWithin Strength.not value.kinds ++ K')
      value K' :=
    h.whole (s := Strength.not) (by decide) (by omega) (by decide) (Nat.le_refl _) stop
  exact takes_of_eat (operand.bind (takes_pure _))

theorem await (regular : Regular .strict (.expr (.await value))) (h : Readable value) :
    Readable (.await value) := by
  refine of_top regular (Nat.le_of_ble_eq_true rfl) fun {n K r K'} enough _ more => ?_
  obtain ⟨rfl, rfl, stop⟩ : r = .await value ∧ K' = K ∧ Stop Strength.await K := more
  have operand : Takes (grammar n).primary (value.kindsWithin Strength.atom value.kinds ++ K') value K' :=
    h.whole (s := Strength.atom) (by decide) (Nat.le_of_succ_le enough) (by decide) (Nat.le_refl _)
      (stop.mono (by decide))
  exact takes_of_eat (operand.map Expr.await)

/-! Chains of operands. -/

theorem items_bool {o : BoolOp} {rest : List Expr} {n : Nat} {K : List TokenKind}
    (h : ∀ e ∈ rest, Readable e)
    (enough : ∀ e ∈ rest, (e.kindsWithin (o.strength + 1) e.kinds).length ≤ n)
    (stop : Stop o.strength K) :
    Items (fun _ => do optionally (← eatWord o.word) ((grammar n).level (o.strength + 1))) []
      ((kindsOfItems (o.strength + 1) rest).flatMap (.name o.word :: ·) ++ K) rest K := by
  have range : o.strength + 1 ≤ Strength.atom ∧ Strength.named ≤ o.strength + 1 ∧
      (TokenKind.name o.word).joins = o.strength := by cases o <;> decide
  obtain ⟨upper, lower, joins⟩ := range
  induction rest with
  | nil =>
    have other : headOf K ≠ .name o.word := stop.ne (Nat.le_of_eq joins.symm)
    exact .nil ((takes_eat_other other).bind (takes_optionally_false _))
  | cons e rest ih =>
    have after := ih (fun e he => h e (.tail _ he)) fun e he => enough e (.tail _ he)
    have next : Stop (o.strength + 1)
        ((kindsOfItems (o.strength + 1) rest).flatMap (.name o.word :: ·) ++ K) := by
      cases rest with
      | nil => exact stop.mono (Nat.le_succ _)
      | cons => exact stop_cons (by rw [joins]; exact Nat.lt_succ_self _) _
    have operand := (h e List.mem_cons_self).whole upper (enough e List.mem_cons_self) lower
      (Nat.le_refl _) next
    rw [kindsOfItems, List.flatMap_cons, List.append_assoc, List.cons_append]
    refine .cons ((takes_eat _).bind (takes_optionally_true operand)) ?_ (after.of_const _)
    simp only [List.length_cons, List.length_append]
    omega

theorem bool {o : BoolOp} {first second : Expr} {rest : List Expr}
    (regular : Regular .strict (.expr (.bool o (first :: second :: rest)))) (hf : Readable first)
    (hr : ∀ e ∈ second :: rest, Readable e) : Readable (.bool o (first :: second :: rest)) := by
  have range : o.strength + 1 ≤ Strength.atom ∧ Strength.named ≤ o.strength ∧
      (TokenKind.name o.word).joins = o.strength := by cases o <;> decide
  obtain ⟨upper, lower, joins⟩ := range
  refine of_top regular lower fun {n K r K'} enough _ more => ?_
  obtain ⟨rfl, rfl, stop⟩ : r = .bool o (first :: second :: rest) ∧ K' = K ∧ Stop o.strength K := by
    cases o <;> exact more
  have level : (grammar n).level o.strength =
      boolChain o o.word ((grammar n).level (o.strength + 1)) := by cases o <;> rfl
  have kinds : (Expr.bool o (first :: second :: rest)).kinds =
      first.kindsWithin (o.strength + 1) first.kinds ++
        (kindsOfItems (o.strength + 1) (second :: rest)).flatMap (.name o.word :: ·) := rfl
  rw [kinds, List.length_append] at enough
  have bound : ∀ e ∈ second :: rest, (e.kindsWithin (o.strength + 1) e.kinds).length ≤ n := by
    intro e he
    have inside := (List.sublist_flatten_of_mem (List.mem_map_of_mem (f := (TokenKind.name o.word :: ·))
      (List.mem_map_of_mem (f := fun e => e.kindsWithin (o.strength + 1) e.kinds) he))).length_le
    rw [← List.flatMap_def, ← kindsOfItems_eq, List.length_cons] at inside
    omega
  have operand := hf.whole (n := n) (s := o.strength + 1)
    (K := (kindsOfItems (o.strength + 1) (second :: rest)).flatMap (.name o.word :: ·) ++ K') upper
    (by omega) (by omega) (Nat.le_refl _) (stop_cons (by rw [joins]; exact Nat.lt_succ_self _) _)
  show Takes ((grammar n).level o.strength) _ _ _
  rw [level, kinds, List.append_assoc]
  exact operand.bind ((items_bool hr bound stop).takes_many.bind (takes_pure _))

theorem takes_eatCompareOp {o : CompareOp} {K : List TokenKind} (other : headOf K ≠ .name "not") :
    Takes eatCompareOp? (o.kinds ++ K) (some o) K := by
  have taken : ∀ k, Takes (eatCompareOp?.taken o) (k :: K) (some o) K := fun k =>
    (takes_advance k).bind (takes_pure _)
  cases o with
  | «is» =>
    refine takes_peek.bind (takes_peekSecond.bind ?_)
    show Takes (if (headOf K == .name "not") = true then _ else _) _ _ _
    rw [beq_false_of_ne other]
    exact taken _
  | isNot => exact takes_peek.bind (takes_peekSecond.bind ((takes_advance _).bind (taken _)))
  | notIn => exact takes_peek.bind (takes_peekSecond.bind ((takes_advance _).bind (taken _)))
  | _ => exact takes_peek.bind (taken _)

/-- The next comparison, if any. -/
def comparandNext (g : Grammar) : Parser (Option Comparand) := do
  match ← eatCompareOp? with
  | some o => return some ⟨o, ← g.bitOrRule⟩
  | none => return none

theorem stop_comparands {K : List TokenKind} (stop : Stop Strength.compare K) (rest : List Comparand) :
    Stop Strength.bitOr (rest.flatMap Comparand.kinds ++ K) := by
  cases rest with
  | nil => exact stop.mono (by decide)
  | cons c rest =>
    obtain ⟨o, value⟩ := c
    have joins : ∀ K, (headOf (o.kinds ++ K)).joins = Strength.compare := by
      intro K
      cases o <;> rfl
    rw [List.flatMap_cons, Comparand.kinds, List.append_assoc, List.append_assoc]
    exact Nat.lt_of_le_of_lt (Nat.le_of_eq (joins _)) (by decide)

theorem items_compare {rest : List Comparand} {n : Nat} {K : List TokenKind}
    (h : ∀ c ∈ rest, Readable c.value) (enough : ∀ c ∈ rest, c.kinds.length ≤ n)
    (stop : Stop Strength.compare K) :
    Items (fun _ => comparandNext (grammar n)) [] (rest.flatMap Comparand.kinds ++ K) rest K := by
  induction rest with
  | nil => exact .nil ((takes_eatCompareOp_other stop).bind (takes_pure none))
  | cons c rest ih =>
    have after := ih (fun c hc => h c (.tail _ hc)) fun c hc => enough c (.tail _ hc)
    have next := stop_comparands stop rest
    obtain ⟨o, value⟩ := c
    have hv : Readable value := h _ List.mem_cons_self
    have fits : (o.kinds ++ value.kindsWithin Strength.bitOr value.kinds).length ≤ n :=
      enough _ List.mem_cons_self
    rw [List.length_append] at fits
    have operand : Takes (grammar n).bitOrRule
        (value.kindsWithin Strength.bitOr value.kinds ++ (rest.flatMap Comparand.kinds ++ K)) value
        (rest.flatMap Comparand.kinds ++ K) :=
      hv.whole (s := Strength.bitOr) (by decide) (by omega) (by decide) (Nat.le_refl _) next
    -- An operand that begins with `not` stands in brackets, so that `is` stays a word of its own.
    have notIs : headOf (value.kindsWithin Strength.bitOr value.kinds ++
        (rest.flatMap Comparand.kinds ++ K)) ≠ .name "not" := hv.front_ne (by decide) (by decide) _
    have symbol : 0 < o.kinds.length := by cases o <;> decide
    rw [List.flatMap_cons, Comparand.kinds, List.append_assoc, List.append_assoc]
    refine .cons ((takes_eatCompareOp notIs).bind (operand.bind (takes_pure _))) ?_ (after.of_const _)
    simp only [List.length_append]
    omega

theorem compare {rest : List Comparand} (regular : Regular .strict (.expr (.compare left rest)))
    (some : rest ≠ []) (hl : Readable left) (hr : ∀ c ∈ rest, Readable c.value) :
    Readable (.compare left rest) := by
  refine of_top regular (Nat.le_of_ble_eq_true rfl) fun {n K r K'} enough _ more => ?_
  obtain ⟨rfl, rfl, stop⟩ : r = .compare left rest ∧ K' = K ∧ Stop Strength.compare K := more
  have kinds : (Expr.compare left rest).kinds =
      left.kindsWithin Strength.bitOr left.kinds ++ rest.flatMap Comparand.kinds := by
    rw [Expr.kinds, comparandKinds_eq, ← List.flatMap_def]
    rfl
  rw [kinds, List.length_append] at enough
  have bound : ∀ c ∈ rest, c.kinds.length ≤ n := by
    intro c hc
    have inside := (List.sublist_flatten_of_mem (List.mem_map_of_mem (f := Comparand.kinds) hc)).length_le
    rw [← List.flatMap_def] at inside
    omega
  obtain ⟨c, more, rfl⟩ := List.exists_cons_of_ne_nil some
  have next := stop_comparands stop (c :: more)
  have operand : Takes (grammar n).bitOrRule _ left _ :=
    hl.whole (s := Strength.bitOr) (by decide) (by omega) (by decide) (Nat.le_refl _) next
  rw [kinds, List.append_assoc]
  exact operand.bind ((items_compare hr bound stop).takes_many.bind (takes_pure _))

end Readable

end Arbiter.Syntax
