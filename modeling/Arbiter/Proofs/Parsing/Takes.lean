import Arbiter.Syntax.Parser.Basic

/-! How parsers go on over tokens of known kinds. A parser takes kinds `K` to `a` and leaves `K'` if it
does so on all tokens of these kinds, wherever they stand in the source. -/

namespace Arbiter.Syntax

open TokenKind (op name)

namespace Parser

variable {α β : Type} {K K' K'' : List TokenKind}

def Takes (p : Parser α) (K : List TokenKind) (a : α) (K' : List TokenKind) : Prop :=
  ∀ ts : List Token, ts.map (·.kind) = K → ∃ ts', ts'.map (·.kind) = K' ∧ p ts = .ok (a, ts')

/-- What is read on where the first parser succeeds. -/
theorem bind_apply {p : Parser α} {f : α → Parser β} {ts ts' : List Token} {a : α} (h : p ts = .ok (a, ts')) :
    (p >>= f) ts = f a ts' := by
  show (p ts >>= fun x => f x.1 x.2) = _
  rw [h]
  rfl

/-- The kind of the first token. -/
def headOf (K : List TokenKind) : TokenKind := K.headD .endMarker

@[simp] theorem headOf_nil : headOf [] = .endMarker := rfl

@[simp] theorem headOf_cons (k : TokenKind) (K : List TokenKind) : headOf (k :: K) = k := rfl

theorem headKind_eq (ts : List Token) : headKind ts = headOf (ts.map (·.kind)) := by
  cases ts <;> rfl

/-- What is taken is up to the tokens alone. -/
theorem Takes.unique {p : Parser α} {a b : α} (h : Takes p K a K') (h' : Takes p K b K'') :
    a = b ∧ K' = K'' := by
  have kinds : (K.map (Token.mk · .start)).map (·.kind) = K := by
    rw [List.map_map]
    exact List.map_id K
  obtain ⟨ts, rfl, run⟩ := h _ kinds
  obtain ⟨ts', rfl, run'⟩ := h' _ kinds
  cases run.symm.trans run'
  exact ⟨rfl, rfl⟩

theorem takes_pure (a : α) : Takes (pure a) K a K := fun ts h => ⟨ts, h, rfl⟩

theorem Takes.bind {p : Parser α} {f : α → Parser β} {a : α} {b : β} (hp : Takes p K a K')
    (hf : Takes (f a) K' b K'') : Takes (p >>= f) K b K'' := by
  intro ts kinds
  obtain ⟨ts', kinds', same⟩ := hp ts kinds
  obtain ⟨ts'', kinds'', same'⟩ := hf ts' kinds'
  refine ⟨ts'', kinds'', ?_⟩
  show (p ts >>= fun r => f r.1 r.2) = _
  rw [same]
  exact same'

theorem Takes.map {p : Parser α} {a : α} (f : α → β) (hp : Takes p K a K') :
    Takes (f <$> p) K (f a) K' := by
  intro ts kinds
  obtain ⟨ts', kinds', same⟩ := hp ts kinds
  refine ⟨ts', kinds', ?_⟩
  show (p ts >>= fun r => Except.ok (f r.1, r.2)) = _
  rw [same]
  rfl

theorem takes_peek : Takes peek K (headOf K) K := by
  intro ts kinds
  refine ⟨ts, kinds, ?_⟩
  rw [← kinds, ← headKind_eq]
  rfl

theorem takes_peekSecond : Takes peekSecond K (headOf K.tail) K := by
  intro ts kinds
  refine ⟨ts, kinds, ?_⟩
  rw [← kinds, ← List.map_tail, ← headKind_eq]
  rfl

theorem takes_advance (k : TokenKind) : Takes advance (k :: K) () K := by
  intro ts kinds
  refine ⟨ts.tail, ?_, rfl⟩
  rw [List.map_tail, kinds]
  rfl

theorem takes_at (k : TokenKind) : Takes (at? k) K (headOf K == k) K := by
  intro ts kinds
  refine ⟨ts, kinds, ?_⟩
  rw [← kinds, ← headKind_eq]
  rfl

theorem takes_eat (k : TokenKind) : Takes (eat? k) (k :: K) true K := by
  intro ts kinds
  refine ⟨ts.tail, ?_, ?_⟩
  · rw [List.map_tail, kinds]
    rfl
  · have here : headKind ts = k := by rw [headKind_eq, kinds]; rfl
    unfold eat?
    rw [if_pos (by simp [here])]

theorem takes_eat_other {k : TokenKind} (h : headOf K ≠ k) : Takes (eat? k) K false K := by
  intro ts kinds
  refine ⟨ts, kinds, ?_⟩
  have other : (headKind ts == k) = false := by
    rw [headKind_eq, kinds]
    exact beq_false_of_ne h
  unfold eat?
  rw [if_neg (by simp [other])]

/-! Choices by the next token. -/

section Choices

variable {A B : Parser α} {a : α} {k : TokenKind}

theorem takes_of_eat (h : Takes A K a K') :
    Takes (do if ← eat? k then A else B) (k :: K) a K' :=
  (takes_eat k).bind h

theorem takes_of_not_eat (other : headOf K ≠ k) (h : Takes B K a K') :
    Takes (do if ← eat? k then A else B) K a K' :=
  (takes_eat_other other).bind h

theorem takes_of_at (here : headOf K = k) (h : Takes A K a K') :
    Takes (do if ← at? k then A else B) K a K' := by
  refine (takes_at k).bind ?_
  rw [here, if_pos (beq_self_eq_true k)]
  exact h

theorem takes_of_not_at (other : headOf K ≠ k) (h : Takes B K a K') :
    Takes (do if ← at? k then A else B) K a K' := by
  refine (takes_at k).bind ?_
  rw [beq_false_of_ne other]
  exact h

end Choices

theorem takes_expectOp (symbol : String) : Takes (expectOp symbol) (op symbol :: K) () K :=
  (takes_eat _).bind (takes_pure ())

theorem takes_expectWord (word : String) : Takes (expectWord word) (name word :: K) () K :=
  (takes_eat _).bind (takes_pure ())

/-- A name is taken unless it is a keyword. -/
theorem expectName_apply {ts : List Token} {word : String} (here : headKind ts = .name word) :
    expectName ts = if isKeyword word then .error ⟨.expectedIdentifier, headPos ts⟩ else .ok (word, ts.tail) := by
  have peeked : peek ts = .ok (headKind ts, ts) := rfl
  rw [expectName, bind_apply peeked, here]
  show (if isKeyword word then fail .expectedIdentifier else do
    advance
    return word : Parser String) ts = _
  split
  · rfl
  · rfl

theorem takes_expectName {id : String} (h : isKeyword id = false) :
    Takes expectName (name id :: K) id K := by
  refine takes_peek.bind ?_
  show Takes (if isKeyword id = true then _ else _) _ _ _
  rw [h]
  exact (takes_advance _).bind (takes_pure id)

theorem takes_expectNewline : Takes expectNewline (.newline :: K) () K :=
  (takes_eat _).bind (takes_pure ())

theorem takes_optionally_true {p : Parser α} {a : α} (h : Takes p K a K') :
    Takes (optionally true p) K (some a) K' :=
  h.map some

theorem takes_optionally_false (p : Parser α) : Takes (optionally false p) K none K :=
  takes_pure none

/-! Lists of items. -/

/-- Items are taken one after the other until there is none; every item takes a token. The items so far
are last first. -/
inductive Items (next : List α → Parser (Option α)) :
    List α → List TokenKind → List α → List TokenKind → Prop
  | nil {before : List α} {K K' : List TokenKind} (h : Takes (next before) K none K') :
    Items next before K [] K'
  | cons {before : List α} {K K' K'' : List TokenKind} {a : α} {as : List α}
    (h : Takes (next before) K (some a) K') (shorter : K'.length < K.length)
    (rest : Items next (a :: before) K' as K'') : Items next before K (a :: as) K''

theorem Items.takes_collectFor {next : List α → Parser (Option α)} {before as : List α}
    (h : Items next before K as K') : ∀ rounds, K.length < rounds →
      Takes (collectFor next rounds before) K (before.reverse ++ as) K' := by
  induction h with
  | nil h =>
    intro rounds enough
    obtain ⟨rounds, rfl⟩ : ∃ n, rounds = n + 1 := ⟨rounds - 1, by omega⟩
    rw [List.append_nil]
    exact h.bind (takes_pure _)
  | cons h shorter rest ih =>
    intro rounds enough
    obtain ⟨rounds, rfl⟩ : ∃ n, rounds = n + 1 := ⟨rounds - 1, by omega⟩
    refine h.bind ?_
    have more := ih rounds (by omega)
    rwa [List.reverse_cons, List.append_assoc] at more

theorem Items.takes_collect {next : List α → Parser (Option α)} {as : List α}
    (h : Items next [] K as K') : Takes (collect next) K as K' := by
  cases h with
  | nil h => exact h.bind (takes_pure _)
  | @cons _ _ K₁ _ a as h shorter rest =>
    refine h.bind fun ts kinds => ?_
    have fuel : K₁.length < ts.length + 1 := by
      rw [← kinds, List.length_map]
      omega
    exact rest.takes_collectFor _ fuel ts kinds

theorem Items.takes_many {next : Parser (Option α)} {as : List α}
    (h : Items (fun _ => next) [] K as K') : Takes (many next) K as K' :=
  h.takes_collect

/-- What stands before does not matter where the parser does not look at it. -/
theorem Items.of_const {next : Parser (Option α)} {as : List α} {before : List α} (before' : List α)
    (h : Items (fun _ => next) before K as K') : Items (fun _ => next) before' K as K' := by
  induction h generalizing before' with
  | nil h => exact .nil h
  | cons h shorter rest ih => exact .cons h shorter (ih _)

end Parser

end Arbiter.Syntax
