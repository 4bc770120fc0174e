import Arbiter.Proofs.Parsing.Spelling
import Arbiter.Syntax.Parser

/-! What parsers give, whatever they read. A parser yields `Q` if all that it gives is one of `Q`; on
some sort of tokens it may yield more than on others. -/

namespace Arbiter.Syntax

open TokenKind (op name)

/-- A name that is no keyword. -/
structure IsIdentifier (id : String) : Prop where
  spells : Spells id (.name id)
  notKeyword : isKeyword id = false

namespace Parser

variable {α β : Type}

/-- A sort of tokens that are spelled by their texts; with them the last ones of them are of it. -/
structure Inputs where
  holds : List Token → Prop
  suffix : ∀ {ts ts'}, ts' <:+ ts → holds ts → holds ts'
  spelled : ∀ {ts}, holds ts → ∀ t ∈ ts, t.kind.IsSpelled

/-- All tokens that are spelled by their texts. -/
def Inputs.all : Inputs where
  holds ts := ∀ t ∈ ts, t.kind.IsSpelled
  suffix part h t ht := h t (part.subset ht)
  spelled h := h

/-- On tokens of the sort, all that the parser gives is one of `Q`, and it leaves the last ones of its
tokens. -/
def Inputs.Yields (I : Inputs) (p : Parser α) (Q : α → Prop) : Prop :=
  ∀ ts, I.holds ts → ∀ a ts', p ts = .ok (a, ts') → ts' <:+ ts ∧ Q a

/-- The parser does so on all tokens that are spelled by their texts. -/
abbrev Yields (p : Parser α) (Q : α → Prop) : Prop := Inputs.all.Yields p Q

/-- It does so on those of them of which `P` holds. -/
def YieldsIf (P : List Token → Prop) (p : Parser α) (Q : α → Prop) : Prop :=
  ∀ ts, P ts → (∀ t ∈ ts, t.kind.IsSpelled) → ∀ a ts', p ts = .ok (a, ts') → ts' <:+ ts ∧ Q a

variable {I : Inputs} {p : Parser α} {P : List Token → Prop} {Q : α → Prop}

theorem Inputs.Yields.yieldsIf (h : Inputs.all.Yields p Q) : YieldsIf P p Q := fun ts _ => h ts

/-- What a parser yields on all tokens it yields on those of a sort. -/
theorem Inputs.Yields.on (h : Inputs.all.Yields p Q) : I.Yields p Q := fun ts holds => h ts (I.spelled holds)

theorem Inputs.Yields.mono {Q' : α → Prop} (h : I.Yields p Q) (le : ∀ a, Q a → Q' a) : I.Yields p Q' := by
  intro ts holds a ts' run
  exact (h ts holds a ts' run).imp_right (le a)

theorem yields_pure {a : α} (h : Q a) : I.Yields (pure a) Q := by
  intro ts _ b ts' run
  cases run
  exact ⟨List.suffix_refl ts, h⟩

theorem yields_fail (cause : Cause) : I.Yields (fail cause) Q := by
  intro ts _ a ts' run
  cases run

/-- What is read on after something was read. -/
theorem yields_bind_at {f : α → Parser β} {R : β → Prop} {ts : List Token} (holds : I.holds ts)
    (hp : ∀ a ts', p ts = .ok (a, ts') → ts' <:+ ts ∧ Q a) (hf : ∀ a, Q a → I.Yields (f a) R) :
    ∀ b ts'', (p >>= f) ts = .ok (b, ts'') → ts'' <:+ ts ∧ R b := by
  intro b ts'' run
  have run : (p ts >>= fun x => f x.1 x.2) = .ok (b, ts'') := run
  cases found : p ts with
  | error fault =>
    rw [found] at run
    cases run
  | ok x =>
    obtain ⟨a, ts'⟩ := x
    rw [found] at run
    obtain ⟨suffix, ha⟩ := hp a ts' found
    obtain ⟨suffix', hb⟩ := hf a ha ts' (I.suffix suffix holds) b ts'' run
    exact ⟨suffix'.trans suffix, hb⟩

theorem Inputs.Yields.bind {f : α → Parser β} {R : β → Prop} (hp : I.Yields p Q)
    (hf : ∀ a, Q a → I.Yields (f a) R) : I.Yields (p >>= f) R := fun ts holds =>
  yields_bind_at holds (hp ts holds) hf

theorem YieldsIf.bind {f : α → Parser β} {R : β → Prop} (hp : YieldsIf P p Q)
    (hf : ∀ a, Q a → Yields (f a) R) : YieldsIf P (p >>= f) R := fun ts holds spelled =>
  yields_bind_at (I := .all) spelled (hp ts holds spelled) hf

theorem Inputs.Yields.map {R : β → Prop} (f : α → β) (hp : I.Yields p Q) (hf : ∀ a, Q a → R (f a)) :
    I.Yields (f <$> p) R := by
  intro ts holds b ts' run
  have run : (p ts >>= fun x => Except.ok (f x.1, x.2)) = .ok (b, ts') := run
  cases found : p ts with
  | error fault =>
    rw [found] at run
    cases run
  | ok x =>
    rw [found] at run
    cases run
    exact (hp ts holds x.1 x.2 found).imp_right (hf x.1)

theorem isSpelled_headKind {ts : List Token} (h : ∀ t ∈ ts, t.kind.IsSpelled) :
    (headKind ts).IsSpelled := by
  cases ts with
  | nil => trivial
  | cons t ts => exact h t List.mem_cons_self

theorem yields_peek : I.Yields peek TokenKind.IsSpelled := by
  intro ts holds k ts' run
  cases run
  exact ⟨List.suffix_refl ts, isSpelled_headKind (I.spelled holds)⟩

/-- A choice by the kind of the next token. -/
theorem yields_of_peek {f : TokenKind → Parser α}
    (h : ∀ k, k.IsSpelled → YieldsIf (headKind · = k) (f k) Q) : Yields (peek >>= f) Q :=
  fun ts spelled => h (headKind ts) (isSpelled_headKind spelled) ts rfl spelled

theorem yields_peekSecond : I.Yields peekSecond fun _ => True := by
  intro ts _ k ts' run
  cases run
  exact ⟨List.suffix_refl ts, trivial⟩

theorem yields_advance : I.Yields advance fun _ => True := by
  intro ts _ k ts' run
  cases run
  exact ⟨List.tail_suffix ts, trivial⟩

theorem yields_at (k : TokenKind) : I.Yields (at? k) fun _ => True := by
  intro ts _ b ts' run
  cases run
  exact ⟨List.suffix_refl ts, trivial⟩

theorem yields_eat (k : TokenKind) : I.Yields (eat? k) fun _ => True := by
  intro ts _ b ts' run
  unfold eat? at run
  split at run <;> cases run
  · exact ⟨List.tail_suffix ts, trivial⟩
  · exact ⟨List.suffix_refl ts, trivial⟩

/-! Choices by the next token. -/

section Choices

variable {A B : Parser α}

theorem yields_ite {c : Prop} [Decidable c] (hA : I.Yields A Q) (hB : I.Yields B Q) :
    I.Yields (if c then A else B) Q := by
  split
  · exact hA
  · exact hB

/-- What is read on unless a condition fails. -/
theorem yields_unless {c : Prop} [Decidable c] {cause : Cause} (h : ¬c → I.Yields A Q) :
    I.Yields (if c then fail cause else A) Q := by
  split
  · exact yields_fail cause
  · exact h ‹¬c›

theorem yields_of_eat {k : TokenKind} (hA : I.Yields A Q) (hB : I.Yields B Q) :
    I.Yields (do if ← eat? k then A else B) Q :=
  (yields_eat k).bind fun _ _ => yields_ite hA hB

theorem yields_of_at {k : TokenKind} (hA : I.Yields A Q) (hB : I.Yields B Q) :
    I.Yields (do if ← at? k then A else B) Q :=
  (yields_at k).bind fun _ _ => yields_ite hA hB

end Choices

theorem yields_expectOp (symbol : String) : I.Yields (expectOp symbol) fun _ => True :=
  (yields_eat _).bind fun _ _ => yields_ite (yields_fail _) (yields_pure trivial)

theorem yields_expectWord (word : String) : I.Yields (expectWord word) fun _ => True :=
  (yields_eat _).bind fun _ _ => yields_ite (yields_fail _) (yields_pure trivial)

theorem yields_expectNewline : I.Yields expectNewline fun _ => True :=
  (yields_eat _).bind fun _ _ => yields_ite (yields_fail _) (yields_pure trivial)

theorem yields_expectName : I.Yields expectName IsIdentifier := by
  refine yields_peek.bind fun k spelled => ?_
  split
  · rename_i text
    show I.Yields (if isKeyword text = true then _ else _) _
    split
    · exact yields_fail _
    · rename_i word
      exact yields_advance.bind fun _ _ => yields_pure ⟨spelled, Bool.eq_false_iff.2 word⟩
  · exact yields_fail _

theorem yields_optionally (condition : Bool) (h : I.Yields p Q) :
    I.Yields (optionally condition p) fun o => ∀ a ∈ o, Q a := by
  unfold optionally
  split
  · refine h.map some ?_
    rintro a ha b ⟨⟩
    exact ha
  · exact yields_pure (by simp)

theorem yields_collectFor {next : List α → Parser (Option α)}
    (h : ∀ before, I.Yields (next before) fun o => ∀ a ∈ o, Q a) :
    ∀ rounds before, (∀ a ∈ before, Q a) →
      I.Yields (collectFor next rounds before) fun as => before ⊆ as ∧ ∀ a ∈ as, Q a := by
  intro rounds
  induction rounds with
  | zero => exact fun _ _ => yields_fail _
  | succ rounds ih =>
    intro before all
    refine (h before).bind fun o ho => ?_
    cases o with
    | none =>
      refine yields_pure ⟨fun a ha => List.mem_reverse.2 ha, fun a ha => ?_⟩
      exact all a (List.mem_reverse.1 ha)
    | some a =>
      refine (ih _ (List.forall_mem_cons.2 ⟨ho a rfl, all⟩)).mono fun as has => ?_
      exact ⟨fun b hb => has.1 (.tail a hb), has.2⟩

/-- What is collected after a first item. -/
theorem yields_collectRest {next : List α → Parser (Option α)}
    (h : ∀ before, I.Yields (next before) fun o => ∀ a ∈ o, Q a) {a : α} (ha : Q a) :
    I.Yields (do let ts ← get; collectFor next (ts.length + 1) [a]) fun as =>
      a ∈ as ∧ ∀ a ∈ as, Q a := by
  intro ts holds as ts' run
  obtain ⟨suffix, kept, all⟩ := yields_collectFor h _ [a] (by simpa using ha) ts holds as ts' run
  exact ⟨suffix, kept List.mem_cons_self, all⟩

theorem yields_collect {next : List α → Parser (Option α)}
    (h : ∀ before, I.Yields (next before) fun o => ∀ a ∈ o, Q a) :
    I.Yields (collect next) fun as => ∀ a ∈ as, Q a := by
  refine (h []).bind fun o ho => ?_
  cases o with
  | none => exact yields_pure (by simp)
  | some a => exact (yields_collectRest h (ho a rfl)).mono fun _ has => has.2

theorem yields_many {next : Parser (Option α)} (h : I.Yields next fun o => ∀ a ∈ o, Q a) :
    I.Yields (many next) fun as => ∀ a ∈ as, Q a :=
  yields_collect fun _ => h

theorem yields_many_some {next : Parser (Option α)} (h : Yields next fun o => ∀ a ∈ o, Q a) :
    YieldsIf (fun ts => ∀ ts', next ts ≠ .ok (none, ts')) (many next) fun as =>
      as ≠ [] ∧ ∀ a ∈ as, Q a := by
  intro ts some spelled as ts'' run
  simp only [many, collect, bind, StateT.bind] at run
  cases found : next ts with
  | error fault =>
    rw [found] at run
    cases run
  | ok x =>
    obtain ⟨o, ts'⟩ := x
    rw [found] at run
    obtain ⟨suffix, ho⟩ := h ts spelled o ts' found
    have left : ∀ t ∈ ts', t.kind.IsSpelled := fun t ht => spelled t (suffix.subset ht)
    cases o with
    | none => exact absurd found (some ts')
    | some a =>
      obtain ⟨suffix', kept, all⟩ := yields_collectRest (fun _ => h) (ho a rfl) ts' left as ts'' run
      exact ⟨suffix'.trans suffix, List.ne_nil_of_mem kept, all⟩

theorem yields_afterCommas {stop : Parser Bool} (hs : I.Yields stop fun _ => True) (h : I.Yields p Q) :
    I.Yields (afterCommas stop p) fun as => ∀ a ∈ as, Q a := by
  have none : I.Yields (pure none : Parser (Option α)) fun o => ∀ a ∈ o, Q a := yields_pure (by simp)
  refine yields_many ((yields_eat _).bind fun _ _ => yields_ite none ?_)
  refine hs.bind fun _ _ => yields_ite none (h.map some ?_)
  rintro a ha b ⟨⟩
  exact ha

theorem yields_commaList (closing : String) (h : I.Yields p Q) :
    I.Yields (commaList closing p) fun as => ∀ a ∈ as, Q a := by
  refine yields_of_at (yields_pure (by simp)) (h.bind fun a ha => ?_)
  refine (yields_afterCommas (yields_at _) h).bind fun as has => yields_pure ?_
  exact List.forall_mem_cons.2 ⟨ha, has⟩

theorem yields_atGenerator : I.Yields atGenerator fun _ => True := by
  refine yields_of_at (yields_pure trivial) (yields_of_at ?_ (yields_pure trivial))
  exact yields_peekSecond.bind fun _ _ => yields_pure trivial

theorem yields_atExpr : I.Yields atExpr fun _ => True :=
  yields_peek.bind fun _ _ => yields_pure trivial

theorem yields_target {ctx : Context} (e : Expr) :
    I.Yields (target ctx e) fun t => e.asTarget? ctx = some t := by
  unfold target
  split
  · exact yields_pure ‹_›
  · exact yields_fail _

end Parser

end Arbiter.Syntax
