import Arbiter.Proofs.Parsing.Agree
import Arbiter.Proofs.Parsing.Places
import Arbiter.Proofs.Parsing.Takes

/-! How parsers come to an end. A parser halts if it leaves the last ones of its tokens, or finds fault
with one of them; neither the levels of the grammar nor the rounds of a loop run out. It is enough here
that it does so on tokens that weigh less than a bound, as in the agreement of parsers. -/

namespace Arbiter.Syntax

/-- The cause is in the text, and not in the number of levels or rounds. -/
def Cause.isGenuine : Cause → Bool
  | .tooDeep => false
  | .inFString inner => inner.isGenuine
  | _ => true

theorem Cause.isGenuine_of_isOuter {c : Cause} (h : c.isOuter = true) : c.isGenuine = true := by
  cases c <;> first | rfl | cases h

/-- The fault has a genuine cause, and is placed at one of the tokens. One inside of an f-string is
placed at a string. -/
structure Fault.Concerns (f : Fault) (ts : List Token) : Prop where
  genuine : f.cause.isGenuine = true
  placed : ∃ t ∈ ts, t.pos = f.pos ∧ (f.cause.isOuter = true ∨ ∃ text, t.kind = .string text)

theorem Fault.Concerns.of_suffix {f : Fault} {ts ts' : List Token} (h : f.Concerns ts')
    (part : ts' <:+ ts) : f.Concerns ts := by
  obtain ⟨t, member, place⟩ := h.placed
  exact ⟨h.genuine, t, part.subset member, place⟩

/-- The last token is an end marker. -/
def IsEnded (ts : List Token) : Prop := ∃ front pos, ts = front ++ [⟨.endMarker, pos⟩]

theorem isEnded_of_tokenize {source : String} {ts : List Token} (h : tokenize source = .ok ts) :
    IsEnded ts := by
  obtain ⟨s, -, finish⟩ := Scan.exists_run_of_tokenize h
  unfold Scan.finish at finish
  split at finish
  · cases finish
  · cases finish
    exact ⟨_, _, rfl⟩

section Ended

variable {ts : List Token}

theorem IsEnded.exists_cons (h : IsEnded ts) : ∃ t rest, ts = t :: rest ∧ headKind ts = t.kind := by
  obtain ⟨front, pos, rfl⟩ := h
  cases front with
  | nil => exact ⟨_, [], rfl, rfl⟩
  | cons t front => exact ⟨t, _, rfl, rfl⟩

/-- Behind a token that is no end marker there is one. -/
theorem IsEnded.tail (h : IsEnded ts) (other : headKind ts ≠ .endMarker) :
    IsEnded ts.tail ∧ ts.tail.length < ts.length := by
  obtain ⟨front, pos, rfl⟩ := h
  cases front with
  | nil => exact absurd rfl other
  | cons t front => exact ⟨⟨front, pos, rfl⟩, Nat.lt_succ_self _⟩

theorem IsEnded.concerns (h : IsEnded ts) {cause : Cause} (outer : cause.isOuter = true) :
    Fault.Concerns ⟨cause, headPos ts⟩ ts := by
  obtain ⟨t, rest, rfl, -⟩ := h.exists_cons
  exact ⟨Cause.isGenuine_of_isOuter outer, t, List.mem_cons_self, rfl, .inl outer⟩

theorem weight_le_of_suffix {ts' : List Token} (part : ts' <:+ ts) : weight ts' ≤ weight ts := by
  obtain ⟨front, rfl⟩ := part
  induction front with
  | nil => exact Nat.le_refl _
  | cons t front ih => exact Nat.le_trans ih (Nat.le_add_left _ _)

end Ended

namespace Parser

variable {α β γ : Type} {w w' w'' : Nat} {D : α → Prop} {E : β → Prop}

/-- What a parser comes to: it leaves some last ones of the tokens, which weigh less than `w`, and has
taken a token if `D` holds of its value; or it finds fault with one of the tokens. -/
inductive Comes (w : Nat) (D : α → Prop) (ts : List Token) : Except Fault (α × List Token) → Prop
  | ok {a : α} {ts' : List Token} (part : ts' <:+ ts) (ended : IsEnded ts') (light : weight ts' < w)
    (taken : D a → ts'.length < ts.length) : Comes w D ts (.ok (a, ts'))
  | error {f : Fault} (concerns : f.Concerns ts) : Comes w D ts (.error f)

/-- The parser halts on tokens that weigh less than `w`, and leaves such that weigh less than `w'`. -/
def Halts (w w' : Nat) (D : α → Prop) (p : Parser α) : Prop :=
  ∀ ts, IsEnded ts → weight ts < w → Comes w' D ts (p ts)

/-- It does so where a token of kind `k` comes first. -/
def HaltsAt (k : TokenKind) (w w' : Nat) (D : α → Prop) (p : Parser α) : Prop :=
  ∀ ts, headKind ts = k → IsEnded ts → weight ts < w → Comes w' D ts (p ts)

/-- It does so where the first two tokens are of these kinds. -/
def HaltsAtBoth (k k' : TokenKind) (w w' : Nat) (D : α → Prop) (p : Parser α) : Prop :=
  ∀ ts, headKind ts = k → headKind ts.tail = k' → IsEnded ts → weight ts < w → Comes w' D ts (p ts)

/-- The parser halts, and may take no token. -/
abbrev Ends (w w' : Nat) (p : Parser α) : Prop := Halts w w' (fun _ => False) p

/-- The parser halts, and takes a token if it succeeds. -/
abbrev Advances (w w' : Nat) (p : Parser α) : Prop := Halts w w' (fun _ => True) p

/-- The parser halts, and takes a token for each item that it gives. -/
abbrev Rounds (w w' : Nat) (p : Parser (Option α)) : Prop := Halts w w' (fun o => o.isSome = true) p

section Outcomes

variable {ts : List Token} {x : Except Fault (α × List Token)}

theorem Comes.mono {D' : α → Prop} (h : Comes w D ts x) (le : w ≤ w') (weaker : ∀ a, D' a → D a) :
    Comes w' D' ts x := by
  cases h with
  | ok part ended light taken =>
    exact .ok part ended (Nat.lt_of_lt_of_le light le) fun d => taken (weaker _ d)
  | error concerns => exact .error concerns

/-- What comes next may rely on it that a token was taken. -/
theorem Comes.bind {f : α → Parser β} (h : Comes w' D ts x)
    (hf : ∀ a, Halts w' w'' (fun b => E b ∧ ¬D a) (f a)) : Comes w'' E ts (x >>= fun y => f y.1 y.2) := by
  cases h with
  | error concerns => exact .error concerns
  | @ok a ts' part ended light taken =>
    show Comes w'' E ts (f a ts')
    have next := hf a ts' ended light
    generalize f a ts' = y at next
    cases next with
    | error concerns => exact .error (concerns.of_suffix part)
    | ok part' ended' light' taken' =>
      refine .ok (part'.trans part) ended' light' fun e => ?_
      by_cases d : D a
      · exact Nat.lt_of_le_of_lt part'.length_le (taken d)
      · exact Nat.lt_of_lt_of_le (taken' ⟨e, d⟩) part.length_le

end Outcomes

section Runs

variable {p : Parser α} {f : α → Parser β}

theorem Halts.haltsAt {k : TokenKind} (h : Halts w w' D p) : HaltsAt k w w' D p := fun ts _ => h ts

theorem HaltsAt.both {k k' : TokenKind} (h : HaltsAt k w w' D p) : HaltsAtBoth k k' w w' D p :=
  fun ts here _ => h ts here

theorem Halts.mono {v v' : Nat} (h : Halts w w' D p) (before : v ≤ w) (after : w' ≤ v') : Halts v v' D p :=
  fun ts ended light => (h ts ended (Nat.lt_of_lt_of_le light before)).mono after fun _ d => d

theorem Halts.weaken {D' : α → Prop} (h : Halts w w' D p) (weaker : ∀ a, D' a → D a) : Halts w w' D' p :=
  fun ts ended light => (h ts ended light).mono (Nat.le_refl _) weaker

theorem Halts.ends (h : Halts w w' D p) : Ends w w' p := h.weaken fun _ => False.elim

/-- What is left weighs no more than what was there. -/
theorem Halts.lower {v : Nat} (h : Halts w w' D p) (le : v ≤ w) : Halts v v D p := by
  intro ts ended light
  have run := h ts ended (Nat.lt_of_lt_of_le light le)
  generalize p ts = x at run
  cases run with
  | ok part ended' _ taken =>
    exact .ok part ended' (Nat.lt_of_le_of_lt (weight_le_of_suffix part) light) taken
  | error concerns => exact .error concerns

/-- The first parser takes no token, or it is not known to. -/
theorem Halts.bind (hp : Ends w w' p) (hf : ∀ a, Halts w' w'' E (f a)) : Halts w w'' E (p >>= f) :=
  fun ts ended light => (hp ts ended light).bind fun a => (hf a).weaken fun _ h => h.1

/-- The first parser takes a token, so that the others need not. -/
theorem Halts.next (hp : Advances w w' p) (hf : ∀ a, Ends w' w'' (f a)) : Halts w w'' E (p >>= f) :=
  fun ts ended light => (hp ts ended light).bind fun a => (hf a).weaken fun _ h => h.2 trivial

/-- The first parser takes a token for an item; without one the others have to. -/
theorem Comes.item {ts : List Token} {x : Except Fault (Option α × List Token)} {f : Option α → Parser β}
    (h : Comes w' (fun o => o.isSome = true) ts x) (some : ∀ a, Ends w' w'' (f (some a)))
    (none : Halts w' w'' E (f none)) : Comes w'' E ts (x >>= fun y => f y.1 y.2) := by
  refine h.bind fun o => ?_
  cases o with
  | none => exact none.weaken fun _ h => h.1
  | some a => exact (some a).weaken fun _ h => h.2 rfl

theorem Halts.item {p : Parser (Option α)} {f : Option α → Parser β} (hp : Rounds w w' p)
    (some : ∀ a, Ends w' w'' (f (some a))) (none : Halts w' w'' E (f none)) : Halts w w'' E (p >>= f) :=
  fun ts ended light => (hp ts ended light).item some none

theorem HaltsAt.next {k : TokenKind} (hp : HaltsAt k w w' (fun _ => True) p)
    (hf : ∀ a, Ends w' w'' (f a)) : HaltsAt k w w'' E (p >>= f) :=
  fun ts here ended light => (hp ts here ended light).bind fun a => (hf a).weaken fun _ h => h.2 trivial

theorem HaltsAt.item {k : TokenKind} {p : Parser (Option α)} {f : Option α → Parser β}
    (hp : HaltsAt k w w' (fun o => o.isSome = true) p) (some : ∀ a, Ends w' w'' (f (some a)))
    (none : Halts w' w'' E (f none)) : HaltsAt k w w'' E (p >>= f) :=
  fun ts here ended light => (hp ts here ended light).item some none

/-- Nothing weighs less than nothing. -/
theorem halts_zero : Halts 0 w' D p := fun _ _ light => absurd light (Nat.not_lt_zero _)

theorem halts_pure {a : α} (idle : ¬D a) : Halts w w D (pure a) :=
  fun ts ended light => .ok (List.suffix_refl ts) ended light fun d => absurd d idle

theorem ends_pure (a : α) : Ends w w (pure a) := halts_pure id

/-- What is left is lighter than it may be. -/
theorem ends_return (a : α) : Ends w (w + 1) (pure a) :=
  (ends_pure a).mono (Nat.le_refl w) (Nat.le_succ w)

theorem rounds_none : Rounds w w (pure none : Parser (Option α)) := halts_pure Bool.false_ne_true

theorem halts_fail {cause : Cause} (outer : cause.isOuter = true) : Halts w w' D (fail cause) :=
  fun _ ended _ => .error (ended.concerns outer)

theorem Comes.map {ts : List Token} {x : Except Fault (α × List Token)} {f : α → β} (h : Comes w D ts x)
    (idle : ∀ a, E (f a) → D a) : Comes w E ts (x >>= fun y => .ok (f y.1, y.2)) := by
  cases h with
  | ok part ended light taken => exact .ok part ended light fun e => taken (idle _ e)
  | error concerns => exact .error concerns

theorem Halts.map {f : α → β} (h : Halts w w' D p) (idle : ∀ a, E (f a) → D a) : Halts w w' E (f <$> p) :=
  fun ts ended light => (h ts ended light).map idle

theorem Ends.map {f : α → β} (h : Ends w w' p) : Ends w w' (f <$> p) := Halts.map h fun _ => id

theorem HaltsAt.map {k : TokenKind} {f : α → β} (h : HaltsAt k w w' (fun _ => True) p) :
    HaltsAt k w w' E (f <$> p) :=
  fun ts here ended light => (h ts here ended light).map fun _ _ => trivial

theorem Advances.map {f : α → β} (h : Advances w w' p) : Halts w w' E (f <$> p) :=
  Halts.map h fun _ _ => trivial

end Runs

/-! Looking at tokens and taking them. -/

theorem ends_peek : Ends w w peek := fun ts ended light => .ok (List.suffix_refl ts) ended light False.elim

theorem ends_peekSecond : Ends w w peekSecond := fun ts ended light =>
  .ok (List.suffix_refl ts) ended light False.elim

theorem ends_at (k : TokenKind) : Ends w w (at? k) := fun ts ended light =>
  .ok (List.suffix_refl ts) ended light False.elim

theorem halts_of_peek {f : TokenKind → Parser α} (h : ∀ k, HaltsAt k w w' D (f k)) :
    Halts w w' D (peek >>= f) := fun ts ended light => h (headKind ts) ts rfl ended light

theorem haltsAt_of_peekSecond {k : TokenKind} {f : TokenKind → Parser α}
    (h : ∀ k', HaltsAtBoth k k' w w' D (f k')) : HaltsAt k w w' D (peekSecond >>= f) :=
  fun ts here ended light => h (headKind ts.tail) ts here rfl ended light

section Taking

variable {k : TokenKind} {p : Parser α} {f : Bool → Parser α} {A B : Parser α}

/-- The last tokens behind one that was taken. -/
theorem Comes.of_tail {ts : List Token} {x : Except Fault (α × List Token)}
    (shorter : ts.tail.length < ts.length)
    (h : Comes w (fun _ => False) ts.tail x) : Comes w D ts x := by
  cases h with
  | ok part ended light _ =>
    exact .ok (part.trans (List.tail_suffix ts)) ended light fun _ => Nat.lt_of_le_of_lt part.length_le shorter
  | error concerns => exact .error (concerns.of_suffix (List.tail_suffix ts))

/-- A token that is no end marker is taken. -/
theorem haltsAt_advance (other : k ≠ .endMarker) (h : Ends w w' p) : HaltsAt k w w' D (do advance; p) := by
  intro ts here ended light
  obtain ⟨later, shorter⟩ := ended.tail (here ▸ other)
  exact (h ts.tail later (Nat.lt_of_le_of_lt (weight_tail_le ts) light)).of_tail shorter

theorem ne_endMarker_of_beq {word : String} (h : (k == .name word) = true) : k ≠ .endMarker :=
  fun last => TokenKind.noConfusion ((eq_of_beq h).symm.trans last)

theorem ne_endMarker_of_heavy (heavy : 0 < k.weight) : k ≠ .endMarker := by
  rintro rfl
  exact Nat.lt_irrefl 0 heavy

/-- Two of them are taken. -/
theorem haltsAtBoth_advance {k' : TokenKind} (other : k ≠ .endMarker)
    (h : HaltsAt k' w w' (fun _ => False) p) : HaltsAtBoth k k' w w' D (do advance; p) := by
  intro ts here second ended light
  obtain ⟨later, shorter⟩ := ended.tail (here ▸ other)
  exact (h ts.tail second later (Nat.lt_of_le_of_lt (weight_tail_le ts) light)).of_tail shorter

/-- One with a text makes what is left lighter. -/
theorem haltsAt_take (heavy : 0 < k.weight) (h : Ends w w' p) : HaltsAt k (w + 1) w' D (do advance; p) := by
  intro ts here ended light
  obtain ⟨later, shorter⟩ := ended.tail (here ▸ ne_endMarker_of_heavy heavy)
  have lighter := weight_tail_lt here heavy
  exact (h ts.tail later (Nat.lt_of_lt_of_le lighter (Nat.le_of_lt_succ light))).of_tail shorter

/-- What follows a look at whether the token is there. -/
theorem halts_eat (taken : HaltsAt k w w' D (do advance; f true)) (left : Halts w w' D (f false)) :
    Halts w w' D (eat? k >>= f) := by
  intro ts ended light
  show Comes w' D ts (eat? k ts >>= fun x => f x.1 x.2)
  unfold eat?
  cases here : headKind ts == k with
  | true => exact taken ts (eq_of_beq here) ended light
  | false => exact left ts ended light

theorem halts_ite {c : Prop} [Decidable c] (hA : Halts w w' D A) (hB : Halts w w' D B) :
    Halts w w' D (if c then A else B) := by
  split
  · exact hA
  · exact hB

theorem ends_eat (other : k ≠ .endMarker) : Ends w w (eat? k) := by
  intro ts ended light
  unfold eat?
  split
  · rename_i here
    exact haltsAt_advance other (ends_pure true) ts (eq_of_beq here) ended light
  · exact ends_pure false ts ended light

theorem halts_of_eat (other : k ≠ .endMarker) (hA : Ends w w' A) (hB : Halts w w' D B) :
    Halts w w' D (do if ← eat? k then A else B) :=
  halts_eat (haltsAt_advance other hA) hB

/-- The same where the token, which has a text, makes what is left lighter. -/
theorem halts_of_taken (heavy : 0 < k.weight) (hA : Ends w w' A) (hB : Halts (w + 1) w' D B) :
    Halts (w + 1) w' D (do if ← eat? k then A else B) :=
  halts_eat (haltsAt_take heavy hA) hB

theorem halts_of_at (hA : HaltsAt k w w' D A) (hB : Halts w w' D B) :
    Halts w w' D (do if ← at? k then A else B) := by
  intro ts ended light
  show Comes w' D ts ((if (headKind ts == k) = true then A else B) ts)
  split
  · rename_i here
    exact hA ts (eq_of_beq here) ended light
  · exact hB ts ended light

end Taking

theorem halts_expect {k : TokenKind} {cause : Cause} (other : k ≠ .endMarker) (outer : cause.isOuter = true) :
    Advances w w (do if !(← eat? k) then fail cause) :=
  halts_eat (haltsAt_advance other (ends_pure ())) (halts_fail outer)

theorem advances_expectOp (symbol : String) : Advances w w (expectOp symbol) := halts_expect nofun rfl

theorem advances_expectWord (word : String) : Advances w w (expectWord word) := halts_expect nofun rfl

theorem advances_expectNewline : Advances w w expectNewline := halts_expect nofun rfl

theorem advances_takeOp {symbol : String} (heavy : 0 < symbol.length) : Advances (w + 1) w (expectOp symbol) :=
  halts_eat (haltsAt_take (k := .op symbol) heavy (ends_pure ())) (halts_fail rfl)

theorem advances_takeWord {word : String} (heavy : 0 < word.length) : Advances (w + 1) w (expectWord word) :=
  halts_eat (haltsAt_take (k := .name word) heavy (ends_pure ())) (halts_fail rfl)

theorem ends_of_optionally {k : TokenKind} {p : Parser α} {f : Option α → Parser β} (other : k ≠ .endMarker)
    (h : Ends w w p) (hf : ∀ o, Ends w w' (f o)) :
    Ends w w' (do
      let o ← optionally (← eat? k) p
      f o) :=
  (ends_eat other).bind fun _ => Halts.bind (halts_ite h.map (ends_pure none)) hf

theorem advances_expectName : Advances w w expectName := by
  refine halts_of_peek fun k => ?_
  split
  · split
    · exact (halts_fail rfl).haltsAt
    · exact haltsAt_advance nofun (ends_pure _)
  · exact (halts_fail rfl).haltsAt

/-- A name that another token follows. -/
theorem haltsAtBoth_named {word : String} {k : TokenKind} {f : String → Parser α} (other : k ≠ .endMarker)
    (h : ∀ name, Ends w w' (f name)) :
    HaltsAtBoth (.name word) k w w' D (do
      let name ← expectName
      advance
      f name) := by
  intro ts here second ended light
  show Comes w' D ts (expectName ts >>= _)
  rw [expectName_apply here]
  split
  · exact .error (ended.concerns rfl)
  · exact haltsAtBoth_advance (k := .name word) nofun (haltsAt_advance other (h word)) ts here second ended light

theorem ends_optionally {p : Parser α} (condition : Bool) (h : Ends w w p) :
    Ends w w (optionally condition p) :=
  halts_ite h.map (ends_pure none)

theorem rounds_optionally {p : Parser α} (condition : Bool) (h : Advances w w p) :
    Rounds w w (optionally condition p) :=
  halts_ite h.map rounds_none

/-- An item behind a mark. -/
def marked (k : TokenKind) (p : Parser α) : Parser (Option α) := do optionally (← eat? k) p

theorem rounds_marked {k : TokenKind} {p : Parser α} (other : k ≠ .endMarker) (h : Ends w w p) :
    Rounds w w (marked k p) :=
  halts_eat (haltsAt_advance other h.map) rounds_none

/-! Loops. Every round takes a token, so that the rounds do not run out. -/

section Loops

variable {next : List α → Parser (Option α)}

theorem comes_collectFor (h : ∀ before, Rounds w w (next before)) :
    ∀ rounds before ts, IsEnded ts → weight ts < w → ts.length < rounds →
      Comes w (fun _ => False) ts (collectFor next rounds before ts) := by
  intro rounds
  induction rounds with
  | zero => exact fun _ _ _ _ enough => absurd enough (Nat.not_lt_zero _)
  | succ rounds ih =>
    intro before ts ended light enough
    have run := h before ts ended light
    rw [collectFor]
    show Comes w (fun _ => False) ts (next before ts >>= _)
    generalize next before ts = x at run
    cases run with
    | error concerns => exact .error concerns
    | @ok o ts' part ended' light' taken =>
      cases o with
      | none => exact .ok part ended' light' False.elim
      | some a =>
        have later := ih (a :: before) ts' ended' light'
          (Nat.lt_of_lt_of_le (taken rfl) (Nat.le_of_lt_succ enough))
        show Comes w _ ts (collectFor next rounds (a :: before) ts')
        generalize collectFor next rounds (a :: before) ts' = y at later
        cases later with
        | error concerns => exact .error (concerns.of_suffix part)
        | ok part' ended'' light'' _ => exact .ok (part'.trans part) ended'' light'' False.elim

theorem ends_collect (h : ∀ before, Rounds w w (next before)) : Ends w w (collect next) := by
  refine (h []).ends.bind fun o => ?_
  cases o with
  | none => exact ends_pure []
  | some a =>
    exact fun ts ended light => comes_collectFor h _ [a] ts ended light (Nat.lt_succ_self _)

theorem ends_many {next : Parser (Option α)} (h : Rounds w w next) : Ends w w (many next) :=
  ends_collect fun _ => h

/-- An item behind a comma, unless `stop` says that the list ends with it. -/
def afterComma (stop : Parser Bool) (p : Parser α) : Parser (Option α) := do
  if !(← eatOp ",") then return none
  else if ← stop then return none
  else some <$> p

theorem rounds_afterComma {stop : Parser Bool} {p : Parser α} (hs : Ends w w stop) (h : Ends w w p) :
    Rounds w w (afterComma stop p) :=
  halts_eat (haltsAt_advance nofun (hs.bind fun _ => halts_ite (ends_pure none) h.map)) rounds_none

theorem ends_afterCommas {stop : Parser Bool} {p : Parser α} (hs : Ends w w stop) (h : Ends w w p) :
    Ends w w (afterCommas stop p) :=
  ends_many (rounds_afterComma hs h)

theorem ends_commaList {closing : String} {p : Parser α} (h : Ends w w p) : Ends w w (commaList closing p) :=
  halts_of_at (ends_pure []).haltsAt
    (h.bind fun _ => (ends_afterCommas (ends_at _) h).bind fun _ => ends_pure _)

/-- Items between commas. -/
theorem ends_commas {stop : Parser Bool} {p : Parser α} {f : List α → Parser β} (hs : Ends w w stop)
    (h : Ends w w p) (hf : ∀ as, Ends w w' (f as)) :
    Ends w w' (do
      let first ← p
      let rest ← afterCommas stop p
      f (first :: rest)) :=
  h.bind fun _ => (ends_afterCommas hs h).bind fun _ => hf _

end Loops

theorem ends_atExpr : Ends w w atExpr := ends_peek.bind fun _ => ends_pure _

theorem ends_atGenerator : Ends w w atGenerator := by
  refine halts_of_at (ends_pure true).haltsAt (halts_of_at ?_ (ends_pure false))
  exact (ends_peekSecond.bind fun _ => ends_pure _).haltsAt

theorem ends_target (ctx : Context) (e : Expr) : Ends w w (target ctx e) := by
  unfold target
  split
  · exact ends_pure _
  · exact halts_fail rfl

theorem ends_targets (ctx : Context) (es : List Expr) : Ends w w (targets ctx es) := by
  unfold targets
  split
  · exact ends_pure _
  · exact halts_fail rfl

section Expressions

variable {operand item : Parser Expr} {F : Expr → Prop}

theorem halts_starOr (ho : Ends w w operand) (hi : Advances w w item) : Halts w w F (starOr operand item) :=
  halts_of_eat nofun (ho.bind fun _ => ends_pure _) (hi.weaken fun _ _ => trivial)

theorem halts_itemOrTuple (h : Advances w w item) : Halts w w F (itemOrTuple item) := by
  refine h.next fun first => halts_of_at (Halts.haltsAt ?_) (ends_pure first)
  exact (ends_afterCommas ends_atExpr.map h.ends).bind fun _ => ends_pure _

end Expressions

end Parser

end Arbiter.Syntax
