import Arbiter.Proofs.Parsing.Regular
import Arbiter.Proofs.Parsing.Rendering
import Arbiter.Proofs.Parsing.Sound

/-! Soundness of the grammar of patterns. Main statement: what a rule of patterns reads is well formed
if the rules inside of it give well-formed patterns and expressions. -/

namespace Arbiter.Syntax

open TokenKind (op name)
open Syntax.Parser

namespace Parser

variable {α β : Type} {P : List Token → Prop} {Q : α → Prop}

theorem yieldsIf_of_peek {f : TokenKind → Parser α} {k : TokenKind}
    (h : k.IsSpelled → YieldsIf (headKind · = k) (f k) Q) :
    YieldsIf (headKind · = k) (peek >>= f) Q := by
  intro ts here spelled a ts' run
  have run : f (headKind ts) ts = .ok (a, ts') := run
  rw [here] at run
  exact h (here ▸ isSpelled_headKind spelled) ts here spelled a ts' run

theorem yieldsIf_of_not_eat {k : TokenKind} {A B : Parser α} (other : ∀ ts, P ts → headKind ts ≠ k)
    (h : YieldsIf P B Q) : YieldsIf P (do if ← eat? k then A else B) Q := by
  intro ts holds spelled a ts' run
  have first : (headKind ts == k) = false := beq_false_of_ne (other ts holds)
  have run : (eat? k ts >>= fun x => (if x.1 = true then A else B) x.2) = .ok (a, ts') := run
  rw [eat?, first] at run
  exact h ts holds spelled a ts' run

end Parser

/-! Values, which begin with a number, a string or a minus. -/

/-- The expression is put together as the grammar has it, begins as a value does and binds at least as
tightly as `least`. -/
structure Expr.Leads (least : Nat) (e : Expr) : Prop where
  formed : e.Formed
  led : e.isLed = true
  tight : least ≤ e.strength

theorem Expr.Leads.mono {s t : Nat} {e : Expr} (h : e.Leads s) (le : t ≤ s) : e.Leads t :=
  ⟨h.formed, h.led, Nat.le_trans le h.tight⟩

namespace Grammar

variable {g : Grammar} (sound : g.Sound)
include sound

theorem leads_primary {k : TokenKind} (h : YieldsIf (headKind · = k) g.atom (Expr.Leads Strength.atom)) :
    YieldsIf (headKind · = k) g.primary (Expr.Leads Strength.atom) := by
  refine h.bind fun operand ho => ?_
  refine (yields_many (yields_trailer sound)).bind fun trailers ht => yields_pure ?_
  induction trailers generalizing operand with
  | nil => exact ho
  | cons t trailers ih =>
    have led : (t.apply operand).isLed = true := by
      cases t <;> simpa [Trailer.apply, Expr.isLed, ho.led] using ho.tight
    have tight : Strength.atom ≤ (t.apply operand).strength := by cases t <;> exact Nat.le_refl _
    exact ih (t.apply operand) ⟨ht t List.mem_cons_self operand ho.formed, led, tight⟩
      fun u hu => ht u (.tail t hu)

theorem leads_factor_number (text : String) :
    YieldsIf (headKind · = .number text) g.factorRule (Expr.Leads Strength.factor) := by
  have atom : YieldsIf (headKind · = .number text) g.atom (Expr.Leads Strength.atom) := by
    refine yieldsIf_of_peek fun spelled => Inputs.Yields.yieldsIf (yields_advance.bind fun _ _ => ?_)
    refine yields_pure ⟨.number spelled, ?_, Nat.le_refl _⟩
    rcases Rendered.numberConstant_cases text with same | same | same <;> rw [same] <;> rfl
  have power : YieldsIf (headKind · = .number text) g.power (Expr.Leads Strength.power) := by
    rw [power_eq]
    have base : YieldsIf (headKind · = .number text) g.base (Expr.Leads Strength.atom) :=
      yieldsIf_of_not_eat (by rintro ts here; rw [here]; simp) (leads_primary sound atom)
    refine base.bind fun b hb => yields_of_eat ?_ (yields_pure (hb.mono (by decide)))
    refine sound.factor.bind fun e he => yields_pure ⟨.binary hb.formed he, ?_, Nat.le_refl _⟩
    simpa [Expr.isLed, hb.led] using Nat.le_trans (by decide) hb.tight
  exact yieldsIf_of_peek fun _ ts here spelled a ts' run =>
    (power ts here spelled a ts' run).imp_right fun h => h.mono (by decide)

theorem leads_factor_minus : YieldsIf (headKind · = op "-") g.factorRule (Expr.Leads Strength.factor) :=
  yieldsIf_of_peek fun _ => Inputs.Yields.yieldsIf (yields_advance.bind fun _ _ => sound.factor.bind fun _ he =>
    yields_pure ⟨.unary he, rfl, Nat.le_refl _⟩)

omit sound in
theorem leads_of_stringExpr {read : String → Except Cause Expr} {pieces : List StringPiece} {e : Expr}
    (formed : e.Formed) (h : stringExpr read pieces = .ok e) : e.Leads Strength.atom := by
  unfold stringExpr at h
  split at h
  · cases parts : pieces.mapM (StringPiece.parts read) <;> rw [parts] at h <;> cases h
    exact ⟨formed, rfl, Nat.le_refl _⟩
  · split at h <;> cases h
    · exact ⟨formed, rfl, Nat.le_refl _⟩
    · exact ⟨formed, rfl, Nat.le_refl _⟩

theorem leads_strings (text : String) :
    YieldsIf (headKind · = .string text) (strings g.read) (Expr.Leads Strength.atom) := by
  intro ts here spelled e ts' run
  obtain ⟨suffix, formed⟩ := yields_strings sound.formed_of_read text ts here spelled e ts' run
  refine ⟨suffix, ?_⟩
  have run : (stringPieces ts >>= fun x => stringExpr g.read x.1 >>= fun e => .ok (e, x.2)) =
      .ok (e, ts') := run
  cases taken : stringPieces ts with
  | error fault =>
    rw [taken] at run
    cases run
  | ok x =>
    rw [taken] at run
    cases found : stringExpr g.read x.1 with
    | error fault =>
      have run : (stringExpr g.read x.1 >>= fun e => .ok (e, x.2)) = .ok (e, ts') := run
      rw [found] at run
      cases run
    | ok e' =>
      have run : (stringExpr g.read x.1 >>= fun e => .ok (e, x.2)) = .ok (e, ts') := run
      rw [found] at run
      cases run
      exact leads_of_stringExpr formed found

theorem leads_chain {k : TokenKind} {s : Nat} {ops : List BinaryOp} {tighter : List (List BinaryOp)}
    (strength : ∀ o ∈ ops, o.strength = s ∧ o.leftStrength = s)
    (h : YieldsIf (headKind · = k) (binaryChain g.factorRule tighter) (Expr.Leads (s + 1))) :
    YieldsIf (headKind · = k) (binaryChain g.factorRule (ops :: tighter)) (Expr.Leads s) := by
  have next : Yields (chainNext g.factorRule ops tighter) fun o => ∀ x ∈ o, x.1 ∈ ops ∧ x.2.Formed := by
    refine (yields_eatBinary ops).bind fun o ho => ?_
    cases o with
    | none => exact yields_pure (by simp)
    | some o =>
      refine (yields_binaryChain sound tighter).bind fun e he => yields_pure ?_
      simpa using ⟨ho o rfl, he⟩
  refine h.bind fun first hf => (yields_many next).bind fun rest hr => yields_pure ?_
  replace hf := hf.mono (Nat.le_succ s)
  induction rest generalizing first with
  | nil => exact hf
  | cons x rest more =>
    obtain ⟨member, formed⟩ := hr x List.mem_cons_self
    obtain ⟨strength, left⟩ := strength x.1 member
    have led : (Expr.binary first x.1 x.2).isLed = true := by
      simpa [Expr.isLed, hf.led, left] using hf.tight
    exact more _ (fun y hy => hr y (.tail x hy)) ⟨.binary hf.formed formed, led, strength.ge⟩

theorem leads_arithmetic {k : TokenKind}
    (h : YieldsIf (headKind · = k) g.factorRule (Expr.Leads Strength.factor)) :
    YieldsIf (headKind · = k) g.arithmetic (Expr.Leads Strength.sum) :=
  leads_chain sound (by decide) (leads_chain sound (by decide) h)

end Grammar

theorem binds {id : String} (h : IsIdentifier id) : Leeway.source.Binds id := ⟨h, trivial⟩

/-- A well-formed pattern that may stand outside of a sequence. -/
structure Pattern.FormedAlone (p : Pattern) : Prop where
  formed : p.Formed .source
  alone : p.isStar = false

namespace Grammar

/-- The parsers of patterns inside of others give well-formed ones that may stand alone. -/
structure SoundPatterns (g : Grammar) : Prop extends g.Sound where
  pattern : Yields g.pattern Pattern.FormedAlone
  closedPattern : Yields g.closedPattern Pattern.FormedAlone

theorem yields_sequenceItem {item : Parser Pattern} (h : Yields item Pattern.FormedAlone) :
    Yields (sequenceItem item) (Pattern.Formed .source) := by
  refine yields_of_eat (yields_expectName.bind fun id hi => yields_pure (.star ?_)) (h.mono fun _ hp => hp.formed)
  split
  · simp
  · rintro _ ⟨⟩
    exact binds hi

theorem formed_dotted {id : String} (h : IsIdentifier id) {attrs : List String}
    (names : ∀ attr ∈ attrs, IsIdentifier attr) : (dotted id attrs).Formed := by
  induction attrs using List.reverseRecOn with
  | nil => exact .name h trivial
  | append_singleton attrs attr ih =>
    rw [dotted, List.foldl_append]
    exact .member (ih fun a ha => names a (List.mem_append_left _ ha)) (.inl rfl) (names attr (by simp))

variable {g : Grammar} (sound : g.SoundPatterns)
include sound

theorem yields_bracketed (closing : String) :
    Yields (g.bracketed closing) fun ps => ∀ p ∈ ps, p.Formed .source :=
  (yields_commaList _ (yields_sequenceItem sound.pattern)).bind fun _ h =>
    (yields_expectOp _).bind fun _ _ => yields_pure h

omit sound in
theorem formedAlone_sequence {patterns : List Pattern} (h : ∀ p ∈ patterns, p.Formed .source) :
    (Pattern.sequence patterns).FormedAlone := ⟨.sequence h, rfl⟩

theorem yields_groupPattern : Yields g.groupPattern Pattern.FormedAlone := by
  refine (yields_expectOp _).bind fun _ _ => yields_of_eat (yields_pure (formedAlone_sequence (by simp))) ?_
  refine (yields_sequenceItem sound.pattern).bind fun first hf => yields_of_at ?_ ?_
  · refine (yields_afterCommas (yields_at _) (yields_sequenceItem sound.pattern)).bind fun rest hr => ?_
    exact (yields_expectOp _).bind fun _ _ =>
      yields_pure (formedAlone_sequence (List.forall_mem_cons.2 ⟨hf, hr⟩))
  · refine (yields_expectOp _).bind fun _ _ => yields_pure ?_
    split
    · exact formedAlone_sequence (List.forall_mem_singleton.2 hf)
    · rename_i alone
      exact ⟨hf, Bool.eq_false_iff.2 alone⟩

omit sound in
/-- What a class pattern takes is well formed. -/
def ClassItem.Formed : ClassItem → Prop
  | .positional p => p.FormedAlone
  | .keyword k => IsIdentifier k.attr ∧ k.pattern.FormedAlone

theorem yields_classItem (before : List ClassItem) : Yields (g.classItem before) ClassItem.Formed := by
  refine yields_peek.bind fun _ _ => yields_peekSecond.bind fun _ _ => ?_
  split
  · refine yields_expectName.bind fun attr ha => yields_advance.bind fun _ _ => ?_
    exact sound.pattern.bind fun p hp => yields_pure ⟨ha, hp⟩
  · refine yields_ite (yields_fail _) (sound.pattern.bind fun p hp => yields_pure ?_)
    exact hp

omit sound in
theorem yields_separated {α : Type} (before : List α) : Yields (separated before) fun _ => True :=
  yields_ite (yields_pure trivial) (yields_eat _)

theorem yields_classPattern {id : String} {attrs : List String} (head : (dotted id attrs).Formed) :
    Yields (g.classPattern (dotted id attrs)) Pattern.FormedAlone := by
  have none : Yields (pure none : Parser (Option ClassItem)) fun o => ∀ a ∈ o, a.Formed :=
    yields_pure (by simp)
  refine (yields_collect (Q := ClassItem.Formed) fun before => ?_).bind fun found h => yields_pure ?_
  · refine (yields_separated before).bind fun _ _ => yields_ite none (yields_of_at none ?_)
    exact (yields_classItem sound before).map some fun a ha => by simpa using ha
  · have positional : ∀ p ∈ found.filterMap ClassItem.positional?, p.FormedAlone := by
      intro p hp
      obtain ⟨item, hi, same⟩ := List.mem_filterMap.1 hp
      cases item <;> cases same
      exact h _ hi
    have keyword : ∀ k ∈ found.filterMap ClassItem.keyword?, IsIdentifier k.attr ∧ k.pattern.FormedAlone := by
      intro k hk
      obtain ⟨item, hi, same⟩ := List.mem_filterMap.1 hk
      cases item <;> cases same
      exact h _ hi
    refine ⟨.cls head (fun p hp => ?_) (fun k hk => (keyword k hk).1) (fun k hk => ?_) (fun p hp => ?_)
      fun k hk => ?_, rfl⟩
    · exact (positional p hp).formed
    · exact (keyword k hk).2.formed
    · exact (positional p hp).alone
    · exact (keyword k hk).2.alone

theorem yields_namePattern : Yields g.namePattern Pattern.FormedAlone := by
  refine yields_expectName.bind fun id hi => ?_
  have attr : Yields (do optionally (← eatOp ".") expectName) fun o => ∀ a ∈ o, IsIdentifier a :=
    (yields_eat _).bind fun b _ => yields_optionally b yields_expectName
  refine (yields_many attr).bind fun attrs ha => ?_
  have head := formed_dotted hi ha
  refine yields_of_eat ?_ ?_
  · refine (yields_classPattern sound head).bind fun p hp => ?_
    exact (yields_expectOp _).bind fun _ _ => yields_pure hp
  · cases attrs with
    | nil => exact yields_pure ⟨.capture (binds hi), rfl⟩
    | cons attr attrs => exact yields_pure ⟨.dotted head, rfl⟩

theorem yields_mappingKey : Yields g.mappingKey Expr.Formed := by
  refine sound.closedPattern.bind fun p hp => ?_
  cases hp.formed with
  | value h => exact yields_pure h
  | dotted h => exact yields_pure h
  | singleton c => exact yields_pure (.word c)
  | _ => exact yields_fail _

omit sound in
/-- What a mapping pattern takes is well formed. -/
def MappingPart.Formed : MappingPart → Prop
  | .item i => i.key.Formed ∧ i.pattern.FormedAlone
  | .rest id => Leeway.source.Binds id

theorem yields_mappingPart : Yields g.mappingPart MappingPart.Formed := by
  refine yields_of_eat (yields_expectName.bind fun id hi => yields_pure (binds hi)) ?_
  refine (yields_mappingKey sound).bind fun key hk => (yields_expectOp _).bind fun _ _ => ?_
  exact sound.pattern.bind fun p hp => yields_pure ⟨hk, hp⟩

theorem yields_mappingPattern : Yields g.mappingPattern Pattern.FormedAlone := by
  have none : Yields (pure none : Parser (Option MappingPart)) fun o => ∀ a ∈ o, a.Formed :=
    yields_pure (by simp)
  refine (yields_expectOp _).bind fun _ _ => ?_
  refine (yields_collect (Q := MappingPart.Formed) fun before => ?_).bind fun parts h => ?_
  · refine (yields_separated before).bind fun _ _ => yields_ite none (yields_ite none ?_)
    exact yields_of_at none ((yields_mappingPart sound).map some fun a ha => by simpa using ha)
  · have item : ∀ i ∈ parts.filterMap MappingPart.item?, i.key.Formed ∧ i.pattern.FormedAlone := by
      intro i hi
      obtain ⟨part, hp, same⟩ := List.mem_filterMap.1 hi
      cases part <;> cases same
      exact h _ hp
    refine (yields_expectOp _).bind fun _ _ => yields_pure ?_
    refine ⟨.mapping (fun i hi => (item i hi).1) (fun i hi => (item i hi).2.formed) (fun id hid => ?_)
      fun i hi => (item i hi).2.alone, rfl⟩
    obtain ⟨part, hp, same⟩ := List.mem_filterMap.1 (List.mem_of_head? hid)
    cases part <;> cases same
    exact h _ hp

theorem yields_closedPatternRule : Yields g.closedPatternRule Pattern.FormedAlone := by
  have exprs := sound.toSound
  have value : ∀ {e : Expr}, e.Leads Strength.sum → (Pattern.value e).FormedAlone := fun h =>
    ⟨.value h.formed h.led h.tight, rfl⟩
  refine yields_of_peek fun k spelled => ?_
  split
  · exact ((leads_arithmetic exprs (leads_factor_number exprs _)).bind fun _ h => yields_pure (value h))
  · exact ((leads_arithmetic exprs (leads_factor_minus exprs)).bind fun _ h => yields_pure (value h))
  · exact (leads_strings exprs _).bind fun _ h => yields_pure (value (h.mono (by decide)))
  · exact (yields_groupPattern sound).yieldsIf
  · exact (yields_advance.bind fun _ _ => (yields_bracketed sound _).bind fun _ h =>
      yields_pure (formedAlone_sequence h)).yieldsIf
  · exact (yields_mappingPattern sound).yieldsIf
  · exact (yields_advance.bind fun _ _ => yields_pure ⟨.wildcard, rfl⟩).yieldsIf
  · refine Inputs.Yields.yieldsIf ?_
    split
    · exact yields_advance.bind fun _ _ => yields_pure ⟨.singleton _, rfl⟩
    · exact yields_namePattern sound
  · exact (yields_fail _).yieldsIf

theorem yields_patternRule : Yields g.patternRule Pattern.FormedAlone := by
  refine (yields_closedPatternRule sound).bind fun first hf => ?_
  have more : Yields (do optionally (← eatOp "|") g.closedPatternRule) fun o =>
      ∀ p ∈ o, p.FormedAlone :=
    (yields_eat _).bind fun b _ => yields_optionally b (yields_closedPatternRule sound)
  refine (yields_many more).bind fun rest hr => ?_
  have whole : (if rest.isEmpty then first else .or (first :: rest)).FormedAlone := by
    cases rest with
    | nil => exact hf
    | cons second rest =>
      have all : ∀ p ∈ first :: second :: rest, p.FormedAlone := List.forall_mem_cons.2 ⟨hf, hr⟩
      refine ⟨.or hf.formed (hr second List.mem_cons_self).formed (fun p hp => ?_) fun p hp => ?_, rfl⟩
      · exact (hr p (.tail _ hp)).formed
      · exact (all p hp).alone
  refine yields_of_eat (yields_expectName.bind fun id hi => ?_) (yields_pure whole)
  exact yields_ite (yields_fail _) (yields_pure ⟨.bind whole.formed (binds hi) whole.alone, rfl⟩)

theorem yields_casePattern : Yields g.casePattern Pattern.FormedAlone := by
  have item := yields_sequenceItem (yields_patternRule sound)
  refine item.bind fun first hf => yields_of_at ?_ ?_
  rotate_left
  · exact yields_unless fun alone => yields_pure ⟨hf, Bool.eq_false_iff.2 alone⟩
  have stop : Yields (do return (← atOp ":") || (← atWord "if")) fun _ => True :=
    (yields_at _).bind fun _ _ => (yields_at _).bind fun _ _ => yields_pure trivial
  refine (yields_afterCommas stop item).bind fun rest hr => yields_pure ?_
  exact formedAlone_sequence (List.forall_mem_cons.2 ⟨hf, hr⟩)

end Grammar

end Arbiter.Syntax
