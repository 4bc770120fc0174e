import Arbiter.Proofs.Parsing.Regular
import Arbiter.Proofs.Parsing.Signs

/-! The text of an expression is read as its tokens. Main statement: this holds of every regular
expression, as long as nothing follows its text that would make its last token longer. -/

namespace Arbiter.Syntax

open TokenKind (op name)

/-! The text of an expression and of its parts. -/

namespace Reader

/-- An expression of this strength may stand here. Those that bind looser than an alternative have colons
outside of brackets. -/
def Admits (R : Reader) (σ : R.State) (s : Nat) : Prop := R.Free σ ∨ Strength.or ≤ s

variable {R : Reader} {σ : R.State} {s t : Nat}

theorem Admits.mono (h : R.Admits σ s) (le : s ≤ t) : R.Admits σ t :=
  h.imp_right fun tight => Nat.le_trans tight le

theorem Admits.free (h : R.Admits σ s) (loose : s < Strength.or) : R.Free σ :=
  h.resolve_right (Nat.not_le_of_lt loose)

end Reader

/-- An expression whose text is read as its tokens. -/
structure Rendered (R : Reader) (e : Expr) : Prop where
  front : Front e.text
  reads : ∀ {σ rest}, R.Admits σ e.strength → e.Ends rest → R.Reads σ e.text e.kinds σ rest

/-- The text of an index, which a tuple writes without its brackets. -/
def indexText : Expr → String
  | .tuple elts _ => if elts.isEmpty then "()" else tupleText (textsWithin Strength.test elts)
  | index => index.within Strength.test index.text

def indexKinds : Expr → List TokenKind
  | .tuple elts _ =>
    if elts.isEmpty then [op "(", op ")"] else tupleKinds (kindsOfItems Strength.test elts)
  | index => index.kindsWithin Strength.test index.kinds

def DictItem.text : DictItem → String
  | .entry key value =>
    key.within Strength.test key.text ++ ": " ++ value.within Strength.test value.text
  | .spread value => "**" ++ value.within Strength.bitOr value.text

theorem dictTexts_eq (items : List DictItem) : dictTexts items = items.map DictItem.text := by
  induction items with
  | nil => rfl
  | cons item items ih => cases item <;> rw [dictTexts, ih] <;> rfl

def Keyword.text : Keyword → String
  | ⟨some arg, value⟩ => arg ++ "=" ++ value.within Strength.test value.text
  | ⟨none, value⟩ => "**" ++ value.within Strength.bitOr value.text

theorem keywordTexts_eq (keywords : List Keyword) :
    keywordTexts keywords = keywords.map Keyword.text := by
  induction keywords with
  | nil => rfl
  | cons k keywords ih =>
    obtain ⟨arg, value⟩ := k
    cases arg <;> rw [keywordTexts, ih] <;> rfl

def Param.text : Param → String
  | .plain arg default =>
    argumentText arg ++ optionText (if arg.annotation.isSome then " = " else "=") default
  | .posOnlyMarker => "/"
  | .varArgs none => "*"
  | .varArgs (some arg) => "*" ++ argumentText arg
  | .kwArgs arg => "**" ++ argumentText arg

theorem paramTexts_eq (params : List Param) : paramTexts params = params.map Param.text := by
  induction params with
  | nil => rfl
  | cons p params ih =>
    match p with
    | .plain arg default | .posOnlyMarker | .varArgs none | .varArgs (some arg) | .kwArgs arg =>
      rw [paramTexts, ih]
      rfl

/-- The text of a part is read as its tokens. -/
def Part.IsRendered (R : Reader) : Part → Prop
  | .expr e => Rendered R e
  | .item e | .entry e => ∀ {σ rest}, R.Free σ → Ended rest →
    R.Reads σ (e.within Strength.test e.text) (e.kindsWithin Strength.test e.kinds) σ rest
  | .index e => ∀ {σ rest}, R.Free σ →
    R.Reads σ (indexText e) (indexKinds e) σ ("]".toList ++ rest)
  | .clauses gens => ∀ {σ rest}, R.Free σ → Ended rest →
    R.Reads σ (generatorsText gens) (generatorKinds gens) σ rest

namespace Rendered

variable {R : Reader} {σ : R.State} {e value : Expr} {least : Nat} {rest : List Char}

theorem front_within (h : Rendered R e) : Front (e.within least e.text) := by
  unfold Expr.within
  split
  · exact front_brackets (by decide)
  · exact h.front

theorem brackets (h : Rendered R e) :
    R.Reads σ ("(" ++ e.text ++ ")") (op "(" :: e.kinds ++ [op ")"]) σ rest :=
  reads_brackets (by decide) (by decide) fun ends => h.reads (.inl (R.free_enter σ)) ends.ends

theorem within (h : Rendered R e) (admits : R.Admits σ least) (ends : Ended rest) :
    R.Reads σ (e.within least e.text) (e.kindsWithin least e.kinds) σ rest := by
  unfold Expr.within Expr.kindsWithin
  split
  · exact h.brackets
  · rename_i tight
    exact h.reads (admits.mono (Nat.le_of_not_lt tight)) ends.ends

/-- An operand that binds tightest, which a point may follow. -/
theorem operand (h : Rendered R e) (other : e.takesPoint = false) (off : Off sticks rest) :
    R.Reads σ (e.within Strength.atom e.text) (e.kindsWithin Strength.atom e.kinds) σ rest := by
  unfold Expr.within Expr.kindsWithin
  split
  · exact h.brackets
  · rename_i tight
    have top := Nat.le_antisymm (strength_range e).2 (Nat.le_of_not_lt tight)
    exact h.reads (.inr (Nat.le_of_ble_eq_true (top ▸ rfl))) ⟨off, fun _ => ⟨top, other⟩⟩

/-! Operands. -/

theorem name {id : String} (h : IsIdentifier id) (c : Context) : Rendered R (.name id c) :=
  ⟨h.spells.isFront nofun,
    fun _ ends => reads_spelled h.spells nofun rfl (off_glues_of_apart ends.apart)⟩

theorem numberConstant_cases (text : String) : numberConstant text = .complex text ∨
    numberConstant text = .int text ∨ numberConstant text = .float text := by
  grind [numberConstant]

/-- A complex number ends with its letter. -/
theorem imaginary_of_complex {text : String} (h : numberConstant text = .complex text) :
    ∃ m, text.toList.getLast? = some m ∧ (m = 'j' ∨ m = 'J') := by
  have lower : ∀ m : Char, m.toLower = 'j' → m = 'j' ∨ m = 'J' := by
    intro m same
    unfold Char.toLower at same
    split at same
    · rename_i upper
      right
      have code : m.val + 32 = 106 := congrArg Char.val same
      have sum := congrArg UInt32.toNat code
      have top : m.val.toNat ≤ 90 := upper.2
      refine Char.ext (UInt32.toNat_inj.1 ?_)
      rw [UInt32.toNat_add] at sum
      have low : (m.val.toNat + 32) % 2 ^ 32 = 106 := sum
      rw [Nat.mod_eq_of_lt (by omega)] at low
      exact Nat.add_right_cancel (low : m.val.toNat + 32 = 74 + 32)
    · exact .inl same
  have last : (text.toList.map Char.toLower).getLast? = some 'j' := by
    by_contra other
    unfold numberConstant at h
    dsimp only at h
    rw [if_neg other] at h
    split at h
    · cases h
    · split at h <;> cases h
  rw [List.getLast?_map, Option.map_eq_some_iff] at last
  obtain ⟨m, last, same⟩ := last
  exact ⟨m, last, lower m same⟩

theorem number {text : String} (h : Spells text (.number text)) :
    Rendered R (.constant (numberConstant text)) := by
  obtain ⟨text_eq, kinds_eq⟩ : (numberConstant text).text = text ∧
      (numberConstant text).kinds = [.number text] := by
    rcases numberConstant_cases text with same | same | same <;> rw [same] <;> exact ⟨rfl, rfl⟩
  refine ⟨by rw [Expr.text, text_eq]; exact h.isFront nofun, fun {σ rest} _ ends => ?_⟩
  rw [Expr.text, Expr.kinds, text_eq, kinds_eq]
  by_cases point : rest.head? = some '.'
  · -- Only a complex number lets the point be.
    have complex : numberConstant text = .complex text := by
      have other := (ends.point point).2
      rcases numberConstant_cases text with same | same | same
      · exact same
      · rw [same] at other
        cases other
      · rw [same] at other
        cases other
    obtain ⟨m, last, letter⟩ := imaginary_of_complex complex
    obtain ⟨c, u, chars, -⟩ := h.front nofun
    rw [chars] at last
    exact R.token chars (h.lexeme_complex chars last letter rest) nofun rfl
  · refine reads_spelled h nofun rfl fun c hc => ?_
    have apart := ends.apart c hc
    have other : c ≠ '.' := by
      rintro rfl
      exact point hc
    simp only [sticks, Bool.or_eq_false_iff] at apart
    simp [TokenKind.glues, apart, other]

theorem reads_pieces {pieces : List StringPiece} (some : pieces ≠ [])
    (spelled : ∀ p ∈ pieces, Spells p.text (.string p.text))
    (plain : ∀ p ∈ pieces, p.isFString = false) (off : Off sticks rest) :
    R.Reads σ (" ".intercalate (pieces.map (·.text))) (pieces.map fun p => .string p.text) σ rest := by
  obtain ⟨first, more, rfl⟩ := List.exists_cons_of_ne_nil some
  have one : ∀ p ∈ first :: more, ∀ rest, Off sticks rest →
      R.Reads σ p.text [.string p.text] σ rest := by
    intro p hp rest off
    have apart : Off (TokenKind.name "").glues rest := off_glues_of_apart off
    exact reads_spelled (spelled p hp) nofun (plain p hp) apart
  have others : ReadsAll σ (Off sticks) (more.map (·.text)) (more.map fun p => [.string p.text]) :=
    readsAll_map fun p hp => one p (.tail first hp)
  exact (reads_intercalate (fun _ => ended_blank.apart) (fun _ => reads_blank)
    (one first List.mem_cons_self) others off).of_eq (by
      rw [List.flatMap_map, List.map_cons, List.map_eq_flatMap]
      rfl)

theorem front_pieces {pieces : List StringPiece} (some : pieces ≠ [])
    (spelled : ∀ p ∈ pieces, Spells p.text (.string p.text)) :
    ∃ c, (" ".intercalate (pieces.map (·.text))).toList.head? = Option.some c ∧
      c ∉ [' ', '\t', '\x0c', '\n', '\r', '#', '=', '>', '*'] := by
  obtain ⟨first, more, rfl⟩ := List.exists_cons_of_ne_nil some
  obtain ⟨c, u, chars, apart⟩ := (spelled first List.mem_cons_self).front nofun
  refine ⟨c, ?_, apart⟩
  cases more <;> simp [chars]

theorem kinds_stringConstant {pieces : List StringPiece} (some : pieces ≠ [])
    (spelled : ∀ p ∈ pieces, Spells p.text (.string p.text))
    (plain : ∀ p ∈ pieces, p.isFString = false) :
    (stringConstant pieces).kinds = pieces.map fun p => .string p.text := by
  have whole : (stringConstant pieces).kinds = textKinds (" ".intercalate (pieces.map (·.text))) := by
    unfold stringConstant
    dsimp only
    split <;> rfl
  have reads : Scan.reader.Reads 0 _ _ 0 [] := reads_pieces some spelled plain (off_nil sticks)
  obtain ⟨c, first, apart⟩ := front_pieces some spelled
  obtain ⟨u, chars⟩ := List.head?_eq_some_iff.1 first
  rw [whole]
  refine Scan.Reads.textKinds reads chars fun member => apart ?_
  exact List.mem_append_left ['=', '>', '*'] member

theorem strings {pieces : List StringPiece} (some : pieces ≠ [])
    (spelled : ∀ p ∈ pieces, Spells p.text (.string p.text))
    (plain : ∀ p ∈ pieces, p.isFString = false) : Rendered R (.constant (stringConstant pieces)) := by
  have text_eq : (stringConstant pieces).text = " ".intercalate (pieces.map (·.text)) := by
    unfold stringConstant
    dsimp only
    split <;> rfl
  refine ⟨?_, fun _ ends => ?_⟩
  · obtain ⟨c, first, apart⟩ := front_pieces some spelled
    have known : [' ', '=', '>', '*'] ⊆ [' ', '\t', '\x0c', '\n', '\r', '#', '=', '>', '*'] := by decide
    exact ⟨c, by rw [Expr.text, text_eq, first], fun member => apart (known member)⟩
  · rw [Expr.text, Expr.kinds, text_eq, kinds_stringConstant some spelled plain]
    exact reads_pieces some spelled plain ends.apart

theorem word (w : WordConstant) : Rendered R (.constant w) := by
  have known : ∀ w : WordConstant, w.constant.text ∈ grammarWords ∧
      w.constant.kinds = [TokenKind.name w.constant.text] := by
    rintro (_ | (_ | _)) <;> exact ⟨by decide, rfl⟩
  refine ⟨(spells_word (known w).1).isFront nofun, fun _ ends => ?_⟩
  rw [Expr.text, Expr.kinds, (known w).2]
  exact reads_word (known w).1 ends.apart

theorem ellipsis : Rendered R (.constant .ellipsis) :=
  ⟨⟨'.', rfl, by decide⟩, fun _ _ =>
    reads_op (by decide) (opEnds_of_noTails rfl (by decide)) (by decide)⟩

theorem member {attr : String} (hv : Rendered R value) (other : value.takesPoint = false)
    (ha : IsIdentifier attr) : Rendered R (.attribute value attr .load) := by
  refine ⟨hv.front_within.append.append, fun {σ rest} _ ends => ?_⟩
  have name := reads_spelled (R := R) (σ := σ) ha.spells nofun rfl (off_glues_of_apart ends.apart)
  have point : R.Reads σ "." [op "."] σ (attr.toList ++ rest) := by
    refine reads_op (by decide) (fun c hc => ?_) (by decide)
    obtain ⟨first, front, start⟩ := ha.spells.isNameStart_front
    rw [List.head?_append, front] at hc
    cases hc
    refine ⟨fun tail => ?_, fun _ => not_isDigit_of_isNameStart start⟩
    have tails : opTails "." = ['.'] := by decide
    rw [tails, List.mem_singleton] at tail
    have point : isNameStart '.' = false := isNameStart_ascii (by decide)
    rw [tail, point] at start
    cases start
  have apart : Off sticks (".".toList ++ (attr.toList ++ rest)) :=
    off_cons not_sticks_point _
  rw [Expr.text, Expr.kinds]
  exact (((hv.operand other apart).append point).append name).of_eq (by simp)

theorem text_subscript (value index : Expr) (c : Context) : (Expr.subscript value index c).text =
    value.within Strength.atom value.text ++ "[" ++ indexText index ++ "]" := by
  cases index <;> rfl

theorem kinds_subscript (value index : Expr) (c : Context) : (Expr.subscript value index c).kinds =
    value.kindsWithin Strength.atom value.kinds ++ op "[" :: indexKinds index ++ [op "]"] := by
  cases index <;> rfl

theorem subscript {index : Expr} (hv : Rendered R value) (hi : (Part.index index).IsRendered R) :
    Rendered R (.subscript value index .load) := by
  refine ⟨?_, fun {σ rest} _ _ => ?_⟩
  · rw [text_subscript]
    exact hv.front_within.append.append.append
  · rw [text_subscript, kinds_subscript]
    exact ((((hv.within (.inr (by decide)) (ended_append rfl (by decide))).append (R.opening (by decide))).append
      (hi (R.free_enter σ))).append (R.closing (by decide))).of_eq (by simp)

/-! Displays. -/

theorem readsAll_within {es : List Expr} (h : ∀ e ∈ es, ∀ rest, Ended rest →
    R.Reads σ (e.within least e.text) (e.kindsWithin least e.kinds) σ rest) :
    ReadsAll σ Ended (textsWithin least es) (kindsOfItems least es) := by
  have texts : textsWithin least es = es.map fun e => e.within least e.text := by
    clear h
    induction es with
    | nil => rfl
    | cons e es ih => rw [textsWithin, ih, List.map_cons]
  rw [texts, kindsOfItems_eq]
  exact readsAll_map h

section Displays

variable {elts : List Expr} {gens : List Generator}

theorem readsAll_items (h : ∀ e ∈ elts, (Part.item e).IsRendered R) (free : R.Free σ) :
    ReadsAll σ Ended (textsWithin Strength.test elts) (kindsOfItems Strength.test elts) :=
  readsAll_within fun e he _ ends => h e he free ends

theorem tuple (h : ∀ e ∈ elts, (Part.item e).IsRendered R) : Rendered R (.tuple elts .load) :=
  ⟨front_brackets (by decide), fun _ _ =>
    reads_brackets (by decide) (by decide) fun ends =>
      reads_tupleText (readsAll_items h (R.free_enter _)) ends⟩

theorem list (h : ∀ e ∈ elts, (Part.item e).IsRendered R) : Rendered R (.list elts .load) :=
  ⟨front_brackets (by decide), fun _ _ =>
    reads_brackets (by decide) (by decide) fun ends =>
      reads_items (readsAll_items h (R.free_enter _)) ends⟩

theorem set (some : elts ≠ []) (h : ∀ e ∈ elts, (Part.item e).IsRendered R) :
    Rendered R (.set elts) := by
  have braces : (Expr.set elts).text =
      "\x7b" ++ commaJoined (textsWithin Strength.test elts) ++ "\x7d" := by
    rw [Expr.text, if_neg (by simpa using some)]
  have kinds : (Expr.set elts).kinds =
      op "\x7b" :: commaKinds (kindsOfItems Strength.test elts) ++ [op "\x7d"] := by
    rw [Expr.kinds, if_neg (by simpa using some)]
  refine ⟨by rw [braces]; exact front_brackets (by decide), fun _ _ => ?_⟩
  rw [braces, kinds]
  exact reads_brackets (by decide) (by decide) fun ends =>
    reads_items (readsAll_items h (R.free_enter _)) ends

theorem dict {items : List DictItem} (h : ∀ item ∈ items, ∀ e ∈ item.parts, Rendered R e) :
    Rendered R (.dict items) := by
  refine ⟨front_brackets (by decide), fun {σ rest} _ _ => ?_⟩
  rw [Expr.text, Expr.kinds, dictTexts_eq, dictKinds_eq]
  have free := R.free_enter σ
  refine reads_brackets (by decide) (by decide) fun ends => reads_items (readsAll_map ?_) ends
  intro item hi rest ends
  cases item with
  | entry key value =>
    have hk := h _ hi key List.mem_cons_self
    have hv := h _ hi value (.tail key List.mem_cons_self)
    exact (((hk.within (.inl free) ended_colonBlank).append (reads_colonBlank free)).append
      (hv.within (.inl free) ends)).of_eq (by simp [DictItem.kinds])
  | spread value =>
    have hv := h _ hi value List.mem_cons_self
    exact (reads_sign (by decide) (by decide) (by decide) hv.front_within).append
      (hv.within (.inl free) ends)

/-! Comprehensions. -/

theorem ended_generatorsText (gens : List Generator) (ends : Ended rest) :
    Ended ((generatorsText gens).toList ++ rest) := by
  cases gens with
  | nil => exact ends
  | cons c gens =>
    obtain ⟨target, iter, ifs, isAsync⟩ := c
    have first : (generatorsText (⟨target, iter, ifs, isAsync⟩ :: gens)).toList.head? = some ' ' := by
      cases isAsync <;> simp [generatorsText]
    exact ended_append first (by decide)

theorem ended_conditionsText (ifs : List Expr) (ends : Ended rest) :
    Ended ((conditionsText ifs).toList ++ rest) := by
  cases ifs with
  | nil => exact ends
  | cons e ifs => exact ended_append (c := ' ') (by simp [conditionsText]) (by decide)

theorem reads_conditions {ifs : List Expr} (h : ∀ e ∈ ifs, Rendered R e) (ends : Ended rest) :
    R.Reads σ (conditionsText ifs) (conditionKinds ifs) σ rest := by
  induction ifs with
  | nil => exact reads_empty
  | cons e ifs ih =>
    have others := ih fun x hx => h x (.tail e hx)
    have apart : Ended ((conditionsText ifs).toList ++ rest) :=
      ended_conditionsText ifs ends
    rw [conditionsText, conditionKinds]
    exact (((reads_padded (w := "if") (by decide)).append
      ((h e List.mem_cons_self).within (.inr (Nat.le_refl _)) apart)).append others).of_eq (by simp)

theorem clause {head target iter : Expr} {ifs : List Expr} {isAsync : Bool}
    (hh : Rendered R head) (ht : head.asTarget? .store = some target) (hi : Rendered R iter)
    (hc : ∀ e ∈ ifs, Rendered R e) (hg : (Part.clauses gens).IsRendered R) :
    (Part.clauses (⟨target, iter, ifs, isAsync⟩ :: gens)).IsRendered R := by
  intro σ rest free ends
  have same := alike_of_asTarget head ht
  have text : target.within Strength.test target.text = head.within Strength.test head.text := by
    simp only [Expr.within, same.text, same.strength]
  have kinds : target.kindsWithin Strength.test target.kinds =
      head.kindsWithin Strength.test head.kinds := by
    simp only [Expr.kindsWithin, same.kinds, same.strength]
  have others := ended_generatorsText gens ends
  have conditions := ended_conditionsText ifs others
  have async : ∀ {rest}, R.Reads σ (if isAsync then " async" else "")
      (if isAsync then [TokenKind.name "async"] else []) σ ((" " ++ "for" ++ " ").toList ++ rest) := by
    cases isAsync with
    | false => exact reads_empty
    | true => exact reads_blank.append (reads_word (w := "async") (by decide) ended_padded.apart)
  rw [generatorsText, generatorKinds, text, kinds]
  exact ((((((async.append (reads_padded (w := "for") (by decide))).append
    (hh.within (.inl free) ended_padded)).append (reads_padded (w := "in") (by decide))).append
    (hi.within (.inl free) conditions)).append (reads_conditions hc others)).append
    (hg free ends)).of_eq (by simp)

/-- What stands between the brackets of a comprehension. -/
theorem reads_comprehension (hv : Rendered R value) (hg : (Part.clauses gens).IsRendered R)
    (free : R.Free σ) (ends : Ended rest) :
    R.Reads σ (value.within Strength.test value.text ++ generatorsText gens)
      (value.kindsWithin Strength.test value.kinds ++ generatorKinds gens) σ rest :=
  (hv.within (.inl free) (ended_generatorsText gens ends)).append
    (hg free ends)

theorem listComp (hv : Rendered R value) (hg : (Part.clauses gens).IsRendered R) :
    Rendered R (.listComp value gens) := by
  have text : (Expr.listComp value gens).text =
      "[" ++ (value.within Strength.test value.text ++ generatorsText gens) ++ "]" := by
    simp only [Expr.text, String.append_assoc]
  refine ⟨by rw [text]; exact front_brackets (by decide), fun _ _ => ?_⟩
  rw [text, Expr.kinds]
  exact reads_brackets (by decide) (by decide) (reads_comprehension hv hg (R.free_enter _))

theorem setComp (hv : Rendered R value) (hg : (Part.clauses gens).IsRendered R) :
    Rendered R (.setComp value gens) := by
  have text : (Expr.setComp value gens).text =
      "\x7b" ++ (value.within Strength.test value.text ++ generatorsText gens) ++ "\x7d" := by
    simp only [Expr.text, String.append_assoc]
  refine ⟨by rw [text]; exact front_brackets (by decide), fun _ _ => ?_⟩
  rw [text, Expr.kinds]
  exact reads_brackets (by decide) (by decide) (reads_comprehension hv hg (R.free_enter _))

theorem generatorExp (hv : Rendered R value) (hg : (Part.clauses gens).IsRendered R) :
    Rendered R (.generatorExp value gens) := by
  have text : (Expr.generatorExp value gens).text =
      "(" ++ (value.within Strength.test value.text ++ generatorsText gens) ++ ")" := by
    simp only [Expr.text, String.append_assoc]
  refine ⟨by rw [text]; exact front_brackets (by decide), fun _ _ => ?_⟩
  rw [text, Expr.kinds]
  exact reads_brackets (by decide) (by decide) (reads_comprehension hv hg (R.free_enter _))

theorem dictComp {key : Expr} (hk : Rendered R key) (hv : Rendered R value)
    (hg : (Part.clauses gens).IsRendered R) : Rendered R (.dictComp key value gens) := by
  have text : (Expr.dictComp key value gens).text =
      "\x7b" ++ (key.within Strength.test key.text ++ ": " ++
        (value.within Strength.test value.text ++ generatorsText gens)) ++ "\x7d" := by
    simp only [Expr.text, String.append_assoc]
  have kinds : (Expr.dictComp key value gens).kinds =
      op "\x7b" :: (key.kindsWithin Strength.test key.kinds ++ [op ":"] ++
        (value.kindsWithin Strength.test value.kinds ++ generatorKinds gens)) ++ [op "\x7d"] := by
    simp [Expr.kinds]
  refine ⟨by rw [text]; exact front_brackets (by decide), fun {σ rest} _ _ => ?_⟩
  rw [text, kinds]
  have free := R.free_enter σ
  refine reads_brackets (by decide) (by decide) fun ends => ?_
  exact ((hk.within (.inl free) ended_colonBlank).append (reads_colonBlank free)).append
    (reads_comprehension hv hg free ends)

end Displays

/-! Operators. -/

section Operators

variable {left right : Expr}

theorem binary {o : BinaryOp} (hl : Rendered R left) (hr : Rendered R right) :
    Rendered R (.binary left o right) := by
  refine ⟨hl.front_within.append.append.append.append, fun _ ends => ?_⟩
  have range : o.strength < Strength.atom ∧ Strength.or ≤ o.leftStrength ∧
      Strength.or ≤ o.rightStrength := by cases o <;> decide
  obtain ⟨loose, tightLeft, tightRight⟩ := range
  rw [Expr.text, Expr.kinds]
  exact (((((hl.within (.inr tightLeft) ended_blank).append reads_blank).append
    (reads_binaryOp o)).append reads_blank).append
    (hr.within (.inr tightRight) (ends.ended loose))).of_eq (by simp)

theorem unary {o : UnaryOp} (h : Rendered R value) : Rendered R (.unary o value) := by
  have sign : ∀ {σ rest}, R.Reads σ o.text [o.kind] σ
      ((value.within o.strength value.text).toList ++ rest) := by
    intro σ rest
    cases o with
    | not => exact reads_wordBlank (w := "not") (by decide)
    | invert => exact reads_sign (by decide) (by decide) (by decide) h.front_within
    | plus => exact reads_sign (by decide) (by decide) (by decide) h.front_within
    | minus => exact reads_sign (by decide) (by decide) (by decide) h.front_within
  have front : Front o.text := by
    cases o with
    | not => exact ⟨'n', rfl, by decide⟩
    | invert => exact ⟨'~', rfl, by decide⟩
    | plus => exact ⟨'+', rfl, by decide⟩
    | minus => exact ⟨'-', rfl, by decide⟩
  refine ⟨front.append, fun admits ends => ?_⟩
  have loose : o.strength < Strength.atom := by cases o <;> decide
  rw [Expr.text, Expr.kinds]
  exact sign.append (h.within admits (ends.ended loose))

theorem bool {o : BoolOp} {first : Expr} {more : List Expr} (hf : Rendered R first)
    (hm : ∀ e ∈ more, Rendered R e) : Rendered R (.bool o (first :: more)) := by
  have loose : o.strength < Strength.atom := by cases o <;> decide
  have word : o.word ∈ grammarWords := by cases o <;> decide
  refine ⟨?_, fun admits ends => ?_⟩
  · rw [Expr.text, textsWithin]
    cases more with
    | nil =>
      rw [textsWithin, String.intercalate_singleton]
      exact hf.front_within
    | cons second more =>
      rw [textsWithin, String.intercalate_cons_cons]
      exact hf.front_within.append.append
  · rw [Expr.text, Expr.kinds, textsWithin]
    exact reads_intercalate (fun _ => ended_padded) (fun _ => reads_padded word)
      (fun _ ends => hf.within (admits.mono (Nat.le_succ _)) ends)
      (readsAll_within fun e he _ ends => (hm e he).within (admits.mono (Nat.le_succ _)) ends)
      (ends.ended loose)

theorem ended_comparandsText (more : List Comparand) (ends : Ended rest) :
    Ended ((comparandsText more).toList ++ rest) := by
  cases more with
  | nil => exact ends
  | cons c more =>
    obtain ⟨o, value⟩ := c
    exact ended_append (c := ' ') (by simp [comparandsText]) (by decide)

theorem reads_comparands {more : List Comparand} (h : ∀ c ∈ more, Rendered R c.value)
    (ends : Ended rest) :
    R.Reads σ (comparandsText more) (comparandKinds more).flatten σ rest := by
  induction more with
  | nil => exact reads_empty
  | cons c more ih =>
    have hv := h c List.mem_cons_self
    have others := ih fun x hx => h x (.tail c hx)
    obtain ⟨o, value⟩ := c
    have apart : Ended ((comparandsText more).toList ++ rest) :=
      ended_comparandsText more ends
    rw [comparandsText, comparandKinds]
    exact ((((reads_blank.append (reads_compareOp o)).append reads_blank).append
      (hv.within (.inr (by decide)) apart)).append others).of_eq (by simp)

theorem compare {more : List Comparand} (hl : Rendered R left) (h : ∀ c ∈ more, Rendered R c.value) :
    Rendered R (.compare left more) := by
  refine ⟨hl.front_within.append, fun _ ends => ?_⟩
  have loose : Strength.compare < Strength.atom := by decide
  have apart := ended_comparandsText more (ends.ended loose)
  rw [Expr.text, Expr.kinds]
  exact (hl.within (.inr (by decide)) apart).append (reads_comparands h (ends.ended loose))

theorem call {func : Expr} {args : List Expr} {keywords : List Keyword} (hf : Rendered R func)
    (ha : ∀ e ∈ args, (Part.item e).IsRendered R) (hk : ∀ k ∈ keywords, Rendered R k.value)
    (names : ∀ k ∈ keywords, ∀ arg ∈ k.arg, IsIdentifier arg) : Rendered R (.call func args keywords) := by
  refine ⟨hf.front_within.append.append.append, fun {σ rest} _ _ => ?_⟩
  have free := R.free_enter σ
  have keyword : ReadsAll (R.enter σ) Ended (keywordTexts keywords) (keywordKinds keywords) := by
    rw [keywordTexts_eq, keywordKinds_eq]
    refine readsAll_map fun k hm rest ends => ?_
    have hv := hk k hm
    have names := names k hm
    obtain ⟨arg, value⟩ := k
    cases arg with
    | none =>
      exact (reads_sign (by decide) (by decide) (by decide) hv.front_within).append
        (hv.within (.inl free) ends)
    | some arg =>
      have equals : Off (TokenKind.name arg).glues ("=".toList ++
          ((value.within Strength.test value.text).toList ++ rest)) := by
        refine off_cons ?_ _
        simp only [TokenKind.glues]
        decide +kernel
      exact ((reads_spelled (names arg rfl).spells (by simp) rfl equals).append
        (reads_sign (by decide) (by decide) (by decide) hv.front_within)).append
        (hv.within (.inl free) ends)
  have items : ∀ {rest}, Ended rest →
      R.Reads (R.enter σ) (commaJoined (textsWithin Strength.test args ++ keywordTexts keywords))
        (commaKinds (kindsOfItems Strength.test args ++ keywordKinds keywords)) (R.enter σ) rest :=
    fun ends => reads_items (List.rel_append (readsAll_items ha free) keyword) ends
  have text : (Expr.call func args keywords).text = func.within Strength.atom func.text ++
      ("(" ++ commaJoined (textsWithin Strength.test args ++ keywordTexts keywords) ++ ")") := by
    simp only [Expr.text, String.append_assoc]
  rw [text, Expr.kinds]
  have apart : ∀ {rest}, Ended (("(" ++ commaJoined (textsWithin Strength.test args ++
      keywordTexts keywords) ++ ")").toList ++ rest) := by
    intro rest
    rw [String.append_assoc, String.toList_append, List.append_assoc]
    exact ended_append rfl (by decide)
  exact ((hf.within (.inr (by decide)) apart).append (reads_brackets (by decide) (by decide) items)).of_eq (by simp)

end Operators

/-! Whole expressions. -/

section Whole

variable {test body orelse : Expr}

theorem ifElse (ht : Rendered R test) (hb : Rendered R body) (ho : Rendered R orelse) :
    Rendered R (.ifElse test body orelse) := by
  refine ⟨hb.front_within.append.append.append.append, fun admits ends => ?_⟩
  have loose : Strength.test < Strength.atom := by decide
  have tight : Strength.or ≤ Strength.or := Nat.le_refl _
  have free : R.Free _ := admits.free (show Strength.test < Strength.or by decide)
  rw [Expr.text, Expr.kinds]
  exact (((((hb.within (.inr tight) ended_padded).append (reads_padded (w := "if") (by decide))).append
    (ht.within (.inr tight) ended_padded)).append (reads_padded (w := "else") (by decide))).append
    (ho.within (.inl free) (ends.ended loose))).of_eq (by simp)

theorem await (hv : Rendered R value) : Rendered R (.await value) := by
  refine ⟨Front.append ⟨'a', rfl, by decide⟩, fun _ ends => ?_⟩
  have loose : Strength.await < Strength.atom := by decide
  rw [Expr.text, Expr.kinds]
  exact (reads_wordBlank (w := "await") (by decide)).append
    (hv.within (.inr (by decide)) (ends.ended loose))

theorem yield {o : Option Expr} (h : ∀ e ∈ o, Rendered R e) : Rendered R (.yield o) := by
  refine ⟨Front.append ⟨'y', rfl, by decide⟩, fun admits ends => ?_⟩
  have loose : Strength.yield < Strength.atom := by decide
  have free : R.Free _ := admits.free (show Strength.yield < Strength.or by decide)
  rw [Expr.text, Expr.kinds]
  cases o with
  | none => exact (reads_word (w := "yield") (by decide) ends.apart).append reads_empty
  | some value =>
    rw [optionText, optionKinds]
    have blank : ∀ {a rest}, Off sticks ((" " ++ a).toList ++ rest) := by
      intro a rest
      rw [String.toList_append, List.append_assoc]
      exact ended_blank.apart
    exact (reads_word (w := "yield") (by decide) blank).append
      (reads_blank.append ((h value rfl).within (.inl free) (ends.ended loose)))

theorem yieldFrom (hv : Rendered R value) : Rendered R (.yieldFrom value) := by
  refine ⟨Front.append ⟨'y', rfl, by decide⟩, fun admits ends => ?_⟩
  have loose : Strength.yield < Strength.atom := by decide
  have free : R.Free _ := admits.free (show Strength.yield < Strength.or by decide)
  rw [Expr.text, Expr.kinds]
  exact ((reads_word (w := "yield") (by decide) ended_padded.apart).append
    (reads_padded (w := "from") (by decide))).append (hv.within (.inl free) (ends.ended loose))

theorem named {id : String} (hi : IsIdentifier id) (hv : Rendered R value) :
    Rendered R (.named (.name id .store) value) := by
  have target : Rendered R (.name id .store) := name hi .store
  refine ⟨target.front_within.append.append, fun admits ends => ?_⟩
  have loose : Strength.named < Strength.atom := by decide
  have free : R.Free _ := admits.free (show Strength.named < Strength.or by decide)
  have sign : ∀ {rest}, R.Reads _ (" " ++ ":=" ++ " ") [op ":="] _ rest :=
    (reads_blank.append (R.symbol (by decide) (opEnds_of_noTails rfl (by decide)) (by decide)
      fun _ => free)).append reads_blank
  rw [Expr.text, Expr.kinds]
  exact (((target.within (.inl free) ended_padded).append sign).append
    (hv.within (.inl free) (ends.ended loose))).of_eq (by simp)

/-- What follows a parameter. -/
def Listed (rest : List Char) : Prop := ∃ c ∈ [',', ':', ')'], rest.head? = some c

theorem Listed.ended (h : Listed rest) : Ended rest := by
  obtain ⟨c, sign, first⟩ := h
  obtain ⟨u, rfl⟩ := List.head?_eq_some_iff.1 first
  have known : [',', ':', ')'] ⊆ endMarks := by decide
  have apart : Ended ((String.singleton c).toList ++ u) := ended_append (by simp) (known sign)
  simpa using apart

theorem Listed.opEnds {s : String} (h : Listed rest)
    (tails : [',', ':', ')'].all (fun c => c ∉ opTails s) = true) (other : s ≠ ".") : OpEnds s rest := by
  obtain ⟨c, sign, first⟩ := h
  intro d hd
  cases first.symm.trans hd
  exact ⟨of_decide_eq_true (List.all_eq_true.1 tails c sign), fun same => absurd same other⟩

theorem reads_argument {a : Argument} (hi : IsIdentifier a.name) (h : ∀ e ∈ a.annotation, Rendered R e)
    (free : R.Free σ) (ends : Off (TokenKind.name a.name).glues rest)
    (ended : a.annotation ≠ none → Ended rest) :
    R.Reads σ (argumentText a) (argumentKinds a) σ rest := by
  obtain ⟨id, annotation⟩ := a
  cases annotation with
  | none => exact (reads_spelled hi.spells nofun rfl ends).append reads_empty
  | some e =>
    have colon : R.Reads σ (": " ++ e.within Strength.test e.text)
        (op ":" :: e.kindsWithin Strength.test e.kinds) σ rest :=
      (reads_colonBlank free).append ((h e rfl).within (.inl free) (ended nofun))
    refine (reads_spelled hi.spells nofun rfl ?_).append colon
    rw [optionText, String.toList_append, List.append_assoc]
    exact off_glues_of_apart ended_colonBlank.apart

theorem front_argumentText {a : Argument} (hi : IsIdentifier a.name) : Front (argumentText a) := by
  obtain ⟨id, annotation⟩ := a
  exact (hi.spells.isFront nofun).append

theorem reads_param {p : Param} (named : ∀ id ∈ p.name?, IsIdentifier id)
    (annotated : ∀ e ∈ p.annotation?, Rendered R e) (h : ∀ e ∈ p.default?, Rendered R e)
    (free : R.Free σ) (listed : Listed rest) : R.Reads σ p.text p.kinds σ rest := by
  match p with
  | .plain a none =>
    exact (reads_argument (named _ rfl) annotated free (off_glues_of_apart listed.ended.apart)
      fun _ => listed.ended).append reads_empty
  | .plain a (some e) =>
    have he := h e rfl
    have admits : R.Admits σ Strength.test := .inl free
    have value := he.within admits listed.ended
    cases bare : a.annotation with
    | none =>
      have equals : ∀ {r}, Off (TokenKind.name a.name).glues
          (("=" ++ e.within Strength.test e.text).toList ++ r) := by
        intro r
        rw [String.toList_append, List.append_assoc]
        refine off_cons (c := '=') ?_ _
        simp only [TokenKind.glues]
        decide +kernel
      rw [Param.text, bare]
      exact (reads_argument (named _ rfl) annotated free equals (absurd bare)).append
        ((reads_sign (by decide) (by decide) (by decide) he.front_within).append value)
    | some annotation =>
      have blank : ∀ {r}, Ended ((" = " ++ e.within Strength.test e.text).toList ++ r) := by
        intro r
        rw [String.toList_append, List.append_assoc]
        exact ended_padded (w := "=")
      have sign : ∀ {r}, R.Reads σ " = " [op "="] σ r := fun {r} =>
        (reads_blank.append (reads_op (s := "=") (by decide) (opEnds_append rfl (by decide) (by decide))
          (by decide))).append reads_blank
      rw [Param.text, bare]
      exact (reads_argument (named _ rfl) annotated free (off_glues_of_apart blank.apart)
        fun _ => blank).append (sign.append value)
  | .posOnlyMarker =>
    exact reads_op (by decide) (listed.opEnds (by decide) (by decide)) (by decide)
  | .varArgs none =>
    exact reads_op (by decide) (listed.opEnds (by decide) (by decide)) (by decide)
  | .varArgs (some a) =>
    have argument := reads_argument (named _ rfl) annotated free (off_glues_of_apart listed.ended.apart)
      fun _ => listed.ended
    exact (reads_sign (s := "*") (by decide) (by decide) (by decide)
      (front_argumentText (named _ rfl))).append argument
  | .kwArgs a =>
    have argument := reads_argument (named _ rfl) annotated free (off_glues_of_apart listed.ended.apart)
      fun _ => listed.ended
    exact (reads_sign (s := "**") (by decide) (by decide) (by decide)
      (front_argumentText (named _ rfl))).append argument

theorem lambda {params : List Param} (plain : ∀ p ∈ params, p.IsPlain)
    (defaults : ∀ p ∈ params, ∀ e ∈ p.default?, Rendered R e) (hb : Rendered R body) :
    Rendered R (.lambda params body) := by
  refine ⟨(Front.append (Front.append ⟨'l', rfl, by decide⟩)).append, fun {σ rest} admits ends => ?_⟩
  have loose : Strength.test < Strength.atom := by decide
  have free : R.Free σ := admits.free (show Strength.test < Strength.or by decide)
  rw [Expr.text, Expr.kinds, paramTexts_eq, paramKinds_eq]
  cases params with
  | nil =>
    have apart : ∀ {r}, Off sticks ("".toList ++ (": ".toList ++ r)) := ended_colonBlank.apart
    exact (((reads_word (w := "lambda") (by decide) apart).append
      reads_empty).append (reads_colonBlank free)).append (hb.within (.inl free) (ends.ended loose))
  | cons first more =>
    have blank : ∀ {a rest}, Off sticks ((" " ++ a).toList ++ rest) := by
      intro a rest
      rw [String.toList_append, List.append_assoc]
      exact ended_blank.apart
    have listed : ReadsAll σ Listed ((first :: more).map Param.text)
        ((first :: more).map Param.kinds) :=
      readsAll_map fun p hp rest => reads_param (plain p hp).isIdentifier
        (by rw [(plain p hp).annotation?]; nofun) (defaults p hp) free
    have between : ∀ {rest}, R.Reads σ (commaJoined ((first :: more).map Param.text))
        (commaKinds ((first :: more).map Param.kinds)) σ (": ".toList ++ rest) :=
      reads_commaJoined (fun _ => ⟨',', by decide, rfl⟩) listed ⟨':', by decide, rfl⟩
    exact ((((reads_word (w := "lambda") (by decide) blank).append (reads_blank.append between)).append
      (reads_colonBlank free)).append (hb.within (.inl free) (ends.ended loose))).of_eq (by simp)

end Whole

/-! Parts that are no expressions of their own. -/

section Parts

theorem starred (hv : Rendered R value) : (Part.item (.starred value .load)).IsRendered R :=
  fun free ends =>
    (reads_sign (s := "*") (by decide) (by decide) (by decide) hv.front_within).append
      (hv.within (.inl free) ends)

theorem item (h : Rendered R e) : (Part.item e).IsRendered R := fun free ends =>
  h.within (.inl free) ends

theorem slice {lower upper step : Option Expr} (hl : ∀ e ∈ lower, Rendered R e)
    (hu : ∀ e ∈ upper, Rendered R e) (hs : ∀ e ∈ step, Rendered R e) :
    (Part.entry (.slice lower upper step)).IsRendered R := by
  intro σ rest free ends
  have before : ∀ {o : Option Expr} {rest}, (∀ e ∈ o, Rendered R e) → Ended rest →
      R.Reads σ (optionText "" o) (optionKinds [] o) σ rest := by
    intro o rest h ends
    cases o with
    | none => exact reads_empty
    | some e => exact reads_empty.append ((h e rfl).within (.inl free) ends)
  have colon : ∀ {o : Option Expr} {rest}, (∀ e ∈ o, Rendered R e) → Ended rest →
      R.Reads σ ":" [op ":"] σ ((optionText "" o).toList ++ rest) := by
    intro o rest h ends
    refine R.symbol (by decide) ?_ (by decide) fun _ => free
    cases o with
    | none =>
      intro c hc
      refine ⟨fun tail => ?_, fun same => absurd same (by decide)⟩
      have tails : opTails ":" = ['='] := by decide
      rw [tails, List.mem_singleton] at tail
      subst tail
      have apart := ends '=' hc
      simp [sticks] at apart
    | some e =>
      have front : Front (optionText "" (some e)) := by
        rw [optionText, String.empty_append]
        exact (h e rfl).front_within
      exact front.opEnds (by decide) (by decide)
  have last : R.Reads σ (optionText ":" step) (optionKinds [op ":"] step) σ rest ∧
      Ended ((optionText ":" step).toList ++ rest) := by
    cases step with
    | none => exact ⟨reads_empty, ends⟩
    | some e =>
      have apart : Ended ((optionText ":" (some e)).toList ++ rest) := by
        rw [optionText, String.toList_append, List.append_assoc]
        exact ended_colon
      refine ⟨?_, apart⟩
      exact (reads_colon free (hs e rfl).front_within).append ((hs e rfl).within (.inl free) ends)
  have tight : ¬(Expr.slice lower upper step).strength < Strength.test := by
    exact of_decide_eq_true rfl
  have text : (Expr.slice lower upper step).within Strength.test (Expr.slice lower upper step).text =
      optionText "" lower ++ ":" ++ optionText "" upper ++ optionText ":" step := if_neg tight
  have kinds : (Expr.slice lower upper step).kindsWithin Strength.test
      (Expr.slice lower upper step).kinds =
      optionKinds [] lower ++ [op ":"] ++ optionKinds [] upper ++ optionKinds [op ":"] step := by
    simp [Expr.kindsWithin, if_neg tight, Expr.kinds]
  rw [text, kinds]
  exact (((before hl ended_colon).append (colon hu last.2)).append (before hu last.2)).append last.1

end Parts

end Rendered

open Rendered

/-- The text of a regular part is read as its tokens, as far as that of its f-strings is. -/
theorem isRendered_of_regular {R : Reader} {l : Leeway} {part : Part}
    (fields : ∀ parts, Regular l (.expr (.joinedStr parts)) →
      (∀ value conversion spec, .formatted value conversion spec ∈ parts → Rendered R value) →
      Rendered R (.joinedStr parts))
    (stars : l.stars = false) (points : l.points = false) (h : Regular l part) :
    part.IsRendered R := by
  induction h with
  | name h _ => exact name h .load
  | number h => exact number h
  | strings some spelled plain => exact strings some spelled plain
  | word w => exact word w
  | ellipsis => exact ellipsis
  | joinedStr allowed values marks pieces h => exact fields _ (.joinedStr allowed values marks pieces) h
  | strayed allowed => exact absurd (stars ▸ allowed) Bool.false_ne_true
  | member _ other ha hv =>
    exact member hv (other.resolve_left fun allowed => absurd (points ▸ allowed) Bool.false_ne_true) ha
  | subscript _ _ hv hi => exact subscript hv hi
  | tuple _ h => exact tuple h
  | list _ h => exact list h
  | set some _ h => exact set some h
  | dict _ h => exact dict h
  | binary _ _ hl hr => exact binary hl hr
  | unary _ h => exact unary h
  | bool _ _ _ hf hs hr => exact bool hf (List.forall_mem_cons.2 ⟨hs, hr⟩)
  | compare _ _ _ hl hr => exact compare hl hr
  | call _ _ _ names hf ha hk => exact call hf ha hk names
  | ifElse _ _ _ ht hb ho => exact ifElse ht hb ho
  | lambda plain _ _ defaults hb => exact lambda plain defaults hb
  | listComp _ _ _ he hg => exact listComp he hg
  | setComp _ _ _ he hg => exact setComp he hg
  | generatorExp _ _ _ he hg => exact generatorExp he hg
  | dictComp _ _ _ _ hk hv hg => exact dictComp hk hv hg
  | await _ h => exact await h
  | yield _ _ h => exact yield h
  | yieldFrom _ _ h => exact yieldFrom h
  | named hi _ _ hv => exact named hi hv
  | starred _ h => exact starred h
  | item _ h => exact item h
  | slice _ _ _ hl hu hs => exact slice hl hu hs
  | entry _ h => exact h
  | noEntry => exact fun _ => (R.opening (s := "(") (by decide)).append (R.closing (s := ")") (by decide))
  | @entries elts some _ h =>
    intro σ rest free
    have text : indexText (.tuple elts .load) = tupleText (textsWithin Strength.test elts) := by
      rw [indexText, if_neg (by simpa using some)]
    have kinds : indexKinds (.tuple elts .load) = tupleKinds (kindsOfItems Strength.test elts) := by
      rw [indexKinds, if_neg (by simpa using some)]
    rw [text, kinds]
    exact reads_tupleText (readsAll_items h free) (ended_append rfl (by decide))
  | @index e single _ h =>
    cases e with
    | tuple elts ctx => exact absurd rfl (single elts ctx)
    | _ => exact fun free => h free (ended_append rfl (by decide))
  | noClause => exact fun _ _ => reads_empty
  | clause _ ht _ _ _ hh hi hc hg => exact clause hh ht hi hc hg

end Arbiter.Syntax
