import Arbiter.Proofs.Canon.Reading
import Arbiter.Proofs.Parsing.Regular
import Arbiter.Syntax.Stmt.Printer

/-! The tokens of patterns. Main statement: the text of a pattern in canonical form is read as its
tokens. -/

namespace Arbiter.Syntax

open TokenKind (op name)

/-- The tokens `ks` of `p` as an operand of `|` or `as`. -/
def Pattern.kindsAsOperand (p : Pattern) (ks : List TokenKind) : List TokenKind :=
  if p.isLoose then op "(" :: ks ++ [op ")"] else ks

def barKinds : List (List TokenKind) → List TokenKind
  | [] => []
  | k :: ks => k ++ ks.flatMap (op "|" :: ·)

mutual

def Pattern.kinds : Pattern → List TokenKind
  | .value e => e.kinds
  | .singleton c => c.constant.kinds
  | .sequence patterns => op "[" :: commaKinds (patternKinds patterns) ++ [op "]"]
  | .mapping items rest =>
    op "\x7b" :: commaKinds (mappingKinds items ++ rest.toList.map fun id => [op "**", name id]) ++
      [op "\x7d"]
  | .cls head patterns keywords =>
    head.kinds ++ op "(" :: commaKinds (patternKinds patterns ++ keywordPatternKinds keywords) ++ [op ")"]
  | .star rest => [op "*", name (rest.getD "_")]
  | .wildcard => [name "_"]
  | .capture id => [name id]
  | .bind pattern id => pattern.kindsAsOperand pattern.kinds ++ [name "as", name id]
  | .or patterns => barKinds (operandKinds patterns)

def patternKinds : List Pattern → List (List TokenKind)
  | [] => []
  | p :: ps => p.kinds :: patternKinds ps

def operandKinds : List Pattern → List (List TokenKind)
  | [] => []
  | p :: ps => p.kindsAsOperand p.kinds :: operandKinds ps

def mappingKinds : List MappingItem → List (List TokenKind)
  | [] => []
  | ⟨key, pattern⟩ :: rest => (key.kinds ++ op ":" :: pattern.kinds) :: mappingKinds rest

def keywordPatternKinds : List KeywordPattern → List (List TokenKind)
  | [] => []
  | ⟨attr, pattern⟩ :: rest => (name attr :: op "=" :: pattern.kinds) :: keywordPatternKinds rest

end

def MappingItem.kinds (i : MappingItem) : List TokenKind := i.key.kinds ++ op ":" :: i.pattern.kinds

def KeywordPattern.kinds (k : KeywordPattern) : List TokenKind := name k.attr :: op "=" :: k.pattern.kinds

section Lists

theorem patternKinds_eq (ps : List Pattern) : patternKinds ps = ps.map Pattern.kinds := by
  induction ps with
  | nil => rfl
  | cons p ps ih => rw [patternKinds, ih, List.map_cons]

theorem operandKinds_eq (ps : List Pattern) :
    operandKinds ps = ps.map fun p => p.kindsAsOperand p.kinds := by
  induction ps with
  | nil => rfl
  | cons p ps ih => rw [operandKinds, ih, List.map_cons]

theorem mappingKinds_eq (items : List MappingItem) : mappingKinds items = items.map MappingItem.kinds := by
  induction items with
  | nil => rfl
  | cons i items ih =>
    obtain ⟨key, pattern⟩ := i
    rw [mappingKinds, ih]
    rfl

theorem keywordPatternKinds_eq (ks : List KeywordPattern) :
    keywordPatternKinds ks = ks.map KeywordPattern.kinds := by
  induction ks with
  | nil => rfl
  | cons k ks ih =>
    obtain ⟨attr, pattern⟩ := k
    rw [keywordPatternKinds, ih]
    rfl

theorem patternTexts_eq (ps : List Pattern) : patternTexts ps = ps.map Pattern.text := by
  induction ps with
  | nil => rfl
  | cons p ps ih => rw [patternTexts, ih, List.map_cons]

theorem operandTexts_eq (ps : List Pattern) : operandTexts ps = ps.map fun p => p.asOperand p.text := by
  induction ps with
  | nil => rfl
  | cons p ps ih => rw [operandTexts, ih, List.map_cons]

theorem mappingTexts_eq (items : List MappingItem) :
    mappingTexts items = items.map fun i => i.key.text ++ ": " ++ i.pattern.text := by
  induction items with
  | nil => rfl
  | cons i items ih =>
    obtain ⟨key, pattern⟩ := i
    rw [mappingTexts, ih, List.map_cons]

theorem keywordPatternTexts_eq (ks : List KeywordPattern) :
    keywordPatternTexts ks = ks.map fun k => k.attr ++ "=" ++ k.pattern.text := by
  induction ks with
  | nil => rfl
  | cons k ks ih =>
    obtain ⟨attr, pattern⟩ := k
    rw [keywordPatternTexts, ih, List.map_cons]

end Lists

/-! Reading the text of a pattern. -/

/-- A pattern whose text is read as its tokens. -/
structure Pattern.Rendered (p : Pattern) : Prop where
  front : ∀ c ∈ p.text.toList.head?, c ≠ '='
  nonempty : p.text.toList ≠ []
  reads : ∀ {fields rest}, fields.head? ≠ some 0 → Ended rest → Shows fields p.text p.kinds fields rest

namespace Pattern.Rendered

variable {fields : List Nat} {rest : List Char} {p : Pattern}

theorem of_expr {e : Expr} (h : Syntax.Rendered shownReader e) (text : p.text = e.text)
    (kinds : p.kinds = e.kinds) : p.Rendered := by
  obtain ⟨c, first, other⟩ := h.front
  refine ⟨?_, ?_, fun free ends => ?_⟩
  · rw [text, first]
    rintro _ ⟨⟩ rfl
    exact other (.tail _ List.mem_cons_self)
  · rw [text]
    exact fun none => by simp [none] at first
  · rw [text, kinds]
    exact h.reads (.inl free) ends.ends

/-- A pattern that begins with a bracket or another sign. -/
theorem of_front {c : Char} (first : p.text.toList.head? = some c) (other : c ≠ '=')
    (reads : ∀ {fields rest}, fields.head? ≠ some 0 → Ended rest → Shows fields p.text p.kinds fields rest) :
    p.Rendered := by
  refine ⟨?_, fun none => by simp [none] at first, reads⟩
  rw [first]
  rintro _ ⟨⟩
  exact other

theorem head?_append {a b : String} {c : Char} (h : a.toList.head? = some c) :
    (a ++ b).toList.head? = some c := by
  rw [String.toList_append, List.head?_append, h]
  rfl

/-- As an operand of `|` or `as`. -/
theorem asOperand (h : p.Rendered) (free : fields.head? ≠ some 0) (ends : Ended rest) :
    Shows fields (p.asOperand p.text) (p.kindsAsOperand p.kinds) fields rest := by
  unfold Pattern.asOperand Pattern.kindsAsOperand
  split
  · exact reads_brackets (R := shownReader) (by decide) (by decide)
      fun ends => h.reads (head?_enterBracket fields) ends
  · exact h.reads free ends

theorem front_asOperand (h : p.Rendered) :
    ∃ c, (p.asOperand p.text).toList.head? = some c ∧ c ≠ '=' := by
  unfold Pattern.asOperand
  split
  · exact ⟨'(', head?_append (head?_append rfl), by decide⟩
  · obtain ⟨c, u, chars⟩ := List.exists_cons_of_ne_nil h.nonempty
    have first : p.text.toList.head? = some c := by rw [chars]; rfl
    exact ⟨c, first, h.front c first⟩

theorem identifier {id : String} (h : IsIdentifier id) (ends : Ended rest) :
    Shows fields id [.name id] fields rest :=
  reads_spelled (R := shownReader) h.spells nofun rfl (off_glues_of_apart ends.apart)

theorem sequence {ps : List Pattern} (h : ∀ p ∈ ps, p.Rendered) : (Pattern.sequence ps).Rendered := by
  refine of_front (c := '[') (head?_append (head?_append rfl)) (by decide) fun _ _ => ?_
  rw [Pattern.text, Pattern.kinds, patternTexts_eq, patternKinds_eq]
  exact reads_brackets (R := shownReader) (by decide) (by decide) fun ends =>
    reads_items (readsAll_map fun p hp _ ends => (h p hp).reads (head?_enterBracket _) ends) ends

theorem mapping {items : List MappingItem} {rest : Option String}
    (keys : ∀ i ∈ items, Syntax.Rendered shownReader i.key) (h : ∀ i ∈ items, i.pattern.Rendered)
    (names : ∀ id ∈ rest, IsIdentifier id) : (Pattern.mapping items rest).Rendered := by
  refine of_front (c := '\x7b') (head?_append (head?_append rfl)) (by decide) fun {fields _} _ _ => ?_
  have free := head?_enterBracket fields
  have text : (Pattern.mapping items rest).text =
      "\x7b" ++ commaJoined (mappingTexts items ++ rest.toList.map ("**" ++ ·)) ++ "\x7d" := by
    cases rest <;> simp [Pattern.text]
  rw [text, Pattern.kinds, mappingTexts_eq, mappingKinds_eq]
  have entries : ReadsAll (R := shownReader) (enterBracket fields) Ended
      (items.map fun i => i.key.text ++ ": " ++ i.pattern.text) (items.map MappingItem.kinds) := by
    refine readsAll_map fun i hi r ends => ?_
    have key : ∀ {r}, Shows _ i.key.text i.key.kinds _ (": ".toList ++ r) :=
      (keys i hi).reads (.inl free) ended_colonBlank.ends
    exact Shows.of_eq (Shows.append (Shows.append key (reads_colonBlank (R := shownReader) free))
      ((h i hi).reads free ends)) (by simp [MappingItem.kinds])
  have spreads : ReadsAll (R := shownReader) (enterBracket fields) Ended (rest.toList.map ("**" ++ ·))
      (rest.toList.map fun id => [op "**", .name id]) := by
    refine readsAll_map fun id hid r ends => ?_
    have known := names id (Option.mem_toList.1 hid)
    exact (reads_sign (R := shownReader) (s := "**") (by decide) (by decide) (by decide)
      (known.spells.isFront nofun)).append (identifier known ends)
  exact reads_brackets (R := shownReader) (by decide) (by decide) fun ends =>
    reads_items (List.rel_append entries spreads) ends

theorem cls {head : Expr} {ps : List Pattern} {ks : List KeywordPattern}
    (hh : Syntax.Rendered shownReader head) (hp : ∀ p ∈ ps, p.Rendered)
    (names : ∀ k ∈ ks, IsIdentifier k.attr) (hk : ∀ k ∈ ks, k.pattern.Rendered) :
    (Pattern.cls head ps ks).Rendered := by
  have text : (Pattern.cls head ps ks).text =
      head.text ++ ("(" ++ commaJoined (patternTexts ps ++ keywordPatternTexts ks) ++ ")") := by
    simp only [Pattern.text, String.append_assoc]
  obtain ⟨c, first, other⟩ := hh.front
  refine of_front (c := c) (text ▸ head?_append first) (fun same => ?_) fun {fields rest} free ends => ?_
  · exact other (same ▸ .tail _ List.mem_cons_self)
  · have inside := head?_enterBracket fields
    have positional : ReadsAll (R := shownReader) (enterBracket fields) Ended (patternTexts ps)
        (patternKinds ps) := by
      rw [patternTexts_eq, patternKinds_eq]
      exact readsAll_map fun p hm _ ends => (hp p hm).reads inside ends
    have keyword : ReadsAll (R := shownReader) (enterBracket fields) Ended (keywordPatternTexts ks)
        (keywordPatternKinds ks) := by
      rw [keywordPatternTexts_eq, keywordPatternKinds_eq]
      refine readsAll_map fun k hm r ends => ?_
      have equals : ∀ {r}, Off (TokenKind.name k.attr).glues ("=".toList ++ r) := by
        intro r
        refine off_cons ?_ _
        simp only [TokenKind.glues]
        decide +kernel
      have sign : Shows (enterBracket fields) "=" [op "="] (enterBracket fields)
          (k.pattern.text.toList ++ r) := by
        obtain ⟨d, u, chars⟩ := List.exists_cons_of_ne_nil (hk k hm).nonempty
        have apart := (hk k hm).front d (by rw [chars]; rfl)
        have tails : opTails "=" = ['='] := by decide
        refine reads_op (R := shownReader) (by decide) (opEnds_append (c := d) ?_ ?_ (by decide)) (by decide)
        · rw [chars]
          rfl
        · rw [tails, List.mem_singleton]
          exact apart
      have attr : ∀ {r}, Shows (enterBracket fields) k.attr [.name k.attr] (enterBracket fields)
          ("=".toList ++ r) := reads_spelled (R := shownReader) (names k hm).spells (by simp) rfl equals
      exact Shows.append (Shows.append attr sign) ((hk k hm).reads inside ends)
    have apart : Ended (("(" ++ commaJoined (patternTexts ps ++ keywordPatternTexts ks) ++
        ")").toList ++ rest) := by
      rw [String.append_assoc, String.toList_append, List.append_assoc]
      exact ended_append rfl (by decide)
    rw [text, Pattern.kinds]
    have start : Shows fields head.text head.kinds fields _ := hh.reads (.inl free) apart.ends
    exact Shows.of_eq (start.append (reads_brackets (R := shownReader) (by decide) (by decide) fun ends =>
      reads_items (List.rel_append positional keyword) ends)) (by simp)

theorem isIdentifier_underscore : IsIdentifier "_" :=
  ⟨spells_of_nameChars (c := '_') (u := []) rfl (by decide +kernel) nofun (by decide +kernel), by decide⟩

theorem star {rest : Option String} (h : ∀ id ∈ rest, IsIdentifier id) : (Pattern.star rest).Rendered := by
  have known : IsIdentifier (rest.getD "_") := by
    cases rest with
    | none => exact isIdentifier_underscore
    | some id => exact h id rfl
  refine of_front (c := '*') (head?_append rfl) (by decide) fun _ ends => ?_
  exact (reads_sign (R := shownReader) (s := "*") (by decide) (by decide) (by decide)
    (known.spells.isFront nofun)).append (identifier known ends)

theorem bind {id : String} (h : p.Rendered) (hi : IsIdentifier id) : (Pattern.bind p id).Rendered := by
  have text : (Pattern.bind p id).text = p.asOperand p.text ++ (" " ++ "as" ++ " ") ++ id := by
    rw [Pattern.text]
    rfl
  have kinds : (Pattern.bind p id).kinds = p.kindsAsOperand p.kinds ++ [.name "as"] ++ [.name id] := by
    rw [Pattern.kinds, List.append_assoc]
    rfl
  obtain ⟨c, first, other⟩ := h.front_asOperand
  refine of_front (text ▸ head?_append (head?_append first)) other fun {fields rest} free ends => ?_
  have sign : ∀ {r}, Shows fields (" " ++ "as" ++ " ") [.name "as"] fields r :=
    reads_padded (R := shownReader) (by decide)
  rw [text, kinds]
  exact Shows.append (Shows.append (h.asOperand free ended_padded) sign) (identifier hi ends)

theorem or {ps : List Pattern} (h : ∀ q ∈ p :: ps, q.Rendered) : (Pattern.or (p :: ps)).Rendered := by
  have text : (Pattern.or (p :: ps)).text = " | ".intercalate (p.asOperand p.text ::
      ps.map fun q => q.asOperand q.text) := by
    rw [Pattern.text, operandTexts_eq, List.map_cons]
  have kinds : (Pattern.or (p :: ps)).kinds = p.kindsAsOperand p.kinds ++
      (ps.map fun q => q.kindsAsOperand q.kinds).flatMap ([op "|"] ++ ·) := by
    rw [Pattern.kinds, operandKinds_eq, List.map_cons, barKinds]
    rfl
  obtain ⟨c, first, other⟩ := (h p List.mem_cons_self).front_asOperand
  have front : (Pattern.or (p :: ps)).text.toList.head? = some c := by
    rw [text]
    cases ps with
    | nil => simpa using first
    | cons q ps =>
      rw [List.map_cons, String.intercalate_cons_cons]
      exact head?_append (head?_append first)
  refine of_front front other fun {fields rest} free ends => ?_
  rw [text, kinds]
  have bar : ∀ {r}, Shows fields " | " [op "|"] fields r := fun {r} =>
    Shows.append (Shows.append Shows.blank (reads_op (R := shownReader) (s := "|") (by decide)
      (opEnds_append (a := " ") rfl (by decide) (by decide)) (by decide))) Shows.blank
  exact reads_intercalate (R := shownReader) (P := Ended) (fun _ => ended_padded (w := "|")) (fun _ => bar)
    (fun _ ends => (h p List.mem_cons_self).asOperand free ends)
    (readsAll_map fun q hq _ ends => (h q (.tail _ hq)).asOperand free ends) ends

end Pattern.Rendered

/-- The text of a pattern in canonical form is read as its tokens. -/
theorem Pattern.Formed.rendered {p : Pattern} (h : p.Formed .shown) : p.Rendered := by
  induction h with
  | value h | dotted h => exact .of_expr (isRendered_of_shown h) rfl rfl
  | singleton c => exact .of_expr (Rendered.word c) rfl rfl
  | sequence _ h => exact .sequence h
  | mapping keys _ binds _ h =>
    exact .mapping (fun i hi => isRendered_of_shown (keys i hi)) h fun id hid => (binds id hid).identifier
  | cls head _ names _ _ _ hp hk => exact .cls (isRendered_of_shown head) hp names hk
  | star binds => exact .star fun id hid => (binds id hid).identifier
  | wildcard => exact .of_expr (Rendered.name Rendered.isIdentifier_underscore .load) rfl rfl
  | capture binds => exact .of_expr (Rendered.name binds.identifier .load) rfl rfl
  | bind _ binds _ h => exact h.bind binds.identifier
  | or _ _ _ _ hf hs hr =>
    exact .or (List.forall_mem_cons.2 ⟨hf, List.forall_mem_cons.2 ⟨hs, hr⟩⟩)

end Arbiter.Syntax
