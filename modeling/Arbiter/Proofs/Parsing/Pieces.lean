import Arbiter.Proofs.Parsing.StmtAgree

/-! The pieces of an f-string and the text inside its quotes. Main statement: where no field documents
itself, the pieces written one after the other are the text again, and no literal piece is empty or
next to another. -/

namespace Arbiter.Syntax

/-- Reads a text that is one expression; a fault is told without its place. -/
def readExpr (source : String) : Except Cause Expr := (parseExpr source).mapError (·.cause)

/-- A grammar that is deep enough reads the expression of a field as one that stands alone. -/
theorem read_grammar {n : Nat} {source : String} (deep : source.length < n) :
    (grammar n).read source = readExpr source := by
  have alike := Grammar.alikeAt_grammar (source.length + 1) n (source.length + 1) deep (Nat.le_refl _)
  rw [alike.read_congr (Nat.lt_succ_self _), Grammar.read, readExpr, parseExpr]
  cases tokenize source with
  | error fault => rfl
  | ok ts =>
    have run : (Except.ok ts >>= StateT.run (grammar (source.length + 1)).standalone) =
      (grammarFor source).standalone ts := rfl
    rw [run]
    show _ = Except.mapError (·.cause) ((grammarFor source).standalone ts >>= fun x => .ok x.1)
    cases (grammarFor source).standalone ts <;> rfl

/-- The fields of an f-string are those that expressions of their own are, if the grammar is deep
enough for its text. -/
theorem fStringParts_grammar {n : Nat} {cs : List Char} (deep : cs.length + 1 < n) :
    fStringParts (grammar n).read [] cs = fStringParts readExpr [] cs :=
  fStringParts_congr (fun _ short => read_grammar short) [] cs deep

/-! What the pieces are written as. -/

/-- A literal text with every brace doubled. -/
def doubled (cs : List Char) : List Char :=
  cs.flatMap fun c => if c = '\x7b' ∨ c = '\x7d' then [c, c] else [c]

/-- A conversion with its mark. -/
def conversionText (conversion : Option Char) : List Char := conversion.elim [] fun c => ['!', c]

/-- A format text with its mark. -/
def specText (spec : Option (List Char)) : List Char := spec.elim [] (':' :: ·)

/-- A field between its braces. -/
def fieldText (text : List Char) (conversion : Option Char) (spec : Option (List Char)) : List Char :=
  '\x7b' :: text ++ conversionText conversion ++ specText spec ++ ['\x7d']

/-- What a piece of an f-string can be written as. -/
inductive FStringPart.WrittenAs : FStringPart → List Char → Prop
  | literal {text : String} (some : text ≠ "") : WrittenAs (.literal text) (doubled text.toList)
  | formatted {value : Expr} (text : List Char) (conversion : Option Char) (spec : Option String)
    (read : parseExpr ("(" ++ Text.trim (.ofList text) ++ ")") = .ok value) :
    WrittenAs (.formatted value conversion spec) (fieldText text conversion (spec.map String.toList))

/-- The fields of an f-string as written. -/
def rawFields : List Char → List RawField
  | [] => []
  | '\x7b' :: '\x7b' :: r => rawFields r
  | '\x7d' :: '\x7d' :: r => rawFields r
  | c :: r =>
    if c = '\x7b' then
      match rawField? r with
      | none => []
      | some (field, n) => field :: rawFields (r.drop n)
    else rawFields r
termination_by cs => cs.length
decreasing_by all_goals simp only [List.length_cons, List.length_drop]; omega

/-! A field that is found ends where the next piece begins. -/

/-- A format text ends at a closing brace. -/
theorem specLength?_brace (cs : List Char) : ∀ depth n, specLength? depth cs = some n →
    ∃ rest, cs = cs.take n ++ '\x7d' :: rest := by
  induction cs with
  | nil =>
    intro depth n h
    cases h
  | cons c r ih =>
    intro depth n h
    have later : ∀ {depth'}, (specLength? depth' r).map (· + 1) = some n →
        ∃ rest, c :: r = (c :: r).take n ++ '\x7d' :: rest := by
      intro depth' h
      obtain ⟨m, found, rfl⟩ := Option.map_eq_some_iff.1 h
      obtain ⟨rest, split⟩ := ih depth' m found
      exact ⟨rest, congrArg (c :: ·) split⟩
    unfold specLength? at h
    split at h
    · exact later h
    split at h
    · rename_i closing
      split at h
      · cases h
        exact ⟨r, congrArg (· :: r) closing⟩
      · exact later h
    · exact later h

/-- A conversion stands where its characters are counted, unless the text ends in them. -/
theorem conversionMark_split {rest later : List Char} {conversion : Option Char} {n : Nat} {c : Char}
    (mark : conversionMark rest = (conversion, n)) (h : rest.drop n = c :: later) :
    rest = conversionText conversion ++ c :: later ∧ (conversionText conversion).length = n := by
  unfold conversionMark at mark
  split at mark
  · rename_i r
    cases mark
    cases r with
    | nil => cases h
    | cons d r => exact ⟨congrArg ('!' :: d :: ·) h, rfl⟩
  · cases mark
    exact ⟨h, rfl⟩

/-- What stands behind the text of a field up to its closing brace. -/
theorem fieldMarks?_split {cs : List Char} {field : RawField} {m n : Nat}
    (h : fieldMarks? m cs = some (field, n)) :
    ∃ rest, '\x7b' :: cs = fieldText field.text field.conversion field.spec ++ rest ∧
      (fieldText field.text field.conversion field.spec).length = n + 1 := by
  unfold fieldMarks? at h
  cases mark : conversionMark (cs.drop m) with
  | mk conversion marked =>
    rw [mark] at h
    dsimp only at h
    have front : ∀ {c r}, (cs.drop m).drop marked = c :: r →
        cs = cs.take m ++ (conversionText conversion ++ c :: r) ∧ (cs.take m).length = m ∧
          (conversionText conversion).length = marked := by
      intro c r next
      obtain ⟨before, marks⟩ := conversionMark_split mark next
      have some := congrArg List.length next
      simp only [List.length_drop, List.length_cons] at some
      refine ⟨before ▸ (List.take_append_drop m cs).symm, ?_, marks⟩
      rw [List.length_take]
      omega
    split at h
    · rename_i r colon
      obtain ⟨k, spec, h⟩ := Option.bind_eq_some_iff.1 h
      cases h
      obtain ⟨before, text, marks⟩ := front colon
      obtain ⟨rest, closing⟩ := specLength?_brace r 0 k spec
      have short := Nat.le_of_lt (specLength?_front r 0 k spec).1
      refine ⟨rest, ?_, ?_⟩
      · conv_lhs => rw [before, closing]
        simp [fieldText, specText]
      · simp only [fieldText, specText, Option.elim_some, List.length_append, List.length_cons, text, marks,
          List.length_take, Nat.min_eq_left short, List.length_nil]
        omega
    · rename_i r brace
      cases h
      obtain ⟨before, text, marks⟩ := front brace
      refine ⟨r, ?_, ?_⟩
      · conv_lhs => rw [before]
        simp [fieldText, specText]
      · simp only [fieldText, specText, Option.elim_none, List.length_append, List.length_cons, text, marks,
          List.length_nil]
        omega
    · cases h

/-- A field through its closing brace, and what is behind it. -/
theorem rawField?_split {cs : List Char} {field : RawField} {n : Nat} (h : rawField? cs = some (field, n)) :
    '\x7b' :: cs = fieldText field.text field.conversion field.spec ++ cs.drop n := by
  obtain ⟨m, -, marks⟩ := exists_fieldMarks h
  obtain ⟨rest, split, long⟩ := fieldMarks?_split marks
  have behind : cs.drop n = rest := by
    have later := congrArg (List.drop (n + 1)) split
    rwa [← long, List.drop_left, long] at later
  rw [behind, split]

/-! The pieces one after the other. -/

theorem doubled_append (cs ds : List Char) : doubled (cs ++ ds) = doubled cs ++ doubled ds :=
  List.flatMap_append

/-- One more character of a literal piece, last first. -/
theorem doubled_reverse_cons (c : Char) (literal rest : List Char) :
    doubled (c :: literal).reverse ++ rest = doubled literal.reverse ++ (doubled [c] ++ rest) := by
  rw [List.reverse_cons, doubled_append, List.append_assoc]

theorem written_literalPart (literal : List Char) :
    ∃ texts, List.Forall₂ FStringPart.WrittenAs (literalPart literal) texts ∧
      doubled literal.reverse = texts.flatten := by
  unfold literalPart
  split
  · rename_i empty
    rw [List.isEmpty_iff.1 empty]
    exact ⟨[], .nil, rfl⟩
  · rename_i some
    have text : String.ofList literal.reverse ≠ "" := fun none => some (by simpa using none)
    have written := FStringPart.WrittenAs.literal text
    rw [String.toList_ofList] at written
    exact ⟨[_], .cons written .nil, (List.append_nil _).symm⟩

theorem isLiteral_resolve {read : String → Except Cause Expr} {field : RawField} {part : FStringPart}
    (h : field.resolve read = .ok part) : part.isLiteral = false := by
  unfold RawField.resolve at h
  dsimp only at h
  split at h
  · cases h
  · cases found : read ("(" ++ Text.trim (.ofList ((documented? field.text).getD field.text)) ++ ")") with
    | error cause =>
      rw [found] at h
      cases h
    | ok value =>
      rw [found] at h
      cases h
      rfl

/-- A field that does not document itself is written as it is. -/
theorem written_resolve {field : RawField} {part : FStringPart} (plain : documented? field.text = none)
    (h : field.resolve readExpr = .ok part) :
    part.WrittenAs (fieldText field.text field.conversion field.spec) := by
  unfold RawField.resolve at h
  rw [plain] at h
  dsimp only [Option.getD] at h
  split at h
  · cases h
  · unfold readExpr at h
    cases found : parseExpr ("(" ++ Text.trim (.ofList field.text) ++ ")") with
    | error fault =>
      rw [found] at h
      cases h
    | ok value =>
      rw [found] at h
      cases h
      have written := FStringPart.WrittenAs.formatted field.text field.conversion
        (field.spec.map String.ofList) found
      have spec : (field.spec.map String.ofList).map String.toList = field.spec := by
        cases field.spec with
        | none => rfl
        | some cs => exact congrArg some String.toList_ofList
      rwa [spec] at written

/-- The text before a field, the field and the pieces behind it. -/
theorem fStringParts_field {read : String → Except Cause Expr} {literal r : List Char} {field : RawField} {n : Nat}
    {parts : List FStringPart}
    (h : (do
      let part ← field.resolve read
      let rest ← fStringParts read [] (r.drop n)
      return literalPart (field.prologue.reverse ++ literal) ++ part :: rest) = .ok parts) :
    ∃ part rest, field.resolve read = .ok part ∧ fStringParts read [] (r.drop n) = .ok rest ∧
      parts = literalPart (field.prologue.reverse ++ literal) ++ part :: rest := by
  cases resolved : field.resolve read with
  | error cause =>
    rw [resolved] at h
    cases h
  | ok part =>
    rw [resolved] at h
    cases more : fStringParts read [] (r.drop n) with
    | error cause =>
      simp only [more] at h
      cases h
    | ok rest =>
      simp only [more] at h
      cases h
      exact ⟨part, rest, rfl, rfl, rfl⟩

/-- Between two literal pieces there is a field. -/
theorem areApart_fStringParts {read : String → Except Cause Expr} (literal cs : List Char)
    (parts : List FStringPart) (h : fStringParts read literal cs = .ok parts) : AreApart parts := by
  have single : ∀ literal, AreApart (literalPart literal) := by
    intro literal
    unfold literalPart
    split
    · exact .nil
    · exact .singleton _
  fun_induction fStringParts read literal cs generalizing parts with
  | case1 literal =>
    cases h
    exact single literal
  | case2 literal r ih => exact ih parts h
  | case3 literal r ih => exact ih parts h
  | case4 => cases h
  | case5 => cases h
  | case6 literal r field n found _ _ _ ih =>
    obtain ⟨part, rest, resolved, more, rfl⟩ := fStringParts_field h
    have formatted := isLiteral_resolve resolved
    have later : AreApart (part :: rest) :=
      List.isChain_cons.2 ⟨fun next _ both => by simp [formatted] at both, ih rest more⟩
    unfold literalPart
    split
    · exact later
    · exact List.isChain_cons.2 ⟨fun next first both => by cases first; simp [formatted] at both, later⟩
  | case7 literal c r _ _ _ _ ih => exact ih parts h

theorem written_fStringParts (literal cs : List Char) (parts : List FStringPart)
    (plain : ∀ field ∈ rawFields cs, documented? field.text = none)
    (h : fStringParts readExpr literal cs = .ok parts) :
    ∃ texts, List.Forall₂ FStringPart.WrittenAs parts texts ∧ doubled literal.reverse ++ cs = texts.flatten := by
  fun_induction fStringParts readExpr literal cs generalizing parts with
  | case1 literal =>
    cases h
    rw [List.append_nil]
    exact written_literalPart literal
  | case2 literal r ih =>
    rw [rawFields] at plain
    obtain ⟨texts, written, whole⟩ := ih parts plain h
    exact ⟨texts, written, by rw [← whole, doubled_reverse_cons]; rfl⟩
  | case3 literal r ih =>
    rw [rawFields] at plain
    obtain ⟨texts, written, whole⟩ := ih parts plain h
    exact ⟨texts, written, by rw [← whole, doubled_reverse_cons]; rfl⟩
  | case4 => cases h
  | case5 => cases h
  | case6 literal r field n found opening closing _ ih =>
    rw [rawFields.eq_4 _ _ opening closing, if_pos rfl, found] at plain
    obtain ⟨here, later⟩ := List.forall_mem_cons.1 plain
    obtain ⟨part, rest, resolved, more, rfl⟩ := fStringParts_field h
    have prologue : field.prologue = [] := by rw [RawField.prologue, here]; rfl
    rw [prologue]
    obtain ⟨before, front, text⟩ := written_literalPart literal
    obtain ⟨behind, written, split⟩ := ih rest later more
    refine ⟨before ++ _ :: behind, List.rel_append front (.cons (written_resolve here resolved) written), ?_⟩
    rw [List.flatten_append, List.flatten_cons, ← text, ← split, rawField?_split found]
    rfl
  | case7 literal c r opening closing notClosing notOpening ih =>
    rw [rawFields.eq_4 _ _ opening closing, if_neg notOpening] at plain
    obtain ⟨texts, written, whole⟩ := ih parts plain h
    refine ⟨texts, written, ?_⟩
    have once : doubled [c] = [c] := by simp [doubled, notOpening, notClosing]
    rw [← whole, doubled_reverse_cons, once]
    rfl

theorem ne_empty_of_written {parts : List FStringPart} {texts : List (List Char)}
    (h : List.Forall₂ FStringPart.WrittenAs parts texts) {text : String} (member : .literal text ∈ parts) :
    text ≠ "" := by
  induction h with
  | nil => cases member
  | cons first _ ih =>
    cases member with
    | head =>
      cases first with
      | literal some => exact some
    | tail _ later => exact ih later

/-- The inside of an f-string in which no field documents itself is what its pieces are written as. No
literal piece is empty, and none follows another. -/
theorem fStringParts_rejoined {n : Nat} {body : List Char} {parts : List FStringPart} (deep : body.length + 1 < n)
    (plain : ∀ field ∈ rawFields body, documented? field.text = none)
    (h : fStringParts (grammar n).read [] body = .ok parts) :
    (∃ texts, List.Forall₂ FStringPart.WrittenAs parts texts ∧ body = texts.flatten) ∧
      (∀ text, .literal text ∈ parts → text ≠ "") ∧ AreApart parts := by
  obtain ⟨texts, written, whole⟩ := written_fStringParts [] body parts plain (fStringParts_grammar deep ▸ h)
  exact ⟨⟨texts, written, whole⟩, fun _ => ne_empty_of_written written, areApart_fStringParts [] body parts h⟩

/-- A doubled brace, a conversion and a format text with a field of its own. -/
theorem fStringParts_rejoined_marks :
    ∃ parts, fStringParts (grammar 30).read [] "a\x7b\x7b\x7bb!r:>\x7bw\x7d\x7d\x7b c[0]\x7d".toList = .ok parts ∧
      parts.map (·.isLiteral) = [true, false, false] ∧
      ∃ texts, List.Forall₂ FStringPart.WrittenAs parts texts ∧
        "a\x7b\x7b\x7bb!r:>\x7bw\x7d\x7d\x7b c[0]\x7d".toList = texts.flatten := by
  have known : (fStringParts (grammar 30).read []
      "a\x7b\x7b\x7bb!r:>\x7bw\x7d\x7d\x7b c[0]\x7d".toList).toOption.map (·.map (·.isLiteral)) =
        some [true, false, false] := by decide +kernel
  cases found : fStringParts (grammar 30).read [] "a\x7b\x7b\x7bb!r:>\x7bw\x7d\x7d\x7b c[0]\x7d".toList with
  | error cause =>
    rw [found] at known
    cases known
  | ok parts =>
    rw [found] at known
    exact ⟨parts, rfl, Option.some.inj known, (fStringParts_rejoined (by decide) (by decide +kernel) found).1⟩

end Arbiter.Syntax
