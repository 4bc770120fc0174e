import Arbiter.Proofs.Canon.Placeholder
import Arbiter.Proofs.Parsing.Fields
import Arbiter.Proofs.Parsing.Layout
import Arbiter.Proofs.Parsing.Rendering

/-! Reading canonical text. The lexer takes an f-string for one token, and one with quotes inside of its
fields it does not understand at all; the reader here follows the fields, and keeps the lines and their
indentation. Main statement: the text of an expression in canonical form is read as its tokens. -/

namespace Arbiter.Syntax

open TokenKind (op name)

/-- Where reading stands: in code, or in the literal text of an f-string. The numbers count the open
brackets of the fields around, innermost first. -/
inductive Spot
  | code (fields : List Nat)
  | piece (fields : List Nat)

/-- Inside of a further bracket of the innermost field. -/
def enterBracket : List Nat → List Nat
  | [] => []
  | d :: fields => (d + 1) :: fields

theorem head?_enterBracket (fields : List Nat) : (enterBracket fields).head? ≠ some 0 := by
  cases fields <;> simp [enterBracket]

def leaveBracket : List Nat → List Nat
  | [] => []
  | d :: fields => (d - 1) :: fields

/-- The open brackets after a token. -/
def bracketsAfter (kind : TokenKind) (fields : List Nat) : List Nat :=
  if kind ∈ [op "(", op "[", op "\x7b"] then enterBracket fields
  else if kind ∈ [op ")", op "]", op "\x7d"] then leaveBracket fields
  else fields

/-- The tokens for the marks of a field. -/
def RawField.markKinds (field : RawField) : List TokenKind :=
  [name "if", name (conversionName field.conversion), name "else",
    name (specName (field.spec.map String.ofList))]

/-- The characters that belong to a literal piece after its first. -/
def isPieceChar (c : Char) : Bool := c ∉ ['C', '"', '\x7b']

namespace Spot

/-- What is found in code at `c :: r`, and how many characters of `r` belong to it. -/
def codeStep (fields : List Nat) (c : Char) (r : List Char) :
    Option (List TokenKind × Spot × Nat) :=
  if c = ' ' then some ([], .code fields, 0)
  else if c = '\n' then
    let n := (r.takeWhile (· == ' ')).length
    some (.newline :: List.replicate n .indent, .code fields, n)
  else if c = 'f' ∧ r.head? = some '"' then
    some ([op "...", op "(", op "(", name "yield", op ")"], .piece fields, 1)
  else if fields.head? = some 0 ∧ fieldLength? 0 none (c :: r) = some 0 then
    (fieldMarks? 0 (c :: r)).map fun (field, n) => (field.markKinds, .piece fields.tail, n - 1)
  else
    match lexeme c r with
    | .ok (.token kind, n) => some ([kind], .code (bracketsAfter kind fields), n)
    | _ => none

def pieceStep (fields : List Nat) (c : Char) (r : List Char) :
    Option (List TokenKind × Spot × Nat) :=
  if c = '"' then some ([op ")"], .code fields, 0)
  else if c = '\x7b' then some ([op ","], .code (0 :: fields), 0)
  else
    let n := (r.takeWhile isPieceChar).length
    some ([op ",", name (spelling c r n)], .piece fields, n)

def step : Spot → Char → List Char → Option (List TokenKind × Spot × Nat)
  | .code fields => codeStep fields
  | .piece fields => pieceStep fields

end Spot

/-- The tokens of a canonical text. A line begins with a `newline` and an `indent` for each blank. -/
def readKinds (s : Spot) : List Char → List TokenKind
  | [] => []
  | c :: r =>
    match s.step c r with
    | some (ks, t, n) => ks ++ readKinds t (r.drop n)
    | none => []
termination_by cs => cs.length
decreasing_by
  rw [List.length_drop, List.length_cons]
  omega

section Steps

variable {fields : List Nat} {c : Char} {r : List Char}

theorem readKinds_step {s t : Spot} {ks : List TokenKind} {n : Nat}
    (h : s.step c r = some (ks, t, n)) : readKinds s (c :: r) = ks ++ readKinds t (r.drop n) := by
  rw [readKinds, h]

/-- A field ends at one of three marks. -/
theorem fieldLength?_zero (h : fieldLength? 0 none (c :: r) = some 0) :
    c = '\x7d' ∨ c = ':' ∨ c = '!' ∧ r.head? ≠ some '=' := by
  have more : ∀ o : Option Nat, o.map (· + 1) ≠ some 0 := by
    rintro (_ | n) h <;> simp at h
  unfold fieldLength? at h
  dsimp only at h
  split at h
  · exact absurd h (more _)
  split at h
  · exact absurd h (more _)
  split at h
  · exact absurd h (more _)
  split at h
  · exact .inl ‹_›
  split at h
  · rename_i ends
    exact .inr ends.2
  · exact absurd h (more _)

/-- What is found in code that no mark of the reader stands before. -/
theorem codeStep_token {k : TokenKind} {n : Nat} (found : lexeme c r = .ok (.token k, n))
    (noString : ¬(c = 'f' ∧ r.head? = some '"'))
    (noEnd : fields.head? = some 0 → fieldLength? 0 none (c :: r) ≠ some 0) :
    Spot.codeStep fields c r = some ([k], .code (bracketsAfter k fields), n) := by
  have blank : c ≠ ' ' := by
    rintro rfl
    cases found
  have lineBreak : c ≠ '\n' := by
    rintro rfl
    cases found
  unfold Spot.codeStep
  rw [if_neg blank, if_neg lineBreak, if_neg noString, if_neg fun ends => noEnd ends.1 ends.2, found]

end Steps

/-- The text `a` before `rest` is read as the tokens `ks`, none of which comes from a line break. -/
structure Shows (fields : List Nat) (a : String) (ks : List TokenKind) (fields' : List Nat)
    (rest : List Char) : Prop where
  reads : readKinds (.code fields) (a.toList ++ rest) = ks ++ readKinds (.code fields') rest
  flat : ∀ k ∈ ks, k.isLayout = false

namespace Shows

variable {fields fields' fields'' : List Nat} {a b : String} {ks ls : List TokenKind}
  {rest : List Char}

theorem append (ha : Shows fields a ks fields' (b.toList ++ rest)) (hb : Shows fields' b ls fields'' rest) :
    Shows fields (a ++ b) (ks ++ ls) fields'' rest where
  reads := by rw [String.toList_append, List.append_assoc, ha.reads, hb.reads, List.append_assoc]
  flat := List.forall_mem_append.2 ⟨ha.flat, hb.flat⟩

theorem of_eq (h : Shows fields a ks fields' rest) (same : ks = ls) : Shows fields a ls fields' rest :=
  same ▸ h

theorem blank : Shows fields " " [] fields rest :=
  ⟨readKinds_step (s := .code fields) (c := ' ') (r := rest) rfl, by simp⟩

theorem of_lexeme {k : TokenKind} {c : Char} {u : List Char} (chars : a.toList = c :: u)
    (found : lexeme c (u ++ rest) = .ok (.token k, u.length))
    (noString : ¬(c = 'f' ∧ (u ++ rest).head? = some '"'))
    (noEnd : fields.head? = some 0 → fieldLength? 0 none (c :: (u ++ rest)) ≠ some 0) :
    Shows fields a [k] (bracketsAfter k fields) rest where
  reads := by
    rw [chars, List.cons_append, readKinds_step (s := .code fields) (codeStep_token found noString noEnd),
      List.drop_left]
  flat := List.forall_mem_singleton.2 (Scan.isLayout_of_lexeme found)

/-- Fields stand in no token but an f-string. -/
theorem noString_of_lexeme {k : TokenKind} {c : Char} {r : List Char} {n : Nat}
    (found : lexeme c r = .ok (.token k, n)) (plain : k.hasFields = false) :
    ¬(c = 'f' ∧ r.head? = some '"') := by
  rintro ⟨rfl, quote⟩
  obtain ⟨s, rfl⟩ := List.head?_eq_some_iff.1 quote
  have start : isNameStart 'f' = true := by decide +kernel
  have apart : isNameChar '"' = false := by decide +kernel
  have mark : isStringMark (String.ofList ['f']) = true := by decide +kernel
  rw [lexeme_word start, wordLexeme] at found
  cases ends : stringLength? '"' s with
  | none => simp [spelling, apart, mark, ends] at found
  | some m =>
    obtain ⟨rfl, -⟩ : k = .string (.ofList ('f' :: '"' :: s.take m)) ∧ n = 0 + 1 + m := by
      simpa [apart, spelling, mark, Nat.add_comm 1, ends, eq_comm] using found
    simp [TokenKind.hasFields, StringPiece.isFString, StringPiece.marks] at plain

theorem token {k : TokenKind} {c : Char} {u : List Char} (chars : a.toList = c :: u)
    (found : lexeme c (u ++ rest) = .ok (.token k, u.length)) (word : ∀ symbol, k ≠ op symbol)
    (plain : k.hasFields = false) : Shows fields a [k] fields rest := by
  have flat : bracketsAfter k fields = fields := by
    simp [bracketsAfter, word]
  suffices Shows fields a [k] (bracketsAfter k fields) rest by rwa [flat] at this
  refine of_lexeme chars found (noString_of_lexeme found plain) fun _ ends => ?_
  have mark : c ∈ ['\x7d', ':', '!'] := by
    rcases fieldLength?_zero ends with rfl | rfl | ⟨rfl, -⟩ <;> decide
  have other : ['\x7d', ':', '!'].all (fun c => c ≠ '"' ∧ c ≠ '\'' ∧ c.isDigit = false ∧ c ≠ '.' ∧
      isNameStart c = false) = true := by decide +kernel
  obtain ⟨h1, h2, h3, h4, h5⟩ := of_decide_eq_true (List.all_eq_true.1 other c mark)
  rcases lexeme_cases found with quote | number | start | ⟨s, same⟩
  · exact quote.elim h1 h2
  · exact number.elim (fun digit => by simp [h3] at digit) fun point => h4 point.1
  · simp [h5] at start
  · exact word s same

theorem symbol {s : String} (h : s ∈ operators) (off : OpEnds s rest)
    (flat : s ∉ ["(", "[", "\x7b", ")", "]", "\x7d"])
    (free : s ∈ [":", ":="] → fields.head? ≠ some 0) : Shows fields s [op s] fields rest := by
  have apart : ∀ s ∈ operators, s.toList.head? ≠ some 'f' ∧
      (s.toList.head? = some '\x7d' → s = "\x7d") ∧
      (s.toList.head? = some ':' → s ∈ [":", ":="]) ∧ (s.toList.head? = some '!' → s = "!=") := by
    decide
  obtain ⟨noLetter, brace, colon, mark⟩ := apart s h
  obtain ⟨c, u, chars, found⟩ := lexeme_operator h off
  have same : bracketsAfter (op s) fields = fields := by
    simp only [List.mem_cons, List.not_mem_nil, or_false, not_or] at flat
    simp [bracketsAfter, flat]
  rw [chars] at noLetter brace colon mark
  suffices Shows fields s [op s] (bracketsAfter (op s) fields) rest by rwa [same] at this
  refine of_lexeme chars found (fun string => noLetter (congrArg some string.1)) fun top ends => ?_
  rcases fieldLength?_zero ends with rfl | rfl | ⟨rfl, next⟩
  · obtain rfl := brace rfl
    exact flat (by decide)
  · exact free (colon rfl) top
  · obtain rfl := mark rfl
    obtain ⟨-, rfl⟩ := List.cons.inj (chars : ['!', '='] = '!' :: u)
    exact next rfl

theorem opening {s : String} (h : s ∈ ["(", "[", "\x7b"]) :
    Shows fields s [op s] (enterBracket fields) rest := by
  have known : s ∈ operators ∧ opTails s = [] ∧ s ≠ "." ∧ op s ∈ [op "(", op "[", op "\x7b"] ∧
      s.toList.head?.all (fun c => c ∉ ['f', '\x7d', ':', '!']) = true := by
    revert s
    decide
  obtain ⟨member, tails, other, bracket, apart⟩ := known
  obtain ⟨c, u, chars, found⟩ := lexeme_operator member (opEnds_of_noTails tails other)
  rw [chars] at apart
  have apart : c ∉ ['f', '\x7d', ':', '!'] := of_decide_eq_true apart
  have after : bracketsAfter (op s) fields = enterBracket fields := if_pos bracket
  suffices Shows fields s [op s] (bracketsAfter (op s) fields) rest by rwa [after] at this
  refine of_lexeme chars found ?_ fun _ ends => apart ?_
  · rintro ⟨rfl, -⟩
    exact apart (by decide)
  · rcases fieldLength?_zero ends with rfl | rfl | ⟨rfl, -⟩ <;> decide

theorem bracketsAfter_enterBracket {s : String} (h : s ∈ [")", "]", "\x7d"]) :
    bracketsAfter (op s) (enterBracket fields) = fields := by
  have known : op s ∉ [op "(", op "[", op "\x7b"] ∧ op s ∈ [op ")", op "]", op "\x7d"] := by
    revert s
    decide
  rw [bracketsAfter, if_neg known.1, if_pos known.2]
  cases fields <;> rfl

theorem closing {s : String} (h : s ∈ [")", "]", "\x7d"]) :
    Shows (enterBracket fields) s [op s] fields rest := by
  have known : s ∈ operators ∧ opTails s = [] ∧ s ≠ "." ∧
      s.toList.head? ≠ some 'f' := by
    revert s
    decide
  obtain ⟨member, tails, other, noLetter⟩ := known
  obtain ⟨c, u, chars, found⟩ := lexeme_operator member (opEnds_of_noTails tails other)
  have after : bracketsAfter (op s) (enterBracket fields) = fields := bracketsAfter_enterBracket h
  suffices Shows (enterBracket fields) s [op s] (bracketsAfter (op s) (enterBracket fields)) rest by
    rwa [after] at this
  refine of_lexeme chars found (fun string => noLetter ?_) fun top _ => head?_enterBracket fields top
  rw [chars, string.1]
  rfl

end Shows

/-- The reader of canonical text. -/
abbrev shownReader : Reader where
  State := List Nat
  Reads := Shows
  enter := enterBracket
  Free fields := fields.head? ≠ some 0
  free_enter := head?_enterBracket
  empty := ⟨rfl, by simp⟩
  append := Shows.append
  blank := Shows.blank
  token := Shows.token
  symbol := Shows.symbol
  opening := Shows.opening
  closing := Shows.closing

/-! F-strings. -/

section Parts

variable {fields : List Nat} {rest : List Char}

/-- The marks of a field, through its closing brace. -/
def marksText (conversion : Option Char) (spec : Option String) : String :=
  (match conversion with
    | some c => "!" ++ c.toString
    | none => "") ++
  (match spec with
    | some s => ":" ++ s
    | none => "") ++ "\x7d"

theorem marks_front (conversion : Option Char) (spec : Option String) :
    ∃ c ∈ ['!', ':', '\x7d'], (marksText conversion spec).toList.head? = some c := by
  cases conversion with
  | some c => exact ⟨'!', by decide, by simp [marksText]⟩
  | none =>
    cases spec with
    | some s => exact ⟨':', by decide, by simp [marksText]⟩
    | none => exact ⟨'\x7d', by decide, rfl⟩

theorem ended_marks (conversion : Option Char) (spec : Option String) :
    Ended ((marksText conversion spec).toList ++ rest) := by
  obtain ⟨c, mark, first⟩ := marks_front conversion spec
  have known : ['!', ':', '\x7d'] ⊆ endMarks := by decide
  exact ended_append first (known mark)

theorem fieldMarks?_marks (conversion : Option Char) {spec : Option String}
    (format : ∀ s ∈ spec, IsFormat s) (rest : List Char) :
    fieldMarks? 0 ((marksText conversion spec).toList ++ rest) =
      some (⟨[], conversion, spec.map String.toList⟩, (marksText conversion spec).toList.length) := by
  have found : ∀ s ∈ spec, specLength? 0 (s.toList ++ '\x7d' :: rest) = some s.toList.length :=
    fun s hs => format s hs rest
  cases conversion <;> cases spec <;>
    simp_all [marksText, fieldMarks?, conversionMark] <;> omega

theorem fieldLength?_marks {conversion : Option Char} (other : conversion ≠ some '=')
    (spec : Option String) (rest : List Char) :
    fieldLength? 0 none ((marksText conversion spec).toList ++ rest) = some 0 := by
  cases conversion <;> cases spec <;> simp_all [marksText, fieldLength?]

/-- A field ends with its marks. -/
theorem readKinds_marks {conversion : Option Char} {spec : Option String}
    (other : conversion ≠ some '=') (format : ∀ s ∈ spec, IsFormat s) :
    readKinds (.code (0 :: fields)) ((marksText conversion spec).toList ++ rest) =
      [name "if", name (conversionName conversion), name "else", name (specName spec)] ++
        readKinds (.piece fields) rest := by
  have ends := fieldLength?_marks other spec rest
  have marks := fieldMarks?_marks conversion format rest
  obtain ⟨c, mark, first⟩ := marks_front conversion spec
  obtain ⟨u, chars⟩ := List.head?_eq_some_iff.1 first
  have other : ['!', ':', '\x7d'].all (fun c => c ≠ ' ' ∧ c ≠ '\n' ∧ c ≠ 'f') = true := by decide
  obtain ⟨blank, lineBreak, letter⟩ := of_decide_eq_true (List.all_eq_true.1 other c mark)
  rw [chars, List.cons_append] at ends marks ⊢
  rw [List.length_cons] at marks
  have found : Spot.codeStep (0 :: fields) c (u ++ rest) =
      some ([name "if", name (conversionName conversion), name "else", name (specName spec)],
        .piece fields, u.length) := by
    unfold Spot.codeStep
    rw [if_neg blank, if_neg lineBreak, if_neg fun string => letter string.1, if_pos ⟨rfl, ends⟩,
      marks]
    have texts : (spec.map String.toList).map String.ofList = spec := by cases spec <;> simp
    simp [RawField.markKinds, texts]
  rw [readKinds_step (s := .code (0 :: fields)) found, List.drop_left]

/-- A placeholder is read as a piece of its own. -/
theorem readKinds_piece {s : String} (piece : IsPiecePlaceholder s) (off : Off isPieceChar rest) :
    readKinds (.piece fields) (s.toList ++ rest) =
      [op ",", name s] ++ readKinds (.piece fields) rest := by
  obtain ⟨n, rfl⟩ := piece
  have chars : ("CONST_" ++ toString n).toList = 'C' :: ("ONST_".toList ++ (toString n).toList) := by
    rw [String.toList_append]
    rfl
  have inside : ∀ c ∈ "ONST_".toList ++ (toString n).toList, isPieceChar c = true := by
    intro c hc
    rcases List.mem_append.1 hc with hc | hc
    · have letters : "ONST_".toList.all isPieceChar = true := by decide
      exact List.all_eq_true.1 letters c hc
    · have digit := isDigit_toString hc
      have other : ['C', '"', '\x7b'].all (fun c => !c.isDigit) = true := by decide
      exact decide_eq_true fun member => by
        simpa [digit] using List.all_eq_true.1 other c member
  have run := takeWhile_append_off inside off
  have found : Spot.pieceStep fields 'C' ("ONST_".toList ++ (toString n).toList ++ rest) =
      some ([op ",", name ("CONST_" ++ toString n)], .piece fields,
        ("ONST_".toList ++ (toString n).toList).length) := by
    unfold Spot.pieceStep
    rw [if_neg (by decide), if_neg (by decide)]
    simp only [run, spelling_append, ← chars, String.ofList_toList]
  rw [chars, List.cons_append, readKinds_step (s := .piece fields) found, List.drop_left]

theorem doubleBraces_placeholder {s : String} (piece : IsPiecePlaceholder s) : doubleBraces s = s := by
  obtain ⟨n, rfl⟩ := piece
  have plain : ∀ c ∈ ("CONST_" ++ toString n).toList, ¬(c = '\x7b' ∨ c = '\x7d') := by
    intro c hc
    rcases List.mem_append.1 (String.toList_append ▸ hc) with hc | hc
    · have letters : "CONST_".toList.all (fun c => ¬(c = '\x7b' ∨ c = '\x7d')) = true := by decide
      exact of_decide_eq_true (List.all_eq_true.1 letters c hc)
    · have digit := isDigit_toString hc
      rintro (rfl | rfl) <;> cases digit
  have same : ∀ cs : List Char, (∀ c ∈ cs, ¬(c = '\x7b' ∨ c = '\x7d')) →
      cs.flatMap (fun c => if c = '\x7b' ∨ c = '\x7d' then [c, c] else [c]) = cs := by
    intro cs plain
    induction cs with
    | nil => rfl
    | cons c cs ih =>
      rw [List.flatMap_cons, if_neg (plain c List.mem_cons_self), ih fun d hd => plain d (.tail c hd)]
      rfl
  rw [doubleBraces, same _ plain, String.ofList_toList]

/-- A piece, a field and the end of an f-string each begin with a character of their own. -/
theorem off_fStringText (rest : List Char) {parts : List FStringPart}
    (pieces : ∀ s, .literal s ∈ parts → IsPiecePlaceholder s) :
    Off isPieceChar ((fStringText parts).toList ++ '"' :: rest) := by
  cases parts with
  | nil => exact off_cons (by decide) _
  | cons part parts =>
    cases part with
    | literal s =>
      have piece := pieces s List.mem_cons_self
      rw [fStringText, doubleBraces_placeholder piece]
      obtain ⟨n, rfl⟩ := piece
      simp only [String.toList_append, List.append_assoc]
      exact off_cons (c := 'C') (by decide) _
    | formatted value conversion spec =>
      simp only [fStringText, String.toList_append, List.append_assoc]
      exact off_cons (c := '\x7b') (by decide) _

/-- The pieces of an f-string, before its closing quote. -/
theorem readKinds_parts {parts : List FStringPart}
    (pieces : ∀ s, .literal s ∈ parts → IsPiecePlaceholder s)
    (values : ∀ value conversion spec, .formatted value conversion spec ∈ parts →
      Rendered shownReader value)
    (marks : ∀ value conversion spec, .formatted value conversion spec ∈ parts →
      conversion ≠ some '=' ∧ ∀ s ∈ spec, IsFormat s) :
    readKinds (.piece fields) ((fStringText parts).toList ++ '"' :: rest) =
      partKinds parts ++ readKinds (.piece fields) ('"' :: rest) := by
  induction parts with
  | nil => rfl
  | cons part parts ih =>
    have more := ih (fun s member => pieces s (.tail part member))
      (fun value conversion spec member => values value conversion spec (.tail part member))
      (fun value conversion spec member => marks value conversion spec (.tail part member))
    cases part with
    | literal s =>
      have piece := pieces s List.mem_cons_self
      have text : (fStringText (.literal s :: parts)).toList ++ '"' :: rest =
          s.toList ++ ((fStringText parts).toList ++ '"' :: rest) := by
        rw [fStringText, doubleBraces_placeholder piece, String.toList_append, List.append_assoc]
      have off := off_fStringText rest fun s member => pieces s (.tail _ member)
      rw [text, readKinds_piece piece off, more]
      simp [partKinds]
    | formatted value conversion spec =>
      have shown := values value conversion spec List.mem_cons_self
      have ends := marks value conversion spec List.mem_cons_self
      have text : (fStringText (.formatted value conversion spec :: parts)).toList ++ '"' :: rest =
          '\x7b' :: ((value.within Strength.or value.text).toList ++
            ((marksText conversion spec).toList ++ ((fStringText parts).toList ++ '"' :: rest))) := by
        cases conversion <;> cases spec <;> simp [fStringText, marksText]
      have field : Shows (0 :: fields) (value.within Strength.or value.text)
          (value.kindsWithin Strength.or value.kinds) (0 :: fields)
          ((marksText conversion spec).toList ++ ((fStringText parts).toList ++ '"' :: rest)) :=
        shown.within (.inr (Nat.le_refl _)) (ended_marks _ _)
      rw [text, readKinds_step (s := .piece fields) (c := '\x7b') rfl, List.drop_zero, field.reads,
        readKinds_marks ends.1 ends.2, more]
      simp [partKinds]

theorem flat_parts {parts : List FStringPart}
    (values : ∀ value conversion spec, .formatted value conversion spec ∈ parts →
      Rendered shownReader value) : ∀ k ∈ partKinds parts, k.isLayout = false := by
  induction parts with
  | nil => nofun
  | cons part parts ih =>
    have more := ih fun value conversion spec member => values value conversion spec (.tail part member)
    cases part with
    | literal s => simpa [partKinds, TokenKind.isLayout] using more
    | formatted value conversion spec =>
      have shown := values value conversion spec List.mem_cons_self
      have field : Shows [] (value.within Strength.or value.text)
          (value.kindsWithin Strength.or value.kinds) [] [] :=
        shown.within (.inr (Nat.le_refl _)) (off_nil _)
      simpa [partKinds, TokenKind.isLayout, or_imp, forall_and] using ⟨field.flat, more⟩

theorem rendered_joinedStr {parts : List FStringPart}
    (pieces : ∀ s, .literal s ∈ parts → IsPiecePlaceholder s)
    (values : ∀ value conversion spec, .formatted value conversion spec ∈ parts →
      Rendered shownReader value)
    (marks : ∀ value conversion spec, .formatted value conversion spec ∈ parts →
      conversion ≠ some '=' ∧ ∀ s ∈ spec, IsFormat s) :
    Rendered shownReader (.joinedStr parts) := by
  refine ⟨Front.append (Front.append ⟨'f', rfl, by decide⟩), fun {fields rest} _ _ => ⟨?_, ?_⟩⟩
  · have text : (Expr.joinedStr parts).text.toList ++ rest =
        'f' :: '"' :: ((fStringText parts).toList ++ '"' :: rest) := by
      simp [Expr.text]
    rw [text, readKinds_step (s := .code fields) (c := 'f') rfl]
    show _ ++ readKinds (.piece fields) ((fStringText parts).toList ++ '"' :: rest) = _
    rw [readKinds_parts pieces values marks, readKinds_step (s := .piece fields) (c := '"') rfl]
    simp [Expr.kinds]
  · simpa [Expr.kinds, TokenKind.isLayout, or_imp, forall_and] using flat_parts values

end Parts

/-- The text of a part in canonical form is read as its tokens. -/
theorem isRendered_of_shown {part : Part} (h : Regular .shown part) :
    part.IsRendered shownReader := by
  refine isRendered_of_regular (fun parts h values => ?_) rfl rfl h
  cases h with
  | joinedStr _ _ marks pieces => exact rendered_joinedStr pieces values marks

end Arbiter.Syntax
