import Arbiter.Json.Reader
import Arbiter.Json.Writer
import Arbiter.Proofs.Parsing.Numeral
import Mathlib.Data.List.Basic

/-! Reading back what was written. Main statement: the text of a value whose numbers are spelled as they
should be and whose strings all have a text is read as that value. -/

namespace Arbiter.Json

open Syntax (Off off_nil off_cons takeWhile_append_off)

/-! Strings. -/

section Strings

/-- The units that a character is written as. -/
def unitOf (c : Char) : Unit16 :=
  if c.toNat < 32 ∧ c ∉ ['\x08', '\x0c', '\n', '\r', '\t'] then .code c.toNat else .char c

theorem hexValue?_hexDigit {n : Nat} (h : n < 16) : hexValue? (hexDigit n) = some n := by
  have known : (List.range 16).all (fun n => hexValue? (hexDigit n) == some n) = true := by decide
  exact eq_of_beq (List.all_eq_true.1 known n (List.mem_range.2 h))

theorem stringUnits?_code {c : Char} (control : c.toNat < 32) (fuel : Nat) (rest : List Char) :
    stringUnits? (fuel + 1)
        (['\\', 'u', '0', '0', hexDigit (c.toNat / 16), hexDigit (c.toNat % 16)] ++ rest) =
      (stringUnits? fuel rest).map fun (us, r) => (.code c.toNat :: us, r) := by
  have digits : hex4? ('0' :: '0' :: hexDigit (c.toNat / 16) :: hexDigit (c.toNat % 16) :: rest) =
      some (c.toNat, rest) := by
    have zero : hexValue? '0' = some 0 := rfl
    have value : 4096 * 0 + 256 * 0 + 16 * (c.toNat / 16) + c.toNat % 16 = c.toNat := by omega
    simp only [hex4?, zero, hexValue?_hexDigit (n := c.toNat / 16) (by omega),
      hexValue?_hexDigit (Nat.mod_lt c.toNat (by decide)), Option.pure_def, Option.bind_eq_bind,
      Option.bind_some, value]
  simp only [List.cons_append, List.nil_append, stringUnits?, digits, Option.pure_def,
    Option.bind_eq_bind, Option.bind_some]
  exact Option.map_eq_bind.symm

theorem stringUnits?_char {c : Char} (quote : c ≠ '"') (escape : c ≠ '\\') (printed : 32 ≤ c.toNat)
    (fuel : Nat) (rest : List Char) :
    stringUnits? (fuel + 1) (c :: rest) =
      (stringUnits? fuel rest).map fun (us, r) => (.char c :: us, r) := by
  have kept : ¬ (c = '\\' ∨ c.toNat < 32) := by
    rintro (same | low)
    · exact escape same
    · exact absurd printed (Nat.not_le.2 low)
  rw [stringUnits?.eq_def]
  split
  · rename_i none
    cases none
  · rename_i more
    cases more
    split
    · rename_i split
      cases split
      exact absurd rfl quote
    · rename_i split
      cases split
      exact absurd rfl escape
    · rename_i split
      cases split
      exact absurd rfl escape
    · rename_i split
      cases split
      rw [if_neg kept]
      exact Option.map_eq_bind.symm
    · rename_i split
      cases split

/-- An escape by a letter. -/
theorem stringUnits?_letter {c e : Char} (other : e ≠ 'u') (letter : escaped? e = some c) (fuel : Nat)
    (rest : List Char) : stringUnits? (fuel + 1) (['\\', e] ++ rest) =
      (stringUnits? fuel rest).map fun (us, r) => (.char c :: us, r) := by
  simp only [List.cons_append, List.nil_append, stringUnits?, letter, Option.pure_def,
    Option.bind_eq_bind, Option.bind_some]
  exact Option.map_eq_bind.symm

theorem stringUnits?_escapeChar (c : Char) (fuel : Nat) (rest : List Char) :
    stringUnits? (fuel + 1) (escapeChar c ++ rest) =
      (stringUnits? fuel rest).map fun (us, r) => (unitOf c :: us, r) := by
  by_cases letter : c ∈ ['"', '\\', '\x08', '\x0c', '\n', '\r', '\t']
  · simp only [List.mem_cons, List.not_mem_nil, or_false] at letter
    rcases letter with rfl | rfl | rfl | rfl | rfl | rfl | rfl <;>
      exact stringUnits?_letter (by decide) rfl fuel rest
  · simp only [List.mem_cons, List.not_mem_nil, or_false, not_or] at letter
    obtain ⟨quote, escape, back, form, feed, return_, tab⟩ := letter
    simp only [escapeChar, if_neg quote, if_neg escape, if_neg back, if_neg form, if_neg feed,
      if_neg return_, if_neg tab]
    by_cases control : c.toNat < 32
    · have unit : unitOf c = .code c.toNat := if_pos ⟨control, by simp [*]⟩
      rw [if_pos control, unit]
      exact stringUnits?_code control fuel rest
    · have unit : unitOf c = .char c := if_neg fun h => control h.1
      rw [if_neg control, unit]
      exact stringUnits?_char quote escape (Nat.not_lt.1 control) fuel rest

theorem stringUnits?_escaped (cs rest : List Char) (fuel : Nat) (enough : cs.length < fuel) :
    stringUnits? fuel (cs.flatMap escapeChar ++ '"' :: rest) = some (cs.map unitOf, rest) := by
  induction cs generalizing fuel with
  | nil =>
    obtain ⟨fuel, rfl⟩ := Nat.exists_eq_add_one_of_ne_zero (Nat.ne_of_gt enough)
    rfl
  | cons c cs ih =>
    obtain ⟨fuel, rfl⟩ := Nat.exists_eq_add_one_of_ne_zero (Nat.ne_zero_of_lt enough)
    rw [List.flatMap_cons, List.append_assoc, stringUnits?_escapeChar,
      ih fuel (Nat.lt_of_succ_lt_succ enough)]
    rfl

theorem textOfUnits?_unitOf (cs : List Char) : textOfUnits? (cs.map unitOf) = some cs := by
  induction cs with
  | nil => rfl
  | cons c cs ih =>
    rw [List.map_cons, unitOf]
    split
    · rename_i control
      have low : ¬ (0xD800 ≤ c.toNat ∧ c.toNat < 0xDC00) := by omega
      have high : ¬ (0xDC00 ≤ c.toNat ∧ c.toNat < 0xE000) := by omega
      rw [textOfUnits?.eq_def]
      simp only [if_neg low, if_neg high, ih, Char.ofNat_toNat]
      rfl
    · rw [textOfUnits?, ih]
      rfl

theorem length_le_escaped (cs : List Char) : cs.length ≤ (cs.flatMap escapeChar).length := by
  induction cs with
  | nil => exact Nat.le_refl 0
  | cons c cs ih =>
    have some_char : 0 < (escapeChar c).length := by
      unfold escapeChar
      repeat' split
      all_goals exact Nat.zero_lt_succ _
    rw [List.flatMap_cons, List.length_append, List.length_cons, Nat.add_comm]
    exact Nat.add_le_add some_char ih

/-- The string as it is written after its opening quote. -/
def quoted (s : String) : List Char := s.toList.flatMap escapeChar ++ ['"']

theorem toList_stringText (s : String) : (stringText s).toList = '"' :: quoted s := by
  simp [stringText, quoted]

theorem stringUnits?_quoted (s : String) (rest : List Char) :
    stringUnits? (quoted s ++ rest).length (quoted s ++ rest) = some (s.toList.map unitOf, rest) := by
  have enough : s.toList.length < (quoted s ++ rest).length := by
    have le := length_le_escaped s.toList
    rw [quoted, List.append_assoc, List.length_append]
    exact Nat.lt_of_le_of_lt le (Nat.lt_add_of_pos_right (Nat.zero_lt_succ _))
  have read := stringUnits?_escaped s.toList rest _ enough
  rw [quoted, List.append_assoc] at read ⊢
  exact read

theorem literal?_quoted (s : String) (rest : List Char) :
    literal? (quoted s ++ rest) = some (some s, rest) := by
  simp only [literal?, stringUnits?_quoted, textOfUnits?_unitOf, Option.pure_def,
    Option.bind_eq_bind, Option.bind_some, Option.map_some, String.ofList_toList]

/-- The name is written without codes. -/
def Name.Plain (name : Name) : Prop := name.plain = true ∧ ∀ c ∈ name.text.toList, 32 ≤ c.toNat

theorem fieldName?_quoted {name : Name} (h : name.Plain) (rest : List Char) :
    fieldName? ('"' :: (quoted name.text ++ rest)) = some (some name, rest) := by
  obtain ⟨text, plain⟩ := name
  obtain ⟨rfl, printed⟩ := h
  have chars : (text.toList.map unitOf).all Unit16.isChar = true := by
    rw [List.all_map, List.all_eq_true]
    intro c here
    have unit : unitOf c = .char c := if_neg fun h => Nat.not_lt.2 (printed c here) h.1
    rw [Function.comp_apply, unit]
    rfl
  simp only [fieldName?, stringUnits?_quoted, textOfUnits?_unitOf, chars, Option.pure_def,
    Option.bind_eq_bind, Option.bind_some, Option.map_some, String.ofList_toList]

end Strings

/-! Numbers. -/

section Numbers

/-- The characters that go on with a number. -/
def inNumber (c : Char) : Bool := c.isDigit || c == '.' || c == 'e' || c == 'E'

/-- Digits, at least one. -/
def IsDigits (ds : List Char) : Prop := ds ≠ [] ∧ ∀ c ∈ ds, c.isDigit = true

/-- The number has digits wherever it needs them, and begins with no zero that it does not need. -/
structure Numeral.Spelled (n : Numeral) : Prop where
  digits : IsDigits n.whole
  first : n.whole = ['0'] ∨ n.whole.head? ≠ some '0'
  fraction : ∀ ds ∈ n.fraction, IsDigits ds
  exponent : ∀ e ∈ n.exponent, IsDigits e.2

def Numeral.fractionText (n : Numeral) : List Char :=
  match n.fraction with
  | some ds => '.' :: ds
  | none => []

def Numeral.exponentText (n : Numeral) : List Char :=
  match n.exponent with
  | some (negative, ds) => 'e' :: (if negative then '-' else '+') :: ds
  | none => []

theorem Numeral.toList_text (n : Numeral) : n.text.toList =
    (if n.negative then ['-'] else []) ++ (n.whole ++ (n.fractionText ++ n.exponentText)) := by
  rw [Numeral.text, String.toList_ofList, List.append_assoc, List.append_assoc]
  rfl

variable {n : Numeral} {ds rest : List Char}

theorem digits1?_append (h : IsDigits ds) (off : Off Char.isDigit rest) :
    digits1? (ds ++ rest) = some (ds, rest) := by
  have taken : (ds ++ rest).takeWhile Char.isDigit = ds := takeWhile_append_off h.2 off
  have left : ds.isEmpty = false := List.isEmpty_eq_false_iff.2 h.1
  simp only [digits1?, taken, left, List.drop_left]
  rfl

theorem wholePart?_append (h : n.Spelled) (off : Off Char.isDigit rest) :
    wholePart? (n.whole ++ rest) = some (n.whole, rest) := by
  obtain zero | other := h.first
  · rw [zero]
    rfl
  · obtain ⟨c, more, split⟩ := List.exists_cons_of_ne_nil h.digits.1
    have read := digits1?_append h.digits off
    rw [split] at read other ⊢
    rw [wholePart?.eq_def]
    split
    · rename_i same
      cases same
      exact absurd rfl other
    · exact read

theorem off_exponentText (off : Off inNumber rest) :
    Off (fun c => c.isDigit || c == '.') (n.exponentText ++ rest) := by
  unfold Numeral.exponentText
  split
  · exact off_cons rfl _
  · exact off.mono fun c h => by simp [inNumber, h]

theorem off_fractionText (off : Off inNumber rest) :
    Off Char.isDigit (n.fractionText ++ (n.exponentText ++ rest)) := by
  unfold Numeral.fractionText
  split
  · exact off_cons rfl _
  · exact (off_exponentText off).mono fun c h => by simp [h]

theorem fractionPart?_append (h : n.Spelled) (off : Off inNumber rest) :
    fractionPart? (n.fractionText ++ (n.exponentText ++ rest)) =
      some (n.fraction, n.exponentText ++ rest) := by
  have apart := off_exponentText (n := n) off
  cases found : n.fraction with
  | some ds =>
    have text : n.fractionText = '.' :: ds := by rw [Numeral.fractionText, found]
    have read := digits1?_append (h.fraction ds found) (apart.mono fun c h => by simp [h])
    rw [text, List.cons_append, fractionPart?, read]
    rfl
  | none =>
    have text : n.fractionText = [] := by rw [Numeral.fractionText, found]
    rw [text, List.nil_append, fractionPart?.eq_def]
    split
    · rename_i point
      exact absurd (apart '.' (by rw [point]; rfl)) (by decide)
    · rfl

theorem exponentPart?_append (h : n.Spelled) (off : Off inNumber rest) :
    exponentPart? (n.exponentText ++ rest) = some (n.exponent, rest) := by
  cases found : n.exponent with
  | some e =>
    obtain ⟨negative, ds⟩ := e
    have text : n.exponentText = 'e' :: (if negative then '-' else '+') :: ds := by
      rw [Numeral.exponentText, found]
    have read := digits1?_append (h.exponent _ found) (off.mono fun c h => by simp [inNumber, h])
    rw [text]
    cases negative <;> simp [exponentPart?, read]
  | none =>
    have text : n.exponentText = [] := by rw [Numeral.exponentText, found]
    rw [text, List.nil_append]
    cases rest with
    | nil => rfl
    | cons c rest =>
      have apart : ¬ (c = 'e' ∨ c = 'E') := by
        rintro (rfl | rfl)
        · exact absurd (off 'e' rfl) (by decide)
        · exact absurd (off 'E' rfl) (by decide)
      simp only [exponentPart?, if_neg apart]

/-- A number starts with its sign or a digit. -/
theorem Numeral.Spelled.text_front (h : n.Spelled) :
    ∃ c cs, n.text.toList = c :: cs ∧ (c = '-' ∨ c.isDigit = true) := by
  rw [n.toList_text]
  cases n.negative with
  | true => exact ⟨'-', _, rfl, .inl rfl⟩
  | false =>
    obtain ⟨c, more, split⟩ := List.exists_cons_of_ne_nil h.digits.1
    rw [split]
    exact ⟨c, _, rfl, .inr (h.digits.2 c (by rw [split]; exact List.mem_cons_self))⟩

/-- The number without its sign. -/
def unsigned? (negative : Bool) (cs : List Char) : Option (Numeral × List Char) := do
  let (whole, r) ← wholePart? cs
  let (fraction, r) ← fractionPart? r
  let (exponent, r) ← exponentPart? r
  return (⟨negative, whole, fraction, exponent⟩, r)

theorem numeral?_of_ne {c : Char} (other : c ≠ '-') (cs : List Char) :
    numeral? (c :: cs) = unsigned? false (c :: cs) := by
  rw [numeral?.eq_def]
  split
  rename_i negative r sign
  split at sign
  · rename_i same
    cases same
    exact absurd rfl other
  · cases sign
    rfl

theorem unsigned?_append (h : n.Spelled) (off : Off inNumber rest) :
    unsigned? n.negative (n.whole ++ (n.fractionText ++ (n.exponentText ++ rest))) = some (n, rest) := by
  simp only [unsigned?, wholePart?_append h (off_fractionText off), fractionPart?_append h off,
    exponentPart?_append h off, Option.pure_def, Option.bind_eq_bind, Option.bind_some]

theorem numeral?_append (h : n.Spelled) (off : Off inNumber rest) :
    numeral? (n.text.toList ++ rest) = some (n, rest) := by
  have read := unsigned?_append h off
  rw [n.toList_text, List.append_assoc, List.append_assoc, List.append_assoc]
  cases sign : n.negative with
  | true =>
    rw [sign] at read
    exact read
  | false =>
    obtain ⟨c, more, split⟩ := List.exists_cons_of_ne_nil h.digits.1
    have other : c ≠ '-' := by
      rintro rfl
      exact absurd (h.digits.2 '-' (by rw [split]; exact List.mem_cons_self)) (by decide)
    rw [sign, split] at read
    rw [split]
    exact (numeral?_of_ne other _).trans read

end Numbers

/-! Values. -/

mutual

/-- The value is one that can be read back: every number is spelled, every string has a text and no name
is written with codes. -/
def Written : Json → Prop
  | .null | .bool _ | .string _ => True
  | .unreadable => False
  | .number n => n.Spelled
  | .array items => AllWritten items
  | .object fields => FieldsWritten fields

def AllWritten : List Json → Prop
  | [] => True
  | j :: rest => j.Written ∧ AllWritten rest

def FieldsWritten : List (Name × Json) → Prop
  | [] => True
  | (name, j) :: rest => name.Plain ∧ j.Written ∧ FieldsWritten rest

end

section Values

theorem skipBlanks_cons {c : Char} (visible : isJsonBlank c = false) (cs : List Char) :
    skipBlanks (c :: cs) = c :: cs :=
  List.dropWhile_cons_of_neg (by simp [visible])

theorem not_isJsonBlank_of_isDigit {c : Char} (h : c.isDigit = true) : isJsonBlank c = false := by
  have blanks : ∀ d ∈ [' ', '\n', '\t', '\r'], c ≠ d := by
    rintro d listed rfl
    have known : [' ', '\n', '\t', '\r'].all (fun d => !d.isDigit) = true := by decide
    have none := List.all_eq_true.1 known c listed
    rw [h] at none
    cases none
  simpa [isJsonBlank, and_assoc] using blanks

theorem value?_number {c : Char} (start : c = '-' ∨ c.isDigit = true) (fuel : Nat) (cs : List Char) :
    value? (fuel + 1) (c :: cs) = (numeral? (c :: cs)).map fun (n, r) => (.number n, r) := by
  have visible : isJsonBlank c = false := by
    obtain rfl | digit := start
    · rfl
    · exact not_isJsonBlank_of_isDigit digit
  have apart : ∀ d ∈ ['n', 't', 'f', '"', '[', '\x7b'], c ≠ d := by
    rintro d listed rfl
    have known : ['n', 't', 'f', '"', '[', '\x7b'].all (fun d => d != '-' && !d.isDigit) = true := by
      decide
    have none := List.all_eq_true.1 known c listed
    obtain rfl | digit := start
    · exact absurd none (by decide)
    · rw [digit] at none
      simp at none
  rw [value?, skipBlanks_cons visible]
  split
  case h_7 => exact Option.map_eq_bind.symm
  all_goals
    rename_i same
    cases same
    exact absurd rfl (apart _ (by simp))

theorem value?_string (fuel : Nat) (cs : List Char) :
    value? (fuel + 1) ('"' :: cs) =
      (literal? cs).map fun (text, r) => (text.elim .unreadable .string, r) := by
  rw [value?, skipBlanks_cons rfl]
  exact Option.map_eq_bind.symm

theorem value?_array {c : Char} (visible : isJsonBlank c = false) (other : c ≠ ']') (fuel : Nat)
    (cs : List Char) : value? (fuel + 1) ('[' :: c :: cs) =
      (items? fuel (c :: cs)).map fun (items, r) => (.array items, r) := by
  rw [value?, skipBlanks_cons rfl]
  simp only [skipBlanks_cons visible]
  split
  · rename_i same
    cases same
    exact absurd rfl other
  · exact Option.map_eq_bind.symm

theorem value?_object (fuel : Nat) (cs : List Char) : value? (fuel + 1) ('\x7b' :: '"' :: cs) =
      (fields? fuel ('"' :: cs)).map fun (fields, r) => (fields.elim .unreadable .object, r) := by
  rw [value?, skipBlanks_cons rfl]
  exact Option.map_eq_bind.symm

theorem render_front {j : Json} (h : j.Written) :
    ∃ c cs, (render j).toList = c :: cs ∧ isJsonBlank c = false ∧ c ≠ ']' := by
  match j with
  | .null => exact ⟨'n', _, rfl, rfl, by decide⟩
  | .bool true => exact ⟨'t', _, rfl, rfl, by decide⟩
  | .bool false => exact ⟨'f', _, rfl, rfl, by decide⟩
  | .string s => exact ⟨'"', _, toList_stringText s, rfl, by decide⟩
  | .array items => exact ⟨'[', _, by rw [render, String.toList_append, String.toList_append]; rfl, rfl, by decide⟩
  | .object fields => exact ⟨'\x7b', _, by rw [render, String.toList_append, String.toList_append]; rfl, rfl, by decide⟩
  | .number n =>
    obtain ⟨c, cs, front, rfl | digit⟩ := Numeral.Spelled.text_front h
    · exact ⟨'-', cs, front, rfl, by decide⟩
    · refine ⟨c, cs, front, not_isJsonBlank_of_isDigit digit, ?_⟩
      rintro rfl
      exact absurd digit (by decide)

/-- The items of an array, or the fields of an object, as they are written. -/
def listed (texts : List String) : List Char := (",".intercalate texts).toList

theorem listed_one (text : String) : listed [text] = text.toList := by
  rw [listed, String.intercalate_singleton]

theorem listed_cons (first next : String) (more : List String) :
    listed (first :: next :: more) = first.toList ++ ',' :: listed (next :: more) := by
  rw [listed, String.intercalate_cons_cons, String.toList_append, String.toList_append,
    List.append_assoc]
  rfl

theorem toList_array (items : List Json) :
    (render (.array items)).toList = '[' :: (listed (renderItems items) ++ [']']) := by
  rw [render, String.toList_append, String.toList_append]
  rfl

theorem toList_object (fields : List (Name × Json)) :
    (render (.object fields)).toList = '\x7b' :: (listed (renderFields fields) ++ ['\x7d']) := by
  rw [render, String.toList_append, String.toList_append]
  rfl

theorem toList_field (name : String) (value : Json) :
    (stringText name ++ ":" ++ render value).toList =
      '"' :: (quoted name ++ ':' :: (render value).toList) := by
  rw [String.toList_append, String.toList_append, toList_stringText, List.append_assoc]
  rfl

theorem listed_items_front {j : Json} (h : j.Written) (items : List Json) :
    ∃ c cs, listed (renderItems (j :: items)) = c :: cs ∧ isJsonBlank c = false ∧ c ≠ ']' := by
  obtain ⟨c, cs, front, visible, other⟩ := render_front h
  cases items with
  | nil => exact ⟨c, cs, by rw [renderItems, renderItems, listed_one, front], visible, other⟩
  | cons next items =>
    exact ⟨c, _, by rw [renderItems, renderItems, listed_cons, front, List.cons_append], visible, other⟩

theorem listed_fields_front (f : Name × Json) (fields : List (Name × Json)) :
    ∃ cs, listed (renderFields (f :: fields)) = '"' :: cs := by
  obtain ⟨name, value⟩ := f
  cases fields with
  | nil => exact ⟨_, by rw [renderFields, renderFields, listed_one, toList_field]⟩
  | cons next fields =>
    obtain ⟨name', value'⟩ := next
    exact ⟨_, by rw [renderFields, renderFields, listed_cons, toList_field, List.cons_append]⟩

theorem off_comma (cs : List Char) : Off inNumber (',' :: cs) := off_cons (by decide) cs

theorem off_bracket (cs : List Char) : Off inNumber (']' :: cs) := off_cons (by decide) cs

theorem off_brace (cs : List Char) : Off inNumber ('\x7d' :: cs) := off_cons (by decide) cs

theorem exists_succ {m fuel : Nat} (h : m < fuel) : ∃ n, fuel = n + 1 :=
  Nat.exists_eq_add_one_of_ne_zero (Nat.ne_zero_of_lt h)

mutual

theorem value?_render : (j : Json) → j.Written → ∀ (fuel : Nat) (rest : List Char),
    (render j).toList.length < fuel → Off inNumber rest →
      value? fuel ((render j).toList ++ rest) = some (j, rest)
  | .null => fun _ fuel rest enough _ => by
    obtain ⟨fuel, rfl⟩ := exists_succ enough
    rfl
  | .bool true => fun _ fuel rest enough _ => by
    obtain ⟨fuel, rfl⟩ := exists_succ enough
    rfl
  | .bool false => fun _ fuel rest enough _ => by
    obtain ⟨fuel, rfl⟩ := exists_succ enough
    rfl
  | .unreadable => False.elim
  | .number n => fun h fuel rest enough off => by
    obtain ⟨fuel, rfl⟩ := exists_succ enough
    have spelled : n.Spelled := h
    have read := numeral?_append spelled off
    obtain ⟨c, cs, front, start⟩ := spelled.text_front
    rw [front, List.cons_append] at read
    rw [render, front, List.cons_append, value?_number start, read]
    rfl
  | .string s => fun _ fuel rest enough _ => by
    obtain ⟨fuel, rfl⟩ := exists_succ enough
    rw [render, toList_stringText, List.cons_append, value?_string, literal?_quoted]
    rfl
  | .array [] => fun _ fuel rest enough _ => by
    obtain ⟨fuel, rfl⟩ := exists_succ enough
    rfl
  | .array (j :: items) => fun h fuel rest enough _ => by
    obtain ⟨fuel, rfl⟩ := exists_succ enough
    have written : j.Written ∧ AllWritten items := h
    rw [toList_array] at enough ⊢
    simp only [List.length_cons, List.length_append, List.length_nil] at enough
    have body := items?_render (j :: items) h (List.cons_ne_nil _ _) fuel rest
      (Nat.lt_of_succ_lt_succ enough)
    obtain ⟨c, cs, front, visible, other⟩ := listed_items_front written.1 items
    rw [front, List.cons_append] at body
    rw [front, List.cons_append, List.cons_append, List.cons_append, List.append_assoc,
      value?_array visible other]
    exact congrArg (Option.map _) body
  | .object [] => fun _ fuel rest enough _ => by
    obtain ⟨fuel, rfl⟩ := exists_succ enough
    rfl
  | .object (f :: fields) => fun h fuel rest enough _ => by
    obtain ⟨fuel, rfl⟩ := exists_succ enough
    rw [toList_object] at enough ⊢
    simp only [List.length_cons, List.length_append, List.length_nil] at enough
    have body := fields?_render (f :: fields) h (List.cons_ne_nil _ _) fuel rest
      (Nat.lt_of_succ_lt_succ enough)
    obtain ⟨cs, front⟩ := listed_fields_front f fields
    rw [front, List.cons_append] at body
    rw [front, List.cons_append, List.cons_append, List.cons_append, List.append_assoc, value?_object]
    exact congrArg (Option.map _) body

theorem items?_render : (items : List Json) → AllWritten items → items ≠ [] →
    ∀ (fuel : Nat) (rest : List Char), (listed (renderItems items)).length + 1 < fuel →
      items? fuel (listed (renderItems items) ++ ']' :: rest) = some (items, rest)
  | [] => fun _ some_item => absurd rfl some_item
  | [j] => fun h _ fuel rest enough => by
    obtain ⟨fuel, rfl⟩ := exists_succ enough
    have short := Nat.lt_of_succ_lt_succ enough
    rw [renderItems, renderItems, listed_one] at short ⊢
    have item := value?_render j h.1 fuel _ short (off_bracket rest)
    rw [items?, item]
    rfl
  | j :: next :: items => fun h _ fuel rest enough => by
    obtain ⟨fuel, rfl⟩ := exists_succ enough
    have short := Nat.lt_of_succ_lt_succ enough
    rw [renderItems, renderItems, listed_cons, ← renderItems, List.length_append,
      List.length_cons] at short
    have item := value?_render j h.1 fuel _ (Nat.lt_of_le_of_lt (Nat.le_add_right ..) short)
      (off_comma (listed (renderItems (next :: items)) ++ ']' :: rest))
    have others := items?_render (next :: items) h.2 (List.cons_ne_nil _ _) fuel rest
      (Nat.lt_of_le_of_lt (Nat.le_add_left ..) short)
    rw [renderItems, renderItems, listed_cons, ← renderItems, items?, List.append_assoc,
      List.cons_append, item]
    simp only [Option.bind_eq_bind, Option.bind_some, skipBlanks_cons (c := ',') rfl, others]
    rfl

theorem fields?_render : (fields : List (Name × Json)) → FieldsWritten fields → fields ≠ [] →
    ∀ (fuel : Nat) (rest : List Char), (listed (renderFields fields)).length + 1 < fuel →
      fields? fuel (listed (renderFields fields) ++ '\x7d' :: rest) = some (some fields, rest)
  | [] => fun _ some_field => absurd rfl some_field
  | [(name, j)] => fun h _ fuel rest enough => by
    obtain ⟨fuel, rfl⟩ := exists_succ enough
    have short := Nat.lt_of_succ_lt_succ enough
    rw [renderFields, renderFields, listed_one, toList_field, List.length_cons, List.length_append,
      List.length_cons] at short
    have read := fieldName?_quoted h.1 (':' :: ((render j).toList ++ '\x7d' :: rest))
    have item := value?_render j h.2.1 fuel _ (by omega) (off_brace rest)
    rw [renderFields, renderFields, listed_one, toList_field, fields?, List.cons_append,
      List.append_assoc, List.cons_append, skipBlanks_cons rfl, read]
    simp only [Option.bind_eq_bind, Option.bind_some, skipBlanks_cons (c := ':') rfl, item]
    rfl
  | (name, j) :: next :: fields => fun h _ fuel rest enough => by
    obtain ⟨fuel, rfl⟩ := exists_succ enough
    have short := Nat.lt_of_succ_lt_succ enough
    obtain ⟨name', j'⟩ := next
    rw [renderFields, renderFields, listed_cons, ← renderFields, toList_field, List.length_append,
      List.length_cons, List.length_append, List.length_cons, List.length_cons] at short
    have read := fieldName?_quoted h.1
      (':' :: ((render j).toList ++ ',' :: (listed (renderFields ((name', j') :: fields)) ++ '\x7d' :: rest)))
    have item := value?_render j h.2.1 fuel _ (by omega)
      (off_comma (listed (renderFields ((name', j') :: fields)) ++ '\x7d' :: rest))
    have others := fields?_render ((name', j') :: fields) h.2.2 (List.cons_ne_nil _ _) fuel rest
      (by omega)
    rw [renderFields, renderFields, listed_cons, ← renderFields, toList_field, fields?]
    simp only [List.cons_append, List.append_assoc, Option.bind_eq_bind, Option.bind_some,
      skipBlanks_cons (c := '"') rfl, skipBlanks_cons (c := ':') rfl, skipBlanks_cons (c := ',') rfl,
      read, item, others]
    rfl

end

/-- A value that can be read back is read from its text. -/
theorem parse?_render {j : Json} (h : j.Written) : parse? (render j) = some j := by
  have read := value?_render j h _ [] (Nat.lt_succ_self _) (off_nil inNumber)
  rw [List.append_nil] at read
  rw [parse?, read]
  rfl

/-- The characters of the name are written as they are. -/
def Name.isPrinted (name : Name) : Bool := name.plain && name.text.toList.all (32 ≤ ·.toNat)

theorem Name.plain_of_isPrinted {name : Name} (h : name.isPrinted = true) : name.Plain := by
  rw [isPrinted, Bool.and_eq_true, List.all_eq_true] at h
  exact ⟨h.1, fun c here => of_decide_eq_true (h.2 c here)⟩

theorem written_object {fields : List (Name × Json)} (names : fields.all (·.1.isPrinted) = true)
    (values : fields.Forall (·.2.Written)) : (Json.object fields).Written := by
  have each : ∀ {l : List (Name × Json)}, l.all (·.1.isPrinted) = true → l.Forall (·.2.Written) →
      FieldsWritten l := by
    intro l names values
    induction l with
    | nil => trivial
    | cons f l ih =>
      rw [List.all_cons, Bool.and_eq_true] at names
      rw [List.forall_cons] at values
      exact ⟨Name.plain_of_isPrinted names.1, values.1, ih names.2 values.2⟩
  exact each names values

theorem written_list {encode : α → Json} {xs : List α} (h : ∀ a ∈ xs, (encode a).Written) :
    (ofList encode xs).Written := by
  have each : ∀ {l : List α}, (∀ a ∈ l, (encode a).Written) → AllWritten (l.map encode) := by
    intro l h
    induction l with
    | nil => trivial
    | cons a l ih => exact ⟨h a (.head l), ih fun b here => h b (.tail a here)⟩
  exact each h

theorem written_option {encode : α → Json} {o : Option α} (h : ∀ a ∈ o, (encode a).Written) :
    (ofOption encode o).Written := by
  cases o with
  | none => trivial
  | some a => exact h a rfl

end Values

end Arbiter.Json
