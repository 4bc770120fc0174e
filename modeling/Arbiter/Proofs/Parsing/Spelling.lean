import Arbiter.Proofs.Parsing.Numeral
import Arbiter.Proofs.Parsing.Steps

/-! The spelling of tokens. Main statements: a token that the lexer finds is spelled by its text, which
is read as that token wherever it stands, as long as nothing follows that would make it longer. -/

namespace Arbiter.Syntax

/-! The characters that a string needs from its front are all that matters to its length. -/

theorem lineStringLength?_cons {q c : Char} (noEscape : c ≠ '\\') (r : List Char) :
    lineStringLength? q (c :: r) =
      if c = q then some 1 else if c = '\n' then none else (lineStringLength? q r).map (· + 1) := by
  rw [lineStringLength?.eq_def]
  exact if_neg noEscape

theorem blockStringLength?_cons {q c : Char} (noEscape : c ≠ '\\') (r : List Char) :
    blockStringLength? q (c :: r) =
      if c = q ∧ [q, q].isPrefixOf r then some 3 else (blockStringLength? q r).map (· + 1) := by
  rw [blockStringLength?.eq_def]
  exact if_neg noEscape

theorem lineStringLength?_front (q : Char) (cs : List Char) :
    ∀ n, lineStringLength? q cs = some n →
      ∃ u v, cs = u ++ v ∧ u.length = n ∧ ∀ rest, lineStringLength? q (u ++ rest) = some n := by
  induction cs using lineStringLength?.induct q with
  | case1 =>
    intro n h
    cases h
  | case2 =>
    intro n h
    cases h
  | case3 head s ih =>
    intro n h
    obtain ⟨m, found, rfl⟩ := Option.map_eq_some_iff.1 h
    obtain ⟨u, v, rfl, rfl, again⟩ := ih m found
    refine ⟨'\\' :: head :: u, v, rfl, rfl, fun rest => ?_⟩
    exact Option.map_eq_some_iff.2 ⟨_, again rest, rfl⟩
  | case4 s noEscape =>
    intro n h
    have closes : ∀ r, lineStringLength? q (q :: r) = some 1 := by
      intro r
      rw [lineStringLength?_cons noEscape, if_pos rfl]
    rw [closes] at h
    exact ⟨[q], s, rfl, Option.some.inj h, fun rest => (closes _).trans h⟩
  | case5 s noEscape noQuote =>
    intro n h
    rw [lineStringLength?_cons noEscape, if_neg noQuote, if_pos rfl] at h
    cases h
  | case6 head s noEscape noQuote noBreak ih =>
    intro n h
    have goesOn : ∀ r, lineStringLength? q (head :: r) = (lineStringLength? q r).map (· + 1) := by
      intro r
      rw [lineStringLength?_cons noEscape, if_neg noQuote, if_neg noBreak]
    rw [goesOn] at h
    obtain ⟨m, found, rfl⟩ := Option.map_eq_some_iff.1 h
    obtain ⟨u, v, rfl, rfl, again⟩ := ih m found
    refine ⟨head :: u, v, rfl, rfl, fun rest => (goesOn _).trans ?_⟩
    exact Option.map_eq_some_iff.2 ⟨_, again rest, rfl⟩

theorem blockStringLength?_front (q : Char) (cs : List Char) :
    ∀ n, blockStringLength? q cs = some n → 3 ≤ n ∧
      ∃ u v, cs = u ++ v ∧ u.length = n ∧ ∀ rest, blockStringLength? q (u ++ rest) = some n := by
  induction cs using blockStringLength?.induct q with
  | case1 =>
    intro n h
    cases h
  | case2 =>
    intro n h
    cases h
  | case3 head s ih =>
    intro n h
    obtain ⟨m, found, rfl⟩ := Option.map_eq_some_iff.1 h
    obtain ⟨long, u, v, rfl, rfl, again⟩ := ih m found
    refine ⟨by omega, '\\' :: head :: u, v, rfl, rfl, fun rest => ?_⟩
    exact Option.map_eq_some_iff.2 ⟨_, again rest, rfl⟩
  | case4 head s noEscape closing =>
    intro n h
    obtain ⟨rfl, quotes⟩ := closing
    obtain ⟨v, rfl⟩ := List.isPrefixOf_iff_prefix.1 quotes
    have closes : ∀ r, blockStringLength? head (head :: head :: head :: r) = some 3 := by
      intro r
      rw [blockStringLength?_cons noEscape, if_pos ⟨rfl, by simp⟩]
    have three : n = 3 := Option.some.inj (h.symm.trans (closes v))
    subst three
    exact ⟨Nat.le_refl 3, [head, head, head], v, rfl, rfl, closes⟩
  | case5 head s noEscape open' ih =>
    intro n h
    rw [blockStringLength?_cons noEscape, if_neg open'] at h
    obtain ⟨m, found, rfl⟩ := Option.map_eq_some_iff.1 h
    obtain ⟨long, u, v, rfl, rfl, again⟩ := ih m found
    refine ⟨by omega, head :: u, v, rfl, rfl, fun rest => ?_⟩
    -- The two characters that decide whether the string closes here are among those of `u`.
    have stillOpen : ¬(head = q ∧ [q, q].isPrefixOf (u ++ rest) = true) := by
      match u, long with
      | a :: b :: w, _ => simpa using open'
    rw [List.cons_append, blockStringLength?_cons noEscape, if_neg stillOpen]
    exact Option.map_eq_some_iff.2 ⟨_, again rest, rfl⟩

theorem stringLength?_front {q : Char} {r : List Char} {n : Nat} (h : stringLength? q r = some n) :
    ∃ u v, r = u ++ v ∧ u.length = n ∧
      ∀ rest, Off (· == q) rest → stringLength? q (u ++ rest) = some n := by
  unfold stringLength? at h
  by_cases block : [q, q].isPrefixOf r = true
  · rw [if_pos block] at h
    obtain ⟨s, rfl⟩ := List.isPrefixOf_iff_prefix.1 block
    obtain ⟨m, found, rfl⟩ := Option.map_eq_some_iff.1 h
    obtain ⟨-, u, v, same, rfl, again⟩ := blockStringLength?_front q _ m found
    have same : s = u ++ v := same
    subst same
    refine ⟨q :: q :: u, v, rfl, rfl, fun rest _ => ?_⟩
    have opens : [q, q].isPrefixOf (q :: q :: u ++ rest) = true := by simp
    unfold stringLength?
    rw [if_pos opens]
    exact Option.map_eq_some_iff.2 ⟨_, again rest, rfl⟩
  · rw [if_neg block] at h
    obtain ⟨u, v, rfl, rfl, again⟩ := lineStringLength?_front q r n h
    refine ⟨u, v, rfl, rfl, fun rest off => ?_⟩
    have line : ¬[q, q].isPrefixOf (u ++ rest) = true := by
      match u with
      | [] =>
        have none := again []
        cases none
      | [a] =>
        cases rest with
        | nil => simp
        | cons d rest =>
          have other := off d rfl
          simp only [beq_eq_false_iff_ne] at other
          simp [Ne.symm other]
      | a :: b :: w => simpa using block
    unfold stringLength?
    rw [if_neg line]
    exact again rest

/-- The characters that would make a token longer which they follow. -/
def TokenKind.glues (k : TokenKind) (c : Char) : Bool :=
  isNameChar c || c == '"' || c == '\'' ||
    match k with
    | .number _ => c == '.'
    | _ => false

/-- The text is read as the token wherever nothing follows that makes it longer. -/
def Spells (text : String) (k : TokenKind) : Prop :=
  ∃ c u, text.toList = c :: u ∧
    ∀ rest, Off k.glues rest → lexeme c (u ++ rest) = .ok (.token k, u.length)

/-- A name, number or string is spelled by its own text. -/
def TokenKind.IsSpelled (k : TokenKind) : Prop :=
  match k with
  | .name text | .number text | .string text => Spells text k
  | _ => True

theorem spelling_append (c : Char) (u v : List Char) :
    spelling c (u ++ v) u.length = .ofList (c :: u) := by
  simp [spelling]

/-! What the lexer does by the first character. -/

theorem isNameStart_ascii {c : Char} (h : c.toNat < 0xAA) :
    isNameStart c = (c == '_' || c.isAlpha) := by
  have later : ∀ r ∈ Text.alphabeticRanges, 0xAA ≤ r.1 := by decide +kernel
  have outside : Text.within Text.alphabeticRanges c.toNat = false := by
    rw [Bool.eq_false_iff]
    intro inside
    obtain ⟨r, hr, low, -⟩ := Text.within_iff.1 inside
    have := later r hr
    omega
  rw [isNameStart, Text.isAlphabetic, outside, Bool.or_false]

theorem isNameChar_ascii {c : Char} (h : c.toNat < 0xAA) :
    isNameChar c = (c == '_' || c.isAlpha || c.isDigit) := by
  have later : ∀ r ∈ Text.numberRanges, 0xAA ≤ r.1 := by decide +kernel
  have outside : Text.within Text.numberRanges c.toNat = false := by
    rw [Bool.eq_false_iff]
    intro inside
    obtain ⟨r, hr, low, -⟩ := Text.within_iff.1 inside
    have := later r hr
    omega
  rw [isNameChar, isNameStart_ascii h, Text.isNumber, outside, Bool.or_false]

theorem not_isAlpha_of_isDigit {c : Char} (h : c.isDigit = true) : c.isAlpha = false := by
  simp only [Char.isDigit, Bool.and_eq_true, decide_eq_true_eq] at h
  have high : c.val.toNat ≤ 57 := h.2
  rw [Bool.eq_false_iff]
  intro alpha
  rcases Bool.or_eq_true_iff.1 alpha with upper | lower
  · have low : 65 ≤ c.val.toNat := (of_decide_eq_true upper).1
    omega
  · have low : 97 ≤ c.val.toNat := of_decide_eq_true (Bool.and_eq_true_iff.1 lower).1
    omega

theorem toNat_lt_of_isDigit {c : Char} (h : c.isDigit = true) : c.toNat < 0xAA := by
  simp only [Char.isDigit, Bool.and_eq_true, decide_eq_true_eq] at h
  have upper : c.val.toNat ≤ '9'.val.toNat := h.2
  exact Nat.lt_of_le_of_lt upper (by decide)

theorem lexeme_quote {q : Char} (h : q = '"' ∨ q = '\'') (r : List Char) :
    lexeme q r = match stringLength? q r with
      | some n => .ok (.token (.string (spelling q r n)), n)
      | none => .error (.unterminatedString, 0) := by
  rcases h with rfl | rfl <;> rfl

theorem lexeme_number {c : Char} {r : List Char}
    (h : c.isDigit = true ∨ c = '.' ∧ r.head?.any Char.isDigit = true) :
    lexeme c r = .ok (.token (.number (spelling c r ((numeral (c :: r)).length - 1))),
      (numeral (c :: r)).length - 1) := by
  have other : ∀ d : Char, d.isDigit = false → d ≠ '.' → c ≠ d := by
    rintro d digit point rfl
    rcases h with h | h
    · rw [digit] at h
      cases h
    · exact point h.1
  simp only [lexeme, other ' ' (by decide) (by decide), other '\t' (by decide) (by decide),
    other '\x0c' (by decide) (by decide), other '\r' (by decide) (by decide),
    other '#' (by decide) (by decide), other '\\' (by decide) (by decide),
    other '\n' (by decide) (by decide), other '"' (by decide) (by decide),
    other '\'' (by decide) (by decide), or_self, if_false, if_pos h]

/-- What a word is at the front of a text: a string if it marks one. -/
def wordLexeme (c : Char) (r : List Char) : Except (Cause × Nat) (Lexeme × Nat) :=
  let n := (r.takeWhile isNameChar).length
  let word := spelling c r n
  match isStringMark word, r.drop n with
  | true, q :: s =>
    if q = '"' ∨ q = '\'' then
      match stringLength? q s with
      | some m => .ok (.token (.string (spelling c r (n + 1 + m))), n + 1 + m)
      | none => .error (.unterminatedString, n + 1)
    else .ok (.token (.name word), n)
  | _, _ => .ok (.token (.name word), n)

theorem not_isDigit_of_isNameStart {c : Char} (h : isNameStart c = true) : c.isDigit = false := by
  rw [Bool.eq_false_iff]
  intro digit
  rw [isNameStart_ascii (toNat_lt_of_isDigit digit), not_isAlpha_of_isDigit digit, Bool.or_false,
    beq_iff_eq] at h
  rw [h] at digit
  cases digit

theorem lexeme_word {c : Char} (h : isNameStart c = true) (r : List Char) :
    lexeme c r = wordLexeme c r := by
  have other : ∀ d : Char, isNameStart d = false → c ≠ d := by
    rintro d none rfl
    rw [none] at h
    cases h
  have ascii : ∀ d : Char, d.toNat < 0xAA → (d == '_' || d.isAlpha) = false → c ≠ d :=
    fun d low none => other d ((isNameStart_ascii low).trans none)
  have digit := not_isDigit_of_isNameStart h
  simp only [lexeme, ascii ' ' (by decide) (by decide), ascii '\t' (by decide) (by decide),
    ascii '\x0c' (by decide) (by decide), ascii '\r' (by decide) (by decide),
    ascii '#' (by decide) (by decide), ascii '\\' (by decide) (by decide),
    ascii '\n' (by decide) (by decide), ascii '"' (by decide) (by decide),
    ascii '\'' (by decide) (by decide), ascii '.' (by decide) (by decide), digit, or_self, if_false,
    if_pos h, false_and, Bool.false_eq_true]
  rfl

/-- A character that begins neither a token with a text of its own nor a blank. -/
theorem lexeme_cases {c : Char} {r : List Char} {k : TokenKind} {n : Nat}
    (h : lexeme c r = .ok (.token k, n)) :
    (c = '"' ∨ c = '\'') ∨ (c.isDigit = true ∨ c = '.' ∧ r.head?.any Char.isDigit = true) ∨
      isNameStart c = true ∨ ∃ s, k = .op s := by
  unfold lexeme at h
  split at h
  · cases h
  split at h
  · cases h
  split at h
  · split at h <;> cases h
  split at h
  · cases h
  split at h
  · exact .inl ‹_›
  split at h
  · exact .inr (.inl ‹_›)
  split at h
  · exact .inr (.inr (.inl ‹_›))
  · split at h
    · cases h
      exact .inr (.inr (.inr ⟨_, rfl⟩))
    · cases h

theorem numeral_first {c : Char} {r : List Char}
    (h : c.isDigit = true ∨ c = '.' ∧ r.head?.any Char.isDigit = true) :
    ∃ u v, numeral (c :: r) = c :: u ∧ r = u ++ v ∧
      (c.isDigit = true ∨ c = '.' ∧ ∀ rest, (u ++ rest).head?.any Char.isDigit = true) := by
  obtain ⟨v, front⟩ := numeral_prefix (c :: r)
  rcases h with digit | ⟨rfl, digit⟩
  · have some : numeral (c :: r) ≠ [] := by
      by_cases radix : ∃ x s, c :: r = '0' :: x :: s ∧ x ∈ radixMarks
      · obtain ⟨x, s, same, hx⟩ := radix
        rw [same, numeral_of_radix hx]
        exact List.cons_ne_nil _ _
      · rw [numeral_of_not_radix fun x s same hx => radix ⟨x, s, same, hx⟩, decimalNumeral,
          List.takeWhile_cons_of_pos (isDigitOrUnderscore_of_isDigit digit)]
        exact List.cons_ne_nil _ _
    obtain ⟨d, u, found⟩ := List.exists_cons_of_ne_nil some
    rw [found] at front ⊢
    obtain ⟨rfl, same⟩ := List.cons.inj front
    exact ⟨u, v, rfl, same.symm, .inl digit⟩
  · cases r with
    | nil => cases digit
    | cons d r =>
      have digit : d.isDigit = true := by simpa using digit
      have point : d ≠ '.' := by
        rintro rfl
        cases digit
      have found : ∃ w, numeral ('.' :: d :: r) = '.' :: d :: w := by
        have whole : ('.' :: d :: r).takeWhile isDigitOrUnderscore = [] :=
          List.takeWhile_cons_of_neg (by decide)
        have fraction : fractionPart ('.' :: d :: r) = '.' :: d :: r.takeWhile isDigitOrUnderscore := by
          rw [fractionPart, if_neg (by simpa using point),
            List.takeWhile_cons_of_pos (isDigitOrUnderscore_of_isDigit digit)]
        rw [numeral_of_not_radix (by simp), decimalNumeral]
        simp only [whole, List.nil_append, List.length_nil, List.drop_zero, fraction,
          List.cons_append]
        exact ⟨_, rfl⟩
      obtain ⟨w, found⟩ := found
      rw [found] at front ⊢
      refine ⟨d :: w, v, rfl, (List.cons.inj front).2.symm, .inr ⟨rfl, fun rest => ?_⟩⟩
      simpa using digit

theorem off_glues {k : TokenKind} {rest : List Char} (off : Off k.glues rest) :
    Off (fun c => isNameChar c || c == '"' || c == '\'') rest :=
  off.mono fun c h => by simp only [TokenKind.glues, h, Bool.true_or]

theorem isSpelled_of_wordLexeme {c : Char} {r : List Char} (start : isNameStart c = true)
    {k : TokenKind} {n : Nat} (h : wordLexeme c r = .ok (.token k, n)) : k.IsSpelled := by
  obtain ⟨m, v, same, word, off⟩ : ∃ m v, r = m ++ v ∧ (∀ d ∈ m, isNameChar d = true) ∧
      Off isNameChar v :=
    ⟨_, _, (List.prefix_iff_eq_append.1 (List.takeWhile_prefix isNameChar)).symm,
      fun _ => mem_takeWhile, off_takeWhile_drop isNameChar r⟩
  subst same
  have letters : ∀ {w}, Off isNameChar w → (m ++ w).takeWhile isNameChar = m :=
    fun off => takeWhile_append_off word off
  have name : ∀ w, Off isNameChar w → (∀ q s, w = q :: s → ¬(q = '"' ∨ q = '\'')) →
      wordLexeme c (m ++ w) = .ok (.token (.name (.ofList (c :: m))), m.length) := by
    intro w off noQuote
    unfold wordLexeme
    simp only [letters off, spelling_append, List.drop_left]
    split
    · rw [if_neg (noQuote _ _ rfl)]
    · rfl
  have isName : ∀ {n}, n = m.length → k = .name (.ofList (c :: m)) → k.IsSpelled := by
    rintro _ rfl rfl
    refine ⟨c, m, String.toList_ofList, fun rest off => ?_⟩
    have apart := off_glues off
    rw [lexeme_word start]
    refine name rest (apart.mono fun d hd => by simp [hd]) ?_
    rintro q s rfl quote
    have := apart q rfl
    rcases quote with rfl | rfl <;> simp at this
  by_cases quoted : ∃ q s, v = q :: s ∧ (q = '"' ∨ q = '\'') ∧ isStringMark (.ofList (c :: m)) = true
  · obtain ⟨q, s, rfl, quote, mark⟩ := quoted
    have string : ∀ {w}, wordLexeme c (m ++ q :: w) = match stringLength? q w with
        | some l => .ok (.token (.string (spelling c (m ++ q :: w) (m.length + 1 + l))),
            m.length + 1 + l)
        | none => .error (.unterminatedString, m.length + 1) := by
      intro w
      have off : Off isNameChar (q :: w) := by
        refine off_cons ?_ w
        rcases quote with rfl | rfl <;> exact isNameChar_ascii (by decide)
      unfold wordLexeme
      simp only [letters off, spelling_append, List.drop_left, mark, if_pos quote]
    rw [string] at h
    cases found : stringLength? q s with
    | none =>
      rw [found] at h
      cases h
    | some l =>
      rw [found] at h
      cases h
      obtain ⟨u, v, rfl, rfl, again⟩ := stringLength?_front found
      have whole : ∀ w, spelling c (m ++ q :: (u ++ w)) (m.length + 1 + u.length) =
          .ofList (c :: (m ++ q :: u)) := by
        intro w
        rw [show m ++ q :: (u ++ w) = (m ++ q :: u) ++ w by simp,
          show m.length + 1 + u.length = (m ++ q :: u).length by simp; omega, spelling_append]
      rw [whole]
      refine ⟨c, m ++ q :: u, String.toList_ofList, fun rest off => ?_⟩
      have apart : Off (· == q) rest := (off_glues off).mono fun d same => by
        simp only [beq_iff_eq] at same
        subst same
        rcases quote with rfl | rfl <;> simp
      rw [lexeme_word start, List.append_assoc, List.cons_append, string, again rest apart]
      simp only [whole]
      congr 2
      simp
      omega
  · have plain : wordLexeme c (m ++ v) = .ok (.token (.name (.ofList (c :: m))), m.length) := by
      unfold wordLexeme
      simp only [letters off, spelling_append, List.drop_left]
      split
      · rename_i mark
        rw [if_neg fun quote => quoted ⟨_, _, rfl, quote, mark⟩]
      · rfl
    rw [plain] at h
    cases h
    exact isName rfl rfl

/-- The lexer finds only tokens that are spelled by their texts. -/
theorem isSpelled_of_lexeme {c : Char} {r : List Char} {k : TokenKind} {n : Nat}
    (h : lexeme c r = .ok (.token k, n)) : k.IsSpelled := by
  rcases lexeme_cases h with quote | number | word | ⟨s, rfl⟩
  · rw [lexeme_quote quote] at h
    cases found : stringLength? c r with
    | none =>
      rw [found] at h
      cases h
    | some m =>
      rw [found] at h
      cases h
      obtain ⟨u, v, rfl, rfl, again⟩ := stringLength?_front found
      rw [spelling_append]
      refine ⟨c, u, String.toList_ofList, fun rest off => ?_⟩
      have apart : Off (· == c) rest := off.mono fun d same => by
        simp only [beq_iff_eq] at same
        subst same
        rcases quote with rfl | rfl <;> simp [TokenKind.glues]
      rw [lexeme_quote quote, again rest apart]
      simp [spelling_append]
  · rw [lexeme_number number] at h
    cases h
    obtain ⟨u, v, found, rfl, again⟩ := numeral_first number
    rw [found, List.length_cons, Nat.add_sub_cancel, spelling_append]
    refine ⟨c, u, String.toList_ofList, fun rest off => ?_⟩
    have apart : Off inNumeral rest := off.mono fun d hd => by
      simp only [inNumeral, Bool.or_eq_true, beq_iff_eq] at hd
      rcases hd with hd | rfl <;> simp [TokenKind.glues, *]
    have same : numeral (c :: (u ++ rest)) = c :: u := by
      rw [← List.cons_append, ← found, numeral_append _ apart]
    rw [lexeme_number (again.imp_right fun tail => ⟨tail.1, tail.2 rest⟩), same,
      List.length_cons, Nat.add_sub_cancel, spelling_append]
  · rw [lexeme_word word] at h
    exact isSpelled_of_wordLexeme word h
  · trivial

/-- A number with a text of its own is all of that text. -/
theorem Spells.numeral_eq {text : String} {c : Char} {u : List Char} (h : Spells text (.number text))
    (chars : text.toList = c :: u) : numeral (c :: u) = c :: u ∧
      (c.isDigit = true ∨ c = '.' ∧ u.head?.any Char.isDigit = true) := by
  obtain ⟨c', u', chars', found⟩ := h
  obtain ⟨rfl, rfl⟩ := List.cons.inj (chars'.symm.trans chars)
  have found := found [] (off_nil _)
  rw [List.append_nil] at found
  rcases lexeme_cases found with quote | number | word | ⟨s, same⟩
  · rw [lexeme_quote quote] at found
    split at found <;> cases found
  · refine ⟨?_, number⟩
    obtain ⟨v, w, whole, rfl, -⟩ := numeral_first number
    rw [lexeme_number number, whole, List.length_cons, Nat.add_sub_cancel] at found
    have long : v.length = (v ++ w).length := (Prod.mk.inj (Except.ok.inj found)).2
    have none : w = [] := List.eq_nil_of_length_eq_zero (by rw [List.length_append] at long; omega)
    rw [whole, none, List.append_nil]
  · rw [lexeme_word word] at found
    unfold wordLexeme at found
    dsimp only at found
    split at found
    · split at found
      · split at found <;> cases found
      · cases found
    · cases found
  · cases same

/-- Nothing that follows a complex number makes it longer. -/
theorem Spells.lexeme_complex {text : String} {c m : Char} {u : List Char}
    (h : Spells text (.number text)) (chars : text.toList = c :: u)
    (last : (c :: u).getLast? = some m) (letter : m = 'j' ∨ m = 'J') (rest : List Char) :
    lexeme c (u ++ rest) = .ok (.token (.number text), u.length) := by
  obtain ⟨whole, number⟩ := h.numeral_eq chars
  have text_eq : String.ofList (c :: u) = text := by rw [← chars, String.ofList_toList]
  have some : u ≠ [] := by
    rintro rfl
    obtain rfl : c = m := by simpa using last
    rcases number with digit | ⟨rfl, -⟩
    · rcases letter with rfl | rfl <;> cases digit
    · rcases letter with same | same <;> cases same
  obtain ⟨x, v, rfl⟩ := List.exists_cons_of_ne_nil some
  have noMark : ¬(c = '0' ∧ x ∈ radixMarks) := by
    rintro ⟨rfl, mark⟩
    rw [numeral_of_radix mark] at whole
    have hex : v.takeWhile (fun c => isHexDigit c || c == '_') = v :=
      (List.cons.inj (List.cons.inj whole).2).2
    have member : m = x ∨ m ∈ v := by
      rw [List.getLast?_cons_cons] at last
      exact List.mem_cons.1 (List.mem_of_getLast? last)
    rcases member with rfl | member
    · rcases letter with rfl | rfl <;> exact absurd mark (by decide)
    · rw [← hex] at member
      have digit := mem_takeWhile member
      rcases letter with rfl | rfl <;> exact absurd digit (by decide)
  have notRadix : ∀ w, ∀ y r, c :: x :: w = '0' :: y :: r → y ∉ radixMarks := by
    intro w y r same mark
    obtain ⟨zero, same⟩ := List.cons.inj same
    obtain ⟨rfl, -⟩ := List.cons.inj same
    exact noMark ⟨zero, mark⟩
  rw [numeral_of_not_radix (notRadix v)] at whole
  have longer : numeral (c :: (x :: v ++ rest)) = c :: x :: v := by
    have found := @decimalNumeral_append (c :: x :: v) rest
      (.inl ⟨m, letter, by rw [whole]; exact last⟩)
    rw [whole] at found
    rw [show c :: (x :: v ++ rest) = c :: x :: (v ++ rest) from rfl,
      numeral_of_not_radix (notRadix (v ++ rest))]
    exact found
  have number' : c.isDigit = true ∨ c = '.' ∧ (x :: v ++ rest).head?.any Char.isDigit = true := number
  rw [lexeme_number number', longer, List.length_cons, Nat.add_sub_cancel, spelling_append, text_eq]

/-- A name begins with a character that names begin with. -/
theorem Spells.isNameStart_front {text id : String} (h : Spells text (.name id)) :
    ∃ c, text.toList.head? = some c ∧ isNameStart c = true := by
  obtain ⟨c, u, chars, found⟩ := h
  refine ⟨c, by rw [chars]; rfl, ?_⟩
  have found := found [] (off_nil _)
  rcases lexeme_cases found with quote | number | word | ⟨s, same⟩
  · rw [lexeme_quote quote] at found
    split at found <;> cases found
  · rw [lexeme_number number] at found
    cases found
  · exact word
  · cases same

namespace Scan

/-- All tokens found so far are spelled by their texts. -/
def AllSpelled (s : Scan) : Prop := ∀ t ∈ s.tokens, t.kind.IsSpelled

theorem AllSpelled.step {s t : Scan} (h : s.AllSpelled) (step : Step s t) : t.AllSpelled := by
  intro x hx
  cases step with
  | pass | settle => exact h x hx
  | enter | lineBreak =>
    rcases List.mem_cons.1 hx with rfl | hx
    · trivial
    · exact h x hx
  | leave =>
    rcases List.mem_append.1 hx with hx | hx
    · obtain ⟨_, -, rfl⟩ := List.mem_map.1 hx
      trivial
    · exact h x hx
  | token _ found =>
    rcases List.mem_cons.1 hx with rfl | hx
    · exact isSpelled_of_lexeme found
    · exact h x hx

theorem AllSpelled.run {s t : Scan} (h : s.AllSpelled) (run : s.run = .ok t) : t.AllSpelled :=
  (invariant_run (fun _ _ => AllSpelled.step) h run).1

end Scan

/-- Every name, number and string in a source is spelled by its text. -/
theorem isSpelled_of_tokenize {source : String} {ts : List Token} (h : tokenize source = .ok ts) :
    ∀ t ∈ ts, t.kind.IsSpelled := by
  obtain ⟨s, run, finish⟩ := Scan.exists_run_of_tokenize h
  have spelled : s.AllSpelled := Scan.AllSpelled.run (by intro t ht; cases ht) run
  unfold Scan.finish at finish
  split at finish
  · cases finish
  · cases finish
    intro t ht
    rw [List.mem_append, List.mem_append] at ht
    rcases ht with (ht | ht) | ht
    · rw [List.mem_reverse] at ht
      split at ht
      · exact spelled t ht
      · exact spelled t ht
      · exact spelled t ht
      · rcases List.mem_cons.1 ht with rfl | ht
        · trivial
        · exact spelled t ht
    · obtain ⟨_, -, rfl⟩ := List.mem_map.1 ht
      trivial
    · rw [List.mem_singleton.1 ht]
      trivial

end Arbiter.Syntax
