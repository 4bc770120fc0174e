import Arbiter.Proofs.Parsing.Spelling
import Mathlib.Data.List.Find

/-! What the lexer finds before a line break. A number, a word, an operator or a comment ends before one,
and a string that is closed before one is closed whatever follows. Main statement: what is found where a
line ends hangs on nothing behind it. -/

namespace Arbiter.Syntax

section Breaks

variable (cs x : List Char)

theorem takeWhile_break {p : Char → Bool} (stop : p '\n' = false) :
    (cs ++ '\n' :: x).takeWhile p = cs.takeWhile p := by
  induction cs with
  | nil => simp [stop]
  | cons c cs ih => rw [List.cons_append, List.takeWhile_cons, List.takeWhile_cons, ih]

theorem head?_break {p : Char → Bool} (stop : p '\n' = false) :
    (cs ++ '\n' :: x).head?.any p = cs.head?.any p := by
  cases cs with
  | nil => exact stop
  | cons c cs => rfl

theorem isPrefixOf_break {front : List Char} (onLine : '\n' ∉ front) :
    front.isPrefixOf (cs ++ '\n' :: x) = front.isPrefixOf cs := by
  induction front generalizing cs with
  | nil => rfl
  | cons c front ih =>
    obtain ⟨other, onLine⟩ := not_or.1 (mt List.mem_cons.2 onLine)
    cases cs with
    | nil => simp [List.isPrefixOf_cons_cons, Ne.symm other]
    | cons d cs =>
      rw [List.cons_append, List.isPrefixOf_cons_cons, List.isPrefixOf_cons_cons, ih cs onLine]

theorem drop_break {front : List Char} (h : front <+: cs) :
    (cs ++ '\n' :: x).drop front.length = cs.drop front.length ++ '\n' :: x :=
  List.drop_append_of_le_length h.length_le

/-! Numbers. -/

theorem fractionPart_break : fractionPart (cs ++ '\n' :: x) = fractionPart cs := by
  cases cs with
  | nil => rfl
  | cons c cs =>
    by_cases point : c = '.'
    · subst point
      have digits := takeWhile_break cs x (p := isDigitOrUnderscore) (by decide)
      have twice : (cs ++ '\n' :: x).head? = some '.' ↔ cs.head? = some '.' := by cases cs <;> simp
      simp only [List.cons_append, fractionPart, digits, twice]
    · have none : ∀ r, fractionPart (c :: r) = [] := by
        intro r
        unfold fractionPart
        split
        · rename_i same
          exact absurd (List.cons.inj same).1 point
        · rfl
      rw [List.cons_append, none, none]

theorem exponentPart_break : exponentPart (cs ++ '\n' :: x) = exponentPart cs := by
  match cs with
  | [] => cases x <;> simp [exponentPart]
  | [e] => simp [exponentPart]
  | e :: d :: r =>
    have digits := takeWhile_break r x (p := isDigitOrUnderscore) (by decide)
    have next := head?_break r x (p := Char.isDigit) (by decide)
    simp only [List.cons_append, exponentPart, digits, next]

theorem imaginaryPart_break : imaginaryPart (cs ++ '\n' :: x) = imaginaryPart cs := by
  cases cs with
  | nil => rfl
  | cons c cs => rfl

theorem decimalNumeral_break : decimalNumeral (cs ++ '\n' :: x) = decimalNumeral cs := by
  unfold decimalNumeral
  dsimp only
  have digits := takeWhile_break cs x (p := isDigitOrUnderscore) (by decide)
  rw [digits, drop_break _ _ (List.takeWhile_prefix _), fractionPart_break,
    drop_break _ _ ( fractionPart_prefix _), exponentPart_break, drop_break _ _ ( exponentPart_prefix _),
    imaginaryPart_break]

theorem numeral_break : numeral (cs ++ '\n' :: x) = numeral cs := by
  by_cases radix : ∃ m r, cs = '0' :: m :: r ∧ m ∈ radixMarks
  · obtain ⟨m, r, rfl, mark⟩ := radix
    rw [List.cons_append, List.cons_append, numeral_of_radix mark, numeral_of_radix mark,
      takeWhile_break r x (by decide)]
  · rw [numeral_of_not_radix, numeral_of_not_radix, decimalNumeral_break]
    · exact fun m r same mark => radix ⟨m, r, same, mark⟩
    · intro m r same mark
      match cs with
      | [] => cases same
      | [c] =>
        obtain rfl : '\n' = m := (List.cons.inj (List.cons.inj same).2).1
        exact absurd mark (by decide)
      | c :: d :: cs =>
        obtain ⟨zero, same⟩ := List.cons.inj same
        obtain ⟨second, -⟩ := List.cons.inj same
        exact radix ⟨d, cs, by rw [zero], second ▸ mark⟩

theorem operatorAt?_break : operatorAt? (cs ++ '\n' :: x) = operatorAt? cs := by
  have onLine : ∀ s ∈ operators, '\n' ∉ s.toList := by decide
  exact List.find?_congr fun s hs => isPrefixOf_break cs x (onLine s hs)

end Breaks

/-! Strings, which end with their quote. -/

theorem lineStringLength?_last (q : Char) (cs : List Char) :
    ∀ n, lineStringLength? q cs = some n → (cs.take n).getLast? = some q := by
  induction cs using lineStringLength?.induct q with
  | case1 =>
    intro n h
    cases h
  | case2 =>
    intro n h
    cases h
  | case3 d s ih =>
    intro n h
    obtain ⟨m, found, rfl⟩ := Option.map_eq_some_iff.1 h
    rw [List.take_succ_cons, List.take_succ_cons, List.getLast?_cons, List.getLast?_cons, ih m found]
    rfl
  | case4 s noEscape =>
    intro n h
    rw [lineStringLength?_cons noEscape, if_pos rfl] at h
    cases h
    rfl
  | case5 s noEscape noQuote =>
    intro n h
    rw [lineStringLength?_cons noEscape, if_neg noQuote, if_pos rfl] at h
    cases h
  | case6 d s noEscape noQuote noBreak ih =>
    intro n h
    rw [lineStringLength?_cons noEscape, if_neg noQuote, if_neg noBreak] at h
    obtain ⟨m, found, rfl⟩ := Option.map_eq_some_iff.1 h
    rw [List.take_succ_cons, List.getLast?_cons, ih m found]
    rfl

theorem blockStringLength?_last (q : Char) (cs : List Char) :
    ∀ n, blockStringLength? q cs = some n → (cs.take n).getLast? = some q := by
  induction cs using blockStringLength?.induct q with
  | case1 =>
    intro n h
    cases h
  | case2 =>
    intro n h
    cases h
  | case3 d s ih =>
    intro n h
    obtain ⟨m, found, rfl⟩ := Option.map_eq_some_iff.1 h
    rw [List.take_succ_cons, List.take_succ_cons, List.getLast?_cons, List.getLast?_cons, ih m found]
    rfl
  | case4 d s noEscape closing =>
    intro n h
    obtain ⟨rfl, quotes⟩ := closing
    rw [blockStringLength?_cons noEscape, if_pos ⟨rfl, quotes⟩] at h
    obtain ⟨v, rfl⟩ := List.isPrefixOf_iff_prefix.1 quotes
    cases h
    rfl
  | case5 d s noEscape goesOn ih =>
    intro n h
    rw [blockStringLength?_cons noEscape, if_neg goesOn] at h
    obtain ⟨m, found, rfl⟩ := Option.map_eq_some_iff.1 h
    rw [List.take_succ_cons, List.getLast?_cons, ih m found]
    rfl

/-- What ends with a quote ends before a line break. -/
theorem length_le_of_last {cs : List Char} {q : Char} {n : Nat} (quote : q ≠ '\n')
    (last : ((cs ++ ['\n']).take n).getLast? = some q) : n ≤ cs.length := by
  rcases Nat.lt_or_ge cs.length n with long | short
  · rw [List.take_of_length_le (by simpa using Nat.succ_le_of_lt long), List.getLast?_append] at last
    exact absurd (Option.some.inj last).symm quote
  · exact short

/-- A string that is closed before a line break is closed whatever follows. -/
theorem stringLength?_break {q : Char} (quote : q ≠ '\n') {cs : List Char} {n : Nat}
    (h : stringLength? q (cs ++ ['\n']) = some n) :
    n ≤ cs.length ∧ ∀ x, stringLength? q (cs ++ '\n' :: x) = some n := by
  have onLine : '\n' ∉ [q, q] := by simpa using Ne.symm quote
  -- Behind a front of the text that closes the string, all goes.
  have front : ∀ {u v r : List Char}, r ++ ['\n'] = u ++ v → ∀ x, r ++ '\n' :: x = u ++ (v ++ x) := by
    intro u v r split x
    rw [← List.append_assoc, ← split, List.append_assoc]
    rfl
  have mark : ∀ x, [q, q].isPrefixOf (cs ++ '\n' :: x) = [q, q].isPrefixOf cs := fun x =>
    isPrefixOf_break cs x onLine
  unfold stringLength? at h ⊢
  rw [mark] at h
  by_cases block : [q, q].isPrefixOf cs = true
  · rw [if_pos block] at h
    obtain ⟨r, rfl⟩ := List.isPrefixOf_iff_prefix.1 block
    obtain ⟨m, found, rfl⟩ := Option.map_eq_some_iff.1 h
    have short := length_le_of_last quote (blockStringLength?_last q (r ++ ['\n']) m found)
    obtain ⟨-, u, v, split, rfl, again⟩ := blockStringLength?_front q (r ++ ['\n']) m found
    refine ⟨Nat.succ_le_succ (Nat.succ_le_succ short), fun x => ?_⟩
    rw [mark, if_pos block]
    show (blockStringLength? q (r ++ '\n' :: x)).map (· + 2) = _
    rw [front split, again]
    rfl
  · rw [if_neg block] at h
    have short := length_le_of_last quote (lineStringLength?_last q (cs ++ ['\n']) n h)
    obtain ⟨u, v, split, rfl, again⟩ := lineStringLength?_front q (cs ++ ['\n']) n h
    refine ⟨short, fun x => ?_⟩
    rw [mark, if_neg block, front split, again]

/-! Lexemes. -/

theorem spelling_break {c : Char} {cs : List Char} {n : Nat} (short : n ≤ cs.length) (x : List Char) :
    spelling c (cs ++ x) n = spelling c cs n := by
  rw [spelling, spelling, List.take_append_of_le_length short]

/-- No backslash hides a line break behind `cs`. -/
def LeavesBreak (cs : List Char) : Prop := ¬['\\'] <:+ cs ∧ ¬['\\', '\r'] <:+ cs

theorem wordLexeme_break {c : Char} {cs : List Char} {l : Lexeme} {n : Nat}
    (h : wordLexeme c (cs ++ ['\n']) = .ok (l, n)) :
    n ≤ cs.length ∧ ∀ x, wordLexeme c (cs ++ '\n' :: x) = .ok (l, n) := by
  have onLine : isNameChar '\n' = false := by rw [isNameChar_ascii (by decide)]; decide
  have long : (cs.takeWhile isNameChar).length ≤ cs.length := (List.takeWhile_prefix _).length_le
  have behind := fun x => drop_break cs x (List.takeWhile_prefix isNameChar)
  have word := fun x => spelling_break (c := c) long ('\n' :: x)
  unfold wordLexeme at h ⊢
  simp only [takeWhile_break cs _ onLine, behind, word] at h ⊢
  generalize spelling c cs (cs.takeWhile isNameChar).length = text at h ⊢
  generalize (cs.takeWhile isNameChar).length = k at h ⊢ long
  cases mark : isStringMark text with
  | false =>
    rw [mark] at h
    cases h
    exact ⟨long, fun x => rfl⟩
  | true =>
    rw [mark] at h
    cases left : cs.drop k with
    | nil =>
      rw [left] at h
      cases h
      exact ⟨long, fun x => rfl⟩
    | cons q s =>
      rw [left] at h
      simp only [List.cons_append] at h ⊢
      by_cases quote : q = '"' ∨ q = '\''
      · have onLine : q ≠ '\n' := by rintro rfl; simp at quote
        simp only [if_pos quote] at h ⊢
        split at h <;> cases h
        rename_i m found
        obtain ⟨short, again⟩ := stringLength?_break onLine found
        have whole : k + 1 + m ≤ cs.length := by
          have rest := congrArg List.length left
          rw [List.length_drop, List.length_cons] at rest
          omega
        refine ⟨whole, fun x => ?_⟩
        simp only [again, spelling_break whole]
      · simp only [if_neg quote] at h ⊢
        cases h
        exact ⟨long, fun x => rfl⟩

theorem lexeme_break {c : Char} {cs : List Char} {l : Lexeme} {n : Nat} (other : c ≠ '\n')
    (leaves : LeavesBreak (c :: cs)) (h : lexeme c (cs ++ ['\n']) = .ok (l, n)) :
    n ≤ cs.length ∧ ∀ x, lexeme c (cs ++ '\n' :: x) = .ok (l, n) := by
  have ends : ∀ {l' n'}, n' ≤ cs.length → (∀ x, lexeme c (cs ++ '\n' :: x) = .ok (l', n')) →
      n ≤ cs.length ∧ ∀ x, lexeme c (cs ++ '\n' :: x) = .ok (l, n) := by
    intro l' n' short found
    cases (found []).symm.trans h
    exact ⟨short, found⟩
  by_cases blank : c = ' ' ∨ c = '\t' ∨ c = '\x0c' ∨ c = '\r'
  · exact ends (Nat.zero_le _) fun x => if_pos blank
  by_cases mark : c = '#'
  · subst mark
    have found : ∀ x, lexeme '#' (cs ++ '\n' :: x) =
        .ok (.space, (cs.takeWhile (· != '\n')).length) := by
      intro x
      rw [← takeWhile_break cs x (by decide)]
      rfl
    exact ends (List.takeWhile_prefix _).length_le found
  by_cases slash : c = '\\'
  · subst slash
    unfold lexeme at h
    rw [if_neg blank, if_neg mark, if_pos rfl] at h
    split at h
    · rename_i same
      match cs with
      | [] => exact absurd (List.suffix_refl _) leaves.1
      | d :: cs =>
        obtain ⟨rfl, -⟩ := List.cons.inj same
        exact ends (Nat.succ_le_succ (Nat.zero_le _)) fun x => rfl
    · rename_i same
      match cs with
      | [] => cases same
      | [d] =>
        obtain ⟨rfl, -⟩ := List.cons.inj same
        exact absurd (List.suffix_refl _) leaves.2
      | d :: e :: cs =>
        obtain ⟨rfl, later⟩ := List.cons.inj same
        obtain ⟨rfl, -⟩ := List.cons.inj later
        exact ends (Nat.succ_le_succ (Nat.succ_le_succ (Nat.zero_le _))) fun x => rfl
    · cases h
  by_cases quote : c = '"' ∨ c = '\''
  · rw [lexeme_quote quote] at h
    split at h <;> cases h
    rename_i found
    obtain ⟨short, again⟩ := stringLength?_break other found
    refine ⟨short, fun x => ?_⟩
    simp only [lexeme_quote quote, again, spelling_break short]
  have next := fun x => head?_break cs x (p := Char.isDigit) (by decide)
  by_cases number : c.isDigit = true ∨ c = '.' ∧ cs.head?.any Char.isDigit = true
  · have short : (numeral (c :: cs)).length - 1 ≤ cs.length :=
      Nat.sub_le_of_le_add ( numeral_prefix (c :: cs)).length_le
    have found : ∀ x, lexeme c (cs ++ '\n' :: x) =
        .ok (.token (.number (spelling c cs ((numeral (c :: cs)).length - 1))),
          (numeral (c :: cs)).length - 1) := by
      intro x
      rw [lexeme_number (by rwa [next]), ← List.cons_append, numeral_break, spelling_break short]
    exact ends short found
  by_cases word : isNameStart c = true
  · rw [lexeme_word word] at h
    obtain ⟨short, again⟩ := wordLexeme_break h
    exact ⟨short, fun x => by rw [lexeme_word word, again]⟩
  · have symbol := fun x => operatorAt?_break (c :: cs) x
    have number' : ∀ x, ¬(c.isDigit = true ∨ c = '.' ∧ (cs ++ '\n' :: x).head?.any Char.isDigit = true) :=
      fun x => by rwa [next]
    unfold lexeme at h ⊢
    simp only [if_neg blank, if_neg mark, if_neg slash, if_neg other, if_neg quote, if_neg (number' _),
      if_neg word, ← List.cons_append, symbol] at h ⊢
    split at h <;> cases h
    rename_i s found
    have front : s.toList <+: c :: cs := by simpa using List.find?_some found
    have short := front.length_le
    rw [String.length_toList, List.length_cons] at short
    exact ⟨Nat.sub_le_of_le_add short, fun x => rfl⟩

end Arbiter.Syntax
