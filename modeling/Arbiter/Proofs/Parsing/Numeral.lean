import Arbiter.Syntax.Token.Lexeme

/-! The spelling of numbers. Main statement: the number at the front of a text stands there again
whatever follows it instead, as long as that is no character that numbers are made of. -/

namespace Arbiter.Syntax

/-- The text does not begin with a character of `p`. -/
def Off (p : Char → Bool) (cs : List Char) : Prop := ∀ c, cs.head? = some c → p c = false

theorem off_nil (p : Char → Bool) : Off p [] := fun _ h => nomatch h

theorem off_cons {p : Char → Bool} {c : Char} (h : p c = false) (cs : List Char) : Off p (c :: cs) := by
  intro d hd
  rwa [← Option.some.inj hd]

theorem Off.append {p : Char → Bool} {cs ds : List Char} (hc : Off p cs) (hd : Off p ds) :
    Off p (cs ++ ds) := by
  cases cs with
  | nil => exact hd
  | cons c cs => exact off_cons (hc c rfl) _

theorem Off.mono {p q : Char → Bool} {cs : List Char} (h : Off q cs)
    (le : ∀ c, p c = true → q c = true) : Off p cs := by
  intro c hc
  refine Bool.eq_false_iff.2 fun hp => ?_
  have none := h c hc
  rw [le c hp] at none
  cases none

theorem off_takeWhile_drop (p : Char → Bool) (cs : List Char) :
    Off p (cs.drop (cs.takeWhile p).length) := by
  induction cs with
  | nil => exact off_nil p
  | cons c cs ih =>
    by_cases hc : p c = true
    · rw [List.takeWhile_cons_of_pos hc]
      exact ih
    · rw [List.takeWhile_cons_of_neg hc]
      exact off_cons (Bool.eq_false_iff.2 hc) cs

theorem takeWhile_append_off {p : Char → Bool} {cs ds : List Char} (hc : ∀ c ∈ cs, p c = true)
    (hd : Off p ds) : (cs ++ ds).takeWhile p = cs := by
  rw [List.takeWhile_append_of_pos hc]
  cases ds with
  | nil => simp
  | cons d ds => rw [List.takeWhile_cons_of_neg (by simp [hd d rfl]), List.append_nil]

theorem mem_takeWhile {p : Char → Bool} {cs : List Char} {c : Char} (h : c ∈ cs.takeWhile p) :
    p c = true :=
  List.all_eq_true.1 List.all_takeWhile c h

/-- The characters that numbers are made of. -/
def inNumeral (c : Char) : Bool := isNameChar c || c == '.'

theorem isNameChar_of_isDigit {c : Char} (h : c.isDigit = true) : isNameChar c = true := by
  simp [isNameChar, Text.isNumber_of_isDigit h]

theorem isNameChar_of_isAlpha {c : Char} (h : c.isAlpha = true) : isNameChar c = true := by
  simp [isNameChar, isNameStart, Text.isAlphabetic_of_isAlpha h]

theorem inNumeral_of_isAlpha {c : Char} (h : c.isAlpha = true) : inNumeral c = true := by
  simp [inNumeral, isNameChar_of_isAlpha h]

theorem inNumeral_of_digit {c : Char} (h : isDigitOrUnderscore c = true) : inNumeral c = true := by
  simp only [isDigitOrUnderscore, Bool.or_eq_true, beq_iff_eq] at h
  rcases h with h | rfl
  · simp [inNumeral, isNameChar_of_isDigit h]
  · decide

theorem inNumeral_of_hexDigit {c : Char} (h : (isHexDigit c || c == '_') = true) :
    inNumeral c = true := by
  simp only [isHexDigit, Bool.or_eq_true, Bool.and_eq_true, decide_eq_true_eq, beq_iff_eq] at h
  rcases h with ((h | h) | h) | rfl
  · simp [inNumeral, isNameChar_of_isDigit h]
  · have lower : c.isLower = true := Bool.and_eq_true_iff.2
      ⟨decide_eq_true h.1, decide_eq_true (UInt32.le_trans h.2 (by decide))⟩
    exact inNumeral_of_isAlpha (Bool.or_eq_true_iff.2 (.inr lower))
  · have upper : c.isUpper = true := decide_eq_true
      ⟨h.1, UInt32.le_trans h.2 (by decide)⟩
    exact inNumeral_of_isAlpha (Bool.or_eq_true_iff.2 (.inl upper))
  · decide

/-- Digits, or the point of a fraction. -/
def inFraction (c : Char) : Bool := isDigitOrUnderscore c || c == '.'

theorem isDigitOrUnderscore_of_isDigit {c : Char} (h : c.isDigit = true) :
    isDigitOrUnderscore c = true := by
  simp [isDigitOrUnderscore, h]

theorem fractionPart_prefix (cs : List Char) : fractionPart cs <+: cs := by
  unfold fractionPart
  split
  · split
    · exact List.nil_prefix
    · exact List.cons_prefix_cons.2 ⟨rfl, List.takeWhile_prefix _⟩
  · exact List.nil_prefix

theorem fractionPart_cases (cs : List Char) :
    fractionPart cs = [] ∨
      ∃ ds, (∀ c ∈ ds, isDigitOrUnderscore c = true) ∧ fractionPart cs = '.' :: ds := by
  unfold fractionPart
  split
  · split
    · exact .inl rfl
    · exact .inr ⟨_, fun _ => mem_takeWhile, rfl⟩
  · exact .inl rfl

theorem fractionPart_of_off {cs : List Char} (off : Off inFraction cs) : fractionPart cs = [] := by
  unfold fractionPart
  split
  · cases off '.' rfl
  · rfl

theorem fractionPart_dot {ds rest : List Char} (digits : ∀ c ∈ ds, isDigitOrUnderscore c = true)
    (off : Off inFraction rest) : fractionPart ('.' :: (ds ++ rest)) = '.' :: ds := by
  have single : (ds ++ rest).head? ≠ some '.' := by
    cases ds with
    | nil =>
      intro dot
      cases off '.' dot
    | cons d ds =>
      intro dot
      rw [Option.some.inj dot] at digits
      have := digits '.' List.mem_cons_self
      revert this
      decide
  show (if (ds ++ rest).head? = some '.' then _ else _) = _
  rw [if_neg single, takeWhile_append_off digits (off.mono fun c h => by simp [inFraction, h])]

/-- Digits, or the letter of an exponent. -/
def inExponent (c : Char) : Bool := isDigitOrUnderscore c || c == 'e' || c == 'E'

theorem exponentPart_prefix (cs : List Char) : exponentPart cs <+: cs := by
  unfold exponentPart
  split
  · split
    · split
      · simp [List.cons_prefix_cons, List.takeWhile_prefix]
      · split
        · simp [List.cons_prefix_cons, List.takeWhile_prefix]
        · exact List.nil_prefix
    · exact List.nil_prefix
  · exact List.nil_prefix

theorem exponentPart_of_off {cs : List Char} (off : Off inExponent cs) : exponentPart cs = [] := by
  unfold exponentPart
  split
  · rename_i e d r
    rw [if_neg]
    have none := off e rfl
    simp only [inExponent, Bool.or_eq_false_iff, beq_eq_false_iff_ne] at none
    exact fun h => h.elim none.1.2 none.2
  · rfl

/-- An exponent is its letter, a sign or a digit, and digits of which there is one at least. -/
theorem exponentPart_cases (cs : List Char) :
    exponentPart cs = [] ∨
      ∃ e d ds, exponentPart cs = e :: d :: ds ∧ (e = 'e' ∨ e = 'E') ∧
        (∀ c ∈ ds, isDigitOrUnderscore c = true) ∧
        (d.isDigit = true ∨ (d = '+' ∨ d = '-') ∧ ∃ c r, ds = c :: r ∧ c.isDigit = true) := by
  unfold exponentPart
  split
  · rename_i e d r
    split
    · rename_i letter
      split
      · rename_i digit
        exact .inr ⟨e, d, _, rfl, letter, fun _ => mem_takeWhile, .inl digit⟩
      · split
        · rename_i _ signed
          obtain ⟨sign, first⟩ := signed
          refine .inr ⟨e, d, _, rfl, letter, fun _ => mem_takeWhile, .inr ⟨sign, ?_⟩⟩
          cases r with
          | nil => cases first
          | cons c r =>
            have digit : c.isDigit = true := by simpa using first
            rw [List.takeWhile_cons_of_pos (isDigitOrUnderscore_of_isDigit digit)]
            exact ⟨c, _, rfl, digit⟩
        · exact .inl rfl
    · exact .inl rfl
  · exact .inl rfl

theorem exponentPart_append {e d : Char} {ds rest : List Char} (letter : e = 'e' ∨ e = 'E')
    (digits : ∀ c ∈ ds, isDigitOrUnderscore c = true)
    (first : d.isDigit = true ∨ (d = '+' ∨ d = '-') ∧ ∃ c r, ds = c :: r ∧ c.isDigit = true)
    (off : Off inExponent rest) : exponentPart (e :: d :: (ds ++ rest)) = e :: d :: ds := by
  have whole : (ds ++ rest).takeWhile isDigitOrUnderscore = ds :=
    takeWhile_append_off digits (off.mono fun c h => by simp [inExponent, h])
  unfold exponentPart
  dsimp only
  rw [if_pos letter, whole]
  by_cases digit : d.isDigit = true
  · rw [if_pos digit]
  · rw [if_neg digit]
    obtain ⟨sign, c, r, rfl, hc⟩ := first.resolve_left digit
    rw [if_pos ⟨sign, by simpa using hc⟩]

theorem imaginaryPart_prefix (cs : List Char) : imaginaryPart cs <+: cs := by
  unfold imaginaryPart
  split
  · split
    · simp [List.cons_prefix_cons]
    · exact List.nil_prefix
  · exact List.nil_prefix

theorem imaginaryPart_cases (cs : List Char) :
    imaginaryPart cs = [] ∨ imaginaryPart cs = ['j'] ∨ imaginaryPart cs = ['J'] := by
  unfold imaginaryPart
  split
  · split
    · rename_i letter
      rcases letter with rfl | rfl
      · exact .inr (.inl rfl)
      · exact .inr (.inr rfl)
    · exact .inl rfl
  · exact .inl rfl

theorem imaginaryPart_of_off {cs : List Char} (off : Off isNameChar cs) : imaginaryPart cs = [] := by
  cases cs with
  | nil => rfl
  | cons c cs =>
    refine if_neg fun letter => ?_
    have none := off c rfl
    rcases letter with rfl | rfl
    · rw [isNameChar_of_isAlpha (by decide)] at none
      cases none
    · rw [isNameChar_of_isAlpha (by decide)] at none
      cases none

theorem decimalNumeral_prefix (cs : List Char) : decimalNumeral cs <+: cs := by
  unfold decimalNumeral
  dsimp only
  have whole := List.takeWhile_prefix isDigitOrUnderscore (l := cs)
  generalize cs.takeWhile isDigitOrUnderscore = w at whole
  have fraction := fractionPart_prefix (cs.drop w.length)
  generalize fractionPart (cs.drop w.length) = f at fraction
  have exponent := exponentPart_prefix ((cs.drop w.length).drop f.length)
  generalize exponentPart ((cs.drop w.length).drop f.length) = e at exponent
  obtain ⟨rest, imaginary⟩ := imaginaryPart_prefix (((cs.drop w.length).drop f.length).drop e.length)
  refine ⟨rest, ?_⟩
  rw [List.append_assoc, imaginary, List.append_assoc, List.prefix_iff_eq_append.1 exponent,
    List.append_assoc, List.prefix_iff_eq_append.1 fraction, List.prefix_iff_eq_append.1 whole]

/-- No letter that makes a number complex is in the parts before it. -/
theorem not_imaginary_of_mem {w f e : List Char} {m : Char} (letter : m = 'j' ∨ m = 'J')
    (digits : ∀ c ∈ w, isDigitOrUnderscore c = true)
    (fraction : f = [] ∨ ∃ ds, (∀ c ∈ ds, isDigitOrUnderscore c = true) ∧ f = '.' :: ds)
    (exponent : e = [] ∨ ∃ x d ds, e = x :: d :: ds ∧ (x = 'e' ∨ x = 'E') ∧
      (∀ c ∈ ds, isDigitOrUnderscore c = true) ∧
      (d.isDigit = true ∨ (d = '+' ∨ d = '-') ∧ ∃ c r, ds = c :: r ∧ c.isDigit = true)) :
    m ∉ w ++ f ++ e := by
  have noDigit : isDigitOrUnderscore m = false := by rcases letter with rfl | rfl <;> decide
  have outside : ∀ {ds : List Char}, (∀ c ∈ ds, isDigitOrUnderscore c = true) → m ∉ ds :=
    fun all member => absurd (all m member) (by simp [noDigit])
  rw [List.mem_append, List.mem_append]
  rintro ((member | member) | member)
  · exact outside digits member
  · rcases fraction with rfl | ⟨ds, hds, rfl⟩
    · exact List.not_mem_nil member
    · rcases List.mem_cons.1 member with rfl | member
      · rcases letter with same | same <;> cases same
      · exact outside hds member
  · rcases exponent with rfl | ⟨x, d, ds, rfl, hx, hds, first⟩
    · exact List.not_mem_nil member
    · rcases List.mem_cons.1 member with rfl | member
      · rcases hx with rfl | rfl <;> rcases letter with same | same <;> cases same
      · rcases List.mem_cons.1 member with rfl | member
        · rcases first with digit | ⟨rfl | rfl, -⟩
          · simp [isDigitOrUnderscore, digit] at noDigit
          · rcases letter with same | same <;> cases same
          · rcases letter with same | same <;> cases same
        · exact outside hds member

/-- The number found in a text is found again where something else follows it. Whatever follows a
complex one is no part of it. -/
theorem decimalNumeral_append (cs : List Char) {rest : List Char}
    (ends : (∃ m, (m = 'j' ∨ m = 'J') ∧ (decimalNumeral cs).getLast? = some m) ∨
      Off inNumeral rest) :
    decimalNumeral (decimalNumeral cs ++ rest) = decimalNumeral cs := by
  have digits : ∀ c ∈ cs.takeWhile isDigitOrUnderscore, isDigitOrUnderscore c = true :=
    fun _ => mem_takeWhile
  have fraction := fractionPart_cases (cs.drop (cs.takeWhile isDigitOrUnderscore).length)
  unfold decimalNumeral at ends ⊢
  dsimp only at ends ⊢
  generalize cs.takeWhile isDigitOrUnderscore = w at digits fraction ends ⊢
  generalize fractionPart (cs.drop w.length) = f at fraction ends ⊢
  have exponent := exponentPart_cases ((cs.drop w.length).drop f.length)
  generalize exponentPart ((cs.drop w.length).drop f.length) = e at exponent ends ⊢
  have imaginary := imaginaryPart_cases (((cs.drop w.length).drop f.length).drop e.length)
  generalize imaginaryPart (((cs.drop w.length).drop f.length).drop e.length) = i at imaginary ends ⊢
  have off : i = [] → Off inNumeral rest := by
    rintro rfl
    rcases ends with ⟨m, letter, last⟩ | off
    · rw [List.append_nil] at last
      exact absurd (List.mem_of_getLast? last)
        (not_imaginary_of_mem letter digits fraction exponent)
    · exact off
  -- What follows each part begins with nothing that belongs to it.
  have afterE : Off inExponent (i ++ rest) := by
    rcases imaginary with rfl | rfl | rfl
    · refine (off rfl).mono fun c h => ?_
      simp only [inExponent, Bool.or_eq_true, beq_iff_eq] at h
      rcases h with (h | rfl) | rfl
      · exact inNumeral_of_digit h
      · exact inNumeral_of_isAlpha (by decide)
      · exact inNumeral_of_isAlpha (by decide)
    · exact off_cons (by decide) _
    · exact off_cons (by decide) _
  have afterF : Off inFraction (e ++ (i ++ rest)) := by
    rcases exponent with rfl | ⟨letter, d, ds, rfl, rfl | rfl, -, -⟩
    · rcases imaginary with rfl | rfl | rfl
      · refine (off rfl).mono fun c h => ?_
        simp only [inFraction, Bool.or_eq_true, beq_iff_eq] at h
        rcases h with h | rfl
        · exact inNumeral_of_digit h
        · simp [inNumeral]
      · exact off_cons (by decide) _
      · exact off_cons (by decide) _
    · exact off_cons (by decide) _
    · exact off_cons (by decide) _
  have afterW : Off isDigitOrUnderscore (f ++ (e ++ (i ++ rest))) := by
    rcases fraction with rfl | ⟨ds, -, rfl⟩
    · exact afterF.mono fun c h => by simp [inFraction, h]
    · exact off_cons (by decide) _
  have findF : fractionPart (f ++ (e ++ (i ++ rest))) = f := by
    rcases fraction with rfl | ⟨ds, hds, rfl⟩
    · exact fractionPart_of_off afterF
    · exact fractionPart_dot hds afterF
  have findE : exponentPart (e ++ (i ++ rest)) = e := by
    rcases exponent with rfl | ⟨letter, d, ds, rfl, hletter, hds, first⟩
    · exact exponentPart_of_off afterE
    · exact exponentPart_append hletter hds first afterE
  have findI : imaginaryPart (i ++ rest) = i := by
    rcases imaginary with rfl | rfl | rfl
    · exact imaginaryPart_of_off ((off rfl).mono fun c h => by simp [inNumeral, h])
    · rfl
    · rfl
  simp only [List.append_assoc, takeWhile_append_off digits afterW, List.drop_left, findF, findE,
    findI]

/-- The letters after a zero that begin a number of another radix. -/
def radixMarks : List Char := ['x', 'X', 'o', 'O', 'b', 'B']

theorem numeral_of_radix {x : Char} (h : x ∈ radixMarks) (r : List Char) :
    numeral ('0' :: x :: r) = '0' :: x :: r.takeWhile fun c => isHexDigit c || c == '_' :=
  if_pos h

theorem numeral_of_not_radix {cs : List Char}
    (h : ∀ x r, cs = '0' :: x :: r → x ∉ radixMarks) : numeral cs = decimalNumeral cs := by
  unfold numeral
  split
  · exact if_neg (h _ _ rfl)
  · rfl

theorem numeral_prefix (cs : List Char) : numeral cs <+: cs := by
  unfold numeral
  split
  · split
    · simp [List.cons_prefix_cons, List.takeWhile_prefix]
    · exact decimalNumeral_prefix _
  · exact decimalNumeral_prefix _

theorem numeral_append (cs : List Char) {rest : List Char} (off : Off inNumeral rest) :
    numeral (numeral cs ++ rest) = numeral cs := by
  by_cases radix : ∃ x r, cs = '0' :: x :: r ∧ x ∈ radixMarks
  · obtain ⟨x, r, rfl, hx⟩ := radix
    rw [numeral_of_radix hx, List.cons_append, List.cons_append, numeral_of_radix hx]
    rw [takeWhile_append_off (fun _ => mem_takeWhile) (off.mono fun c => inNumeral_of_hexDigit)]
  · have plain : numeral cs = decimalNumeral cs :=
      numeral_of_not_radix fun x r same hx => radix ⟨x, r, same, hx⟩
    rw [plain, numeral_of_not_radix, decimalNumeral_append cs (.inr off)]
    intro x r same hx
    have alpha : inNumeral x = true := by
      simp only [radixMarks, List.mem_cons, List.not_mem_nil, or_false] at hx
      rcases hx with rfl | rfl | rfl | rfl | rfl | rfl <;> exact inNumeral_of_isAlpha (by decide)
    obtain ⟨left, front⟩ := decimalNumeral_prefix cs
    match found : decimalNumeral cs with
    | [] =>
      rw [found, List.nil_append] at same
      have zero := off '0' (by rw [same]; rfl)
      rw [inNumeral_of_digit (by decide)] at zero
      cases zero
    | [c] =>
      rw [found] at same
      have next : rest = x :: r := (List.cons.inj same).2
      have none := off x (by rw [next]; rfl)
      rw [alpha] at none
      cases none
    | c :: d :: n =>
      rw [found] at same front
      have zero : c = '0' := (List.cons.inj same).1
      have mark : d = x := (List.cons.inj (List.cons.inj same).2).1
      rw [zero, mark] at front
      exact radix ⟨x, n ++ left, front.symm, hx⟩

end Arbiter.Syntax
