import Arbiter.Text.Ranges

/-! Blanks are the 25 characters with the Unicode property White_Space. Trimming drops them at the
ends of a text and `words` are the runs between them. -/

namespace Arbiter.Text

/-- The characters with the Unicode property White_Space, as inclusive ranges. -/
def blankRanges : List (Nat × Nat) := [
  (0x09, 0x0D), (0x20, 0x20), (0x85, 0x85), (0xA0, 0xA0), (0x1680, 0x1680), (0x2000, 0x200A),
  (0x2028, 0x2029), (0x202F, 0x202F), (0x205F, 0x205F), (0x3000, 0x3000)]

def isBlank (c : Char) : Bool := within blankRanges c.toNat

/-- Every character that the core library calls whitespace is a blank. -/
theorem isBlank_of_isWhitespace {c : Char} (h : c.isWhitespace) : isBlank c := by
  simp only [Char.isWhitespace, Bool.or_eq_true, decide_eq_true_eq] at h
  rcases h with ((rfl | rfl) | rfl) | rfl <;> decide

def trimStart (s : String) : String := .ofList (s.toList.dropWhile isBlank)

def trimEnd (s : String) : String := .ofList (s.toList.reverse.dropWhile isBlank).reverse

/-- The text without the blanks at its two ends. -/
def trim (s : String) : String := trimEnd (trimStart s)

/-- The maximal runs of characters that are not blank. -/
def wordsOf (cs : List Char) : List (List Char) :=
  (cs.splitOnP isBlank).filter (!·.isEmpty)

def words (s : String) : List String := (wordsOf s.toList).map .ofList

end Arbiter.Text
