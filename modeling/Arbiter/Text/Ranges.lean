/-! Sets of characters written as inclusive ranges of code points. -/

namespace Arbiter.Text

/-- `n` lies in one of the inclusive `ranges`. -/
def within (ranges : List (Nat × Nat)) (n : Nat) : Bool :=
  ranges.any fun r => r.1 ≤ n && n ≤ r.2

theorem within_iff {ranges : List (Nat × Nat)} {n : Nat} :
    within ranges n ↔ ∃ r ∈ ranges, r.1 ≤ n ∧ n ≤ r.2 := by
  simp [within]

end Arbiter.Text
