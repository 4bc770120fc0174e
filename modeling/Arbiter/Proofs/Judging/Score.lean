import Arbiter.Judging.Case
import Mathlib

/-! Scores of special judges, which are binary fractions. Main statements: a full score gives all points,
and every other one that is admitted gives less; a ruling accepts if a full score is printed, and says
nothing if none is. -/

namespace Arbiter.Judging

open Float.Model (UnpackedFloat Format)
open Float.Model.UnpackedFloat

section Parts

variable {m : Nat} {e : Int}

/-- The mantissa of a number that has 64 bits. -/
theorem mantissa_lt_of_unpack {b : BitVec Format.binary64.numBits} {s : Sign} {pos : 0 < m}
    (h : unpack Format.binary64 b = .finite s m e pos) : m < 2 ^ 53 := by
  unfold unpack at h
  dsimp only at h
  split at h
  · split at h <;> cases h
  · split at h
    · split at h
      · cases h
      · cases h
        exact Nat.lt_trans (unpackMantissa b).isLt (by decide)
    · cases h
      exact (1#1 ++ unpackMantissa b).isLt

theorem mantissa_shiftRight (k m : Nat) (r t : Bool) :
    ((⟨m, r, t⟩ : ExtendedMantissa) >>> k).mantissa = m / 2 ^ k := by
  induction k with
  | zero => exact (Nat.div_one m).symm
  | succ k ih =>
    have step : ((⟨m, r, t⟩ : ExtendedMantissa) >>> (k + 1)).mantissa =
        ((⟨m, r, t⟩ : ExtendedMantissa) >>> k).mantissa / 2 := rfl
    rw [step, ih, Nat.div_div_eq_div_mul, Nat.pow_succ]

/-- A number with a fraction loses it where a whole one is wanted. -/
theorem toNat_toUInt32_finite {k : Nat} (below : e = -k) {pos : 0 < m} (fits : m / 2 ^ k < UInt32.size) :
    (UnpackedFloat.finite .positive m e pos).toUInt32.toNat = m / 2 ^ k := by
  have up : (e - 0).toNat = 0 := by omega
  have down : (0 - e).toNat = k := by omega
  have whole : roundToInt .positive m e = ((m / 2 ^ k : Nat) : Int) := by
    unfold roundToInt decreaseExponent shiftToExponent
    dsimp only
    rw [up, Nat.shiftLeft_zero, Int.natCast_zero, Int.sub_zero, down]
    exact congrArg Int.ofNat (mantissa_shiftRight k m false false)
  rw [UnpackedFloat.toUInt32, UnpackedFloat.toInt, whole, Int.toNat_natCast,
    UInt32.ofNatClamp_eq_ofNat _ fits, UInt32.toNat_ofNat_of_lt' fits]

end Parts

/-- A number from zero to ten, in its parts. -/
inductive Graded : UnpackedFloat → Prop
  | zero (s : Sign) : Graded (.zero s)
  /-- Less than eight. -/
  | low {m : Nat} {e : Int} {pos : 0 < m} (size : m < 2 ^ 53) (less : e < -49) :
    Graded (.finite .positive m e pos)
  | high {m : Nat} {pos : 0 < m} (le : m ≤ 10 * 2 ^ 49) : Graded (.finite .positive m (-49) pos)

theorem unpack_fullScore : fullScore.toModel.unpack = .finite .positive (10 * 2 ^ 49) (-49) (by decide) := rfl

theorem le_iff_unpack {x y : Float} : x ≤ y ↔ x.toModel.unpack.le y.toModel.unpack = true := by
  show decide (x.toModel.unpack.le y.toModel.unpack = true) = true ↔ _
  rw [decide_eq_true_iff]

/-- Positive numbers compare by exponent and then by mantissa. -/
theorem le_finite {m n : Nat} {e f : Int} {pos : 0 < m} {pos' : 0 < n} :
    (UnpackedFloat.finite .positive m e pos).le (.finite .positive n f pos') = true ↔
      e < f ∨ e = f ∧ m ≤ n := by
  show ((compare e f).then (compare m n)).isLE = true ↔ _
  rw [Ordering.isLE_then_iff_or, compare_lt_iff_lt, compare_eq_iff_eq, Nat.isLE_compare]

theorem graded_of_le {x : Float} (low : 0.0 ≤ x) (high : x ≤ fullScore) : Graded x.toModel.unpack := by
  rw [le_iff_unpack] at low high
  rw [unpack_fullScore] at high
  cases parts : x.toModel.unpack with
  | notANumber =>
    rw [parts] at high
    cases high
  | zero s => exact .zero s
  | infinity s =>
    rw [parts] at low high
    cases s
    · cases low
    · cases high
  | finite s m e pos =>
    rw [parts] at low high
    cases s with
    | negative => cases low
    | positive =>
      rcases le_finite.1 high with less | ⟨rfl, le⟩
      · exact .low (mantissa_lt_of_unpack parts) less
      · exact .high le

/-- No other score that is admitted is as large as the full one. -/
theorem eq_fullScore {x : Float} (low : 0.0 ≤ x) (high : x ≤ fullScore) (full : fullScore ≤ x) :
    x = fullScore := by
  have graded := graded_of_le low high
  rw [le_iff_unpack, unpack_fullScore] at full
  have same : x.toModel.unpack = fullScore.toModel.unpack := by
    rw [unpack_fullScore]
    generalize x.toModel.unpack = parts at graded full
    cases graded with
    | zero s => cases full
    | low size less =>
      have := le_finite.1 full
      omega
    | high le =>
      have := le_finite.1 full
      congr 1
      omega
  obtain ⟨⟨bits, valid⟩⟩ := x
  have bits_eq : bits = fullScore.toModel.toBits :=
    UInt64.eq_of_toBitVec_eq ((unpack_inj_of_valid valid fullScore.toModel.2).1 same)
  subst bits_eq
  rfl

theorem Graded.toUInt32 {a : UnpackedFloat} (graded : Graded a) :
    a.toUInt32.toNat ≤ 10 ∧ (a.toUInt32.toNat = 10 ↔ fullScore.toModel.unpack.le a = true) := by
  rw [unpack_fullScore]
  cases graded with
  | zero s =>
    have none : (UnpackedFloat.zero s).toUInt32.toNat = 0 := rfl
    rw [none]
    exact ⟨by decide, nofun, nofun⟩
  | @low m e pos size less =>
    obtain ⟨k, rfl⟩ := Int.exists_eq_neg_ofNat (show e ≤ 0 by omega)
    have few : m / 2 ^ k < 8 := by
      rw [Nat.div_lt_iff_lt_mul (Nat.two_pow_pos k)]
      have scale : 2 ^ 50 ≤ 2 ^ k := Nat.pow_le_pow_right (by decide) (by omega)
      omega
    rw [toNat_toUInt32_finite rfl (Nat.lt_trans few (by decide)), le_finite]
    omega
  | @high m pos le =>
    have few : m / 2 ^ 49 ≤ 10 := by omega
    have value : (UnpackedFloat.finite .positive m (-49) pos).toUInt32.toNat = m / 2 ^ 49 :=
      toNat_toUInt32_finite rfl (Nat.lt_of_le_of_lt few (by decide))
    rw [value, le_finite]
    omega

/-- A score gives all points if it is full, and less if it is not. -/
theorem toUInt32_score {x : Float} (low : 0.0 ≤ x) (high : x ≤ fullScore) :
    x.toUInt32 ≤ pointsPerCase ∧ (x.toUInt32 = pointsPerCase ↔ fullScore ≤ x) := by
  rw [UInt32.le_iff_toNat_le, ← UInt32.toNat_inj, le_iff_unpack]
  exact (graded_of_le low high).toUInt32

/-- The first word that is printed spells the number. -/
def Prints (stdout : String) (score : Float) : Prop :=
  ∃ word ∈ (Text.words stdout).head?, ∃ number ∈ Decimal.ofString? word, number.toFloat = score

/-- The first word that is printed spells no number from zero to ten. -/
def PrintsNone (stdout : String) : Prop :=
  ∀ score, Prints stdout score → ¬ (0.0 ≤ score ∧ score ≤ fullScore)

theorem score?_eq_some {stdout : String} {score : Float} :
    score? stdout = some score ↔ Prints stdout score ∧ 0.0 ≤ score ∧ score ≤ fullScore := by
  unfold score? Prints
  simp only [Option.bind_eq_bind, Option.bind_eq_some_iff, Option.pure_def, Option.ite_none_right_eq_some,
    Option.some.injEq, Bool.and_eq_true, decide_eq_true_iff, Option.mem_def]
  constructor
  · rintro ⟨word, first, number, spelled, within, rfl⟩
    exact ⟨⟨word, first, number, spelled, rfl⟩, within⟩
  · rintro ⟨⟨word, first, number, spelled, rfl⟩, within⟩
    exact ⟨word, first, number, spelled, within, rfl⟩

theorem score?_eq_none {stdout : String} : score? stdout = none ↔ PrintsNone stdout := by
  simp only [Option.eq_none_iff_forall_ne_some, ne_eq, score?_eq_some, PrintsNone, not_and]

/-- How points go with a verdict. Only a special judge gives some of them where it does not accept. -/
structure Rates (mode : JudgeMode) (verdict : Verdict) (points : UInt32) : Prop where
  accepted_iff : verdict = .accepted ↔ points = pointsPerCase
  points_le : points ≤ pointsPerCase
  some_of : 0 < points → verdict ≠ .accepted → verdict = .wrongAnswer ∧ mode = .special

theorem rates_none {mode : JudgeMode} {verdict : Verdict} (refused : verdict ≠ .accepted) :
    Rates mode verdict 0 where
  accepted_iff := by simp [refused, pointsPerCase]
  points_le := by decide
  some_of none := absurd none (by decide)

namespace SpecialJudge.Ruling

variable {answer : Sandbox.Output}

/-- What a special judge that has ended by itself rules. -/
theorem ofOutput_eq (ended : answer.exitCode = 0) :
    (∃ score, Prints answer.stdout score ∧ 0.0 ≤ score ∧ score ≤ fullScore ∧
      ofOutput answer = ⟨if fullScore ≤ score then .accepted else .wrongAnswer, score.toUInt32, none⟩) ∨
    PrintsNone answer.stdout ∧ ∃ message, ofOutput answer = unknown message := by
  unfold ofOutput
  rw [if_neg (not_not.2 ended)]
  cases found : score? answer.stdout with
  | none => exact .inr ⟨score?_eq_none.1 found, _, rfl⟩
  | some score =>
    obtain ⟨prints, low, high⟩ := score?_eq_some.1 found
    exact .inl ⟨score, prints, low, high, rfl⟩

theorem ofOutput_failed (failed : answer.exitCode ≠ 0) : ∃ message, ofOutput answer = unknown message :=
  ⟨_, if_pos failed⟩

theorem rates_ofOutput (answer : Sandbox.Output) :
    Rates .special (ofOutput answer).verdict (ofOutput answer).points := by
  by_cases ended : answer.exitCode = 0
  · rcases ofOutput_eq ended with ⟨score, -, low, high, rules⟩ | ⟨-, message, rules⟩
    · obtain ⟨le, full⟩ := toUInt32_score low high
      rw [rules]
      refine ⟨?_, le, fun _ refused => ⟨?_, rfl⟩⟩
      · rw [full]
        simp
      · exact if_neg fun all => refused (if_pos all)
    · rw [rules]
      exact rates_none nofun
  · obtain ⟨message, rules⟩ := ofOutput_failed ended
    rw [rules]
    exact rates_none nofun

/-- A word spells one number only. -/
theorem prints_unique {stdout : String} {x y : Float} (first : Prints stdout x) (second : Prints stdout y) :
    x = y := by
  obtain ⟨word, here, number, spelled, rfl⟩ := first
  obtain ⟨word', here', number', spelled', rfl⟩ := second
  obtain rfl := Option.mem_unique here here'
  obtain rfl := Option.mem_unique spelled spelled'
  rfl

theorem ofOutput_accepted_iff : (ofOutput answer).verdict = .accepted ↔
    answer.exitCode = 0 ∧ Prints answer.stdout fullScore := by
  by_cases ended : answer.exitCode = 0
  · rw [and_iff_right ended]
    rcases ofOutput_eq ended with ⟨score, prints, low, high, rules⟩ | ⟨none, message, rules⟩
    · rw [rules]
      constructor
      · intro accepted
        have full : fullScore ≤ score := by simpa using accepted
        rwa [← eq_fullScore low high full]
      · intro all
        rw [prints_unique prints all]
        rfl
    · rw [rules]
      exact ⟨nofun, fun all => absurd ⟨by decide, by decide⟩ (none _ all)⟩
  · obtain ⟨message, rules⟩ := ofOutput_failed ended
    rw [rules]
    exact ⟨nofun, fun both => absurd both.1 ended⟩

theorem ofOutput_unknown_iff : (ofOutput answer).verdict = .unknown ↔
    answer.exitCode ≠ 0 ∨ PrintsNone answer.stdout := by
  by_cases ended : answer.exitCode = 0
  · rw [or_iff_right (not_not.2 ended)]
    rcases ofOutput_eq ended with ⟨score, prints, low, high, rules⟩ | ⟨none, message, rules⟩
    · rw [rules]
      constructor
      · intro same
        split at same <;> cases same
      · exact fun none => absurd ⟨low, high⟩ (none score prints)
    · rw [rules]
      exact iff_of_true rfl none
  · obtain ⟨message, rules⟩ := ofOutput_failed ended
    rw [rules]
    exact iff_of_true rfl (.inl ended)

end SpecialJudge.Ruling

end Arbiter.Judging
