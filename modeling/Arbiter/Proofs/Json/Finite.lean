import Arbiter.Json.Decode
import Arbiter.Proofs.Json.Written
import Mathlib

/-! Whole numbers, as they are decoded and as binary fractions. Main statements: decoding gives back the
number that was written if it lies in the range of its type; no whole number of 64 bits is past the largest
binary fraction. The bounds on exponents are rough, since there is room for hundreds. -/

namespace Arbiter.Json

open Decimal (natOfDigits)

theorem natOfDigits_toDigits (n : Nat) : natOfDigits (Nat.toDigits 10 n) = n :=
  Nat.ofDigitChars_ten_toDigits

theorem toDigits_first (n : Nat) :
    Nat.toDigits 10 n = ['0'] ∨ (Nat.toDigits 10 n).head? ≠ some '0' := by
  induction n using Nat.strongRecOn with
  | ind n ih =>
    by_cases one : n < 10
    · have known : (List.range 10).all (fun n => n == 0 || n.digitChar != '0') = true := by decide
      have here := List.all_eq_true.1 known n (List.mem_range.2 one)
      rw [Bool.or_eq_true, beq_iff_eq, bne_iff_ne] at here
      rw [Nat.toDigits_of_lt_base one]
      exact here.imp (fun zero => by rw [zero]; rfl) fun other => by simpa using other
    · have ten : 10 ≤ n := Nat.not_lt.1 one
      have less : n / 10 < n := Nat.div_lt_self (Nat.lt_of_lt_of_le (by decide) ten) (by decide)
      rw [Nat.toDigits_of_base_le (by decide) ten]
      obtain zero | other := ih _ less
      · have none : n / 10 = 0 := by rw [← natOfDigits_toDigits (n / 10), zero]; rfl
        exact absurd none (Nat.ne_of_gt (Nat.div_pos ten (by decide)))
      · refine .inr ?_
        obtain ⟨c, more, split⟩ := List.exists_cons_of_ne_nil (Nat.toDigits_ne_nil : Nat.toDigits 10 (n / 10) ≠ [])
        rw [split] at other ⊢
        exact other

/-- The number is spelled without a fraction and an exponent. -/
structure Numeral.Whole (n : Numeral) : Prop where
  spelled : n.Spelled
  no_fraction : n.fraction = none
  no_exponent : n.exponent = none

theorem Numeral.whole_ofNat (n : Nat) : (Numeral.ofNat n).Whole where
  spelled := {
    digits := ⟨Nat.toDigits_ne_nil, fun _ here => Nat.isDigit_of_mem_toDigits (by decide) (by decide) here⟩
    first := toDigits_first n
    fraction := nofun
    exponent := nofun }
  no_fraction := rfl
  no_exponent := rfl

theorem Numeral.toInt?_ofNat {n : Nat} (h : n < UInt64.size) : (Numeral.ofNat n).toInt? = some ↑n := by
  simp only [Numeral.toInt?, Numeral.ofNat, natOfDigits_toDigits, if_pos h]
  rfl

/-- The number that is written for an integer. -/
def Numeral.ofInt (i : Int) : Numeral := { Numeral.ofNat i.natAbs with negative := i < 0 }

theorem Numeral.whole_ofInt (i : Int) : (Numeral.ofInt i).Whole :=
  let natural := Numeral.whole_ofNat i.natAbs
  ⟨{ natural.spelled with }, rfl, rfl⟩

theorem Numeral.toInt?_ofInt {i : Int} (low : Int64.minValue.toInt ≤ i) (high : i ≤ Int64.maxValue.toInt) :
    (Numeral.ofInt i).toInt? = some i := by
  simp only [Numeral.toInt?, Numeral.ofInt, Numeral.ofNat, natOfDigits_toDigits]
  by_cases negative : i < 0
  · have size : -(i.natAbs : Int) = i := by omega
    have some_part : 0 < i.natAbs := by omega
    simp only [decide_eq_true negative, if_pos, size, some_part, low, and_self]
  · have size : (i.natAbs : Int) = i := by omega
    have short : i.natAbs < UInt64.size := by
      have top : Int64.maxValue.toInt < UInt64.size := by decide
      omega
    simp only [decide_eq_false negative, size, if_pos short]
    rfl

theorem intWithin?_ofNat {n : Nat} {high : Int} (h : n < UInt64.size) (le : n ≤ high) :
    intWithin? 0 high (.ofNat n) = some ↑n := by
  have within : (0 ≤ (n : Int) && (n : Int) ≤ high) = true := by simp [le]
  rw [intWithin?, ofNat, toInt?, Numeral.toInt?_ofNat h, Option.filter_some, if_pos within]

theorem toNat64?_ofNat {n : Nat} (h : n < UInt64.size) : toNat64? (.ofNat n) = some n := by
  have le : (n : Int) ≤ UInt64.size - 1 := Int.le_sub_one_of_lt (Int.ofNat_lt.2 h)
  rw [toNat64?, intWithin?_ofNat h le]
  rfl

theorem toUInt32?_ofNat (n : UInt32) : toUInt32? (.ofNat n.toNat) = some n := by
  have small := n.toNat_lt
  have le : (n.toNat : Int) ≤ UInt32.size - 1 := Int.le_sub_one_of_lt (Int.ofNat_lt.2 small)
  rw [toUInt32?, intWithin?_ofNat (Nat.lt_trans small (by decide)) le, Option.map_some,
    Int.toNat_natCast, UInt32.ofNat_toNat]

theorem toInt64?_ofInt (i : Int64) : toInt64? (.ofInt i.toInt) = some i := by
  have low : Int64.minValue.toInt ≤ i.toInt := Int64.minValue_le_toInt i
  have high : i.toInt ≤ Int64.maxValue.toInt := Int64.toInt_le i
  have within : (Int64.minValue.toInt ≤ i.toInt && i.toInt ≤ Int64.maxValue.toInt) = true := by
    rw [Bool.and_eq_true, decide_eq_true_iff, decide_eq_true_iff]
    exact ⟨low, high⟩
  have read : toInt? (.ofInt i.toInt) = some i.toInt := Numeral.toInt?_ofInt low high
  rw [toInt64?, intWithin?, read, Option.filter_some, if_pos within, Option.map_some, Int64.ofInt_toInt]

end Arbiter.Json

/-! Binary fractions. -/

namespace Arbiter.Json

open Float.Model (UnpackedFloat Format totalExponent)
open Float.Model.UnpackedFloat

/-- Neither infinite nor no number, with a mantissa of at most `w` bits and an exponent up to `e`. -/
inductive Modest (w : Nat) (e : Int) : UnpackedFloat → Prop
  | zero (s : Sign) : Modest w e (.zero s)
  | finite {s : Sign} {m : Nat} {x : Int} {pos : 0 < m} (size : m < 2 ^ w) (le : x ≤ e) :
    Modest w e (.finite s m x pos)

section Rounding

variable {w : Nat} {e : Int}

theorem Modest.isInf {a : UnpackedFloat} (h : Modest w e a) : a.isInf = false := by
  cases h <;> rfl

theorem Modest.mono {e' : Int} {a : UnpackedFloat} (h : Modest w e a) (le : e ≤ e') : Modest w e' a := by
  cases h with
  | zero s => exact .zero s
  | finite size bound => exact .finite size (Int.le_trans bound le)

theorem targetExponent_le (t : Int) : Format.binary64.targetExponent t ≤ max t (-1074) := by
  have units : Format.binary64.targetExponent t = max (t - 53) (-1074) := rfl
  rw [units]
  omega

theorem shift_mantissa_le (k : Nat) (m : ExtendedMantissa) : (m >>> k).mantissa ≤ m.mantissa := by
  induction k with
  | zero => exact Nat.le_refl _
  | succ k ih => exact Nat.le_trans (Nat.div_le_self _ 2) ih

theorem mantissa_ofMantissaAndAccuracy (m : Nat) (a : Accuracy) :
    (ExtendedMantissa.ofMantissaAndAccuracy m a).mantissa = m := by
  cases a with
  | exact => rfl
  | inexact o => cases o <;> rfl

theorem roundToNearestEven_le (m : Nat) (a : Accuracy) : a.roundToNearestEven m ≤ m + 1 := by
  cases a with
  | exact => exact Nat.le_succ m
  | inexact o =>
    cases o with
    | lt => exact Nat.le_succ m
    | eq => exact Nat.add_le_add_left (Nat.le_of_lt_succ (Nat.mod_lt m (by decide))) m
    | gt => exact Nat.le_refl _

theorem log2_le {m : Nat} (h : m < 2 ^ w) : m.log2 ≤ w := by
  by_cases none : m = 0
  · rw [none]
    exact Nat.zero_le w
  · exact Nat.le_of_lt ((Nat.log2_lt none).2 h)

/-- Shifting to the exponent that the format asks for. -/
theorem shiftToTargetExponent_le {m : Nat} {x : Int} (size : m < 2 ^ w) (le : x ≤ e) (low : -1074 ≤ e)
    (a : Accuracy) :
    (shiftToTargetExponent Format.binary64 m x a).1.mantissa ≤ m ∧
      (shiftToTargetExponent Format.binary64 m x a).2 ≤ e + w + 1 := by
  constructor
  · have le := shift_mantissa_le (Format.binary64.targetExponent (totalExponent m x) - x).toNat
      (ExtendedMantissa.ofMantissaAndAccuracy m a)
    rwa [mantissa_ofMantissaAndAccuracy] at le
  · have target := targetExponent_le (totalExponent m x)
    have log := log2_le size
    have total : totalExponent m x = m.log2 + 1 + x := rfl
    have shifted : (shiftToTargetExponent Format.binary64 m x a).2 =
      x + (Format.binary64.targetExponent (totalExponent m x) - x).toNat := rfl
    rw [shifted]
    omega

theorem modest_roundWithAccuracy {m : Nat} {x : Int} (size : m < 2 ^ w) (le : x ≤ e) (low : -1074 ≤ e)
    (s : Sign) (a : Accuracy) :
    Modest (w + 1) (e + 2 * w + 3) (roundWithAccuracy Format.binary64 s m x a) := by
  obtain ⟨mantissa, exponent⟩ := shiftToTargetExponent_le size le low a
  unfold roundWithAccuracy
  dsimp only
  generalize shiftToTargetExponent Format.binary64 m x a = once at mantissa exponent
  have rounded : once.1.roundedMantissa < 2 ^ (w + 1) := by
    have up := roundToNearestEven_le once.1.mantissa once.1.accuracy
    have grows : 2 ^ w < 2 ^ (w + 1) := Nat.pow_lt_pow_right (by decide) (Nat.lt_succ_self w)
    exact Nat.lt_of_le_of_lt (Nat.le_trans up (Nat.succ_le_of_lt (Nat.lt_of_le_of_lt mantissa size)))
      grows
  obtain ⟨mantissa', exponent'⟩ :=
    shiftToTargetExponent_le rounded exponent (by omega) Accuracy.exact
  generalize shiftToTargetExponent Format.binary64 once.1.roundedMantissa once.2 Accuracy.exact =
    twice at mantissa' exponent'
  split
  · exact .zero s
  · refine .finite (Nat.lt_of_le_of_lt mantissa' rounded) ?_
    push_cast at exponent'
    omega

theorem modest_unpack {b : BitVec Format.binary64.numBits} (number : (unpackExponent b).toNat < 2047)
    (le : ((unpackExponent b).toNat : Int) ≤ e + 1075) (low : -1074 ≤ e) :
    Modest 53 e (unpack Format.binary64 b) := by
  have bias : ((Format.binary64.exponentBias : Int) + Format.binary64.mantissaBitsWithoutImplicit) =
    1075 := rfl
  have finite : unpackExponent b ≠ -BitVec.ofNat Format.binary64.exponentBits 1 := by
    intro full
    rw [full] at number
    exact absurd number (by decide)
  unfold unpack
  dsimp only
  rw [if_neg finite, bias]
  split
  · rename_i zero
    split
    · exact .zero _
    · refine .finite (Nat.lt_trans (unpackMantissa b).isLt (by decide)) ?_
      rw [zero]
      exact low
  · exact .finite (1#1 ++ unpackMantissa b).isLt (Int.sub_right_le_of_le_add le)

theorem modest_packComponents {x : BitVec Format.binary64.exponentBits} (number : x.toNat < 2047)
    (le : (x.toNat : Int) ≤ e + 1075) (low : -1074 ≤ e) (s : Sign)
    (m : BitVec Format.binary64.mantissaBitsWithoutImplicit) :
    Modest 53 e (unpack Format.binary64 (packComponents Format.binary64 s x m)) := by
  apply modest_unpack _ _ low
  · rwa [unpackExponent_packComponents]
  · rwa [unpackExponent_packComponents]

/-- Rounding to 64 bits keeps a number that is far from the largest one. -/
theorem Modest.unpack_pack {a : UnpackedFloat} (h : Modest w e a) (low : -1074 ≤ e) (high : e ≤ 970) :
    Modest 53 e (unpack Format.binary64 (pack Format.binary64 a)) := by
  have none : ((BitVec.ofNat Format.binary64.exponentBits 0).toNat : Int) ≤ e + 1075 := by
    rw [BitVec.toNat_zero]
    omega
  have fits : (BitVec.ofNat Format.binary64.exponentBits 0).toNat < 2047 := by decide
  cases h with
  | zero s => exact modest_packComponents fits none low s 0
  | @finite s m x pos size le =>
    have bias : x + (Format.binary64.exponentBias : Int) +
      Format.binary64.mantissaBitsWithoutImplicit = x + 1075 := Int.add_assoc x 1023 52
    have small : (x + 1075).toNat < 2047 := by omega
    unfold pack
    dsimp only
    rw [bias, if_neg (Nat.not_le.2 (Nat.succ_lt_succ small))]
    split
    · have value : (BitVec.ofNat Format.binary64.exponentBits (x + 1075).toNat).toNat =
          (x + 1075).toNat := Nat.mod_eq_of_lt (Nat.lt_trans small (by decide))
      exact modest_packComponents (by rw [value]; exact small) (by rw [value]; omega) low s _
    · exact modest_packComponents fits none low s _

theorem Modest.mul {w' : Nat} {e' : Int} {a b : UnpackedFloat} (ha : Modest w e a) (hb : Modest w' e' b)
    (low : -1074 ≤ e + e') :
    Modest (w + w' + 1) (e + e' + 2 * (w + w') + 3) (UnpackedFloat.mul Format.binary64 a b) := by
  cases ha with
  | zero s => cases hb <;> exact .zero _
  | finite size le =>
    cases hb with
    | zero s => exact .zero _
    | finite size' le' =>
      have product := Nat.mul_lt_mul'' size size'
      rw [← Nat.pow_add] at product
      exact modest_roundWithAccuracy product (Int.add_le_add le le') low _ _

/-- A whole number is shifted up before it is rounded, by less than the bits of a mantissa. -/
theorem modest_round {m : Nat} (size : m < 2 ^ 64) (s : Sign) :
    Modest 117 235 (UnpackedFloat.round Format.binary64 s m 0) := by
  unfold UnpackedFloat.round decreaseExponent
  dsimp only
  have units : Format.binary64.targetExponent (totalExponent m 0) =
      max ((m.log2 : Int) + 1 + 0 - 53) (-1074) := rfl
  rw [units]
  generalize shift : (0 - max ((m.log2 : Int) + 1 + 0 - 53) (-1074)).toNat = k
  have few : k ≤ 52 := by omega
  have shifted : m <<< k < 2 ^ 116 := by
    rw [Nat.shiftLeft_eq]
    calc m * 2 ^ k < 2 ^ 64 * 2 ^ k := Nat.mul_lt_mul_of_pos_right size (Nat.two_pow_pos k)
      _ ≤ 2 ^ 64 * 2 ^ 52 := Nat.mul_le_mul_left _ (Nat.pow_le_pow_right (by decide) few)
  exact modest_roundWithAccuracy (e := 0) shifted (by omega) (by decide) s Accuracy.exact

end Rounding

section Floats

variable {e e' : Int} {x y : Float}

/-- The number is far from the largest one. -/
def ModestFloat (e : Int) (x : Float) : Prop := Modest 53 e x.toModel.unpack

theorem ModestFloat.mul (hx : ModestFloat e x) (hy : ModestFloat e' y) (low : -1074 ≤ e + e')
    (high : e + e' + 215 ≤ 970) : ModestFloat (e + e' + 215) (x * y) := by
  have product : Modest 107 (e + e' + 215)
      (UnpackedFloat.mul Format.binary64 x.toModel.unpack y.toModel.unpack) :=
    (Modest.mul hx hy low).mono (by omega)
  exact product.unpack_pack (by omega) high

theorem modestFloat_one : ModestFloat 0 (Float.ofScientific 1 false 0) := by
  have parts : (Float.ofScientific 1 false 0).toModel.unpack =
      .finite .positive (2 ^ 52) (-52) (by decide) := rfl
  rw [ModestFloat, parts]
  exact .finite (by decide) (by decide)

theorem modestFloat_toFloat (n : UInt64) : ModestFloat 235 n.toFloat := by
  have rounded : Modest 117 235 (UnpackedFloat.normalize Format.binary64 n.toNat 0 .positive) := by
    unfold UnpackedFloat.normalize
    split
    · rename_i less
      rw [Int.compare_eq_lt] at less
      exact absurd less (Int.not_lt.2 (Int.natCast_nonneg _))
    · exact .zero _
    · exact modest_round n.toNat_lt .positive
  exact rounded.unpack_pack (by decide) (by decide)

/-- A whole number as the literals of the language give it, by the general way. -/
theorem modest_ofScientific {n : Nat} (h : n < 2 ^ 64) :
    Modest 119 239 (UnpackedFloat.ofScientific Format.binary64 n 0) := by
  unfold UnpackedFloat.ofScientific
  split
  · exact .zero _
  · rename_i some_part
    have huge : ¬ (0 : Int) > 2 ^ Format.binary64.exponentBits := by decide
    have tiny : ¬ (0 : Int) < -(2 ^ Format.binary64.exponentBits + n.log2) := by
      have bits : (2 : Int) ^ Format.binary64.exponentBits = 2048 := rfl
      rw [bits]
      omega
    rw [if_neg huge, if_neg tiny, if_pos (Int.le_refl 0)]
    have shifted : n <<< Format.binary64.mantissaBits < 2 ^ 117 := by
      rw [Nat.shiftLeft_eq]
      exact Nat.mul_lt_mul_of_pos_right h (Nat.two_pow_pos 53)
    have number {pos : 0 < n <<< Format.binary64.mantissaBits} : Modest 117 0
        (.finite .positive (n <<< Format.binary64.mantissaBits) (-Format.binary64.mantissaBits) pos) :=
      .finite shifted (by decide)
    have one {pos : 0 < 10 ^ (0 : Int).toNat} : Modest 1 0 (.finite .positive (10 ^ (0 : Int).toNat) 0 pos) :=
      .finite (by decide) (Int.le_refl 0)
    exact number.mul one (by decide)

theorem modestFloat_ofNat {n : Nat} (h : n < UInt64.size) : ModestFloat 450 (Float.ofNat n) := by
  have scientific : Float.ofNat n = Float.ofScientific n false 0 := rfl
  rw [scientific, Float.ofScientific]
  split
  · exact (modestFloat_toFloat n.toUInt64).mul modestFloat_one (by decide) (by decide)
  · exact ((modest_ofScientific h).unpack_pack (by decide) (by decide)).mono (by decide)

theorem le_foldl_digits (n : Nat) (ds : List Char) :
    n ≤ ds.foldl (fun n c => 10 * n + Decimal.digitValue c) n := by
  induction ds generalizing n with
  | nil => exact Nat.le_refl n
  | cons c ds ih =>
    have step : n ≤ 10 * n + Decimal.digitValue c :=
      Nat.le_trans (Nat.le_mul_of_pos_left n (by decide)) (Nat.le_add_right _ _)
    exact Nat.le_trans step (ih _)

theorem fitDigits_of_lt (n : Nat) (ds : List Char)
    (h : ds.foldl (fun n c => 10 * n + Decimal.digitValue c) n < UInt64.size) :
    fitDigits n ds = (ds.foldl (fun n c => 10 * n + Decimal.digitValue c) n, []) := by
  induction ds generalizing n with
  | nil => rfl
  | cons c ds ih =>
    have here := Nat.lt_of_le_of_lt (le_foldl_digits (10 * n + Decimal.digitValue c) ds) h
    rw [fitDigits, if_pos here]
    exact ih _ h

theorem isSome_scale? {x : Float} (h : ModestFloat 450 x) : (scale? x 0).isSome = true := by
  have finite : (x * Float.ofScientific 1 false 0).isInf = false :=
    (h.mul modestFloat_one (by decide) (by decide)).isInf
  have zero : (0 : Int).toNat = 0 := rfl
  rw [scale?, if_pos (Int.le_refl 0), if_pos (by decide), zero]
  simp only [finite]
  rfl

/-- No whole number of 64 bits is past the largest binary fraction. -/
theorem isSome_toFloat? {n : Numeral} (whole : n.Whole) (h : Decimal.natOfDigits n.whole < UInt64.size) :
    n.toFloat?.isSome = true := by
  have fits := fitDigits_of_lt 0 n.whole h
  have none : fitDigits (Decimal.natOfDigits n.whole) [] = (Decimal.natOfDigits n.whole, []) := rfl
  rw [Numeral.toFloat?, fits, whole.no_fraction, whole.no_exponent]
  simp only [Option.getD_none, Option.isSome_map]
  exact isSome_scale? (modestFloat_ofNat h)

theorem isKept_ofInt64 (i : Int64) (depth : Nat) : isKept depth (.ofInt i.toInt) = true := by
  have low : Int64.minValue.toInt ≤ i.toInt := Int64.minValue_le_toInt i
  have high : i.toInt ≤ Int64.maxValue.toInt := Int64.toInt_le i
  have size : Decimal.natOfDigits (Numeral.ofInt i.toInt).whole < UInt64.size := by
    have digits : Decimal.natOfDigits (Numeral.ofInt i.toInt).whole = i.toInt.natAbs :=
      natOfDigits_toDigits _
    have bottom : Int64.minValue.toInt = -9223372036854775808 := rfl
    have top : Int64.maxValue.toInt = 9223372036854775807 := rfl
    have bits : UInt64.size = 18446744073709551616 := rfl
    omega
  rw [ofInt, isKept]
  exact isSome_toFloat? (Numeral.whole_ofInt i.toInt) size

end Floats

end Arbiter.Json
