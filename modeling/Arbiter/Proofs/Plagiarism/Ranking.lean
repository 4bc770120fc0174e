import Arbiter.Plagiarism.Evaluation
import Mathlib

/-! The order of scores and the ranking of candidates. Main statements: on scores, which are numbers that are
zero or more, the comparison of binary fractions is a linear order; the findings from any reports list the
candidates by falling score, and those of one score by identifier, whatever the order in which the reports
came. -/

namespace Arbiter.Similarity

open Float.Model (UnpackedFloat Format)
open Float.Model.UnpackedFloat

/-- A number that is zero or more, or infinity; not the zero with a sign. -/
def Unsigned : UnpackedFloat → Prop
  | .zero s | .infinity s | .finite s _ _ _ => s = .positive
  | .notANumber => False

section Arithmetic

variable {spec : Format} {a b : UnpackedFloat}

theorem unsigned_roundWithAccuracy (m : Nat) (e : Int) (accuracy : Accuracy) :
    Unsigned (roundWithAccuracy spec .positive m e accuracy) := by
  unfold roundWithAccuracy
  dsimp only
  split <;> rfl

theorem unsigned_normalize {m : Int} (h : 0 ≤ m) (e : Int) :
    Unsigned (UnpackedFloat.normalize spec m e .positive) := by
  unfold UnpackedFloat.normalize
  split
  · rename_i less
    rw [Int.compare_eq_lt] at less
    omega
  · rfl
  · apply unsigned_roundWithAccuracy

theorem Unsigned.add (ha : Unsigned a) (hb : Unsigned b) : Unsigned (UnpackedFloat.add spec a b) := by
  cases a <;> cases b <;> cases ha <;> cases hb <;> try rfl
  exact unsigned_normalize (Int.add_nonneg (Int.natCast_nonneg _) (Int.natCast_nonneg _)) _

/-- Only zero times infinity would be no number, so one factor has to be neither. -/
theorem Unsigned.mul {m : Nat} {e : Int} (pos : 0 < m) (hb : Unsigned b) :
    Unsigned (UnpackedFloat.mul spec (.finite .positive m e pos) b) := by
  cases b with
  | notANumber => exact hb
  | infinity s | zero s => cases hb; rfl
  | finite s n f h => cases hb; apply unsigned_roundWithAccuracy

end Arithmetic

section Bits

variable {spec : Format}

theorem unsigned_unpack {b : BitVec spec.numBits} (sign : unpackSign b = 0#1)
    (number : unpackExponent b = -BitVec.ofNat spec.exponentBits 1 →
      unpackMantissa b = BitVec.ofNat spec.mantissaBitsWithoutImplicit 0) : Unsigned (unpack spec b) := by
  have positive : Sign.ofBitVec (unpackSign b) = .positive := by rw [sign]; rfl
  unfold unpack
  dsimp only
  split
  · rename_i full
    rw [if_pos (number full)]
    exact positive
  · split
    · split <;> exact positive
    · exact positive

theorem unsigned_packComponents {e : BitVec spec.exponentBits}
    {m : BitVec spec.mantissaBitsWithoutImplicit}
    (number : e = -BitVec.ofNat spec.exponentBits 1 → m = BitVec.ofNat spec.mantissaBitsWithoutImplicit 0) :
    Unsigned (unpack spec (packComponents spec .positive e m)) := by
  apply unsigned_unpack
  · rw [unpackSign_packComponents]
    rfl
  · rw [unpackExponent_packComponents, unpackMantissa_packComponents]
    exact number

/-- Rounding to 64 bits leaves a number without a sign, though it may become infinity. -/
theorem Unsigned.unpack_pack {a : UnpackedFloat} (ha : Unsigned a) :
    Unsigned (unpack Format.binary64 (pack Format.binary64 a)) := by
  cases a with
  | notANumber => exact ha.elim
  | infinity s | zero s => cases ha; exact unsigned_packComponents fun _ => rfl
  | finite s m e pos =>
    cases ha
    unfold pack
    dsimp only
    split
    · exact unsigned_packComponents fun _ => rfl
    · rename_i small
      -- The exponent is not the largest one, which only infinity has.
      split
      · refine unsigned_packComponents fun full => ?_
        have largest := congrArg BitVec.toNat full
        simp at largest
        omega
      · refine unsigned_packComponents fun full => ?_
        have largest := congrArg BitVec.toNat full
        simp at largest

theorem unsigned_unpack_ofNat {n : Nat} (h : n ≤ Decimal.infiniteBits) :
    Unsigned (unpack Format.binary64 (BitVec.ofNat 64 n)) := by
  have bound : n ≤ 0x7FF0000000000000 := h
  have value : BitVec.toNat (w := Format.binary64.numBits) (BitVec.ofNat 64 n) = n :=
    Nat.mod_eq_of_lt (by omega)
  apply unsigned_unpack
  · rw [unpackSign_def]
    apply BitVec.eq_of_toNat_eq
    rw [BitVec.extractLsb'_toNat, value, Nat.shiftRight_eq_div_pow]
    show n / 2 ^ 63 % 2 = 0
    omega
  · rw [unpackExponent_def, unpackMantissa_def]
    intro full
    have largest := congrArg BitVec.toNat full
    rw [BitVec.extractLsb'_toNat, value, Nat.shiftRight_eq_div_pow] at largest
    apply BitVec.eq_of_toNat_eq
    rw [BitVec.extractLsb'_toNat, value, Nat.shiftRight_eq_div_pow]
    replace largest : n / 2 ^ 52 % 2048 = 2047 := largest
    show n / 2 ^ 0 % 2 ^ 52 = 0
    omega

end Bits

/-- A binary fraction that can be a score. -/
def IsScore (x : Float) : Prop := Unsigned x.toModel.unpack

theorem isScore_ratio (r : Ratio) : IsScore r.toFloat := by
  have bits : Decimal.nearestBits r.num r.den ≤ Decimal.infiniteBits := by
    unfold Decimal.nearestBits
    split
    · exact Nat.zero_le _
    · exact Nat.min_le_right _ _
  exact (unsigned_unpack_ofNat bits).unpack_pack

theorem isScore_one : IsScore 1.0 := rfl

theorem isScore_dice (ratio : Option Ratio) {other : Float} (h : IsScore other) :
    IsScore ((ratio.map Ratio.toFloat).getD other) := by
  cases ratio with
  | none => exact h
  | some r => exact isScore_ratio r

theorem isScore_sum {x y : Float} (hx : IsScore x) (hy : IsScore y) :
    IsScore (nodeWeight * x + edgeWeight * y) := by
  have node : nodeWeight.toModel.unpack = .finite .positive 7205759403792794 (-54) (by decide) := rfl
  have edge : edgeWeight.toModel.unpack = .finite .positive 5404319552844595 (-53) (by decide) := rfl
  have first : IsScore (nodeWeight * x) := by
    show Unsigned (unpack _ (pack _ (UnpackedFloat.mul _ nodeWeight.toModel.unpack _)))
    rw [node]
    exact (Unsigned.mul _ hx).unpack_pack
  have second : IsScore (edgeWeight * y) := by
    show Unsigned (unpack _ (pack _ (UnpackedFloat.mul _ edgeWeight.toModel.unpack _)))
    rw [edge]
    exact (Unsigned.mul _ hy).unpack_pack
  exact (first.add second).unpack_pack

/-- Whatever the graphs are, the score of their report is a number. -/
theorem isScore_report (g1 g2 : Dependence.Graph) : IsScore (Report.of g1 g2).score :=
  isScore_sum (isScore_dice _ isScore_one) (isScore_dice _ (isScore_dice _ isScore_one))

/-- The place of a number among all numbers that are zero or more. -/
def place : UnpackedFloat → Nat ×ₗ Int ×ₗ Nat
  | .zero _ => toLex (0, toLex (0, 0))
  | .finite _ m e _ => toLex (1, toLex (e, m))
  | .infinity _ => toLex (2, toLex (0, 0))
  | .notANumber => toLex (3, toLex (0, 0))

/-- Numbers without a sign compare as their places do. -/
theorem compare_eq_place {a b : UnpackedFloat} (ha : Unsigned a) (hb : Unsigned b) :
    a.compare b = some (Ord.compare (place a) (place b)) := by
  cases a <;> cases b <;> cases ha <;> cases hb <;> rfl

theorem place_injective {a b : UnpackedFloat} (ha : Unsigned a) (hb : Unsigned b)
    (same : place a = place b) : a = b := by
  cases a <;> cases b <;> cases ha <;> cases hb <;> simp_all [place]

namespace IsScore

variable {x y : Float}

theorem lt_iff (hx : IsScore x) (hy : IsScore y) :
    x < y ↔ place x.toModel.unpack < place y.toModel.unpack := by
  show decide (x.toModel.unpack.lt y.toModel.unpack = true) = true ↔ _
  rw [decide_eq_true_iff, UnpackedFloat.lt, compare_eq_place hx hy, beq_iff_eq, Option.some.injEq,
    compare_lt_iff_lt]

theorem le_iff (hx : IsScore x) (hy : IsScore y) :
    x ≤ y ↔ place x.toModel.unpack ≤ place y.toModel.unpack := by
  show decide (x.toModel.unpack.le y.toModel.unpack = true) = true ↔ _
  rw [decide_eq_true_iff, UnpackedFloat.le, compare_eq_place hx hy, Option.any_some,
    Ordering.isLE_iff_ne_gt]
  exact compare_le_iff_le

/-- Scores at one place are one score. -/
theorem eq_of_place (hx : IsScore x) (hy : IsScore y)
    (same : place x.toModel.unpack = place y.toModel.unpack) : x = y := by
  have unpacked := place_injective hx hy same
  obtain ⟨⟨bits, valid⟩⟩ := x
  obtain ⟨⟨bits', valid'⟩⟩ := y
  have bits_eq : bits = bits' :=
    UInt64.eq_of_toBitVec_eq ((unpack_inj_of_valid valid valid').1 unpacked)
  subst bits_eq
  rfl

end IsScore

end Arbiter.Similarity

/-! Candidates. -/

namespace Arbiter.Plagiarism

open Similarity (IsScore place)

/-- `a` is listed before `b`: its score is higher, or the scores are equal and its identifier is the
lower one. -/
def Scored.Above (a b : Scored) : Prop :=
  b.report.score < a.report.score ∨ a.report.score = b.report.score ∧ a.id < b.id

/-- The findings that a ranking of all candidates leads to. -/
structure Lists (threshold : Float) (ranking : List Scored) (o : PlagiarismOutcome) : Prop where
  scores : o.scores = (ranking.take listedMatches).map (·.report.score)
  similarIds : o.similarIds = (ranking.take listedMatches).map (·.id)
  report : o.report = ranking.head?.map (·.report)
  result : ∃ best ∈ ranking, (∀ c ∈ ranking, c.report.score ≤ best.report.score) ∧
    (o.result = true ↔ threshold ≤ best.report.score)

namespace Scored

/-- What the order of the list goes by: the place of the score, from the highest, and then the
identifier. -/
def key (c : Scored) : (Nat ×ₗ Int ×ₗ Nat)ᵒᵈ ×ₗ Int :=
  toLex (OrderDual.toDual (place c.report.score.toModel.unpack), c.id.toInt)

variable {a b : Scored}

theorem before_eq_key (ha : IsScore a.report.score) (hb : IsScore b.report.score) :
    a.before b = decide (a.key ≤ b.key) := by
  rw [Bool.eq_iff_iff, decide_eq_true_iff, key, key, Prod.Lex.toLex_le_toLex]
  simp only [before, ha.lt_iff hb, hb.lt_iff ha, OrderDual.toDual_lt_toDual, OrderDual.toDual_inj]
  split
  · rename_i higher
    simp [higher]
  · rename_i notHigher
    split
    · rename_i lower
      simp [lower.not_gt, lower.ne]
    · rename_i notLower
      have same := le_antisymm (not_lt.1 notHigher) (not_lt.1 notLower)
      simp [same, Int64.le_iff_toInt_le]

theorem above_of_key (ha : IsScore a.report.score) (hb : IsScore b.report.score)
    (le : a.key ≤ b.key) (ids : a.id ≠ b.id) : a.Above b := by
  rw [key, key, Prod.Lex.toLex_le_toLex] at le
  rcases le with higher | ⟨same, le⟩
  · exact .inl ((hb.lt_iff ha).2 higher)
  · refine .inr ⟨ha.eq_of_place hb same, ?_⟩
    exact Int64.lt_of_le_of_ne (Int64.le_iff_toInt_le.2 le) ids

theorem Above.score_le (above : a.Above b) (ha : IsScore a.report.score)
    (hb : IsScore b.report.score) : b.report.score ≤ a.report.score := by
  rw [hb.le_iff ha]
  rcases above with higher | ⟨same, -⟩
  · exact ((hb.lt_iff ha).1 higher).le
  · rw [same]

end Scored

section Sorting

variable {scored : List Scored} (scores : ∀ c ∈ scored, IsScore c.report.score)

include scores

/-- Scores are numbers, so the comparison that sorts the list is that of a linear order. -/
theorem pairwise_mergeSort_key :
    (scored.mergeSort Scored.before).Pairwise fun a b => a.key ≤ b.key := by
  have sameSort : scored.mergeSort Scored.before =
      scored.mergeSort fun a b => decide (a.key ≤ b.key) := by
    have mapped := List.map_mergeSort (r := Scored.before) (s := fun a b => decide (a.key ≤ b.key))
      (f := id) fun a ha b hb => Scored.before_eq_key (scores a ha) (scores b hb)
    simpa only [List.map_id] using mapped
  rw [sameSort]
  refine (List.pairwise_mergeSort ?_ ?_ scored).imp of_decide_eq_true
  · intro a b c ab bc
    exact decide_eq_true ((of_decide_eq_true ab).trans (of_decide_eq_true bc))
  · intro a b
    rw [Bool.or_eq_true, decide_eq_true_iff, decide_eq_true_iff]
    exact le_total a.key b.key

theorem pairwise_above (ids : (scored.map (·.id)).Nodup) :
    (scored.mergeSort Scored.before).Pairwise Scored.Above := by
  have perm := List.mergeSort_perm scored Scored.before
  have distinct : (scored.mergeSort Scored.before).Pairwise fun a b => a.id ≠ b.id := by
    rw [← List.pairwise_map]
    exact (perm.map _).nodup_iff.2 ids
  refine List.Pairwise.imp_of_mem ?_ ((pairwise_mergeSort_key scores).and distinct)
  intro a b ha hb both
  exact Scored.above_of_key (scores a (perm.mem_iff.1 ha)) (scores b (perm.mem_iff.1 hb)) both.1 both.2

/-- The findings are those of the ranking of all candidates. -/
theorem rank_lists (threshold : Float) (some_one : scored ≠ []) (ids : (scored.map (·.id)).Nodup) :
    ∃ ranking : List Scored, ranking.Perm scored ∧ ranking.Pairwise Scored.Above ∧
      Lists threshold ranking (rank threshold scored) := by
  have perm := List.mergeSort_perm scored Scored.before
  have above := pairwise_above scores ids
  refine ⟨scored.mergeSort Scored.before, perm, above, ?_⟩
  unfold rank
  dsimp only
  generalize scored.mergeSort Scored.before = ranking at perm above
  cases ranking with
  | nil => exact absurd perm.symm.eq_nil some_one
  | cons best rest =>
    refine ⟨rfl, rfl, rfl, best, List.mem_cons_self, ?_, decide_eq_true_iff⟩
    intro c hc
    have isScore : ∀ d ∈ best :: rest, IsScore d.report.score :=
      fun d hd => scores d (perm.mem_iff.1 hd)
    rcases List.mem_cons.1 hc with rfl | later
    · rw [(isScore c hc).le_iff (isScore c hc)]
    · exact ((List.pairwise_cons.1 above).1 c later).score_le (isScore best List.mem_cons_self)
        (isScore c hc)

/-- The findings do not depend on the order in which the reports came in. -/
theorem rank_congr (threshold : Float) (ids : (scored.map (·.id)).Nodup) {others : List Scored}
    (perm : others.Perm scored) : rank threshold others = rank threshold scored := by
  have sorts := List.mergeSort_perm scored Scored.before
  have both : (others.mergeSort Scored.before).Perm (scored.mergeSort Scored.before) :=
    (List.mergeSort_perm others Scored.before).trans (perm.trans sorts.symm)
  have sortedOthers := pairwise_mergeSort_key fun c here => scores c (perm.mem_iff.1 here)
  have same : others.mergeSort Scored.before = scored.mergeSort Scored.before := by
    refine both.eq_of_pairwise (fun a b ha hb le ge => ?_) sortedOthers (pairwise_mergeSort_key scores)
    have idsEq := congrArg (fun k => (ofLex k).2) (le_antisymm le ge)
    exact List.inj_on_of_nodup_map ids (sorts.subset (both.subset ha)) (sorts.subset hb)
      (Int64.toInt_inj.1 idsEq)
  rw [rank, rank, same]

end Sorting

end Arbiter.Plagiarism
