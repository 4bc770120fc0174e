import Arbiter.Judging.Pass
import Mathlib.Data.List.Sort
import Mathlib.Data.UInt

/-! What the outcome of a judging pass looks like. Main statements: an outcome made of one result for
each test case, or of one failure for all of them, is full, which is to say that its status, time,
memory and score are those of its results. -/

namespace Arbiter

/-- What judging has written on a submission. -/
def Submission.outcome (s : Submission) : JudgeOutcome :=
  ⟨s.status, s.timeMs, s.memoryKb, s.score, s.results, s.errorMessage⟩

@[simp] theorem Submission.outcome_judged (s : Submission) (o : JudgeOutcome) :
    (s.judged o).outcome = o := rfl

/-- The results as they are ordered before they are stored. -/
def TestCaseResult.inOrder (results : List TestCaseResult) : List TestCaseResult :=
  results.mergeSort fun a b => a.index ≤ b.index

namespace TestCaseResult

theorem perm_inOrder (results : List TestCaseResult) : (inOrder results).Perm results :=
  List.mergeSort_perm _ _

theorem pairwise_inOrder (results : List TestCaseResult) :
    (inOrder results).Pairwise fun a b => a.index ≤ b.index := by
  refine (List.pairwise_mergeSort ?_ ?_ results).imp of_decide_eq_true
  · intro a b c
    simp only [decide_eq_true_eq]
    omega
  · intro a b
    simp only [Bool.or_eq_true, decide_eq_true_eq]
    omega

end TestCaseResult

/-- The largest of some numbers, zero if there are none. -/
def Largest (values : List UInt32) (m : UInt32) : Prop :=
  (∀ v ∈ values, v ≤ m) ∧ (m ∈ values ∨ m = 0)

theorem foldl_max_spec (values : List UInt32) (start : UInt32) :
    start ≤ values.foldl max start ∧ (∀ v ∈ values, v ≤ values.foldl max start) ∧
      (values.foldl max start ∈ values ∨ values.foldl max start = start) := by
  induction values generalizing start with
  | nil => simp
  | cons v rest ih =>
    obtain ⟨from_start, from_rest, found⟩ := ih (max start v)
    have larger : start ≤ max start v ∧ v ≤ max start v ∧ (max start v = start ∨ max start v = v) := by
      by_cases le : start ≤ v
      · rw [show max start v = v from if_pos le]
        exact ⟨le, UInt32.le_refl v, .inr rfl⟩
      · rw [show max start v = start from if_neg le]
        exact ⟨UInt32.le_refl start, UInt32.le_of_lt (UInt32.not_le.1 le), .inl rfl⟩
    refine ⟨UInt32.le_trans larger.1 from_start, fun w hw => ?_, ?_⟩
    · rcases List.mem_cons.1 hw with rfl | hw
      · exact UInt32.le_trans larger.2.1 from_start
      · exact from_rest w hw
    · rw [List.foldl_cons, List.mem_cons]
      rcases found with found | found
      · exact .inl (.inr found)
      · rcases larger.2.2 with picked | picked
        · exact .inr (found.trans picked)
        · exact .inl (.inl (found.trans picked))

theorem largest_foldl_max (values : List UInt32) : Largest values (values.foldl max 0) :=
  (foldl_max_spec values 0).2

theorem largest_of_zeros {values : List UInt32} (h : ∀ v ∈ values, v = 0) : Largest values 0 :=
  ⟨fun v hv => (h v hv).symm ▸ UInt32.le_refl 0, .inr rfl⟩

namespace Category

theorem rank_foldl_worse_le (l : List Category) (c : Category) (n : Nat) :
    (l.foldl worse c).rank ≤ n ↔ c.rank ≤ n ∧ ∀ d ∈ l, d.rank ≤ n := by
  induction l generalizing c with
  | nil => simp
  | cons d rest ih =>
    rw [List.foldl_cons, ih, rank_worse, List.forall_mem_cons, Nat.max_le, and_assoc]

theorem isJudgment_iff (c : Category) : c.isJudgment = true ↔ c.rank ≤ 1 := by
  cases c <;> decide

theorem rank_ofVerdict_le_one (v : Verdict) :
    (ofVerdict v).rank ≤ 1 ↔ v = .accepted ∨ v = .wrongAnswer := by
  cases v <;> decide

/-- Verdicts come to a judgment if each of them judges the answer of the code. -/
theorem isJudgment_worstOf (verdicts : List Verdict) :
    (worstOf verdicts).isJudgment = true ↔
      ∀ v ∈ verdicts, v = .accepted ∨ v = .wrongAnswer := by
  rw [isJudgment_iff, worstOf, rank_foldl_worse_le, List.forall_mem_map]
  simp only [rank_ofVerdict_le_one]
  exact and_iff_right (Nat.zero_le 1)

end Category

namespace Status

theorem ofCategory_eq_success (c : Category) : ofCategory c = success ↔ c.isJudgment = true := by
  unfold ofCategory
  split <;> simp_all

theorem ofCategory_isTerminal (c : Category) : (ofCategory c).isTerminal = true := by
  unfold ofCategory
  split <;> rfl

end Status

namespace JudgeOutcome

/-- No judgment shows: judging is still to come, or under way. -/
structure Blank (o : JudgeOutcome) : Prop where
  status : o.status = .pending ∨ o.status = .compiling ∨ o.status = .judging
  results : o.results = []
  timeMs : o.timeMs = 0
  memoryKb : o.memoryKb = 0
  score : o.score = 0
  errorMessage : o.errorMessage = none

/-- A judgment on `count` test cases, all of which follows from its results. -/
structure Full (count : Nat) (o : JudgeOutcome) : Prop where
  status : o.status = .success ∨ o.status = .error
  indices : o.results.map (·.index) = List.range' 1 count
  timeMs : Largest (o.results.map (·.timeMs)) o.timeMs
  memoryKb : Largest (o.results.map (·.memoryKb)) o.memoryKb
  score : o.score = (o.results.map (·.points)).sum
  success_iff : 1 ≤ count →
    (o.status = .success ↔ ∀ r ∈ o.results, r.verdict = .accepted ∨ r.verdict = .wrongAnswer)
  /-- A message stands for one failure of all cases. -/
  failure : ∀ text, o.errorMessage = some text →
    ∃ v, (v = .compileError ∨ v = .unknown) ∧
      ∀ r ∈ o.results, r.verdict = v ∧ r.error = text ∧ r.timeMs = 0 ∧ r.memoryKb = 0 ∧ r.points = 0

theorem Full.isTerminal {count : Nat} {o : JudgeOutcome} (h : o.Full count) :
    o.status.isTerminal = true := by
  rcases h.status with h | h <;> rw [h] <;> rfl

theorem foldl_add_eq_sum (points : List UInt32) : points.foldl (· + ·) 0 = points.sum :=
  List.sum_eq_foldl.symm

theorem full_failed (count : Nat) {verdict : Verdict} (message : String)
    (h : verdict = .compileError ∨ verdict = .unknown) :
    (failed count verdict message).Full count where
  status := .inr rfl
  indices := by simp [failed, TestCaseResult.stamped, Function.comp_def]
  timeMs := largest_of_zeros (by simp +contextual [failed, TestCaseResult.stamped, eq_comm])
  memoryKb := largest_of_zeros (by simp +contextual [failed, TestCaseResult.stamped, eq_comm])
  score := by
    rw [← foldl_add_eq_sum]
    simp only [failed, List.map_map, Function.comp_def, TestCaseResult.stamped]
    generalize List.range' 1 count = indices
    induction indices with
    | nil => rfl
    | cons _ _ ih => exact ih
  success_iff := by
    intro one_le
    have first : TestCaseResult.stamped 1 verdict message ∈ (failed count verdict message).results :=
      List.mem_map_of_mem (List.mem_range'_1.2 ⟨Nat.le_refl 1, by omega⟩)
    constructor
    · intro status
      cases status
    · intro all
      have judged := all _ first
      rcases h with rfl | rfl <;> simp [TestCaseResult.stamped] at judged
  failure := by
    intro text same
    obtain rfl : message = text := Option.some.inj same
    refine ⟨verdict, h, ?_⟩
    intro r hr
    obtain ⟨i, -, rfl⟩ := List.mem_map.1 hr
    exact ⟨rfl, rfl, rfl, rfl, rfl⟩

/-- Sorting by index puts one result for each case in the order of the cases. -/
theorem indices_mergeSort {count : Nat} {results : List TestCaseResult}
    (h : (results.map (·.index)).Perm (List.range' 1 count)) :
    (results.mergeSort fun a b => a.index ≤ b.index).map (·.index) = List.range' 1 count := by
  have sorted : ((results.mergeSort fun a b => a.index ≤ b.index).map (·.index)).Pairwise (· ≤ ·) :=
    List.pairwise_map.2 (TestCaseResult.pairwise_inOrder results)
  have perm := ((List.mergeSort_perm results fun a b => a.index ≤ b.index).map (·.index)).trans h
  refine List.Perm.eq_of_pairwise (fun a b _ _ => Nat.le_antisymm) sorted ?_ perm
  exact (List.pairwise_lt_range' (s := 1) (n := count)).imp Nat.le_of_lt

theorem full_ofResults {count : Nat} {results : List TestCaseResult}
    (h : (results.map (·.index)).Perm (List.range' 1 count)) : (ofResults results).Full count where
  status := by
    simp only [ofResults, Status.ofCategory]
    split <;> simp
  indices := indices_mergeSort h
  timeMs := largest_foldl_max _
  memoryKb := largest_foldl_max _
  score := foldl_add_eq_sum _
  success_iff := by
    intro _
    simp only [ofResults, Status.ofCategory_eq_success, Category.isJudgment_worstOf,
      List.forall_mem_map]
  failure := by
    intro text none
    cases none

end JudgeOutcome

namespace Judging

/-- Results that came back from some of the cases, each once, are completed to one for each case. -/
theorem indices_settle {count : Nat} {finished : List TestCaseResult}
    (h : (finished.map (·.index)).Sublist (List.range' 1 count)) :
    (settle count finished).map (·.index) = List.range' 1 count := by
  refine JudgeOutcome.indices_mergeSort ?_
  let back (i : Nat) : Bool := finished.any (·.index == i)
  have mem_back : ∀ i, back i = true ↔ i ∈ finished.map (·.index) := by
    intro i
    simp [back]
  have cases := List.nodup_range' (s := 1) (n := count)
  have came : (finished.map (·.index)).Perm ((List.range' 1 count).filter back) := by
    rw [List.perm_ext_iff_of_nodup (h.nodup cases) (cases.filter _)]
    intro i
    rw [List.mem_filter, mem_back]
    exact ⟨fun hi => ⟨h.mem hi, hi⟩, And.right⟩
  have stamped : (((List.range' 1 count).filter fun i => !back i).map fun i =>
      TestCaseResult.stamped i .unknown "Runner Error: test case task aborted").map (·.index) =
        (List.range' 1 count).filter fun i => !back i := by
    simp [TestCaseResult.stamped, Function.comp_def]
  rw [List.map_append, stamped]
  exact (came.append_right _).trans (List.filter_append_perm back _)

end Judging

end Arbiter
