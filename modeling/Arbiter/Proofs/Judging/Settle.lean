import Arbiter.Proofs.Judging.Stage
import Arbiter.Proofs.Work.History

/-! Results that come in any order. Main statement: in whatever order the tasks of test cases end, and
whichever of them die, the results are settled to one for each case, in the order of the cases; the
outcome of results does not depend on their order either, and a further result can only make it worse. -/

namespace Arbiter

namespace TestCaseResult

/-- Results of different cases have one order only. -/
theorem inOrder_eq {results sorted : List TestCaseResult} (perm : results.Perm sorted)
    (distinct : (sorted.map (·.index)).Nodup) (ordered : sorted.Pairwise fun a b => a.index ≤ b.index) :
    inOrder results = sorted := by
  have perm' := (perm_inOrder results).trans perm
  refine List.Perm.eq_of_pairwise (fun a b ha hb le ge => ?_) (pairwise_inOrder results) ordered perm'
  exact List.inj_on_of_nodup_map distinct (perm'.subset ha) hb (Nat.le_antisymm le ge)

theorem inOrder_congr {results others : List TestCaseResult} (perm : results.Perm others)
    (distinct : (results.map (·.index)).Nodup) : inOrder results = inOrder others := by
  refine inOrder_eq (perm.trans (perm_inOrder others).symm) ?_ (pairwise_inOrder others)
  exact (((perm_inOrder others).trans perm.symm).map _).nodup_iff.2 distinct

end TestCaseResult

namespace Program

variable {Request : Type} {Reply : Request → Type} {α σ : Type}

/-- The program can end in this way. -/
def Ends (p : Program Request Reply α) (a : α) : Prop := ∃ past, Path p past (done a)

theorem ends_run (reply : (q : Request) → σ → Reply q × σ) (p : Program Request Reply α) (s : σ) :
    p.Ends (p.run reply s).1 := by
  induction p generalizing s with
  | done a => exact ⟨[], .refl _⟩
  | ask q next ih =>
    obtain ⟨past, path⟩ := ih (reply q s).1 (reply q s).2
    exact ⟨_, .ask _ path⟩

/-- Surroundings that reply as they like. -/
def anyReply : Effect Request Reply Unit := fun _ _ K => ∀ reply, K reply ()

/-- What holds however a program ends holds of each of its ends. -/
theorem Ends.of_wp {p : Program Request Reply α} {a : α} (ends : p.Ends a) {Q : α → Unit → Prop}
    (h : p.wp anyReply Q ()) : Q a () := by
  obtain ⟨past, path⟩ := ends
  generalize ended : done a = rest at path
  induction path with
  | refl p =>
    subst ended
    exact h
  | ask reply goesOn ih => exact ih (h reply) ended

end Program

open TestCaseResult (inOrder perm_inOrder)

theorem toNat_foldl_add (points : List UInt32) (start : UInt32)
    (fits : start.toNat + (points.map UInt32.toNat).sum < UInt32.size) :
    (points.foldl (· + ·) start).toNat = start.toNat + (points.map UInt32.toNat).sum := by
  induction points generalizing start with
  | nil => simp
  | cons p rest ih =>
    rw [List.map_cons, List.sum_cons] at fits
    have sum : (start + p).toNat = start.toNat + p.toNat := by
      rw [UInt32.toNat_add, Nat.mod_eq_of_lt]
      simp only [UInt32.size] at fits
      omega
    rw [List.foldl_cons, ih (start + p) (by omega), sum, List.map_cons, List.sum_cons]
    omega

namespace JudgeOutcome

/-- The points of all results together. -/
def points (results : List TestCaseResult) : Nat := (results.map (·.points.toNat)).sum

variable {results extended : List TestCaseResult}

theorem ofResults_congr {others : List TestCaseResult} (perm : results.Perm others)
    (distinct : (results.map (·.index)).Nodup) : ofResults results = ofResults others := by
  have same := TestCaseResult.inOrder_congr perm distinct
  unfold inOrder at same
  rw [ofResults, same]
  rfl

theorem rank_worst_le (n : Nat) :
    (ofResults results).worst.rank ≤ n ↔ ∀ r ∈ results, (Category.ofVerdict r.verdict).rank ≤ n := by
  have members : ∀ r, r ∈ (ofResults results).results ↔ r ∈ results :=
    fun r => (perm_inOrder results).mem_iff
  rw [worst, Category.worstOf, Category.rank_foldl_worse_le, List.map_map, List.forall_mem_map]
  simp only [members, Function.comp_apply]
  exact and_iff_right (Nat.zero_le n)

theorem status_ofResults_eq_error :
    (ofResults results).status = .error ↔ 1 < (ofResults results).worst.rank := by
  show Status.ofCategory (ofResults results).worst = .error ↔ _
  rw [← Nat.not_le, ← Category.isJudgment_iff, Status.ofCategory]
  split <;> simp_all

/-- The largest value of a list is at most that of a list with more members. -/
theorem foldl_max_le (value : TestCaseResult → UInt32) (more : ∀ r ∈ results, r ∈ extended) :
    ((inOrder results).map value).foldl max 0 ≤ ((inOrder extended).map value).foldl max 0 := by
  rcases (largest_foldl_max ((inOrder results).map value)).2 with here | zero
  · obtain ⟨r, there, same⟩ := List.mem_map.1 here
    rw [← same]
    refine (largest_foldl_max _).1 _ (List.mem_map_of_mem ?_)
    exact (perm_inOrder extended).mem_iff.2 (more r ((perm_inOrder results).mem_iff.1 there))
  · rw [zero]
    exact UInt32.zero_le

theorem toNat_score (fits : points results < UInt32.size) :
    (ofResults results).score.toNat = points results := by
  have sum : (((inOrder results).map (·.points)).map UInt32.toNat).sum = points results := by
    rw [List.map_map]
    exact ((perm_inOrder results).map fun r : TestCaseResult => r.points.toNat).sum_nat
  show (((inOrder results).map TestCaseResult.points).foldl (· + ·) 0).toNat = points results
  rw [toNat_foldl_add _ _ (by rw [sum]; simpa using fits), sum]
  exact Nat.zero_add _

/-- The second outcome is no better than the first one. -/
structure NoBetter (o o' : JudgeOutcome) : Prop where
  worst : o.worst.rank ≤ o'.worst.rank
  timeMs : o.timeMs ≤ o'.timeMs
  memoryKb : o.memoryKb ≤ o'.memoryKb
  status : o.status = .error → o'.status = .error

theorem noBetter_of_subset (more : ∀ r ∈ results, r ∈ extended) :
    (ofResults results).NoBetter (ofResults extended) := by
  have worst : (ofResults results).worst.rank ≤ (ofResults extended).worst.rank :=
    (rank_worst_le _).2 fun r here => (rank_worst_le _).1 (Nat.le_refl _) r (more r here)
  exact {
    worst
    timeMs := foldl_max_le (·.timeMs) more
    memoryKb := foldl_max_le (·.memoryKb) more
    status := fun failed => by
      rw [status_ofResults_eq_error] at failed ⊢
      exact Nat.lt_of_lt_of_le failed worst }

theorem score_le_of_perm {r : TestCaseResult} (perm : extended.Perm (r :: results))
    (fits : points extended < UInt32.size) :
    (ofResults results).score ≤ (ofResults extended).score := by
  have split : points extended = r.points.toNat + points results :=
    (perm.map fun r : TestCaseResult => r.points.toNat).sum_nat
  rw [UInt32.le_iff_toNat_le, toNat_score fits, toNat_score (by omega), split]
  exact Nat.le_add_left _ _

end JudgeOutcome

namespace Judging

/-- What the tasks of all cases ended in, in the order of the cases: nothing, or a result of the own
case. -/
def Own (found : List (Option TestCaseResult)) : Prop :=
  ∀ i r, found[i]? = some (some r) → r.index = i + 1

/-- The result of a case: the one that its task ended in, or a stamp where the task died. -/
def accountOf (e : Option TestCaseResult × Nat) : TestCaseResult :=
  e.1.getD (.stamped e.2 .unknown "Runner Error: test case task aborted")

/-- One result for each case. -/
def accounted (found : List (Option TestCaseResult)) : List TestCaseResult :=
  (found.zipIdx 1).map accountOf

section Settle

variable {found : List (Option TestCaseResult)}

theorem Own.mem_zipIdx (own : Own found) {r : TestCaseResult} {i : Nat}
    (here : (some r, i) ∈ found.zipIdx 1) : r.index = i := by
  rw [List.mk_mem_zipIdx_iff_le_and_getElem?_sub] at here
  have := own _ r here.2
  omega

theorem Own.index_accounted (own : Own found) :
    (accounted found).map (·.index) = List.range' 1 found.length := by
  rw [← List.zipIdx_map_snd 1 found, accounted, List.map_map]
  refine List.map_congr_left fun e here => ?_
  obtain ⟨_ | r, i⟩ := e
  · rfl
  · exact own.mem_zipIdx here

/-- The tasks that died are those whose case no result is for. -/
theorem Own.any_index (own : Own found) {finished : List TestCaseResult}
    (order : finished.Perm (found.filterMap id)) {e : Option TestCaseResult × Nat}
    (here : e ∈ found.zipIdx 1) : finished.any (·.index == e.2) = e.1.isSome := by
  rw [Bool.eq_iff_iff, List.any_eq_true, Option.isSome_iff_exists]
  obtain ⟨o, i⟩ := e
  constructor
  · rintro ⟨r, back, same⟩
    obtain ⟨o', there, rfl⟩ := List.mem_filterMap.1 (order.mem_iff.1 back)
    obtain ⟨j, at_j⟩ := List.mem_iff_getElem?.1 there
    have index := own j r at_j
    rw [List.mk_mem_zipIdx_iff_le_and_getElem?_sub] at here
    have place : i - 1 = j := by
      rw [beq_iff_eq] at same
      dsimp only at same
      omega
    rw [place, at_j] at here
    exact ⟨r, (Option.some.inj here.2).symm⟩
  · rintro ⟨r, rfl⟩
    have there : some r ∈ found := by
      rw [← List.zipIdx_map_fst 1 found]
      exact List.mem_map_of_mem here
    exact ⟨r, order.mem_iff.2 (List.mem_filterMap.2 ⟨some r, there, rfl⟩),
      beq_iff_eq.2 (own.mem_zipIdx here)⟩

theorem map_accountOf_isSome (tasks : List (Option TestCaseResult × Nat)) :
    (tasks.filter (·.1.isSome)).map accountOf = (tasks.map (·.1)).filterMap id := by
  induction tasks with
  | nil => rfl
  | cons e rest ih =>
    obtain ⟨_ | r, i⟩ := e
    · exact ih
    · exact congrArg (r :: ·) ih

/-- In whatever order the results come back, they are settled to one for each case. -/
theorem Own.settle_eq (own : Own found) {finished : List TestCaseResult}
    (order : finished.Perm (found.filterMap id)) : settle found.length finished = accounted found := by
  have stamped : (((List.range' 1 found.length).filter fun i => !finished.any (·.index == i)).map fun i =>
      TestCaseResult.stamped i .unknown "Runner Error: test case task aborted") =
        ((found.zipIdx 1).filter (!·.1.isSome)).map accountOf := by
    rw [← List.zipIdx_map_snd 1 found, List.filter_map, List.map_map]
    have died : ∀ e ∈ found.zipIdx 1,
        ((fun i => !finished.any (·.index == i)) ∘ Prod.snd) e = !e.1.isSome :=
      fun e here => congrArg (!·) (own.any_index order here)
    rw [List.filter_congr died]
    refine List.map_congr_left fun e here => ?_
    obtain ⟨_ | r, i⟩ := e
    · rfl
    · simp at here
  have perm : (finished ++ ((found.zipIdx 1).filter (!·.1.isSome)).map accountOf).Perm
      (accounted found) := by
    rw [← List.zipIdx_map_fst 1 found, ← map_accountOf_isSome] at order
    refine (order.append_right _).trans ?_
    rw [← List.map_append]
    exact (List.filter_append_perm _ _).map accountOf
  have indices := own.index_accounted
  rw [settle, stamped]
  refine TestCaseResult.inOrder_eq perm ?_ (List.pairwise_map.1 ?_)
  · rw [indices]
    exact List.nodup_range'
  · rw [indices]
    exact (List.pairwise_lt_range' (s := 1) (n := found.length)).imp Nat.le_of_lt

end Settle

section Tasks

variable (s : SandboxSettings)

theorem index_of_ends {r : Run} {result : TestCaseResult} (ends : (runTask s r).Ends (some result)) :
    result.index = r.index := by
  refine ends.of_wp (Q := fun o _ => ∀ result, o = some result → result.index = r.index) ?_ result rfl
  have free : Work.Free (@Program.anyReply Work.Request Work.Request.Reply) := fun _ _ _ _ h => h
  refine (Program.wp_bind _ _ _ _).2 (wp_runCase free s r fun own index => fun joined => ?_)
  intro result same
  cases joined with
  | false => cases same
  | true => exact Option.some.inj same ▸ index

/-- Tasks report on their own cases, if on any. -/
theorem own_of_ends {problem : Problem} {language : Language} {limits : Limits}
    {judge : Option SpecialJudge} {found : List (Option TestCaseResult)}
    (ended : List.Forall₂ (fun r o => (runTask s r).Ends o) (runs problem language limits judge) found) :
    Own found ∧ found.length = problem.testcases.length := by
  have length : found.length = problem.testcases.length := by
    rw [← ended.length_eq]
    simp [runs]
  refine ⟨fun i result here => ?_, length⟩
  obtain ⟨inside, at_i⟩ := List.getElem?_eq_some_iff.1 here
  have ends := (List.forall₂_iff_get.1 ended).2 i (ended.length_eq ▸ inside) inside
  rw [List.get_eq_getElem, List.get_eq_getElem, at_i] at ends
  rw [index_of_ends s ends]
  simp [runs, Nat.add_comm]

theorem exists_ends {σ : Type} (reply : (q : Work.Request) → σ → q.Reply × σ) (runs : List Run) (t : σ) :
    ∃ found t', (runs.mapM (runTask s)).run reply t = (found, t') ∧
      List.Forall₂ (fun r o => (runTask s r).Ends o) runs found := by
  induction runs generalizing t with
  | nil => exact ⟨[], t, rfl, .nil⟩
  | cons r rest ih =>
    obtain ⟨found, t', ran, ended⟩ := ih ((runTask s r).run reply t).2
    refine ⟨((runTask s r).run reply t).1 :: found, t', ?_, .cons (Program.ends_run _ _ _) ended⟩
    rw [List.mapM_cons, Program.run_bind, Program.run_bind, ran]
    rfl

/-- The results of a pass do not depend on the order in which its tasks end, nor does the outcome that
is made of results depend on theirs. Every case is accounted for, and a further result never makes the
outcome look better. -/
theorem outcome_in_any_order (problem : Problem) (language : Language) (limits : Limits)
    (judge : Option SpecialJudge) :
    (∀ found, List.Forall₂ (fun r o => (runTask s r).Ends o) (runs problem language limits judge) found →
      Own found ∧ found.length = problem.testcases.length) ∧
    (∀ found finished, Own found → finished.Perm (found.filterMap id) →
      settle found.length finished = accounted found ∧
        (accounted found).map (·.index) = List.range' 1 found.length) ∧
    (∀ (σ : Type) (reply : (q : Work.Request) → σ → q.Reply × σ) (t : σ), ∃ found,
      List.Forall₂ (fun r o => (runTask s r).Ends o) (runs problem language limits judge) found ∧
        ((runCases s problem language limits judge).run reply t).1 = accounted found) ∧
    (∀ results others : List TestCaseResult, results.Perm others → (results.map (·.index)).Nodup →
      JudgeOutcome.ofResults results = JudgeOutcome.ofResults others) ∧
    (∀ (results extended : List TestCaseResult) r, extended.Perm (r :: results) →
      (JudgeOutcome.ofResults results).NoBetter (JudgeOutcome.ofResults extended) ∧
        (JudgeOutcome.points extended < UInt32.size →
          (JudgeOutcome.ofResults results).score ≤ (JudgeOutcome.ofResults extended).score)) := by
  refine ⟨fun found ended => own_of_ends s ended, fun found finished own order => ?_,
    fun σ reply t => ?_, fun _ _ perm distinct => JudgeOutcome.ofResults_congr perm distinct,
    fun results extended r perm => ⟨?_, JudgeOutcome.score_le_of_perm perm⟩⟩
  · exact ⟨own.settle_eq order, own.index_accounted⟩
  · obtain ⟨found, t', ran, ended⟩ := exists_ends s reply (runs problem language limits judge) t
    obtain ⟨own, length⟩ := own_of_ends s ended
    refine ⟨found, ended, ?_⟩
    rw [runCases, Program.run_bind, ran, ← length]
    exact own.settle_eq (.refl _)
  · exact JudgeOutcome.noBetter_of_subset fun r here => perm.mem_iff.2 (List.mem_cons_of_mem _ here)

/-- One task of three dies, and the others end the wrong way round. -/
theorem outcome_in_any_order_threeCases :
    let first : TestCaseResult := ⟨1, .accepted, 5, 700, 10, "3", ""⟩
    let third : TestCaseResult := ⟨3, .wrongAnswer, 4, 900, 0, "4", ""⟩
    settle 3 [third, first] =
        [first, .stamped 2 .unknown "Runner Error: test case task aborted", third] ∧
      JudgeOutcome.ofResults [third, first] = JudgeOutcome.ofResults [first, third] ∧
      (JudgeOutcome.ofResults [first]).NoBetter (JudgeOutcome.ofResults [first, third]) ∧
      (JudgeOutcome.ofResults [first]).score ≤ (JudgeOutcome.ofResults [first, third]).score := by
  intro first third
  obtain ⟨-, settled, -, congr, further⟩ := outcome_in_any_order {} ⟨1, none, none, [], .standard, none,
    none⟩ ⟨1, "", ".py", none, none, "", "", 0, 0⟩ ⟨0, 0⟩ none
  have own : Own [some first, none, some third] := by
    intro i r here
    match i with
    | 0 | 2 =>
      obtain rfl := Option.some.inj (Option.some.inj here)
      rfl
    | 1 => cases here
    | _ + 3 => cases here
  have more := further [first] [first, third] third (.swap third first [])
  exact ⟨(settled _ [third, first] own (.swap first third [])).1,
    congr _ _ (.swap first third []) (by decide), more.1, more.2 (by decide)⟩

end Tasks

end Judging

end Arbiter
