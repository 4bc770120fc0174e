import Arbiter.Proofs.Judging.Stored
import Arbiter.Proofs.Judging.Trial

/-! The points of outcomes. Main statements: each run on a test case is classified by what was exchanged
for it, and the score that a pass stores is the sum of points that go with the verdicts, which is full
exactly if every test case is accepted. -/

namespace Arbiter

namespace JudgeOutcome

open Judging (Rates rates_none)

variable {mode : JudgeMode} {results : List TestCaseResult} {o : JudgeOutcome} {count : Nat}

/-- A full outcome whose points go with its verdicts. -/
structure Scored (mode : JudgeMode) (count : Nat) (o : JudgeOutcome) : Prop extends Full count o where
  rates : ∀ r ∈ o.results, Rates mode r.verdict r.points
  /-- Scores have 32 bits. -/
  total : o.score = .ofNat (points o.results)
  points_le : points o.results ≤ 10 * count
  points_eq_iff : points o.results = 10 * count ↔ ∀ r ∈ o.results, r.verdict = .accepted
  compared : mode ≠ .special → points o.results = 10 * o.results.countP (·.verdict = .accepted)

theorem points_cons (r : TestCaseResult) (results : List TestCaseResult) :
    points (r :: results) = r.points.toNat + points results := rfl

theorem sum_points (results : List TestCaseResult) :
    (results.map (·.points)).sum = .ofNat (points results) := by
  induction results with
  | nil => rfl
  | cons r rest ih =>
    rw [List.map_cons, List.sum_cons, ih, points_cons, UInt32.ofNat_add, UInt32.ofNat_toNat]

/-- All points are given exactly if everything is accepted. -/
theorem points_of_rates (rates : ∀ r ∈ results, Rates mode r.verdict r.points) :
    points results ≤ 10 * results.length ∧
      (points results = 10 * results.length ↔ ∀ r ∈ results, r.verdict = .accepted) := by
  induction results with
  | nil => exact ⟨Nat.le_refl 0, fun _ => nofun, fun _ => rfl⟩
  | cons r rest ih =>
    obtain ⟨here, rest_rates⟩ := List.forall_mem_cons.1 rates
    obtain ⟨le, full⟩ := ih rest_rates
    have le_ten : r.points.toNat ≤ 10 := UInt32.le_iff_toNat_le.1 here.points_le
    have ten_iff : r.verdict = .accepted ↔ r.points.toNat = 10 :=
      here.accepted_iff.trans UInt32.toNat_inj.symm
    rw [points_cons, List.length_cons, List.forall_mem_cons, ten_iff, ← full]
    omega

theorem points_compared (standard : mode ≠ .special) (rates : ∀ r ∈ results, Rates mode r.verdict r.points) :
    points results = 10 * results.countP (·.verdict = .accepted) := by
  induction results with
  | nil => rfl
  | cons r rest ih =>
    obtain ⟨here, rest_rates⟩ := List.forall_mem_cons.1 rates
    rw [points_cons, List.countP_cons, ih rest_rates]
    by_cases accepted : r.verdict = .accepted
    · have all : r.points.toNat = 10 := UInt32.toNat_inj.2 (here.accepted_iff.1 accepted)
      simp only [accepted, decide_true, if_true]
      omega
    · have none : r.points.toNat = 0 := by
        by_contra some
        exact standard (here.some_of (UInt32.lt_iff_toNat_lt.2 (Nat.pos_of_ne_zero some)) accepted).2
      simp only [accepted, decide_false, Bool.false_eq_true, if_false]
      omega

/-- A full outcome is scored if each of its results is. -/
theorem Full.scored (full : o.Full count) (rates : ∀ r ∈ o.results, Rates mode r.verdict r.points) :
    o.Scored mode count := by
  have length : o.results.length = count := by
    rw [← List.length_map (f := (·.index)), full.indices, List.length_range']
  obtain ⟨le, all⟩ := points_of_rates rates
  rw [length] at le all
  exact ⟨full, rates, full.score.trans (sum_points _), le, all,
    fun standard => points_compared standard rates⟩

theorem scored_failed (mode : JudgeMode) (count : Nat) {verdict : Verdict} (message : String)
    (unrun : verdict = .compileError ∨ verdict = .unknown) :
    (failed count verdict message).Scored mode count := by
  refine (full_failed count message unrun).scored fun r here => ?_
  obtain ⟨i, -, rfl⟩ := List.mem_map.1 here
  refine rates_none ?_
  rcases unrun with rfl | rfl <;> exact nofun

end JudgeOutcome

open Program (Path done own)

namespace Judging

variable {s : SandboxSettings} {id : Int64} {before after : Traffic} {during : TaskTraffic}

theorem rates_of_ends {r : Run} {result : TestCaseResult} (ends : (runTask s r).Ends (some result)) :
    Rates r.mode result.verdict result.points := by
  obtain ⟨past, path⟩ := ends
  obtain ⟨found, first, later, rfl, ran, joins⟩ := path.of_bind
  obtain ⟨joined, last, rfl, ended⟩ := joins.of_ask
  have classified := Run.classified_of_path ran
  cases joined with
  | false => cases ended.of_done.2
  | true =>
    cases ended.of_done.2
    exact classified.rates

theorem rates_accounted {problem : Problem} {language : Language} {limits : Limits}
    {judge : Option SpecialJudge} {found : List (Option TestCaseResult)}
    (ended : List.Forall₂ (fun r o => (runTask s r).Ends o) (runs problem language limits judge) found) :
    ∀ r ∈ accounted found, Rates problem.judgeMode r.verdict r.points := by
  intro r here
  obtain ⟨⟨o, i⟩, there, rfl⟩ := List.mem_map.1 here
  cases o with
  | none => exact rates_none nofun
  | some result =>
    have member : some result ∈ found := List.fst_mem_of_mem_zipIdx there
    obtain ⟨j, inside, at_j⟩ := List.getElem_of_mem member
    obtain ⟨length, each⟩ := List.forall₂_iff_get.1 ended
    have ends := each j (length ▸ inside) inside
    rw [List.get_eq_getElem, List.get_eq_getElem, at_j] at ends
    simpa [runs, accountOf] using rates_of_ends ends

/-- Whatever a pass comes to is scored by the mode of its problem. -/
theorem scored_of_computed {o : JudgeOutcome} (computed : Computed s id before during o) :
    ∃ submission problem language, Read id before submission problem language ∧
      o.Scored problem.judgeMode problem.testcases.length := by
  cases computed with
  | @failed submission problem language _ message read unrun =>
    exact ⟨submission, problem, language, read, JudgeOutcome.scored_failed _ _ message unrun⟩
  | @judged p found read tasks =>
    have ends := ends_of_tasks tasks
    obtain ⟨owned, length⟩ := own_of_ends s ends
    have full : (JudgeOutcome.ofResults (accounted found)).Full p.problem.testcases.length := by
      refine JudgeOutcome.full_ofResults (.of_eq ?_)
      rw [owned.index_accounted, length]
    refine ⟨p.submission, p.problem, p.language, read, full.scored fun r here => ?_⟩
    exact rates_accounted ends r ((TestCaseResult.perm_inOrder (accounted found)).mem_iff.1 here)

/-- Each outcome that a pass stores is scored: by the mode of the problem that it has read, or as one of
which nothing is known. -/
theorem scored_of_course (course : Course s id before during after) {place : Int64} {o : JudgeOutcome}
    {reply : Except Store.Fault Unit}
    (here : ⟨Work.Request.store (.commit place o), reply⟩ ∈ before ++ (during.map (·.2) ++ after)) :
    (∃ submission problem language, Read id before submission problem language ∧
      o.Scored problem.judgeMode problem.testcases.length) ∨
    ∃ fault count, o = fallback fault count ∧ ∀ mode, o.Scored mode count := by
  rcases computed_or_fallback course here rfl with computed | ⟨fault, count, rfl⟩
  · exact .inl (scored_of_computed computed)
  · exact .inr ⟨fault, count, rfl, fun mode => JudgeOutcome.scored_failed mode count _ (.inr rfl)⟩

/-- Whatever its surroundings reply, a run on a test case ends in a result that is right by what was
exchanged for it, and so is the score of every outcome that a pass stores. -/
theorem runCase_classified (s : SandboxSettings) :
    (∀ (r : Run) (reply : (q : Work.Request) → Traffic → q.Reply),
      let ran := (runCase s r).run (Program.recording reply) []
      r.Classified s ran.2 ran.1) ∧
    ∀ id before during after, Course s id before during after → ∀ place o reply,
      ⟨.store (.commit place o), reply⟩ ∈ before ++ (during.map (·.2) ++ after) →
        (∃ submission problem language, Read id before submission problem language ∧
          o.Scored problem.judgeMode problem.testcases.length) ∨
        ∃ fault count, o = fallback fault count ∧ ∀ mode, o.Scored mode count := by
  refine ⟨fun r reply => ?_, fun id before during after course place o reply => scored_of_course course⟩
  obtain ⟨past, kept, path⟩ := Program.exists_path_recording reply (runCase s r) []
  rw [List.nil_append] at kept
  dsimp only
  rw [kept]
  exact Run.classified_of_path path

/-- An outcome is scored that is stored and then cannot be counted. -/
theorem runCase_classified_oneCase : ∃ before during,
    Course {} 10 before during (uncounted (.unavailable "connection refused")) ∧
      ∃ submission problem language, Read 10 before submission problem language ∧
        (JudgeOutcome.ofResults [right]).Scored problem.judgeMode problem.testcases.length := by
  obtain ⟨before, during, course⟩ := exists_course_uncounted (.unavailable "connection refused")
  have stored : ⟨.store (.commit 10 (.ofResults [right])), Except.ok ()⟩ ∈
      before ++ (during.map (·.2) ++ uncounted (.unavailable "connection refused")) :=
    List.mem_append_right _ (List.mem_append_right _ List.mem_cons_self)
  refine ⟨before, during, course, ?_⟩
  rcases (runCase_classified {}).2 10 _ _ _ course _ _ _ stored with scored | ⟨fault, count, same, -⟩
  · exact scored
  · cases congrArg JudgeOutcome.errorMessage same

end Judging

end Arbiter
