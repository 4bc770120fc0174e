import Arbiter.Proofs.Judging.Stage
import Arbiter.Proofs.Plagiarism.Findings
import Arbiter.Proofs.Work.Amid

/-! The dependence graphs that are kept in the store. Main statement: where every submission comes in
once and without a graph, a graph that is kept is that of the source, whatever jobs and users do. -/

namespace Arbiter

open Work (Keeps among free_among)

/-- The submission has the source that is known for its identifier, and no graph but that of it. -/
structure Submission.Genuine (source : Int64 → String) (r : Submission) : Prop where
  code : r.code = source r.id
  graph (g : Dependence.Graph) : r.graph = some g → Dependence.Graph.ofSource r.code = .ok g

theorem Submission.Genuine.usableGraph?_eq {source : Int64 → String} {r : Submission}
    (genuine : r.Genuine source) :
    r.usableGraph? = (Dependence.Graph.ofSource (source r.id)).toOption := by
  unfold usableGraph?
  cases kept : r.graph with
  | none => rw [Option.none_or, genuine.code]
  | some g =>
    rw [Option.some_or, ← genuine.code, genuine.graph g kept]
    rfl

namespace Store

/-- Every submission stands under its own identifier and is genuine. -/
structure Genuine (source : Int64 → String) (s : Store) : Prop where
  keyed : s.Keyed
  submission (id : Int64) (r : Submission) : s.submissions.get? id = some r → r.Genuine source

/-- A graph that the request stores is that of the source. -/
def Request.IsTrue (source : Int64 → String) : Request → Prop
  | .saveGraph id g => Dependence.Graph.ofSource (source id) = .ok g
  | _ => True

variable {source : Int64 → String} {s : Store}

theorem Request.edit_genuine {q : Request} (told : q.IsTrue source) {id : Int64} {r : Submission}
    (same : r.id = id) (genuine : r.Genuine source) : (q.edit id r).Genuine source := by
  have cleared {r' : Submission} (sameId : r'.id = r.id) (sameCode : r'.code = r.code)
      (sameGraph : r'.graph = r.graph ∨ r'.graph = none) : r'.Genuine source := by
    refine ⟨by rw [sameCode, sameId, genuine.code], fun g kept => ?_⟩
    rcases sameGraph with unchanged | none
    · rw [sameCode]
      exact genuine.graph g (unchanged ▸ kept)
    · rw [none] at kept
      cases kept
  cases q with
  | saveGraph i graph =>
    simp only [edit]
    split
    · rename_i here
      refine ⟨genuine.code, fun g kept => ?_⟩
      obtain rfl := Option.some.inj kept
      rw [genuine.code, same, ← here]
      exact told
    · exact genuine
  | setStatus | commit =>
    simp only [edit]
    split
    · exact cleared rfl rfl (.inl rfl)
    · exact genuine
  | reset =>
    simp only [edit]
    split
    · exact cleared rfl rfl (.inr rfl)
    · exact genuine
  | _ => exact genuine

theorem Genuine.keeps {q : Request} (told : q.IsTrue source) : Keeps (Genuine source) q := by
  intro t genuine
  refine ⟨genuine.keyed.reply q, fun id r found => ?_⟩
  rw [get?_reply, Option.map_eq_some_iff] at found
  obtain ⟨before, found, rfl⟩ := found
  exact q.edit_genuine told (genuine.keyed id before found) (genuine.submission id before found)

theorem Genuine.insertSubmission (genuine : s.Genuine source) {r : Submission} (own : r.Genuine source) :
    (s.insertSubmission r).Genuine source := by
  refine ⟨genuine.keyed.insertSubmission r, fun id other found => ?_⟩
  rw [Store.insertSubmission, Table.get?_insert] at found
  split at found
  · obtain rfl := Option.some.inj found
    exact own
  · exact genuine.submission id other found

theorem genuine_empty : empty.Genuine source := by
  refine ⟨keyed_empty, fun id r found => ?_⟩
  cases found

end Store

section Jobs

/-! Every job keeps the store in a class of genuine stores, if true requests keep it there. -/

variable {source : Int64 → String} {C : Store → Prop} {α ε : Type}

namespace Judging

theorem wp_among_step {w : Work (Except ε α)} (known : w.wp (among C) (fun _ _ => True) ())
    (fault : ε → Fault) {Q : Except Fault α → Unit → Prop} (h : ∀ result, Q result ()) :
    (step fault w).run.wp (among C) Q () := by
  refine (wp_step _ _ _).2 (Program.wp_mono (Work.mono_among C) known fun r _ _ => ?_)
  cases r <;> exact h _

theorem wp_among_find (absent : Fault) {w : Work (Except Store.Fault (Option α))} {P : α → Prop}
    (known : w.wp (among C) (fun r _ => ∀ a, r = .ok (some a) → P a) ())
    {Q : Except Fault α → Unit → Prop} (found : ∀ a, P a → Q (.ok a) ())
    (stopped : ∀ fault, Q (.error fault) ()) : (find absent w).run.wp (among C) Q () := by
  refine (wp_find _ _ _).2 (Program.wp_mono (Work.mono_among C) known fun r _ known => ?_)
  match r with
  | .ok (some a) => exact found a (known a rfl)
  | .ok none => exact stopped _
  | .error e => exact stopped _

end Judging

variable (keeps : ∀ q : Store.Request, q.IsTrue source → Keeps C q)

include keeps

theorem wp_among_store {q : Store.Request} (told : q.IsTrue source) {Q : q.Reply → Unit → Prop}
    (h : ∀ t, C t → Q (Store.reply q t).1 ()) : (Work.store q).wp (among C) Q () :=
  ⟨keeps q told, h⟩

theorem wp_among_told {q : Store.Request} (told : q.IsTrue source) :
    (Work.store q).wp (among C) (fun _ _ => True) () :=
  wp_among_store keeps told fun _ _ => trivial

namespace Judging

theorem wp_among_finish {submission : Submission} (own : submission.Genuine source) (language : Language)
    (outcome : JudgeOutcome) :
    (finish submission language outcome).run.wp (among C) (fun _ _ => True) () := by
  have stored := wp_among_told (q := .commit submission.id outcome) keeps trivial
  refine (Program.wp_run_bind _ _ _ _).2 (wp_among_step stored _ fun result => ?_)
  cases result with
  | error fault => trivial
  | ok _ =>
    show Program.wp _ (ExceptT.run (if language.isPython = true then _ else _)) _ _
    split
    · refine (Program.wp_run_bind _ _ _ _).2 ((Program.wp_run_lift _ _ _).2 ?_)
      unfold attachGraph
      split
      · trivial
      · rename_i graph made
        rw [own.code] at made
        have saved := wp_among_told (q := .saveGraph submission.id graph) keeps made
        exact (Program.wp_bind _ _ _ _).2 saved
    · trivial

theorem wp_among_compileStep (s : SandboxSettings) (id : Int64) (language : Language) (limits : Limits)
    {Q : Except Fault CompileOutcome → Unit → Prop} (h : ∀ result, Q result ()) :
    (compileStep s id language limits).run.wp (among C) Q () := by
  unfold compileStep
  split
  · exact h _
  · have stored := wp_among_told (q := .setStatus id .compiling) keeps trivial
    refine (Program.wp_run_bind _ _ _ _).2 (wp_among_step stored _ fun result => ?_)
    cases result with
    | error fault => exact h _
    | ok _ =>
      refine (Program.wp_run_lift _ _ _).2 ?_
      exact wp_compile (free_among C) s language .work _ fun o _ => h _

theorem wp_among_casesStep (s : SandboxSettings) {submission : Submission}
    (own : submission.Genuine source) (problem : Problem) (language : Language) (limits : Limits)
    (judge : Option SpecialJudge) :
    (casesStep s submission problem language limits judge).run.wp (among C) (fun _ _ => True) () := by
  have stored := wp_among_told (q := .setStatus submission.id .judging) keeps trivial
  have counted := wp_among_told (q := .addResolved submission.userId) keeps trivial
  refine (Program.wp_run_bind _ _ _ _).2 (wp_among_step stored _ fun result => ?_)
  cases result with
  | error fault => trivial
  | ok _ =>
    refine (Program.wp_run_bind _ _ _ _).2 ((Program.wp_run_lift _ _ _).2 ?_)
    refine wp_runCases (free_among C) s problem language limits judge fun results _ => ?_
    refine (Program.wp_run_bind _ _ _ _).2 ?_
    refine Program.wp_mono (Work.mono_among C) (wp_among_finish keeps own language _) fun status _ _ => ?_
    cases status with
    | error fault => trivial
    | ok status =>
      show Program.wp _ (ExceptT.run (if _ then _ else _)) _ _
      split
      · refine (Program.wp_run_bind _ _ _ _).2 (wp_among_step counted _ fun count => ?_)
        cases count <;> trivial
      · trivial

theorem wp_among_caseCount (id : Int64) : (caseCount id).wp (among C) (fun _ _ => True) () := by
  refine (Program.wp_bind _ _ _ _).2 (wp_among_store (q := .submission id) keeps trivial fun t _ => ?_)
  generalize (Store.reply (.submission id) t).1 = found
  match found with
  | .error _ | .ok none => trivial
  | .ok (some r) =>
    refine (Program.wp_bind _ _ _ _).2
      (wp_among_store (q := .problem r.problemId) keeps trivial fun t _ => ?_)
    generalize (Store.reply (.problem r.problemId) t).1 = found
    match found with
    | .error _ | .ok none | .ok (some p) => trivial

variable (genuine : ∀ t, C t → t.Genuine source)

include genuine

theorem wp_among_submission (id : Int64) : (Work.store (.submission id)).wp (among C)
    (fun r _ => ∀ submission, r = .ok (some submission) → submission.Genuine source) () := by
  refine wp_among_store (q := .submission id) keeps trivial fun t here r found => ?_
  exact (genuine t here).submission id r (Except.ok.inj found)

theorem wp_among_attempt (s : SandboxSettings) (id : Int64) :
    (attempt s id).run.wp (among C) (fun _ _ => True) () := by
  refine (Program.wp_run_bind _ _ _ _).2 ?_
  refine wp_among_find _ (wp_among_submission keeps genuine id) (fun submission own => ?_)
    fun _ => trivial
  have cleared := wp_among_told (q := .reset id) keeps trivial
  refine (Program.wp_run_bind _ _ _ _).2 (wp_among_step cleared _ fun result => ?_)
  cases result with
  | error fault => trivial
  | ok _ =>
    refine (Program.wp_run_bind _ _ _ _).2
      (wp_among_find _ (P := fun _ => True) (wp_among_store keeps (by trivial) fun _ _ _ _ => trivial)
        (fun problem _ => ?_) fun _ => trivial)
    refine (Program.wp_run_bind _ _ _ _).2
      (wp_among_find _ (P := fun _ => True) (wp_among_store keeps (by trivial) fun _ _ _ _ => trivial)
        (fun language _ => ?_) fun _ => trivial)
    have opened : (Work.openWorkspace (workspaceLabel id)).wp (among C) (fun _ _ => True) () :=
      fun _ => trivial
    refine (Program.wp_run_bind _ _ _ _).2 (wp_among_step opened _ fun result => ?_)
    cases result with
    | error fault => trivial
    | ok _ =>
      have written : (Work.write .work language.sourceFile submission.code).wp (among C)
          (fun _ _ => True) () := fun _ => trivial
      refine (Program.wp_run_bind _ _ _ _).2 (wp_among_step written _ fun result => ?_)
      cases result with
      | error fault => trivial
      | ok _ =>
        refine (Program.wp_run_bind _ _ _ _).2 (wp_among_compileStep keeps s id language _ fun result => ?_)
        match result with
        | .error fault => trivial
        | .ok (.failed verdict message) => exact wp_among_finish keeps own language _
        | .ok .compiled =>
          refine (Program.wp_run_bind _ _ _ _).2 ((Program.wp_run_lift _ _ _).2 ?_)
          refine wp_judgeStep (free_among C) s problem fun prepared => ?_
          cases prepared with
          | error fault => exact wp_among_finish keeps own language _
          | ok judge => exact wp_among_casesStep keeps s own problem language _ judge

theorem wp_among_judge (s : SandboxSettings) (id : Int64) :
    (judge s id).run.wp (among C) (fun _ _ => True) () := by
  refine (Program.wp_run_bind _ _ _ _).2 ((Program.wp_run_lift _ _ _).2 ?_)
  refine Program.wp_mono (Work.mono_among C) (wp_among_attempt keeps genuine s id) fun result _ _ => ?_
  cases result with
  | ok status => trivial
  | error fault =>
    refine (Program.wp_run_bind _ _ _ _).2 ((Program.wp_run_lift _ _ _).2 ?_)
    refine Program.wp_mono (Work.mono_among C) (wp_among_caseCount keeps id) fun count _ _ => ?_
    have stored := wp_among_told
      (q := .commit id (.failed count .unknown ("Main orchestrator failed: " ++ fault.message)))
      keeps trivial
    refine (Program.wp_run_bind _ _ _ _).2 (wp_among_step stored _ fun result => ?_)
    cases result <;> trivial

end Judging

end Jobs

end Arbiter
