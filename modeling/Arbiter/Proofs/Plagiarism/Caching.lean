import Arbiter.Proofs.Plagiarism.Foretold

/-! Dependence graphs are kept so that they need not be made again. Main statement: in a store where every
submission came in once and without a graph, a graph that is kept is that of the source, and neither work
on a graph nor a plagiarism run comes to anything else for it. -/

namespace Arbiter

open Work (Keeps among)
open Dependence (Graph)

/-- The submission with no graph kept. -/
def Submission.uncached (r : Submission) : Submission := { r with graph := none }

/-- The stores differ in nothing but in which graphs they keep, each of which is that of its source. -/
structure Store.Recached (s t : Store) : Prop where
  others : t = { s with submissions := t.submissions }
  submission (id : Int64) :
    (t.submissions.get? id).map (·.uncached) = (s.submissions.get? id).map (·.uncached)
  graph (id : Int64) (r : Submission) (g : Graph) :
    t.submissions.get? id = some r → r.graph = some g → Graph.ofSource r.code = .ok g

namespace Store

variable {source : Int64 → String} {s t : Store}

theorem Recached.alike (recached : s.Recached t) : s.Alike t := by
  have handedIn : Submission.handedIn = Submission.handedIn ∘ Submission.uncached := rfl
  refine ⟨fun id => ?_, fun id => ?_⟩
  · rw [handedIn, ← Option.map_map, recached.submission, Option.map_map]
  · rw [recached.others]

theorem Recached.genuine (recached : s.Recached t) (genuine : s.Genuine source) : t.Genuine source := by
  have known {id : Int64} {r : Submission} (found : t.submissions.get? id = some r) :
      r.id = id ∧ r.code = source r.id := by
    obtain ⟨r', found', same⟩ := recached.alike.exists_submission found
    obtain ⟨sameId, sameCode, -, -⟩ := Submission.fields_of_handedIn same
    rw [← sameId, ← sameCode, (genuine.submission id r' found').code]
    exact ⟨genuine.keyed id r' found', rfl⟩
  exact ⟨fun id r found => (known found).1,
    fun id r found => ⟨(known found).2, fun g => recached.graph id r g found⟩⟩

/-- A store that keeps one graph more is the same otherwise. -/
theorem Genuine.recached_saveGraph (genuine : s.Genuine source) (id : Int64) {g : Graph}
    (read : Graph.ofSource (source id) = .ok g) : s.Recached (Store.reply (.saveGraph id g) s).2 := by
  refine ⟨?_, fun other => ?_, fun other r g' found => ?_⟩
  · simp only [reply, changeSubmission]
    split <;> rfl
  · rw [get?_reply, Option.map_map]
    refine congrArg (Option.map · _) (funext fun r => ?_)
    simp only [Function.comp, Request.edit]
    split <;> rfl
  · have kept := Genuine.keeps (q := .saveGraph id g) read s genuine
    exact (kept.submission other r found).graph g'

end Store

section Jobs

variable {source : Int64 → String} {C : Store → Prop} (keeps : ∀ q : Store.Request, q.IsTrue source → Keeps C q)
  (genuine : ∀ t, C t → t.Genuine source)

include keeps genuine

/-- Every job keeps the store in the class. -/
theorem Job.wp_among_work (s : SandboxSettings) (job : Job) :
    (job.work s).run.wp (among C) (fun _ _ => True) () := by
  cases job with
  | judge id | rejudge id =>
    refine (Program.wp_run_bind _ _ _ _).2 ((Program.wp_run_lift _ _ _).2 ?_)
    refine Program.wp_mono (Work.mono_among C) (Judging.wp_among_judge keeps genuine s id)
      fun result _ _ => ?_
    cases result <;> trivial
  | plagiarism id =>
    refine (Program.wp_run_bind _ _ _ _).2 ((Program.wp_run_lift _ _ _).2 ?_)
    have start : Store.empty.Genuine source := Store.genuine_empty
    refine Program.wp_mono (Work.mono_among C) (Plagiarism.wp_among_run keeps genuine start id)
      fun result _ _ => ?_
    cases result <;> trivial
  | buildGraph id =>
    refine (Program.wp_run_bind _ _ _ _).2 ((Program.wp_run_lift _ _ _).2 ?_)
    refine Program.wp_mono (Work.mono_among C) (Plagiarism.wp_among_buildGraph keeps genuine id)
      fun result _ _ => ?_
    cases result <;> trivial

end Jobs

namespace System

/-- The submission that comes in. -/
def inserted? : Event ⊕ Use → Option Submission
  | .inr (.insertSubmission r) => some r
  | _ => none

/-- The submissions that came in, in turn. -/
def insertions (past : List (Event ⊕ Use)) : List Submission := past.filterMap inserted?

/-- Every submission comes in once, and without a graph. -/
structure Bare (past : List (Event ⊕ Use)) : Prop where
  once : ((insertions past).map (·.id)).Nodup
  graphless (r : Submission) : r ∈ insertions past → r.graph = none

variable {s : SandboxSettings} {source : Int64 → String} {x y : System}
  {past later : List (Event ⊕ Use)} {id : Int64} {r : Submission}

theorem insertions_append (past later : List (Event ⊕ Use)) :
    insertions (past ++ later) = insertions past ++ insertions later :=
  List.filterMap_append

theorem mem_insertions : r ∈ insertions past ↔ .inr (.insertSubmission r) ∈ past := by
  rw [insertions, List.mem_filterMap]
  constructor
  · rintro ⟨e, here, came⟩
    match e with
    | .inr (.insertSubmission r') =>
      obtain rfl := Option.some.inj came
      exact here
  · intro here
    exact ⟨_, here, rfl⟩

/-- There is one source for each identifier. -/
theorem Bare.exists_source (bare : Bare past) :
    ∃ source, ∀ r ∈ insertions past, r.Genuine source := by
  classical
  let source (id : Int64) : String :=
    if came : ∃ r ∈ insertions past, r.id = id then came.choose.code else ""
  refine ⟨source, fun r here => ⟨?_, fun g kept => ?_⟩⟩
  · have came : ∃ r' ∈ insertions past, r'.id = r.id := ⟨r, here, rfl⟩
    have same := List.inj_on_of_nodup_map bare.once came.choose_spec.1 here came.choose_spec.2
    show r.code = dite _ _ _
    rw [dif_pos came, same]
  · rw [bare.graphless r here] at kept
    cases kept

theorem genuine_use {u : Use} (own : ∀ r, u = .insertSubmission r → r.Genuine source) (t : Store)
    (genuine : t.Genuine source) : (t.use u).Genuine source := by
  cases u with
  | insertSubmission r => exact genuine.insertSubmission (own r rfl)
  | _ => exact ⟨genuine.keyed, genuine.submission⟩

theorem Keeping.genuine_life (keeping : x.Keeping (Store.Genuine source)) (life : Life s x past y)
    (own : ∀ r ∈ insertions past, r.Genuine source) : y.Keeping (Store.Genuine source) := by
  refine keeping.life (Job.wp_among_work (fun _ => Store.Genuine.keeps) (fun _ => id) s) life
    fun u here => genuine_use fun r came => own r ?_
  exact mem_insertions.2 (came ▸ here)

theorem life_of_ensureGraph {i : Int64} {fault : Syntax.Fault}
    (amid : Amid s x (Plagiarism.ensureGraph r).run (.error (.unreadable i fault)) past y) :
    Life s x past y := by
  unfold Plagiarism.ensureGraph at amid
  cases kept : r.graph with
  | some graph =>
    rw [kept] at amid
    exact (Amid.of_ended (a := Except.ok graph) amid).2
  | none =>
    rw [kept] at amid
    dsimp only at amid
    cases made : Graph.ofSource r.code with
    | error fault =>
      rw [made] at amid
      exact (Amid.of_ended (a := Except.error (Plagiarism.Fault.unreadable r.id fault)) amid).2
    | ok graph =>
      rw [made] at amid
      obtain ⟨first, last, z, rfl, life, rest⟩ := Amid.of_asked (q := .saveGraph r.id graph) amid
      -- a graph that was made is given back, or it could not be stored: the source was read
      cases stored : (Store.reply (.saveGraph r.id graph) z.store).1 with
      | ok _ =>
        rw [stored] at rest
        cases (Amid.of_ended (a := Except.ok graph) rest).1
      | error fault =>
        rw [stored] at rest
        cases (Amid.of_ended (a := Except.error (Plagiarism.Fault.store fault)) rest).1

/-- Work on a graph that ends since the source cannot be read has changed nothing. -/
theorem life_of_unreadable {i : Int64} {fault : Syntax.Fault}
    (amid : Amid s x (Plagiarism.buildGraph id).run (.error (.unreadable i fault)) past y) :
    Life s x past y := by
  obtain ⟨first, last, z, rfl, life, rest⟩ := Amid.of_asked (q := .submission id) amid
  refine life.trans ?_
  have looked : Store.reply (.submission id) z.store = (.ok (z.store.submissions.get? id), z.store) := rfl
  rw [looked] at rest
  cases found : z.store.submissions.get? id with
  | none =>
    rw [found] at rest
    exact (Amid.of_ended (a := Except.error (Plagiarism.Fault.noSubmission id)) rest).2
  | some r =>
    rw [found] at rest
    exact life_of_ensureGraph (r := r) rest

/-- The stores in which a submission is there. -/
def Holds (id : Int64) (t : Store) : Prop := (t.submissions.get? id).isSome

theorem keeps_holds (id : Int64) (q : Store.Request) : Keeps (Holds id) q := by
  intro t there
  rw [Holds, Store.get?_reply, Option.isSome_map]
  exact there

theorem holds_use (u : Use) (t : Store) (there : Holds id t) : Holds id (t.use u) := by
  cases u with
  | insertSubmission r =>
    simp only [Holds, Store.use, Store.insertSubmission, Table.get?_insert]
    split
    · rfl
    · exact there
  | _ => exact there

theorem Keeping.and {C D : Store → Prop} (keeping : x.Keeping C) (stays : ∀ q, Keeps D q)
    (here : D x.store) : x.Keeping fun t => C t ∧ D t :=
  ⟨⟨keeping.store, here⟩, fun i r under => Work.wp_among_and stays (keeping.running i r under)⟩

/-- Whatever happens meanwhile, work on a graph comes to that of the source. -/
theorem Keeping.buildGraph (keeping : x.Keeping (Store.Genuine source))
    (there : Holds id x.store) {result : Except Plagiarism.Fault Graph}
    (amid : Amid s x (Plagiarism.buildGraph id).run result later y)
    (own : ∀ r ∈ insertions later, r.Genuine source) : result = Plagiarism.graphOf source id := by
  have kept := keeping.and (keeps_holds id) there
  have keeps (q : Store.Request) (told : q.IsTrue source) :
      Keeps (fun t => t.Genuine source ∧ Holds id t) q := fun t known =>
    ⟨Store.Genuine.keeps told t known.1, keeps_holds id q t known.2⟩
  have known := Plagiarism.wp_among_buildGraph keeps (fun _ known => known.1) id
  refine (kept.amid (Job.wp_among_work keeps (fun _ known => known.1) s) known amid ?_).1
    fun t known => known.2
  intro u here t known
  refine ⟨genuine_use (fun r came => own r ?_) t known.1, holds_use u t known.2⟩
  exact mem_insertions.2 (came ▸ here)

/-- Whatever jobs do meanwhile, a run comes to what the store foretells. -/
theorem Keeping.run {store : Store} (genuine : store.Genuine source)
    (keeping : x.Keeping (Store.Genuine source)) (alike : store.Alike x.store)
    {result : Except Plagiarism.Fault PlagiarismOutcome} {events : List Event}
    (amid : Amid s x (Plagiarism.run id).run result (events.map .inl) y) :
    result = Plagiarism.foretold store id := by
  have kept := keeping.and store.keeps_alike alike
  have keeps (q : Store.Request) (told : q.IsTrue source) :
      Keeps (fun t => t.Genuine source ∧ store.Alike t) q := fun t known =>
    ⟨Store.Genuine.keeps told t known.1, store.keeps_alike q t known.2⟩
  have known := Plagiarism.wp_among_run keeps (fun _ known => known.1) genuine id
  refine (kept.amid (Job.wp_among_work keeps (fun _ known => known.1) s) known amid ?_).1
    fun t known => known.2
  intro u here
  obtain ⟨e, -, same⟩ := List.mem_map.1 here
  cases same

/-- In a store where every submission came in once and without a graph, a graph that is kept is that of the
source. Work on the graph of a submission comes to that of the source, whatever happens meanwhile, and where
the source cannot be read it changes nothing. A plagiarism run comes to the same whichever graphs are kept
when it starts, whatever jobs do meanwhile. -/
theorem kept_graphs_unobserved (life : Life s (idle .empty) past x) (bare : Bare past) :
    (∀ id r, x.store.submissions.get? id = some r →
      r.graph = none ∨ ∃ g, r.graph = some g ∧ Graph.ofSource r.code = .ok g) ∧
    (∀ id r, x.store.submissions.get? id = some r → ∀ later result y, Bare (past ++ later) →
      Amid s x (Plagiarism.buildGraph id).run result later y →
        (∀ g, Graph.ofSource r.code = .ok g → result = .ok g) ∧
        ∀ fault, Graph.ofSource r.code = .error fault →
          result = .error (.unreadable id fault) ∧ Life s x later y) ∧
    ∀ store, x.store.Recached store → ∀ id (events events' : List Event) first second y z,
      Amid s x (Plagiarism.run id).run first (events.map .inl) y →
      Amid s ⟨store, x.running⟩ (Plagiarism.run id).run second (events'.map .inl) z → first = second := by
  have start (source : Int64 → String) : (idle .empty).Keeping (Store.Genuine source) :=
    keeping_idle Store.genuine_empty
  obtain ⟨source, own⟩ := bare.exists_source
  have keeping := (start source).genuine_life life own
  refine ⟨fun id r found => ?_, fun id r found later result y bare' amid => ?_,
    fun store recached id events events' first second y z amid amid' => ?_⟩
  · cases kept : r.graph with
    | none => exact .inl rfl
    | some g => exact .inr ⟨g, rfl, (keeping.store.submission id r found).graph g kept⟩
  · obtain ⟨source, own⟩ := bare'.exists_source
    have keeping := (start source).genuine_life life fun r here =>
      own r (insertions_append past later ▸ List.mem_append_left _ here)
    have made := keeping.buildGraph (Option.isSome_of_mem found) amid fun r here =>
      own r (insertions_append past later ▸ List.mem_append_right _ here)
    have code := (keeping.store.submission id r found).code
    rw [keeping.store.keyed id r found] at code
    rw [Plagiarism.graphOf, ← code] at made
    refine ⟨fun g read => ?_, fun fault unread => ?_⟩
    · rw [made, read]
      rfl
    · rw [unread] at made
      subst made
      exact ⟨rfl, life_of_unreadable amid⟩
  · have first := keeping.run keeping.store (.refl _) amid
    have again : System.Keeping (Store.Genuine source) ⟨store, x.running⟩ :=
      ⟨recached.genuine keeping.store, keeping.running⟩
    rw [first, again.run keeping.store recached.alike amid']

/-- A submission of one line. -/
def oneLine (id : Int64) : Submission := .fresh id "x = 1\n" 1 1 1

/-- Two submissions of one line come in, and a task that compares them. -/
def twoCopies : List Use :=
  [.insertSubmission (oneLine 1), .insertSubmission (oneLine 2), .createTask 1 1 0.5]

/-- The store after that. -/
def copies : Store :=
  (((Store.empty.insertSubmission (oneLine 1)).insertSubmission (oneLine 2)).createTask 1 1 0.5).2

theorem life_copies : Life {} (idle .empty) (twoCopies.map .inr) (idle copies) := by
  have first := Life.use (s := {}) (idle .empty) (u := .insertSubmission (oneLine 1)) trivial
  have second := first.trans (.use _ (u := .insertSubmission (oneLine 2)) trivial)
  exact second.trans (.use _ (u := .createTask 1 1 0.5) (by decide : (0 : Int64) < Int64.maxValue))

theorem bare_copies : Bare (twoCopies.map .inr) := by
  refine ⟨by decide, fun r came => ?_⟩
  rw [mem_insertions] at came
  simp only [twoCopies, List.map_cons, List.map_nil, List.mem_cons, Sum.inr.injEq,
    Use.insertSubmission.injEq, List.not_mem_nil, or_false, reduceCtorEq] at came
  rcases came with rfl | rfl <;> rfl

theorem genuine_copies : copies.Genuine fun _ => "x = 1\n" := by
  have own (id : Int64) : (oneLine id).Genuine fun _ => "x = 1\n" := by
    refine ⟨rfl, fun g kept => ?_⟩
    cases kept
  have inserted := (Store.genuine_empty.insertSubmission (own 1)).insertSubmission (own 2)
  exact ⟨inserted.keyed, inserted.submission⟩

/-- The graph of the line is made, and it does not matter to a run that compares the submissions whether
one of them keeps it. -/
theorem kept_graphs_unobserved_copies : ∃ g, Graph.ofSource "x = 1\n" = .ok g ∧
    Life {} (idle .empty) (twoCopies.map .inr) (idle copies) ∧ Bare (twoCopies.map .inr) ∧
    ((Plagiarism.buildGraph 1).run.run (Work.alone Rehearsal.reply) (copies, {})).1 = .ok g ∧
    ((Plagiarism.run 1).run.run (Work.alone Rehearsal.reply) (copies, {})).1 =
      ((Plagiarism.run 1).run.run (Work.alone Rehearsal.reply)
        ((Store.reply (.saveGraph 1 g) copies).2, {})).1 := by
  have readable : (Graph.ofSource "x = 1\n").toOption.isSome = true := by decide +kernel
  cases read : Graph.ofSource "x = 1\n" with
  | error fault =>
    rw [read] at readable
    cases readable
  | ok g =>
    obtain ⟨-, builds, runs⟩ := kept_graphs_unobserved life_copies bare_copies
    have built := amid_alone (s := {}) Rehearsal.reply (Plagiarism.buildGraph 1).run copies {} fun _ => none
    have ran (store : Store) :=
      amid_alone (s := {}) Rehearsal.reply (Plagiarism.run 1).run store {} fun _ => none
    refine ⟨g, rfl, life_copies, bare_copies, ?_, ?_⟩
    · exact (builds 1 (oneLine 1) rfl [] _ _ (by simpa using bare_copies) built).1 g read
    · exact runs _ (genuine_copies.recached_saveGraph 1 read) 1 [] [] _ _ _ _ (ran _) (ran _)

end System

end Arbiter
