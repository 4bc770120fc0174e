import Arbiter.Proofs.Judging.Tally
import Arbiter.Proofs.Work.System

/-! A pass in surroundings of its own. Main statement: such a pass has one end, which depends on nothing
in the store but its own record, the problems and the languages. -/

namespace Arbiter

namespace Work

variable {α β ε : Type}

/-- The work goes on in the same way whatever count it gets. -/
def Unread : (q : Request) → (q.Reply → Work α) → Prop
  | .store (.addResolved _), next =>
    ∀ count count' : Nat, next (Except.ok count) = next (Except.ok count')
  | _, _ => True

/-- No count that the work raises has any bearing on it. -/
def Steady : Work α → Prop
  | Program.done _ => True
  | Program.ask q next => Unread q next ∧ ∀ reply, Steady (next reply)

/-- The request raises no count. -/
def Request.Uncounted : Request → Prop
  | .store q => q.counts? = none
  | _ => True

theorem unread_of_uncounted {q : Request} (uncounted : q.Uncounted) (next : q.Reply → Work α) :
    Unread q next := by
  unfold Unread
  split
  · cases uncounted
  · trivial

theorem Unread.andThen {q : Request} {next : q.Reply → Work α} (unread : Unread q next)
    (f : α → Work β) : Unread q fun reply => (next reply).andThen f := by
  cases q with
  | store q =>
    cases q with
    | addResolved user =>
      exact fun count count' => congrArg (Program.andThen · f) (unread count count')
    | _ => trivial
  | _ => trivial

theorem Steady.bind {w : Work α} {f : α → Work β} (steady : Steady w) (later : ∀ a, Steady (f a)) :
    Steady (w >>= f) := by
  induction w with
  | done a => exact later a
  | ask q next ih => exact ⟨steady.1.andThen f, fun reply => ih reply (steady.2 reply)⟩

theorem Steady.run_bind {w : ExceptT ε Work α} {f : α → ExceptT ε Work β} (steady : Steady w.run)
    (later : ∀ a, Steady (f a).run) : Steady (w >>= f).run := by
  refine steady.bind fun result => ?_
  cases result with
  | ok a => exact later a
  | error fault => trivial

theorem Steady.run_lift {w : Work α} (steady : Steady w) :
    Steady (liftM w : ExceptT ε Work α).run :=
  steady.bind fun _ => trivial

end Work

namespace Judging

open Work (Steady)

section Steady

variable {α ε : Type} (s : SandboxSettings)

/-- Surroundings that reply as they like to requests of `P`. -/
def onlyEffect (P : Work.Request → Prop) : Program.Effect Work.Request Work.Request.Reply Unit :=
  fun q _ K => P q ∧ ∀ reply, K reply ()

theorem free_onlyEffect : Work.Free (onlyEffect Work.Request.IsFree) :=
  fun _ free _ _ h => ⟨free, h⟩

/-- Work that asks only free requests raises no count. -/
theorem steady_of_wp {w : Work α} (h : w.wp (onlyEffect Work.Request.IsFree) (fun _ _ => True) ()) :
    Steady w := by
  induction w with
  | done a => trivial
  | ask q next ih =>
    refine ⟨Work.unread_of_uncounted ?_ next, fun reply => ih reply (h.2 reply)⟩
    have free := h.1
    cases q with
    | store q => cases q <;> first | rfl | exact free.elim
    | _ => trivial

theorem steady_store {q : Store.Request} (uncounted : q.counts? = none) : Steady (Work.store q) :=
  ⟨Work.unread_of_uncounted (q := .store q) uncounted _, fun _ => trivial⟩

theorem steady_step (fault : ε → Fault) {w : Work (Except ε α)} (steady : Steady w) :
    Steady (step fault w).run := by
  refine steady.run_lift.run_bind fun result => ?_
  cases result <;> trivial

theorem steady_find (absent : Fault) {w : Work (Except Store.Fault (Option α))} (steady : Steady w) :
    Steady (find absent w).run := by
  refine (steady_step .store steady).run_bind fun found => ?_
  cases found <;> trivial

theorem steady_finish (submission : Submission) (language : Language) (outcome : JudgeOutcome) :
    Steady (finish submission language outcome).run := by
  refine (steady_step _ (steady_store rfl)).run_bind fun _ => ?_
  show Steady (ExceptT.run (if language.isPython = true then _ else _))
  split
  · refine Steady.run_bind (Steady.run_lift ?_) fun _ => trivial
    unfold attachGraph
    split
    · trivial
    · exact (steady_store rfl).bind fun _ => trivial
  · trivial

theorem steady_compileStep (id : Int64) (language : Language) (limits : Limits) :
    Steady (compileStep s id language limits).run := by
  unfold compileStep
  split
  · trivial
  · refine (steady_step _ (steady_store rfl)).run_bind fun _ => Steady.run_lift ?_
    exact steady_of_wp (wp_compile free_onlyEffect s language .work _ fun _ _ => trivial)

theorem steady_casesStep (submission : Submission) (problem : Problem) (language : Language)
    (limits : Limits) (judge : Option SpecialJudge) :
    Steady (casesStep s submission problem language limits judge).run := by
  refine (steady_step _ (steady_store rfl)).run_bind fun _ => ?_
  refine Steady.run_bind (Steady.run_lift (steady_of_wp ?_)) fun results => ?_
  · exact wp_runCases free_onlyEffect s problem language limits judge fun _ _ => trivial
  · refine (steady_finish _ _ _).run_bind fun status => ?_
    show Steady (ExceptT.run (if _ then _ else _))
    split
    · refine ⟨fun count count' => rfl, fun reply => ?_⟩
      cases reply <;> trivial
    · trivial

theorem steady_attempt (id : Int64) : Steady (attempt s id).run := by
  refine (steady_find _ (steady_store rfl)).run_bind fun submission => ?_
  refine (steady_step _ (steady_store rfl)).run_bind fun _ => ?_
  refine (steady_find _ (steady_store rfl)).run_bind fun problem => ?_
  refine (steady_find _ (steady_store rfl)).run_bind fun language => ?_
  have opens : Steady (Work.openWorkspace (workspaceLabel id)) := ⟨trivial, fun _ => trivial⟩
  have writes : Steady (Work.write .work language.sourceFile submission.code) :=
    ⟨trivial, fun _ => trivial⟩
  refine (steady_step _ opens).run_bind fun _ => ?_
  refine (steady_step _ writes).run_bind fun _ => ?_
  refine (steady_compileStep s id language _).run_bind fun ending => ?_
  cases ending with
  | failed verdict message => exact steady_finish _ _ _
  | compiled =>
    refine Steady.run_bind (Steady.run_lift (steady_of_wp ?_)) fun prepared => ?_
    · exact wp_judgeStep free_onlyEffect s problem fun _ => trivial
    · cases prepared with
      | error fault => exact steady_finish _ _ _
      | ok judge => exact steady_casesStep s submission problem language _ judge

theorem steady_judge (id : Int64) : Steady (judge s id).run := by
  refine (steady_attempt s id).run_lift.run_bind fun result => ?_
  cases result with
  | ok status => trivial
  | error fault =>
    refine Steady.run_bind (Steady.run_lift ?_) fun count => ?_
    · refine (steady_store rfl).bind fun found => ?_
      match found with
      | .error _ | .ok none => trivial
      | .ok (some submission) =>
        refine (steady_store rfl).bind fun found => ?_
        match found with
        | .error _ | .ok none | .ok (some problem) => trivial
    · exact (steady_step _ (steady_store rfl)).run_bind fun _ => trivial

theorem steady_work {job : Job} {id : Int64} (judges : job.judges? = some id) :
    Steady (job.work s).run := by
  cases job with
  | judge i | rejudge i =>
    refine (steady_judge s i).run_lift.run_bind fun result => ?_
    cases result <;> trivial
  | plagiarism | buildGraph => cases judges

end Steady

/-- What a pass has changed, and the state of its surroundings. -/
structure Bench (σ : Type) where
  tally : Tally
  around : σ

namespace Bench

variable {σ α : Type}

/-- What a pass may ask of a store that shows its record. All other requests go to its surroundings. -/
def effect (outside : Work.Outside σ) (start : Store) (id : Int64) :
    Program.Effect Work.Request Work.Request.Reply (Bench σ)
  | .store q, b, K => q.OwnedBy id ∧
    ∀ s, Shows start id b.tally.record s → K (Store.reply q s).1 ⟨b.tally.after id q, b.around⟩
  | q, b, K => K (outside q b.around).1 ⟨b.tally, (outside q b.around).2⟩

theorem effect_outside {outside : Work.Outside σ} {start : Store} {id : Int64} {q : Work.Request}
    (away : ¬ q.IsStore) (b : Bench σ) (K : q.Reply → Bench σ → Prop) :
    effect outside start id q b K = K (outside q b.around).1 ⟨b.tally, (outside q b.around).2⟩ := by
  cases q with
  | store q => exact (away trivial).elim
  | _ => rfl

end Bench

/-- A store that shows a record. -/
def showing (start : Store) (id : Int64) (record : Option Submission) : Store :=
  { start with submissions := record.elim .empty (Table.empty.insert id ·) }

theorem shows_showing (start : Store) (id : Int64) (record : Option Submission) :
    Shows start id record (showing start id record) := by
  refine ⟨?_, rfl, rfl⟩
  cases record with
  | none => rfl
  | some r =>
    show (Table.empty.insert id r).get? id = some r
    rw [Table.get?_insert, if_pos rfl]

/-- Stores that show the same give the same replies. -/
theorem Shows.reply_eq {start s s' : Store} {id : Int64} {record : Option Submission}
    (shows : Shows start id record s) (shows' : Shows start id record s') {q : Store.Request}
    (own : q.OwnedBy id) (uncounted : q.counts? = none) :
    (Store.reply q s).1 = (Store.reply q s').1 := by
  have changed (change : Submission → Submission) :
      (s.changeSubmission id change).1 = (s'.changeSubmission id change).1 := by
    rw [Store.changeSubmission_fst, Store.changeSubmission_fst, shows.record, shows'.record]
  cases q with
  | submission i =>
    obtain rfl : i = id := own
    exact congrArg Except.ok (shows.record.trans shows'.record.symm)
  | problem i =>
    exact congrArg (fun t => Except.ok (Table.get? t i)) (shows.problems.trans shows'.problems.symm)
  | language i =>
    exact congrArg (fun t => Except.ok (Table.get? t i)) (shows.languages.trans shows'.languages.symm)
  | setStatus i status | commit i outcome | reset i | saveGraph i graph =>
    obtain rfl : i = id := own
    exact changed _
  | addResolved user => cases uncounted
  | submissionsOf problem language => exact own.elim
  | task i => exact own.elim
  | completeTask i outcome => exact own.elim

/-- In surroundings of its own a pass comes to one end, whatever counts it gets. -/
theorem exists_bench {σ α : Type} (outside : Work.Outside σ) {start : Store} {id : Int64} {w : Work α}
    (steady : Steady w) {Q : α → Tally → Prop} {t : Tally}
    (fair : w.wp (Tally.effect start id) Q t) (around : σ) :
    ∃ last a, w.wp (Bench.effect outside start id) (fun _ b => b = last) ⟨t, around⟩ ∧
      Q a last.tally := by
  induction w generalizing t around with
  | done a => exact ⟨⟨t, around⟩, a, rfl, fair⟩
  | ask q next ih =>
    cases q with
    | store q =>
      obtain ⟨own, goesOn⟩ := fair
      have shown := shows_showing start id t.record
      obtain ⟨last, a, ends, end_fair⟩ := ih _ (steady.2 _) (goesOn _ shown) around
      refine ⟨last, a, ⟨own, fun s shows => ?_⟩, end_fair⟩
      have same : next (Store.reply q s).1 = next (Store.reply q (showing start id t.record)).1 := by
        cases uncounted : q.counts? with
        | none => rw [shows.reply_eq shown own uncounted]
        | some user =>
          cases q with
          | addResolved => exact steady.1 _ _
          | _ => cases uncounted
      show (next (Store.reply q s).1).wp _ _ _
      rw [same]
      exact ends
    | _ =>
      obtain ⟨last, a, ends, end_fair⟩ := ih _ (steady.2 _) (fair _) (outside _ around).2
      exact ⟨last, a, ends, end_fair⟩

end Judging

end Arbiter
