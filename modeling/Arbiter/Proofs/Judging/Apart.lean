import Arbiter.Proofs.Judging.Bench
import Arbiter.Proofs.Store.Frame
import Arbiter.Proofs.Work.Crowd
import Mathlib.Algebra.BigOperators.Group.Finset.Piecewise

/-! Passes over different submissions on one store. Main statement: whatever turns they take, the store
ends as it does when they run one after the other, and the count of each user grows by one for every
pass that accepts a submission of that user. -/

namespace Arbiter

namespace Store

variable {s : Store} {id : Int64} {q : Request}

theorem Request.edit_of_owned (own : q.OwnedBy id) {other : Int64} (different : id ≠ other)
    (r : Submission) : q.edit other r = r := by
  cases q with
  | setStatus i _ | commit i _ | reset i | saveGraph i _ =>
    obtain rfl : i = id := own
    exact if_neg different
  | _ => rfl

theorem languages_reply (q : Request) (s : Store) : (reply q s).2.languages = s.languages := by
  cases q <;> simp only [reply, changeSubmission, addResolved] <;> split <;> rfl

theorem tasks_reply (own : q.OwnedBy id) : (reply q s).2.tasks = s.tasks := by
  cases q with
  | completeTask i outcome => exact own.elim
  | _ => simp only [reply, changeSubmission, addResolved] <;> split <;> rfl

/-- A count that has been raised some times. -/
def raised (before : Option Nat) : Nat → Option Nat
  | 0 => before
  | n + 1 => some (before.getD 0 + (n + 1))

theorem raised_raised (before : Option Nat) (m n : Nat) :
    raised (raised before m) n = raised before (m + n) := by
  cases m with
  | zero => rw [raised, Nat.zero_add]
  | succ m =>
    cases n with
    | zero => rfl
    | succ n =>
      show some (before.getD 0 + (m + 1) + (n + 1)) = some (before.getD 0 + (m + 1 + n + 1))
      exact congrArg some (by omega)

theorem getD_raised (before : Option Nat) (n : Nat) : (raised before n).getD 0 = before.getD 0 + n := by
  cases n <;> rfl

theorem resolved_reply (q : Request) (s : Store) (user : Int64) :
    (reply q s).2.resolved.get? user =
      raised (s.resolved.get? user) (q.counts?.toList.count user) := by
  have kept (uncounted : q.counts? = none) (same : (reply q s).2.resolved = s.resolved) :
      (reply q s).2.resolved.get? user =
        raised (s.resolved.get? user) (q.counts?.toList.count user) := by
    rw [same, uncounted]
    rfl
  cases q with
  | addResolved counted =>
    show (s.resolved.insert counted (s.resolvedCount counted + 1)).get? user =
      raised (s.resolved.get? user) ([counted].count user)
    rw [Table.get?_insert]
    by_cases same : user = counted
    · subst same
      rw [if_pos rfl, List.count_singleton_self]
      rfl
    · rw [if_neg same, List.count_eq_zero_of_not_mem (by simpa using same)]
      rfl
  | setStatus | commit | reset | saveGraph =>
    refine kept rfl ?_
    simp only [reply, changeSubmission]
    split <;> rfl
  | completeTask =>
    refine kept rfl ?_
    simp only [reply]
    split <;> rfl
  | _ => exact kept rfl rfl

theorem eq_of_parts {s t : Store} (submissions : s.submissions = t.submissions)
    (problems : s.problems = t.problems) (languages : s.languages = t.languages)
    (tasks : s.tasks = t.tasks) (resolved : s.resolved = t.resolved)
    (lastTask : s.lastTask = t.lastTask) : s = t := by
  obtain ⟨⟩ := s
  obtain ⟨⟩ := t
  simp_all

end Store

namespace Judging

open Function (update)

variable {ι σ : Type} [Fintype ι] [DecidableEq ι]

/-- The passes of a crowd keep apart: each has come as far as it would have come in surroundings of its
own, the records that none of them judges are as at the start, and so is all else but the counts. -/
structure Apart (outside : ι → Work.Outside σ) (start : Store) (id : ι → Int64)
    (last now : ι → Bench σ) (x : Crowd ι σ) : Prop where
  fits (i : ι) : (x.rest i).wp (Bench.effect (outside i) start (id i)) (fun _ b => b = last i) (now i)
  around (i : ι) : x.around i = (now i).around
  record (i : ι) : x.store.submissions.get? (id i) = (now i).tally.record
  others (other : Int64) : (∀ i, id i ≠ other) →
    x.store.submissions.get? other = start.submissions.get? other
  problems : x.store.problems = start.problems
  languages : x.store.languages = start.languages
  tasks : x.store.tasks = start.tasks
  lastTask : x.store.lastTask = start.lastTask
  resolved (user : Int64) : x.store.resolved.get? user =
    Store.raised (start.resolved.get? user) (∑ i, (now i).tally.counted.count user)

namespace Apart

variable {outside : ι → Work.Outside σ} {start : Store} {id : ι → Int64} {last now : ι → Bench σ}
  {x : Crowd ι σ}

theorem sum_update (now : ι → Bench σ) (i : ι) (b : Bench σ) {n : Nat} {user : Int64}
    (raises : b.tally.counted.count user = (now i).tally.counted.count user + n) :
    ∑ j, (update now i b j).tally.counted.count user =
      ∑ j, (now j).tally.counted.count user + n := by
  have each (j : ι) : (update now i b j).tally.counted.count user =
      (now j).tally.counted.count user + if j = i then n else 0 := by
    by_cases same : j = i
    · subst same
      rw [Function.update_self, raises, if_pos rfl]
    · rw [Function.update_of_ne same, if_neg same, Nat.add_zero]
  simp only [each, Finset.sum_add_distrib, Finset.sum_ite_eq', Finset.mem_univ, if_true]

/-- Where one pass goes on, the others stay where they are. -/
theorem fits_update (apart : Apart outside start id last now x) {i : ι}
    {w : Work (Except Work.Fault Unit)} {b : Bench σ}
    (fits : w.wp (Bench.effect (outside i) start (id i)) (fun _ b => b = last i) b) (j : ι) :
    (update x.rest i w j).wp (Bench.effect (outside j) start (id j)) (fun _ b => b = last j)
      (update now i b j) := by
  by_cases same : j = i
  · subst same
    rw [Function.update_self, Function.update_self]
    exact fits
  · rw [Function.update_of_ne same, Function.update_of_ne same]
    exact apart.fits j

/-- The store replies to a pass as it would if the pass had it to itself. -/
theorem turn_store (apart : Apart outside start id last now x) (distinct : Function.Injective id)
    {i : ι} {q : Store.Request} {next} (here : x.rest i = Program.ask (.store q) next) :
    Apart outside start id last
      (update now i ⟨(now i).tally.after (id i) q, (now i).around⟩)
      ⟨(Store.reply q x.store).2, update x.rest i (next (Store.reply q x.store).1), x.around⟩ := by
  have fits := apart.fits i
  rw [here] at fits
  obtain ⟨own, goesOn⟩ := fits
  exact {
    fits := apart.fits_update
      (goesOn x.store ⟨apart.record i, apart.problems, apart.languages⟩)
    around := fun j => by
      by_cases same : j = i
      · subst same
        rw [Function.update_self]
        exact apart.around j
      · rw [Function.update_of_ne same]
        exact apart.around j
    record := fun j => by
      rw [Store.get?_reply, apart.record j]
      by_cases same : j = i
      · subst same
        rw [Function.update_self]
        rfl
      · rw [Function.update_of_ne same]
        have other : id i ≠ id j := fun equal => same (distinct equal.symm)
        rw [funext (Store.Request.edit_of_owned own other), Option.map_id']
    others := fun other away => by
      rw [Store.get?_reply, apart.others other away,
        funext (Store.Request.edit_of_owned own (away i)), Option.map_id']
    problems := (Store.problems_reply q x.store).trans apart.problems
    languages := (Store.languages_reply q x.store).trans apart.languages
    tasks := (Store.tasks_reply own).trans apart.tasks
    lastTask := (Store.lastTask_reply q x.store).trans apart.lastTask
    resolved := fun user => by
      rw [Store.resolved_reply, apart.resolved, Store.raised_raised]
      refine congrArg (Store.raised _) (sum_update now i _ ?_).symm
      exact List.count_append }

/-- What the surroundings of a pass do concerns no other pass. -/
theorem turn_outside (apart : Apart outside start id last now x) {i : ι} {q : Work.Request} {next}
    (here : x.rest i = Program.ask q next) (away : ¬ q.IsStore) :
    Apart outside start id last
      (update now i ⟨(now i).tally, (outside i q (now i).around).2⟩)
      ⟨x.store, update x.rest i (next (outside i q (now i).around).1),
        update x.around i (outside i q (now i).around).2⟩ := by
  have fits := apart.fits i
  rw [here] at fits
  have goesOn := (Bench.effect_outside away _ _).mp fits
  have tallies (j : ι) : (update now i ⟨(now i).tally, (outside i q (now i).around).2⟩ j).tally =
      (now j).tally := by
    by_cases same : j = i
    · subst same
      rw [Function.update_self]
    · rw [Function.update_of_ne same]
  exact {
    fits := apart.fits_update goesOn
    around := fun j => by
      by_cases same : j = i
      · subst same
        dsimp only
        rw [Function.update_self, Function.update_self]
      · dsimp only
        rw [Function.update_of_ne same, Function.update_of_ne same]
        exact apart.around j
    record := fun j => (apart.record j).trans (congrArg Tally.record (tallies j).symm)
    others := apart.others
    problems := apart.problems
    languages := apart.languages
    tasks := apart.tasks
    lastTask := apart.lastTask
    resolved := fun user => by
      simp only [tallies]
      exact apart.resolved user }

/-- A turn of one pass leaves all apart. -/
theorem turn (apart : Apart outside start id last now x) (distinct : Function.Injective id) (i : ι) :
    ∃ next, Apart outside start id last next (x.turn outside i) := by
  cases here : x.rest i with
  | done result =>
    refine ⟨now, ?_⟩
    rwa [Crowd.turn, here]
  | ask q next =>
    by_cases isStore : q.IsStore
    · cases q with
      | store q =>
        have turned : x.turn outside i = ⟨(Store.reply q x.store).2,
            update x.rest i (next (Store.reply q x.store).1), x.around⟩ := by
          rw [Crowd.turn, here]
          exact congrArg (Crowd.mk _ _) (Function.update_eq_self i x.around)
        rw [turned]
        exact ⟨_, apart.turn_store distinct here⟩
      | _ => exact isStore.elim
    · have turned : x.turn outside i = ⟨x.store, update x.rest i (next (outside i q (now i).around).1),
          update x.around i (outside i q (now i).around).2⟩ := by
        rw [Crowd.turn, here, ← apart.around i]
        dsimp only
        rw [Work.alone_outside isStore]
      rw [turned]
      exact ⟨_, apart.turn_outside here isStore⟩

theorem play (apart : Apart outside start id last now x) (distinct : Function.Injective id)
    (turns : List ι) : ∃ next, Apart outside start id last next (x.play outside turns) := by
  induction turns generalizing x now with
  | nil => exact ⟨now, apart⟩
  | cons i rest ih =>
    obtain ⟨next, apart⟩ := apart.turn distinct i
    exact ih apart

omit [DecidableEq ι] in
/-- Where no work is left, every pass is at its end. -/
theorem eq_last (apart : Apart outside start id last now x) (ended : x.Ended) : now = last := by
  funext i
  obtain ⟨result, here⟩ := ended i
  have fits := apart.fits i
  rw [here] at fits
  exact fits

omit [DecidableEq ι] in
/-- How far the passes have come says all about the store. -/
theorem store_eq {y : Crowd ι σ} (apart : Apart outside start id last now x)
    (apart' : Apart outside start id last now y) : x.store = y.store := by
  have submissions : x.store.submissions = y.store.submissions := by
    ext1 other
    by_cases judged : ∃ i, id i = other
    · obtain ⟨i, rfl⟩ := judged
      rw [apart.record, apart'.record]
    · have away : ∀ i, id i ≠ other := fun i same => judged ⟨i, same⟩
      rw [apart.others other away, apart'.others other away]
  have resolved : x.store.resolved = y.store.resolved := by
    ext1 user
    rw [apart.resolved, apart'.resolved]
  exact Store.eq_of_parts submissions (apart.problems.trans apart'.problems.symm)
    (apart.languages.trans apart'.languages.symm) (apart.tasks.trans apart'.tasks.symm) resolved
    (apart.lastTask.trans apart'.lastTask.symm)

end Apart

/-- The store shows an accepted submission of the user under the identifier. -/
def acceptedOf (user : Int64) (s : Store) (id : Int64) : Bool :=
  (s.submissions.get? id).any fun r => r.userId == user && r.outcome.accepts

theorem Tally.Fair.count {t : Tally} (fair : t.Fair) (user : Int64) : t.counted.count user =
    if t.record.any (fun r => r.userId == user && r.outcome.accepts) then 1 else 0 := by
  rw [fair]
  cases t.record with
  | none => rfl
  | some r =>
    cases accepts : r.outcome.accepts with
    | false => simp [Option.filter, accepts]
    | true => simp [Option.filter, accepts, List.count_singleton]

/-- What a store at the end of passes shows, next to the one that they began on. -/
structure EndsApart (start : Store) (id : ι → Int64) (last : Store) : Prop where
  resolved (user : Int64) : last.resolvedCount user =
    start.resolvedCount user + (Finset.univ.filter fun i => acceptedOf user last (id i)).card
  others (other : Int64) : (∀ i, id i ≠ other) →
    last.submissions.get? other = start.submissions.get? other
  problems : last.problems = start.problems
  languages : last.languages = start.languages
  tasks : last.tasks = start.tasks
  lastTask : last.lastTask = start.lastTask

/-- The passes that jobs ask for, before their first requests. -/
def gathered (s : SandboxSettings) (start : Store) (jobs : ι → Job) (around : ι → σ) : Crowd ι σ :=
  ⟨start, fun i => ((jobs i).work s).run, around⟩

omit [DecidableEq ι] in
theorem exists_apart (s : SandboxSettings) {start : Store} (keyed : start.Keyed) {jobs : ι → Job}
    {id : ι → Int64} (judges : ∀ i, (jobs i).judges? = some (id i)) (outside : ι → Work.Outside σ)
    (around : ι → σ) : ∃ last : ι → Bench σ, (∀ i, (last i).tally.Fair) ∧
      Apart outside start id last (fun i => ⟨⟨start.submissions.get? (id i), []⟩, around i⟩)
        (gathered s start jobs around) := by
  have each (i : ι) := exists_bench (outside i) (steady_work s (judges i))
    (Tally.fair_work s (judges i) keyed) (around i)
  choose last result ends fair using each
  refine ⟨last, fair, ?_⟩
  exact {
    fits := ends
    around := fun _ => rfl
    record := fun _ => rfl
    others := fun _ _ => rfl
    problems := rfl
    languages := rfl
    tasks := rfl
    lastTask := rfl
    resolved := fun user => by
      simp only [List.count_nil, Finset.sum_const_zero]
      rfl }

/-- Passes over different submissions, each in surroundings of its own, do not interfere: in whatever
turns they come to their ends, the store is the one that they leave one after the other, in any order. -/
theorem passes_end_apart (s : SandboxSettings) {start : Store} (keyed : start.Keyed) {jobs : ι → Job}
    {id : ι → Int64} (judges : ∀ i, (jobs i).judges? = some (id i)) (distinct : Function.Injective id)
    (outside : ι → Work.Outside σ) (around : ι → σ) {turns : List ι}
    (ended : ((gathered s start jobs around).play outside turns).Ended) :
    (∀ order : List ι, (∀ i, i ∈ order) →
      ((gathered s start jobs around).play outside turns).store =
        (order.foldl (Crowd.finish outside) (gathered s start jobs around)).store) ∧
    EndsApart start id ((gathered s start jobs around).play outside turns).store := by
  obtain ⟨last, fair, apart⟩ := exists_apart s keyed judges outside around
  obtain ⟨now, end_apart⟩ := apart.play distinct turns
  obtain rfl := end_apart.eq_last ended
  constructor
  · intro order all
    have order_ended : (order.foldl (Crowd.finish outside) (gathered s start jobs around)).Ended :=
      Crowd.ended_order _ all
    obtain ⟨turns', same⟩ : ∃ turns', order.foldl (Crowd.finish outside) (gathered s start jobs around) =
        (gathered s start jobs around).play outside turns' := Crowd.exists_turns_order _ order
    rw [same] at order_ended ⊢
    obtain ⟨now', order_apart⟩ := apart.play distinct turns'
    obtain rfl := order_apart.eq_last order_ended
    exact end_apart.store_eq order_apart
  · exact {
      resolved := fun user => by
        rw [Store.resolvedCount, end_apart.resolved, Store.getD_raised, Finset.card_filter]
        refine congrArg (_ + ·) (Finset.sum_congr rfl fun i _ => ?_)
        rw [(fair i).count, acceptedOf, end_apart.record]
      others := end_apart.others
      problems := end_apart.problems
      languages := end_apart.languages
      tasks := end_apart.tasks
      lastTask := end_apart.lastTask }

/-- Two submissions of one user for one problem. -/
def twins : Store :=
  ((Store.empty.insertProblem ⟨1, none, none, [⟨"", ""⟩], .standard, none, none⟩).insertSubmission
    (.fresh 1 "" 1 1 7)).insertSubmission (.fresh 2 "" 1 1 7)

theorem keyed_twins : twins.Keyed :=
  ((Store.keyed_empty.insertProblem _).insertSubmission _).insertSubmission _

def twinId (second : Bool) : Int64 := if second then 2 else 1

/-- Two passes that begin in turns and then go on to their ends. -/
theorem passes_end_apart_twins : ∃ turns : List Bool,
    let jobs second := if second then Job.rejudge 2 else Job.judge 1
    let begun := gathered {} twins jobs fun _ => ({} : Rehearsal)
    let last := begun.play (fun _ => Rehearsal.reply) ([true, false, true, false] ++ turns)
    last.Ended ∧
    (∀ order : List Bool, (∀ i, i ∈ order) →
      last.store = (order.foldl (Crowd.finish fun _ => Rehearsal.reply) begun).store) ∧
    EndsApart twins twinId last.store := by
  let jobs (second : Bool) := if second then Job.rejudge 2 else Job.judge 1
  let begun := gathered {} twins jobs fun _ => ({} : Rehearsal)
  let mixed := begun.play (fun _ => Rehearsal.reply) [true, false, true, false]
  obtain ⟨turns, same⟩ : ∃ turns, [true, false].foldl (Crowd.finish fun _ => Rehearsal.reply) mixed =
      mixed.play (fun _ => Rehearsal.reply) turns := Crowd.exists_turns_order _ _
  have ended : (mixed.play (fun _ => Rehearsal.reply) turns).Ended := by
    rw [← same]
    exact Crowd.ended_order _ fun i => by cases i <;> decide
  rw [← Crowd.play_append] at ended
  have judges (i : Bool) : (jobs i).judges? = some (twinId i) := by
    cases i <;> rfl
  have distinct : Function.Injective twinId := by
    intro i j same
    cases i <;> cases j <;> first | rfl | exact absurd same (by decide)
  exact ⟨turns, ended, passes_end_apart {} keyed_twins judges distinct _ _ ended⟩

end Judging

end Arbiter
