import Arbiter.Store.Basic

/-! What each request leaves alone in the store, and what a table holds. Main statements: a request changes
the record of a submission by a function of that record alone, and no request adds or removes a record of a
submission or touches a problem; an entry stands in a table exactly where its key leads to it, and tables
that lead from every key to the same value are equal. -/

namespace Arbiter

namespace Store

namespace Request

/-- What a request makes of the record of a submission. -/
def edit (q : Request) (id : Int64) (r : Submission) : Submission :=
  match q with
  | setStatus i status => if i = id then { r with status } else r
  | commit i outcome => if i = id then r.judged outcome else r
  | reset i => if i = id then r.reset else r
  | saveGraph i graph => if i = id then { r with graph := some graph } else r
  | _ => r

/-- The submission whose judgment a request writes. -/
def rewrites? : Request → Option Int64
  | setStatus i _ | commit i _ | reset i => some i
  | _ => none

@[simp] theorem id_edit (q : Request) (id : Int64) (r : Submission) : (q.edit id r).id = r.id := by
  cases q <;> simp only [edit] <;> split <;> rfl

@[simp] theorem problemId_edit (q : Request) (id : Int64) (r : Submission) :
    (q.edit id r).problemId = r.problemId := by
  cases q <;> simp only [edit] <;> split <;> rfl

end Request

theorem get?_changeSubmission (s : Store) (i id : Int64) (change : Submission → Submission) :
    (s.changeSubmission i change).2.submissions.get? id =
      (s.submissions.get? id).map fun r => if i = id then change r else r := by
  unfold changeSubmission
  by_cases same : i = id
  · subst same
    cases found : s.submissions.get? i with
    | none => exact found
    | some r => simp
  · cases found : s.submissions.get? i with
    | none => simp [same]
    | some r => simp [same, Ne.symm same]

theorem problems_changeSubmission (s : Store) (i : Int64) (change : Submission → Submission) :
    (s.changeSubmission i change).2.problems = s.problems := by
  unfold changeSubmission
  split <;> rfl

/-- A request changes the record of a submission by its edit, and no other way. -/
theorem get?_reply (q : Request) (s : Store) (id : Int64) :
    (reply q s).2.submissions.get? id = (s.submissions.get? id).map (q.edit id) := by
  have kept : s.submissions.get? id = (s.submissions.get? id).map fun r => r := by simp
  cases q with
  | setStatus i status => exact get?_changeSubmission s i id _
  | commit i outcome => exact get?_changeSubmission s i id _
  | reset i => exact get?_changeSubmission s i id _
  | saveGraph i graph => exact get?_changeSubmission s i id _
  | completeTask i outcome =>
    simp only [reply]
    split <;> exact kept
  | _ => exact kept

@[simp] theorem problems_reply (q : Request) (s : Store) : (reply q s).2.problems = s.problems := by
  cases q with
  | setStatus i status => exact problems_changeSubmission s i _
  | commit i outcome => exact problems_changeSubmission s i _
  | reset i => exact problems_changeSubmission s i _
  | saveGraph i graph => exact problems_changeSubmission s i _
  | completeTask i outcome =>
    simp only [reply]
    split <;> rfl
  | _ => rfl

/-- No request makes a task. -/
theorem lastTask_reply (q : Request) (s : Store) : (reply q s).2.lastTask = s.lastTask := by
  cases q <;> simp only [reply, changeSubmission, addResolved] <;> split <;> rfl

/-- What a request makes of a task. -/
def Request.fill (q : Request) (id : Int64) (t : PlagiarismTask) : PlagiarismTask :=
  match q with
  | .completeTask i outcome => if i = id then t.complete outcome else t
  | _ => t

/-- A request changes a task by storing findings, and no other way. -/
theorem get?_tasks_reply (q : Request) (s : Store) (id : Int64) :
    (reply q s).2.tasks.get? id = (s.tasks.get? id).map (q.fill id) := by
  have kept : s.tasks.get? id = (s.tasks.get? id).map fun t => t := by simp
  cases q with
  | completeTask i outcome =>
    have filled : (Request.completeTask i outcome).fill id =
        fun t => if i = id then t.complete outcome else t := rfl
    rw [reply, filled]
    by_cases same : i = id
    · subst same
      cases found : s.tasks.get? i with
      | none => exact found
      | some t => simp
    · cases s.tasks.get? i <;> simp [same, Ne.symm same]
  | setStatus | commit | reset | saveGraph =>
    simp only [reply, changeSubmission]
    split <;> exact kept
  | _ => exact kept

/-- A change of a record succeeds exactly where there is one. -/
theorem changeSubmission_fst (s : Store) (id : Int64) (change : Submission → Submission) :
    (s.changeSubmission id change).1 =
      if (s.submissions.get? id).isSome then .ok () else .error (.noSubmission id) := by
  unfold changeSubmission
  cases s.submissions.get? id <;> rfl

/-- Every submission stands under its own identifier. -/
def Keyed (s : Store) : Prop := ∀ id r, s.submissions.get? id = some r → r.id = id

theorem keyed_empty : empty.Keyed := by
  intro id r found
  cases found

theorem Keyed.insertSubmission {s : Store} (h : s.Keyed) (r : Submission) :
    (s.insertSubmission r).Keyed := by
  intro id other found
  rw [Store.insertSubmission, Table.get?_insert] at found
  split at found
  · rename_i same
    rw [← Option.some.inj found, same]
  · exact h id other found

theorem Keyed.insertProblem {s : Store} (h : s.Keyed) (p : Problem) : (s.insertProblem p).Keyed := h

theorem Keyed.reply {s : Store} (h : s.Keyed) (q : Request) : (Store.reply q s).2.Keyed := by
  intro id r found
  rw [get?_reply, Option.map_eq_some_iff] at found
  obtain ⟨before, found, rfl⟩ := found
  rw [Request.id_edit]
  exact h id before found

/-- The number of test cases of a problem, none if there is no such problem. -/
def caseCount (s : Store) (problem : Int64) : Nat :=
  (s.problems.get? problem).elim 0 (·.testcases.length)

end Store

end Arbiter

/-! Entries of tables. -/

namespace Arbiter

namespace Table

variable {α : Type}

theorem mem_iff_lookup {l : List (Int64 × α)} (ordered : l.Pairwise fun a b => a.1 < b.1) {key : Int64}
    {value : α} : (key, value) ∈ l ↔ l.lookup key = some value := by
  induction l with
  | nil => simp
  | cons e rest ih =>
    rw [List.pairwise_cons] at ordered
    rw [lookup_cons_eq, List.mem_cons]
    by_cases same : key = e.1
    · subst same
      rw [if_pos rfl, Option.some.injEq]
      constructor
      · rintro (here | later)
        · rw [← here]
        · exact (Int64.lt_irrefl (ordered.1 (e.1, value) later)).elim
      · rintro rfl
        exact .inl rfl
    · rw [if_neg same, ← ih ordered.2, or_iff_right]
      rintro rfl
      exact same rfl

theorem mem_entries (t : Table α) (key : Int64) (value : α) :
    (key, value) ∈ t.entries ↔ t.get? key = some value :=
  mem_iff_lookup t.ordered

theorem mem_values (t : Table α) (value : α) :
    value ∈ t.values ↔ ∃ key, t.get? key = some value := by
  rw [values, List.mem_map]
  constructor
  · rintro ⟨⟨key, v⟩, here, rfl⟩
    exact ⟨key, (t.mem_entries key v).1 here⟩
  · rintro ⟨key, found⟩
    exact ⟨(key, value), (t.mem_entries key value).2 found, rfl⟩

theorem nodup_keys (t : Table α) : (t.entries.map (·.1)).Nodup := by
  rw [List.Nodup, List.pairwise_map]
  exact t.ordered.imp fun less => Int64.ne_of_lt less

theorem nodup_entries (t : Table α) : t.entries.Nodup :=
  t.ordered.imp fun less same => Int64.ne_of_lt less (congrArg Prod.fst same)

@[ext] theorem ext {t u : Table α} (same : ∀ key, t.get? key = u.get? key) : t = u := by
  have perm : t.entries.Perm u.entries := by
    rw [List.perm_ext_iff_of_nodup t.nodup_entries u.nodup_entries]
    rintro ⟨key, value⟩
    rw [mem_entries, mem_entries, same]
  obtain ⟨entries, ordered⟩ := t
  obtain ⟨entries', ordered'⟩ := u
  have : entries = entries' := by
    refine List.Perm.eq_of_pairwise (fun a b _ _ less more => ?_) ordered ordered' perm
    exact (Int64.lt_irrefl (Int64.lt_trans less more)).elim
  subst this
  rfl

end Table

namespace Store

variable {s : Store}

/-- In a store where every submission stands under its own identifier, the listed submissions are
those for the problem in the language. -/
theorem mem_submissionsOf (keyed : s.Keyed) {problem language : Int64} {r : Submission} :
    r ∈ s.submissionsOf problem language ↔
      s.submissions.get? r.id = some r ∧ r.problemId = problem ∧ r.languageId = language := by
  rw [submissionsOf, List.mem_filter, Table.mem_values, Bool.and_eq_true, beq_iff_eq, beq_iff_eq]
  refine and_congr_left fun _ => ⟨?_, fun found => ⟨r.id, found⟩⟩
  rintro ⟨key, found⟩
  rwa [keyed key r found]

/-- No submission is listed twice. -/
theorem nodup_submissionsOf (keyed : s.Keyed) (problem language : Int64) :
    ((s.submissionsOf problem language).map (·.id)).Nodup := by
  have keys : s.submissions.values.map (·.id) = s.submissions.entries.map (·.1) := by
    rw [Table.values, List.map_map]
    refine List.map_congr_left fun e here => ?_
    exact keyed e.1 e.2 ((s.submissions.mem_entries e.1 e.2).1 here)
  refine List.Nodup.sublist (List.filter_sublist.map _) ?_
  rw [keys]
  exact s.submissions.nodup_keys

end Store

end Arbiter
