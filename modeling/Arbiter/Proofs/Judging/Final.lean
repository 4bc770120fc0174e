import Arbiter.Proofs.Judging.Stored

/-! What becomes of an outcome after it is stored. Main statements: a pass writes to the record of its
submission again exactly if it cannot count the outcome, and what it then writes is the fault. -/

namespace Arbiter

theorem Work.Request.isMark_of_harmful {q : Work.Request} (harmful : ¬ q.Harmless) : q.isMark = true := by
  cases q with
  | store q =>
    cases q with
    | addResolved => rfl
    | _ => exact Option.isSome_iff_ne_none.2 harmful
  | _ => exact absurd trivial harmful

namespace Judging

variable {s : SandboxSettings} {id place : Int64} {before after past later marked : Traffic}
  {during : TaskTraffic} {o : JudgeOutcome} {P : JudgeOutcome → Prop}

/-- What a pass changes and counts once an outcome is stored. -/
inductive Aftermath (id : Int64) : Traffic → Prop
  | settled : Aftermath id []
  | counted (user : Int64) (n : Nat) : Aftermath id [⟨.store (.addResolved user), Except.ok n⟩]
  /-- The fault takes the place of the outcome. -/
  | rewritten (user : Int64) (fault : Store.Fault) (count : Nat) (reply : Except Store.Fault Unit) :
    Aftermath id [⟨.store (.addResolved user), Except.error fault⟩,
      ⟨.store (.commit id (fallback (.store fault) count)), reply⟩]

/-- All that comes after a stored outcome is an aftermath of it. -/
def Followed (id : Int64) (marked : Traffic) : Prop :=
  ∀ past place o later, marked = past ++ ⟨.store (.commit place o), Except.ok ()⟩ :: later →
    Aftermath id later

theorem followed_nil : Followed id [] := by
  intro past place o later split
  exact absurd split.symm (List.append_ne_nil_of_right_ne_nil _ (List.cons_ne_nil _ _))

variable {e : Program.Exchange Work.Request Work.Request.Reply}

theorem Followed.cons (rest : Followed id marked) (here : Aftermath id marked) :
    Followed id (e :: marked) := by
  intro past place o later split
  rcases List.cons_eq_append_iff.1 split with ⟨rfl, same⟩ | ⟨past, rfl, split⟩
  · obtain ⟨-, rfl⟩ := List.cons.inj same
    exact here
  · exact rest past place o later (List.cons.inj split).2

theorem Followed.skip (rest : Followed id marked)
    (other : ∀ place o, e ≠ ⟨.store (.commit place o), Except.ok ()⟩) : Followed id (e :: marked) := by
  intro past place o later split
  rcases List.cons_eq_append_iff.1 split with ⟨rfl, same⟩ | ⟨past, rfl, split⟩
  · exact absurd (List.cons.inj same).1.symm (other place o)
  · exact rest past place o later (List.cons.inj split).2

theorem followed_of_concluded {r : Except Fault Status} (concluded : Concluded id r marked) :
    Followed id marked := by
  cases concluded with
  | ended => exact followed_nil
  | stopped => exact followed_nil.cons .settled

theorem followed_of_stores (stores : Stores id P marked) : Followed id marked := by
  cases stores with
  | stopped concluded => exact followed_of_concluded concluded
  | reported computed reported concluded =>
    have last := followed_of_concluded concluded
    cases reported with
    | stored =>
      cases concluded
      exact last.cons .settled
    | refused fault =>
      refine last.skip fun place o same => ?_
      cases same
    | @counted _ user n =>
      cases concluded
      exact (last.cons .settled).cons (.counted user n)
    | @uncounted _ user _ fault =>
      cases concluded with
      | stopped _ count reply =>
        refine (last.skip fun place o same => ?_).cons (.rewritten user fault count reply)
        cases same

/-- What a pass changes and counts after it has stored an outcome. -/
theorem aftermath_of_course (course : Course s id before during after)
    (split : before ++ (during.map (·.2) ++ after) =
      past ++ ⟨.store (.commit place o), Except.ok ()⟩ :: later) : Aftermath id (marks later) := by
  obtain ⟨opening, ending, all, early, stores⟩ := stores_of_course course
  obtain ⟨middle, rfl⟩ : ∃ middle, ending = middle ++ ⟨.store (.commit place o), Except.ok ()⟩ :: later := by
    rcases List.append_eq_append_iff.1 (all.symm.trans split) with ⟨middle, -, same⟩ | ⟨inside, same, rest⟩
    · exact ⟨middle, same⟩
    · rcases List.cons_eq_append_iff.1 rest with ⟨-, same⟩ | ⟨inside, rfl, -⟩
      · exact ⟨[], same⟩
      · subst same
        exact (early _ (List.mem_append_right _ List.mem_cons_self)).elim
  exact followed_of_stores stores (marks middle) place o (marks later) (marks_append _ _)

/-- A stored outcome stays as it is exactly if no fault keeps it from being counted. -/
theorem harmless_iff_of_course (course : Course s id before during after)
    (split : before ++ (during.map (·.2) ++ after) =
      past ++ ⟨.store (.commit place o), Except.ok ()⟩ :: later) :
    (∀ e ∈ later, e.1.Harmless) ↔
      ∀ user fault, ⟨Work.Request.store (.addResolved user), Except.error fault⟩ ∉ later := by
  have follows := aftermath_of_course course split
  have shown : ∀ {e}, e ∈ marks later → e ∈ later := fun here => (List.mem_filter.1 here).1
  constructor
  · intro harmless user fault here
    have mark : ⟨Work.Request.store (.addResolved user), Except.error fault⟩ ∈ marks later :=
      List.mem_filter.2 ⟨here, rfl⟩
    generalize marks later = marked at follows shown mark
    cases follows with
    | settled => cases mark
    | counted => cases List.mem_singleton.1 mark
    | rewritten => cases harmless _ (shown (.tail _ List.mem_cons_self))
  · intro counted e here
    by_contra harmful
    have mark : e ∈ marks later := List.mem_filter.2 ⟨here, Work.Request.isMark_of_harmful harmful⟩
    generalize marks later = marked at follows shown mark
    cases follows with
    | settled => cases mark
    | counted =>
      cases List.mem_singleton.1 mark
      exact harmful rfl
    | rewritten user fault => exact counted user fault (shown List.mem_cons_self)

/-- A pass that has stored a success goes on to store a failure, though it has judged nothing anew. -/
theorem exists_success_rewritten : ∃ before during after past later, Course {} 10 before during after ∧
    before ++ (during.map (·.2) ++ after) =
      past ++ ⟨.store (.commit 10 (.ofResults [right])), Except.ok ()⟩ :: later ∧
    (JudgeOutcome.ofResults [right]).status = .success ∧
    ∃ o, ⟨Work.Request.store (.commit 10 o), Except.ok ()⟩ ∈ later ∧ o.status = .error := by
  obtain ⟨before, during, course⟩ := exists_course_uncounted (.unavailable "connection refused")
  refine ⟨before, during, _, before ++ during.map (·.2), _, course, (List.append_assoc _ _ _).symm, ?_⟩
  refine ⟨by decide +kernel, fallback (.store (.unavailable "connection refused")) 1, ?_, rfl⟩
  exact .tail _ (.tail _ (.tail _ List.mem_cons_self))

end Judging

end Arbiter
