import Arbiter.Proofs.Judging.Calls
import Mathlib.Algebra.Order.BigOperators.Group.Finset

/-! Sandboxes that are started, waited for and removed. Main statement: where each of several tasks waits
for and removes all that it starts, so do they together, in whatever order they go on. -/

namespace Arbiter.Judging

open Program (own)
open Sandbox (Folder Handle Spec)

/-- The sandbox that is started, if one is. -/
def started? : Program.Exchange Work.Request Work.Request.Reply → Option Handle
  | ⟨.launch _, .ok sandbox⟩ => some sandbox
  | _ => none

/-- The sandbox that is waited for. -/
def awaited? : Program.Exchange Work.Request Work.Request.Reply → Option Handle
  | ⟨.wait sandbox _, _⟩ => some sandbox
  | _ => none

/-- The sandbox that is removed. -/
def removed? : Program.Exchange Work.Request Work.Request.Reply → Option Handle
  | ⟨.remove sandbox, _⟩ => some sandbox
  | _ => none

/-- A sandbox is waited for after it is started, removed after that, and as often as it is started. -/
structure Paired (sandbox : Handle) (past : Traffic) : Prop where
  started_first : ∀ front, front <+: past →
    front.countP (awaited? · = some sandbox) ≤ front.countP (started? · = some sandbox)
  awaited_first : ∀ front, front <+: past →
    front.countP (removed? · = some sandbox) ≤ front.countP (awaited? · = some sandbox)
  awaited : past.countP (awaited? · = some sandbox) = past.countP (started? · = some sandbox)
  removed : past.countP (removed? · = some sandbox) = past.countP (awaited? · = some sandbox)

variable {sandbox : Handle} {past later : Traffic}

theorem paired_nil : Paired sandbox [] :=
  ⟨fun _ none => by rw [List.prefix_nil.1 none]; exact Nat.le_refl _,
    fun _ none => by rw [List.prefix_nil.1 none]; exact Nat.le_refl _, rfl, rfl⟩

theorem prefix_append_cases {α : Type} {front as bs : List α} (h : front <+: as ++ bs) :
    front <+: as ∨ ∃ more, front = as ++ more ∧ more <+: bs := by
  rcases Nat.le_total front.length as.length with short | long
  · exact .inl (List.prefix_of_prefix_length_le h (List.prefix_append as bs) short)
  · obtain ⟨more, rfl⟩ := List.prefix_of_prefix_length_le (List.prefix_append as bs) h long
    exact .inr ⟨more, rfl, (List.prefix_append_right_inj as).1 h⟩

theorem Paired.append (first : Paired sandbox past) (second : Paired sandbox later) :
    Paired sandbox (past ++ later) := by
  refine ⟨fun front h => ?_, fun front h => ?_, ?_, ?_⟩
  · rcases prefix_append_cases h with front | ⟨more, rfl, front⟩
    · exact first.started_first _ front
    · rw [List.countP_append, List.countP_append, first.awaited]
      exact Nat.add_le_add_left (second.started_first _ front) _
  · rcases prefix_append_cases h with front | ⟨more, rfl, front⟩
    · exact first.awaited_first _ front
    · rw [List.countP_append, List.countP_append, first.removed]
      exact Nat.add_le_add_left (second.awaited_first _ front) _
  · rw [List.countP_append, List.countP_append, first.awaited, second.awaited]
  · rw [List.countP_append, List.countP_append, first.removed, second.removed]

/-- An exchange with no sandbox that came to be. -/
theorem paired_one {e : Program.Exchange Work.Request Work.Request.Reply} (notStarted : started? e = none)
    (notAwaited : awaited? e = none) (notRemoved : removed? e = none) : Paired sandbox [e] := by
  refine ⟨fun front h => ?_, fun front h => ?_, ?_, ?_⟩
  · simp only [List.prefix_cons_iff, List.prefix_nil] at h
    rcases h with rfl | ⟨_, rfl, rfl⟩ <;> simp [notStarted, notAwaited]
  · simp only [List.prefix_cons_iff, List.prefix_nil] at h
    rcases h with rfl | ⟨_, rfl, rfl⟩ <;> simp [notAwaited, notRemoved]
  · simp [notStarted, notAwaited]
  · simp [notAwaited, notRemoved]

/-- A sandbox is started, waited for and removed. -/
theorem paired_three {a b c : Program.Exchange Work.Request Work.Request.Reply} {other : Handle}
    (started : started? a = some other ∧ started? b = none ∧ started? c = none)
    (awaited : awaited? a = none ∧ awaited? b = some other ∧ awaited? c = none)
    (removed : removed? a = none ∧ removed? b = none ∧ removed? c = some other) :
    Paired sandbox [a, b, c] := by
  refine ⟨fun front h => ?_, fun front h => ?_, ?_, ?_⟩
  · simp only [List.prefix_cons_iff, List.prefix_nil] at h
    rcases h with rfl | ⟨_, rfl, rfl | ⟨_, rfl, rfl | ⟨_, rfl, rfl⟩⟩⟩ <;>
      simp [List.countP_cons, started, awaited]
  · simp only [List.prefix_cons_iff, List.prefix_nil] at h
    rcases h with rfl | ⟨_, rfl, rfl | ⟨_, rfl, rfl | ⟨_, rfl, rfl⟩⟩⟩ <;>
      simp [List.countP_cons, awaited, removed]
  · simp [List.countP_cons, started, awaited]
  · simp [List.countP_cons, awaited, removed]

theorem Sandboxed.paired {spec : Spec} {ending : Except Sandbox.Fault Sandbox.Output}
    (run : Sandboxed spec ending past) : Paired sandbox past := by
  cases run with
  | refused fault => exact paired_one rfl rfl rfl
  | ran => exact paired_three ⟨rfl, rfl, rfl⟩ ⟨rfl, rfl, rfl⟩ ⟨rfl, rfl, rfl⟩

theorem Compiles.paired {s : SandboxSettings} {known : Traffic} {language : Language} {folder : Folder}
    {memoryLimitMb : UInt32} {outcome : CompileOutcome}
    (h : Compiles s known language folder memoryLimitMb outcome past) : Paired sandbox past := by
  cases h with
  | unneeded => exact paired_nil
  | ran _ run => exact run.paired

theorem Opening.paired {s : SandboxSettings} {id : Int64} {known : Traffic} {ready : Option Prepared}
    (h : Opening s id known ready past) : Paired sandbox past := by
  cases h with
  | unstarted => exact paired_nil
  | stopped _ compile => exact compile.paired
  | unjudged _ _ compile judge => exact compile.paired.append judge.paired
  | standard _ _ _ compile => exact compile.paired
  | special _ _ _ compile _ _ _ judge => exact compile.paired.append judge.paired

theorem CaseCalls.paired {s : SandboxSettings} {run : Run} (h : CaseCalls s run past) :
    Paired sandbox past := by
  cases h with
  | unstarted => exact paired_nil
  | ran ran => exact ran.paired
  | checked _ _ ran _ checked => exact ran.paired.append checked.paired

/-- Only calls matter. -/
theorem countP_calls {f : Program.Exchange Work.Request Work.Request.Reply → Option Handle}
    (called : ∀ e, e.1.isCall = false → f e = none) (past : Traffic) :
    (calls past).countP (f · = some sandbox) = past.countP (f · = some sandbox) := by
  rw [calls, List.countP_filter]
  refine List.countP_congr fun e _ => ?_
  cases call : e.1.isCall with
  | true => simp
  | false => simp [called e call]

theorem paired_of_calls (h : Paired sandbox (calls past)) : Paired sandbox past := by
  have started : ∀ e, e.1.isCall = false → started? e = none := by
    rintro ⟨q, reply⟩ quiet
    cases q <;> first | rfl | cases quiet
  have awaited : ∀ e, e.1.isCall = false → awaited? e = none := by
    rintro ⟨q, reply⟩ quiet
    cases q <;> first | rfl | cases quiet
  have removed : ∀ e, e.1.isCall = false → removed? e = none := by
    rintro ⟨q, reply⟩ quiet
    cases q <;> first | rfl | cases quiet
  refine ⟨fun front before => ?_, fun front before => ?_, ?_, ?_⟩
  · rw [← countP_calls started, ← countP_calls awaited]
    exact h.started_first _ (before.filter _)
  · rw [← countP_calls awaited, ← countP_calls removed]
    exact h.awaited_first _ (before.filter _)
  · rw [← countP_calls started, ← countP_calls awaited]
    exact h.awaited
  · rw [← countP_calls awaited, ← countP_calls removed]
    exact h.removed

/-- What tasks do together is what each of them does. -/
theorem countP_own (f : Program.Exchange Work.Request Work.Request.Reply → Bool) {n : Nat}
    {during : TaskTraffic} (inside : ∀ e ∈ during, e.1 < n) :
    (during.map (·.2)).countP f = ∑ i ∈ Finset.range n, (own i during).countP f := by
  induction during with
  | nil => simp [own]
  | cons e during ih =>
    have each : ∀ i, (own i (e :: during)).countP f =
        (own i during).countP f + if e.1 = i then (if f e.2 then 1 else 0) else 0 := by
      intro i
      by_cases same : e.1 = i <;> simp [own, same, List.countP_cons]
    have here : e.1 ∈ Finset.range n := Finset.mem_range.2 (inside e List.mem_cons_self)
    simp only [List.map_cons, List.countP_cons, each, Finset.sum_add_distrib, Finset.sum_ite_eq, here,
      if_true, ih fun d hd => inside d (.tail _ hd)]

theorem paired_of_own {n : Nat} {during : TaskTraffic} (inside : ∀ e ∈ during, e.1 < n)
    (h : ∀ i, Paired sandbox (own i during)) : Paired sandbox (during.map (·.2)) := by
  have split : ∀ front, front <+: during.map (·.2) → ∃ begun : TaskTraffic, front = begun.map (·.2) ∧
      (∀ e ∈ begun, e.1 < n) ∧ ∀ i, own i begun <+: own i during := by
    rintro front ⟨rest, same⟩
    obtain ⟨begun, left, rfl, rfl, rfl⟩ := List.map_eq_append_iff.1 same.symm
    refine ⟨begun, rfl, fun e he => inside e (List.mem_append_left _ he), fun i => ?_⟩
    rw [Program.own_append]
    exact List.prefix_append _ _
  refine ⟨fun front before => ?_, fun front before => ?_, ?_, ?_⟩
  · obtain ⟨begun, rfl, bound, part⟩ := split front before
    rw [countP_own _ bound, countP_own _ bound]
    exact Finset.sum_le_sum fun i _ => (h i).started_first _ (part i)
  · obtain ⟨begun, rfl, bound, part⟩ := split front before
    rw [countP_own _ bound, countP_own _ bound]
    exact Finset.sum_le_sum fun i _ => (h i).awaited_first _ (part i)
  · rw [countP_own _ inside, countP_own _ inside]
    exact Finset.sum_congr rfl fun i _ => (h i).awaited
  · rw [countP_own _ inside, countP_own _ inside]
    exact Finset.sum_congr rfl fun i _ => (h i).removed

end Arbiter.Judging
