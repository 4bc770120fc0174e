import Arbiter.Proofs.Judging.Calls
import Arbiter.Proofs.Judging.Score

/-! The verdict of a run on a test case, as it follows from what was exchanged for it. Main statement: a
run ends in a result of its case, which accepts exactly if the program was clean and its output is right
for the mode, and says nothing exactly if the judge itself was at fault; points go with the verdict. -/

namespace Arbiter

namespace Program

variable {Request : Type} {Reply : Request → Type} {α : Type}

/-- Surroundings that reply by all that was exchanged before, and keep it. -/
def recording (reply : (q : Request) → List (Exchange Request Reply) → Reply q) (q : Request)
    (past : List (Exchange Request Reply)) : Reply q × List (Exchange Request Reply) :=
  (reply q past, past ++ [⟨q, reply q past⟩])

theorem exists_path_recording (reply : (q : Request) → List (Exchange Request Reply) → Reply q)
    (p : Program Request Reply α) (past : List (Exchange Request Reply)) :
    ∃ later, (p.run (recording reply) past).2 = past ++ later ∧
      Path p later (done (p.run (recording reply) past).1) := by
  induction p generalizing past with
  | done a => exact ⟨[], (List.append_nil past).symm, .refl _⟩
  | ask q next ih =>
    obtain ⟨later, kept, path⟩ := ih (reply q past) (past ++ [⟨q, reply q past⟩])
    exact ⟨⟨q, reply q past⟩ :: later, kept.trans (List.append_assoc _ _ _), .ask _ path⟩

end Program

open Program (Path done)
open Sandbox (Folder Handle Spec)

/-- The folder that a request writes to or starts a sandbox on. -/
def Work.Request.folder? : Work.Request → Option Folder
  | .write folder _ _ => some folder
  | .launch spec => some spec.folder
  | _ => none

namespace Judging

/-- Only this folder is written to and worked on. -/
def KeepsTo (folder : Folder) (past : Traffic) : Prop := ∀ e ∈ past, ∀ f ∈ e.1.folder?, f = folder

/-- The sandbox was used, and it ended in this way. -/
def Used (spec : Spec) (ending : Except Sandbox.Fault Sandbox.Output) (past : Traffic) : Prop :=
  ∃ used, Sandboxed spec ending used ∧ used <:+: past

section Used

variable {spec : Spec} {ending other : Except Sandbox.Fault Sandbox.Output} {folder : Folder}
  {first used later : Traffic}

theorem keepsTo_nil : KeepsTo folder [] := List.forall_mem_nil _

theorem KeepsTo.append (h : KeepsTo folder first) (h' : KeepsTo folder later) :
    KeepsTo folder (first ++ later) :=
  List.forall_mem_append.2 ⟨h, h'⟩

theorem KeepsTo.not_launch (h : KeepsTo folder first) (apart : spec.folder ≠ folder) :
    ∀ e ∈ first, e.1 ≠ .launch spec := by
  intro e he same
  exact apart (h e he _ (by rw [same]; rfl))

theorem KeepsTo.not_write {name contents : String} {f : Folder} (h : KeepsTo folder first)
    (apart : f ≠ folder) :
    ∀ e ∈ first, e.1 ≠ .write f name contents := by
  intro e he same
  exact apart (h e he _ (by rw [same]; rfl))

theorem Sandboxed.keepsTo (h : Sandboxed spec ending used) : KeepsTo spec.folder used := by
  cases h <;> simp [KeepsTo, Work.Request.folder?, eq_comm]

theorem Sandboxed.not_write {name contents : String} (h : Sandboxed spec ending used) :
    ∀ e ∈ used, e.1 ≠ .write folder name contents := by
  cases h <;> simp

theorem Sandboxed.head (h : Sandboxed spec ending used) :
    ∃ reply rest, used = ⟨.launch spec, reply⟩ :: rest := by
  cases h <;> exact ⟨_, _, rfl⟩

/-- What was exchanged without starting the sandbox tells nothing about its use. -/
theorem used_append (none : ∀ e ∈ first, e.1 ≠ .launch spec) :
    Used spec ending (first ++ later) ↔ Used spec ending later := by
  induction first with
  | nil => rfl
  | cons e rest ih =>
    rw [← ih fun e he => none e (.tail _ he)]
    -- A use begins with the launch, which is not among the first exchanges.
    refine exists_congr fun used => and_congr_right fun h => ?_
    obtain ⟨reply, tail, rfl⟩ := h.head
    rw [List.cons_append, List.infix_cons_iff, or_iff_right]
    intro begins
    have same := (List.cons_prefix_cons.1 begins).1
    exact none e List.mem_cons_self (same ▸ rfl)

theorem not_used (none : ∀ e ∈ first, e.1 ≠ .launch spec) : ¬ Used spec ending first := by
  have empty : ¬ Used spec ending [] := by
    rintro ⟨used, h, inside⟩
    obtain ⟨reply, rest, rfl⟩ := h.head
    simp at inside
  rwa [← List.append_nil first, used_append none]

/-- A sandbox that is used once ends in one way. -/
theorem Sandboxed.used_iff (h : Sandboxed spec ending used) (none : ∀ e ∈ later, e.1 ≠ .launch spec) :
    Used spec other (used ++ later) ↔ other = ending := by
  constructor
  · rintro ⟨again, h', inside⟩
    cases h with
    | refused fault =>
      rcases List.infix_cons_iff.1 inside with begins | after
      · cases h' with
        | refused fault' =>
          cases (List.cons_prefix_cons.1 begins).1
          rfl
        | ran => cases (List.cons_prefix_cons.1 begins).1
      · exact absurd ⟨again, h', after⟩ (not_used none)
    | ran sandbox ending removed =>
      rcases List.infix_cons_iff.1 inside with begins | after
      · cases h' with
        | refused fault' => cases (List.cons_prefix_cons.1 begins).1
        | ran sandbox' ending' removed' =>
          obtain ⟨-, more⟩ := List.cons_prefix_cons.1 begins
          cases (List.cons_prefix_cons.1 more).1
          rfl
      · refine absurd ⟨again, h', after⟩ (not_used (List.forall_mem_cons.2 ⟨nofun, ?_⟩))
        exact List.forall_mem_cons.2 ⟨nofun, none⟩
  · rintro rfl
    exact ⟨used, h, List.infix_append [] used later⟩

end Used

namespace SpecialJudge

variable {s : SandboxSettings} {j : SpecialJudge} {index : Nat} {past first later : Traffic}

/-- The special judge has printed the full score. -/
def Approves (s : SandboxSettings) (j : SpecialJudge) (index : Nat) (past : Traffic) : Prop :=
  ∃ answer, Used (j.spec s index) (.ok answer) past ∧ answer.exitCode = 0 ∧ Prints answer.stdout fullScore

/-- The special judge is not heard of: a file for it is not written, its sandbox fails, or it does not
end by itself with a score. -/
inductive Fails (s : SandboxSettings) (j : SpecialJudge) (index : Nat) (past : Traffic) : Prop
  | unwritten {name contents : String} {fault : Workspace.Fault}
    (refused : ⟨Work.Request.write .judge name contents, Except.error fault⟩ ∈ past)
  | unrun {fault : Sandbox.Fault} (used : Used (j.spec s index) (.error fault) past)
  | exit {answer : Sandbox.Output} (used : Used (j.spec s index) (.ok answer) past)
    (failed : answer.exitCode ≠ 0)
  | scoreless {answer : Sandbox.Output} (used : Used (j.spec s index) (.ok answer) past)
    (none : PrintsNone answer.stdout)

theorem approves_append (aside : KeepsTo .work first) :
    j.Approves s index (first ++ later) ↔ j.Approves s index later := by
  have apart : (j.spec s index).folder ≠ .work := nofun
  simp only [Approves, used_append (aside.not_launch apart)]

theorem fails_append (aside : KeepsTo .work first) :
    j.Fails s index (first ++ later) ↔ j.Fails s index later := by
  have uses : ∀ ending, Used (j.spec s index) ending (first ++ later) ↔ Used (j.spec s index) ending later :=
    fun _ => used_append (aside.not_launch nofun)
  constructor
  · intro fails
    cases fails with
    | unwritten refused =>
      refine .unwritten ((List.mem_append.1 refused).resolve_left fun here => ?_)
      have apart : Folder.judge ≠ .work := nofun
      exact aside.not_write apart _ here rfl
    | unrun used => exact .unrun ((uses _).1 used)
    | exit used failed => exact .exit ((uses _).1 used) failed
    | scoreless used none => exact .scoreless ((uses _).1 used) none
  · intro fails
    cases fails with
    | unwritten refused => exact .unwritten (List.mem_append_right _ refused)
    | unrun used => exact .unrun ((uses _).2 used)
    | exit used failed => exact .exit ((uses _).2 used) failed
    | scoreless used none => exact .scoreless ((uses _).2 used) none

theorem path_writeAll {files : List (String × String)} {written : Except Workspace.Fault Unit}
    (path : Path (writeAll files) past (done written)) :
    (∀ e ∈ past, ∃ name contents, e.1 = .write .judge name contents) ∧
      ((∃ name contents fault, ⟨Work.Request.write .judge name contents, Except.error fault⟩ ∈ past) ↔
        written ≠ .ok ()) := by
  induction files generalizing past with
  | nil =>
    obtain ⟨rfl, rfl⟩ := path.of_done
    simp
  | cons file rest ih =>
    obtain ⟨reply, later, rfl, goesOn⟩ := path.of_ask
    cases reply with
    | error fault =>
      obtain ⟨rfl, rfl⟩ := goesOn.of_done
      refine ⟨List.forall_mem_singleton.2 ⟨_, _, rfl⟩, fun _ => nofun, fun _ => ?_⟩
      exact ⟨_, _, fault, List.mem_cons_self⟩
    | ok _ =>
      obtain ⟨writes, refused⟩ := ih goesOn
      refine ⟨List.forall_mem_cons.2 ⟨⟨_, _, rfl⟩, writes⟩, ?_⟩
      rw [← refused]
      refine exists_congr fun name => exists_congr fun contents => exists_congr fun fault => ?_
      rw [List.mem_cons, or_iff_right]
      rintro ⟨⟩

/-- What a special judge says, by what was exchanged for it. -/
structure Ruled (s : SandboxSettings) (j : SpecialJudge) (index : Nat) (past : Traffic) (ruling : Ruling) :
    Prop where
  rates : Rates .special ruling.verdict ruling.points
  accepted_iff : ruling.verdict = .accepted ↔ j.Approves s index past
  unknown_iff : ruling.verdict = .unknown ↔ j.Fails s index past
  aside : KeepsTo .judge past

theorem ruled_of_path {case : TestCase} {output : String} {ruling : Ruling}
    (path : Path (j.check s index case output) past (done ruling)) : j.Ruled s index past ruling := by
  obtain ⟨written, writes, second, rfl, wrote, goesOn⟩ := path.of_bind
  obtain ⟨only, refused⟩ := path_writeAll wrote
  have aside : KeepsTo .judge writes := by
    intro e he f hf
    obtain ⟨name, contents, same⟩ := only e he
    rw [same] at hf
    cases hf
    rfl
  have unstarted : ∀ e ∈ writes, e.1 ≠ .launch (j.spec s index) := by
    intro e he same
    obtain ⟨name, contents, other⟩ := only e he
    rw [other] at same
    cases same
  cases written with
  | error fault =>
    obtain ⟨rfl, rfl⟩ := goesOn.of_done
    rw [List.append_nil]
    obtain ⟨_, _, _, lost⟩ := refused.2 nofun
    refine ⟨rates_none nofun, ⟨nofun, ?_⟩, ⟨fun _ => .unwritten lost, fun _ => rfl⟩, aside⟩
    rintro ⟨answer, used, -⟩
    exact absurd used (not_used unstarted)
  | ok _ =>
    obtain ⟨ending, used, last, rfl, executed, ended⟩ := goesOn.of_bind
    have ran : Sandboxed (j.spec s index) ending used := path_execute executed
    obtain rfl : last = [] := by cases ending <;> exact ended.of_done.1
    have uses : ∀ other, Used (j.spec s index) other (writes ++ (used ++ [])) ↔ other = ending :=
      fun _ => (used_append unstarted).trans (ran.used_iff (List.forall_mem_nil _))
    have kept : ∀ name contents fault,
        ⟨Work.Request.write .judge name contents, Except.error fault⟩ ∉ writes ++ (used ++ []) := by
      intro name contents fault here
      rw [List.append_nil] at here
      rcases List.mem_append.1 here with here | here
      · exact refused.1 ⟨name, contents, fault, here⟩ rfl
      · exact ran.not_write _ here rfl
    have aside : KeepsTo .judge (writes ++ (used ++ [])) := by
      rw [List.append_nil]
      exact aside.append ran.keepsTo
    cases ending with
    | error fault =>
      obtain ⟨-, rfl⟩ := ended.of_done
      refine ⟨rates_none nofun, ⟨nofun, ?_⟩, ⟨fun _ => .unrun ((uses _).2 rfl), fun _ => rfl⟩, aside⟩
      rintro ⟨answer, used, -⟩
      cases (uses _).1 used
    | ok answer =>
      obtain ⟨-, rfl⟩ := ended.of_done
      refine ⟨Ruling.rates_ofOutput answer, ?_, ?_, aside⟩
      · rw [Ruling.ofOutput_accepted_iff]
        constructor
        · exact fun right => ⟨answer, (uses _).2 rfl, right⟩
        · rintro ⟨answer', used, right⟩
          cases (uses _).1 used
          exact right
      · rw [Ruling.ofOutput_unknown_iff]
        constructor
        · rintro (failed | none)
          · exact .exit ((uses _).2 rfl) failed
          · exact .scoreless ((uses _).2 rfl) none
        · intro fails
          cases fails with
          | unwritten refused => exact absurd refused (kept _ _ _)
          | unrun used => cases (uses _).1 used
          | exit used failed =>
            cases (uses _).1 used
            exact .inl failed
          | scoreless used none =>
            cases (uses _).1 used
            exact .inr none

end SpecialJudge

section Limits

variable {limits : Limits} {output : Sandbox.Output}

theorem limitVerdict_of_clean (clean : Clean limits output) :
    limitVerdict? limits ((Sandbox.splitErrors output.stderr).1.elim 0 (·.cpuMs))
      (max ((Sandbox.splitErrors output.stderr).1.elim 0 (·.maxRssKb)) output.peakMemoryKb).toNat
      output = none := by
  have unkilled : ¬ (limits.memoryKb <
      (max ((Sandbox.splitErrors output.stderr).1.elim 0 (·.maxRssKb)) output.peakMemoryKb).toNat ∨
        output.exitCode = killedExitCode ∨ output.oomKilled = true) := by
    rw [clean.exit, clean.alive]
    have within := Nat.not_lt.2 clean.memory
    simp [within, killedExitCode]
  rw [limitVerdict?, if_neg (UInt32.not_lt.2 clean.time), if_neg unkilled, if_neg (not_not.2 clean.exit)]

theorem refused_of_limitVerdict {timeMs : UInt32} {memoryKb : Nat} {verdict : Verdict}
    (limited : limitVerdict? limits timeMs memoryKb output = some verdict) :
    verdict ≠ .accepted ∧ verdict ≠ .unknown := by
  unfold limitVerdict? at limited
  split at limited
  · cases limited
    exact ⟨nofun, nofun⟩
  split at limited
  · cases limited
    exact ⟨nofun, nofun⟩
  split at limited
  · cases limited
    exact ⟨nofun, nofun⟩
  · cases limited

end Limits

namespace Run

variable {s : SandboxSettings} {r : Run} {output : Sandbox.Output} {past first later : Traffic}
  {result : TestCaseResult}

/-- The output is right for the mode of judging. -/
inductive Passes (s : SandboxSettings) (r : Run) (output : Sandbox.Output) (past : Traffic) : Prop
  | compared (standard : r.mode ≠ .special)
    (same : outputsMatch r.mode output.stdout r.case.expectedOutput = true)
  | approved {judge : SpecialJudge} (special : r.mode = .special) (ready : r.judge = some judge)
    (approves : judge.Approves s r.index past)

/-- No special judge has decided. -/
inductive Undecided (s : SandboxSettings) (r : Run) (past : Traffic) : Prop
  | missing (none : r.judge = none)
  | failed {judge : SpecialJudge} (ready : r.judge = some judge) (fails : judge.Fails s r.index past)

theorem passes_append (aside : KeepsTo .work first) :
    r.Passes s output (first ++ later) ↔ r.Passes s output later := by
  constructor
  · rintro (⟨standard, same⟩ | ⟨special, ready, approves⟩)
    · exact .compared standard same
    · exact .approved special ready ((SpecialJudge.approves_append aside).1 approves)
  · rintro (⟨standard, same⟩ | ⟨special, ready, approves⟩)
    · exact .compared standard same
    · exact .approved special ready ((SpecialJudge.approves_append aside).2 approves)

theorem undecided_append (aside : KeepsTo .work first) :
    r.Undecided s (first ++ later) ↔ r.Undecided s later := by
  constructor
  · rintro (none | ⟨ready, fails⟩)
    · exact .missing none
    · exact .failed ready ((SpecialJudge.fails_append aside).1 fails)
  · rintro (none | ⟨ready, fails⟩)
    · exact .missing none
    · exact .failed ready ((SpecialJudge.fails_append aside).2 fails)

/-- What comes of an output, by what was exchanged about it. -/
structure Decided (s : SandboxSettings) (r : Run) (output : Sandbox.Output) (past : Traffic)
    (result : TestCaseResult) : Prop where
  index : result.index = r.index
  rates : Rates r.mode result.verdict result.points
  accepted_iff : result.verdict = .accepted ↔ Clean r.limits output ∧ r.Passes s output past
  unknown_iff : result.verdict = .unknown ↔
    Clean r.limits output ∧ r.mode = .special ∧ r.Undecided s past
  aside : KeepsTo .judge past

theorem decided_of_path (path : Path (resultOf s r output) past (done result)) :
    r.Decided s output past result := by
  unfold resultOf at path
  dsimp only at path
  split at path
  · rename_i verdict limited
    obtain ⟨rfl, rfl⟩ := path.of_done
    obtain ⟨unaccepted, known⟩ := refused_of_limitVerdict limited
    have unclean : ¬ Clean r.limits output := fun clean => by
      rw [limitVerdict_of_clean clean] at limited
      cases limited
    exact ⟨rfl, rates_none unaccepted, iff_of_false unaccepted fun h => unclean h.1,
      iff_of_false known fun h => unclean h.1, keepsTo_nil⟩
  · rename_i none
    have clean := clean_of_limitVerdict none
    split at path
    · rename_i judge special ready
      obtain ⟨ruling, checks, last, rfl, checked, ended⟩ := path.of_bind
      obtain ⟨rfl, rfl⟩ := ended.of_done
      rw [List.append_nil]
      have ruled := SpecialJudge.ruled_of_path checked
      refine ⟨rfl, special ▸ ruled.rates, ruled.accepted_iff.trans ?_, ruled.unknown_iff.trans ?_,
        ruled.aside⟩
      · constructor
        · exact fun approves => ⟨clean, .approved special ready approves⟩
        · rintro ⟨-, ⟨standard, -⟩ | ⟨-, ready', approves⟩⟩
          · exact absurd special standard
          · cases ready.symm.trans ready'
            exact approves
      · constructor
        · exact fun fails => ⟨clean, special, .failed ready fails⟩
        · rintro ⟨-, -, none | ⟨ready', fails⟩⟩
          · cases ready.symm.trans none
          · cases ready.symm.trans ready'
            exact fails
    · rename_i special missing
      obtain ⟨rfl, rfl⟩ := path.of_done
      refine ⟨rfl, rates_none nofun, ⟨nofun, ?_⟩, ⟨fun _ => ⟨clean, special, .missing missing⟩, fun _ => rfl⟩,
        keepsTo_nil⟩
      rintro ⟨-, ⟨standard, -⟩ | ⟨-, ready, -⟩⟩
      · exact absurd special standard
      · cases missing.symm.trans ready
    · rename_i unready unjudged
      have standard : r.mode ≠ .special := fun special => by
        cases ready : r.judge with
        | none => exact unjudged special ready
        | some judge => exact unready judge special ready
      have decided : ¬ (Clean r.limits output ∧ r.mode = .special ∧ r.Undecided s past) :=
        fun h => standard h.2.1
      split at path
      · rename_i same
        obtain ⟨rfl, rfl⟩ := path.of_done
        exact ⟨rfl, ⟨iff_of_true rfl rfl, UInt32.le_refl _, fun _ refused => absurd rfl refused⟩,
          iff_of_true rfl ⟨clean, .compared standard same⟩, iff_of_false nofun decided, keepsTo_nil⟩
      · rename_i other
        obtain ⟨rfl, rfl⟩ := path.of_done
        refine ⟨rfl, rates_none nofun, iff_of_false nofun ?_, iff_of_false nofun decided, keepsTo_nil⟩
        rintro ⟨-, ⟨-, same⟩ | ⟨special, -, -⟩⟩
        · exact other same
        · exact standard special

/-- The request that writes the input of a run. -/
abbrev inputWrite (r : Run) : Work.Request := .write .work (toString r.index ++ ".in") r.case.input

/-- The input is written, the program comes to a clean end on it, and its output is right. -/
inductive Accepts (s : SandboxSettings) (r : Run) (past : Traffic) : Prop
  | right {output : Sandbox.Output} (written : ⟨r.inputWrite, Except.ok ()⟩ ∈ past)
    (used : Used (r.spec s) (.ok output) past) (clean : Clean r.limits output)
    (passes : r.Passes s output past)

/-- Nothing can be said of the program: its input is not written, its sandbox fails before the time is
up, or it comes to a clean end where a special judge is asked for and does not decide. -/
inductive Unknown (s : SandboxSettings) (r : Run) (past : Traffic) : Prop
  | unwritten {fault : Workspace.Fault} (refused : ⟨r.inputWrite, Except.error fault⟩ ∈ past)
  | unrun {fault : Sandbox.Fault} (used : Used (r.spec s) (.error fault) past)
    (early : ∀ budget, fault ≠ .timeout budget)
  | unjudged {output : Sandbox.Output} (used : Used (r.spec s) (.ok output) past)
    (clean : Clean r.limits output) (special : r.mode = .special) (undecided : r.Undecided s past)

/-- What the result of a run says, by what was exchanged for it. -/
structure Classified (s : SandboxSettings) (r : Run) (past : Traffic) (result : TestCaseResult) : Prop where
  index : result.index = r.index
  rates : Rates r.mode result.verdict result.points
  accepted_iff : result.verdict = .accepted ↔ r.Accepts s past
  late : ∀ budget, Used (r.spec s) (.error (.timeout budget)) past →
    result.verdict = .timeLimitExceeded ∧ result.timeMs = r.limits.timeMs
  unknown_iff : result.verdict = .unknown ↔ r.Unknown s past

theorem classified_unwritten {fault : Workspace.Fault} (message : String) :
    r.Classified s [⟨r.inputWrite, Except.error fault⟩] (.stamped r.index .unknown message) where
  index := rfl
  rates := rates_none nofun
  accepted_iff := by
    refine iff_of_false nofun ?_
    rintro ⟨written, -⟩
    cases List.mem_singleton.1 written
  late _ used := absurd used (not_used (List.forall_mem_singleton.2 nofun))
  unknown_iff := iff_of_true rfl (.unwritten List.mem_cons_self)

/-- What a run comes to once its input is written and its sandbox has ended. -/
theorem classified_of_ending (later : Traffic) {ending : Except Sandbox.Fault Sandbox.Output} {used : Traffic}
    (ran : Sandboxed (r.spec s) ending used) (aside : KeepsTo .judge later) (index : result.index = r.index)
    (rates : Rates r.mode result.verdict result.points)
    (accepted : result.verdict = .accepted ↔
      ∃ output, ending = .ok output ∧ Clean r.limits output ∧ r.Passes s output later)
    (late : ∀ budget, ending = .error (.timeout budget) →
      result.verdict = .timeLimitExceeded ∧ result.timeMs = r.limits.timeMs)
    (unknown : result.verdict = .unknown ↔
      (∃ fault, ending = .error fault ∧ ∀ budget, fault ≠ .timeout budget) ∨
      ∃ output, ending = .ok output ∧ Clean r.limits output ∧ r.mode = .special ∧ r.Undecided s later) :
    r.Classified s (⟨r.inputWrite, Except.ok ()⟩ :: (used ++ later)) result := by
  -- The program and the special judge keep to folders of their own, so what was exchanged for the one says
  -- nothing about the other.
  have apart : (r.spec s).folder ≠ .judge := nofun
  have written : ∀ e ∈ ([⟨r.inputWrite, Except.ok ()⟩] : Traffic), e.1 ≠ .launch (r.spec s) :=
    List.forall_mem_singleton.2 nofun
  have uses : ∀ other, Used (r.spec s) other (⟨r.inputWrite, Except.ok ()⟩ :: (used ++ later)) ↔
      other = ending :=
    fun _ => (used_append written).trans (ran.used_iff (aside.not_launch apart))
  have before : KeepsTo .work (⟨r.inputWrite, Except.ok ()⟩ :: used) :=
    List.forall_mem_cons.2 ⟨fun _ same => (Option.some.inj same).symm, ran.keepsTo⟩
  have passes : ∀ output, r.Passes s output (⟨r.inputWrite, Except.ok ()⟩ :: (used ++ later)) ↔
      r.Passes s output later := fun _ => passes_append before
  have undecided : r.Undecided s (⟨r.inputWrite, Except.ok ()⟩ :: (used ++ later)) ↔
      r.Undecided s later := undecided_append before
  refine ⟨index, rates, accepted.trans ⟨?_, ?_⟩, fun budget used => late budget ((uses _).1 used).symm,
    unknown.trans ⟨?_, ?_⟩⟩
  · rintro ⟨output, rfl, clean, right⟩
    exact ⟨List.mem_cons_self, (uses _).2 rfl, clean, (passes _).2 right⟩
  · rintro ⟨-, used, clean, right⟩
    exact ⟨_, ((uses _).1 used).symm, clean, (passes _).1 right⟩
  · rintro (⟨fault, rfl, early⟩ | ⟨output, rfl, clean, special, open_⟩)
    · exact .unrun ((uses _).2 rfl) early
    · exact .unjudged ((uses _).2 rfl) clean special (undecided.2 open_)
  · rintro (refused | ⟨used, early⟩ | ⟨used, clean, special, open_⟩)
    · rcases List.mem_cons.1 refused with same | elsewhere
      · cases same
      rcases List.mem_append.1 elsewhere with here | here
      · exact absurd rfl (ran.not_write _ here)
      · exact absurd rfl (aside.not_write (f := .work) nofun _ here)
    · exact .inl ⟨_, ((uses _).1 used).symm, early⟩
    · exact .inr ⟨_, ((uses _).1 used).symm, clean, special, undecided.1 open_⟩

theorem classified_of_path (path : Path (runCase s r) past (done result)) : r.Classified s past result := by
  obtain ⟨written, first, later, rfl, wrote, goesOn⟩ := path.of_bind
  obtain ⟨_, _, rfl, ended⟩ := wrote.of_ask
  obtain ⟨rfl, rfl⟩ := ended.of_done
  cases written with
  | error fault =>
    obtain ⟨rfl, rfl⟩ := goesOn.of_done
    exact classified_unwritten _
  | ok _ =>
    obtain ⟨ending, used, last, rfl, executed, judges⟩ := goesOn.of_bind
    have ran : Sandboxed (r.spec s) ending used := path_execute executed
    match ending with
    | .error (.timeout budget) =>
      obtain ⟨rfl, rfl⟩ := judges.of_done
      refine classified_of_ending [] ran keepsTo_nil rfl (rates_none nofun)
        (iff_of_false nofun nofun) (fun _ _ => ⟨rfl, rfl⟩) (iff_of_false nofun ?_)
      rintro (⟨fault, same, early⟩ | ⟨output, same, -⟩)
      · cases same
        exact early _ rfl
      · cases same
    | .error (.launch _) | .error (.runtime _) | .error (.io _) =>
      obtain ⟨rfl, rfl⟩ := judges.of_done
      exact classified_of_ending [] ran keepsTo_nil rfl (rates_none nofun)
        (iff_of_false nofun nofun) nofun (iff_of_true rfl (.inl ⟨_, rfl, nofun⟩))
    | .ok output =>
      have decided := decided_of_path judges
      refine classified_of_ending last ran decided.aside decided.index decided.rates
        (decided.accepted_iff.trans ⟨fun h => ⟨output, rfl, h⟩, ?_⟩) nofun
        (decided.unknown_iff.trans ⟨fun h => .inr ⟨output, rfl, h⟩, ?_⟩)
      · rintro ⟨_, same, right⟩
        cases same
        exact right
      · rintro (⟨_, same, -⟩ | ⟨_, same, undecided⟩)
        · cases same
        · cases same
          exact undecided

end Run

end Judging

end Arbiter
