import Arbiter.Judging.Case

/-! The usage that a program is charged with. Main statements: after whole lines of errors the line of
the wrapper counts, whatever those lines say, and a program over its time is told so; a last line that
the program leaves unfinished swallows the line of the wrapper, and then nothing is charged. -/

namespace Arbiter

namespace Text

/-- The text ends with a line feed, if it has any characters. -/
def Whole (s : String) : Prop := ∀ c, s.toList.getLast? = some c → c = '\n'

theorem linesOf_append (parts : List (List Char)) {rest : List (List Char)} (some_rest : rest ≠ []) :
    linesOf (parts ++ rest) = parts.map stripReturn ++ linesOf rest := by
  induction parts with
  | nil => rfl
  | cons line parts ih =>
    have more : parts ++ rest ≠ [] := List.append_ne_nil_of_right_ne_nil parts some_rest
    rw [List.cons_append, List.map_cons, List.cons_append, ← ih]
    generalize parts ++ rest = left at more
    cases left with
    | nil => exact absurd rfl more
    | cons => rfl

theorem lines_append {s : String} (whole : Whole s) (t : String) :
    lines (s ++ t) = lines s ++ lines t := by
  rcases List.eq_nil_or_concat s.toList with empty | ⟨start, last, chars⟩
  · rw [String.toList_eq_nil_iff.1 empty, String.empty_append]
    rfl
  · rw [List.concat_eq_append] at chars
    have feed : last = '\n' := whole last (by rw [chars, List.getLast?_concat])
    subst feed
    have split (rest : List Char) : (start ++ '\n' :: rest).splitOnP (· == '\n') =
        start.splitOnP (· == '\n') ++ rest.splitOnP (· == '\n') :=
      List.splitOnP_append_cons start rest rfl
    have some_parts (rest : List Char) : rest.splitOnP (· == '\n') ≠ [] := List.splitOnP_ne_nil _ _
    rw [lines, lines, lines, String.toList_append, chars, List.append_assoc, List.singleton_append,
      split, split, linesOf_append _ (some_parts _), linesOf_append _ (some_parts _)]
    simp [linesOf]

theorem splitOnP_feedless {line : List Char} (feedless : '\n' ∉ line) :
    line.splitOnP (· == '\n') = [line] :=
  List.splitOnP_eq_singleton fun _ here => beq_false_of_ne fun feed => feedless (feed ▸ here)

theorem lines_singleton {line : List Char} (feedless : '\n' ∉ line)
    (unreturned : line.getLast? ≠ some '\r') : lines (.ofList (line ++ ['\n'])) = [.ofList line] := by
  have kept : stripReturn line = line := by
    unfold stripReturn
    split
    · rename_i rest back
      rw [← List.head?_reverse, back] at unreturned
      exact absurd rfl unreturned
    · rfl
  rw [lines, String.toList_ofList, List.splitOnP_append_cons line [] rfl,
    splitOnP_feedless feedless]
  simp [linesOf, kept]

theorem lines_unfinished {line : List Char} (some_char : line ≠ []) (feedless : '\n' ∉ line) :
    lines (.ofList line) = [.ofList line] := by
  rw [lines, String.toList_ofList, splitOnP_feedless feedless]
  simp [linesOf, some_char]

/-- A text is whole lines and a last one that is unfinished, or missing. -/
theorem exists_whole_append (s : String) :
    ∃ start last, s = start ++ .ofList last ∧ Whole start ∧ '\n' ∉ last := by
  let feedless (c : Char) : Bool := c != '\n'
  refine ⟨.ofList (s.toList.reverse.dropWhile feedless).reverse,
    (s.toList.reverse.takeWhile feedless).reverse, ?_, ?_, ?_⟩
  · rw [← String.ofList_append, ← List.reverse_append, List.takeWhile_append_dropWhile,
      List.reverse_reverse, String.ofList_toList]
  · intro c last
    rw [String.toList_ofList, List.getLast?_reverse] at last
    have stopped := List.head?_dropWhile_not feedless s.toList.reverse
    rw [last] at stopped
    simpa [feedless] using stopped
  · intro here
    have taken := List.all_eq_true.1 List.all_takeWhile _ (List.mem_reverse.1 here)
    simp [feedless] at taken

end Text

namespace Sandbox

open Text (Whole isBlank)

/-- What the wrapper reports: numbers of seconds in two parts and of kilobytes, as it writes them. -/
structure Account where
  user : String
  system : String
  rss : String
  userSecs : Decimal
  systemSecs : Decimal
  blankless : ∀ c ∈ user.toList ++ system.toList ++ rss.toList, isBlank c = false
  reads_user : Decimal.ofString? user = some userSecs
  reads_system : Decimal.ofString? system = some systemSecs

namespace Account

variable (a : Account)

/-- The report without the marker. -/
def values : List Char := a.user.toList ++ ' ' :: (a.system.toList ++ ' ' :: a.rss.toList)

/-- The line that the wrapper appends. -/
def line : String := .ofList (usageMarker.toList ++ a.values ++ ['\n'])

/-- The usage that is reported. -/
def usage : Usage where
  userSecs := a.userSecs
  systemSecs := a.systemSecs
  maxRssKb := match Decimal.whole? UInt64.size a.rss with
    | .ok n => .ofNat n
    | .error _ => 0

theorem words_values : Text.words (.ofList a.values) =
    a.user :: a.system :: (if a.rss = "" then [] else [a.rss]) := by
  have whole (part : List Char)
      (inside : ∀ c ∈ part, c ∈ a.user.toList ++ a.system.toList ++ a.rss.toList) :
      part.splitOnP isBlank = [part] :=
    List.splitOnP_eq_singleton fun c here => a.blankless c (inside c here)
  have split : a.values.splitOnP isBlank = [a.user.toList, a.system.toList, a.rss.toList] := by
    rw [values, List.splitOnP_append_cons _ _ rfl, List.splitOnP_append_cons _ _ rfl,
      whole _ (by grind), whole _ (by grind), whole _ (by grind)]
    rfl
  have some_user : a.user ≠ "" := by
    intro empty
    have reads := a.reads_user
    rw [empty] at reads
    cases reads
  have some_system : a.system ≠ "" := by
    intro empty
    have reads := a.reads_system
    rw [empty] at reads
    cases reads
  rw [Text.words, Text.wordsOf, String.toList_ofList, split]
  by_cases empty : a.rss = ""
  · simp [some_user, some_system, empty]
  · simp [some_user, some_system, empty]

theorem ofString?_values : Usage.ofString? (.ofList a.values) = some a.usage := by
  rw [Usage.ofString?, words_values]
  dsimp only
  rw [a.reads_user, a.reads_system, usage]
  by_cases empty : a.rss = ""
  · rw [if_pos empty, empty]
    rfl
  · rw [if_neg empty]
    cases read : Decimal.whole? UInt64.size a.rss <;> simp [read]

theorem blankless_values {c : Char} (here : c ∈ a.values) : c = ' ' ∨ isBlank c = false := by
  have parts := a.blankless c
  grind [values]

theorem feedless : '\n' ∉ a.values := by
  intro here
  rcases a.blankless_values here with space | plain
  · cases space
  · cases plain

theorem unreturned : '\r' ∉ a.values := by
  intro here
  rcases a.blankless_values here with space | plain
  · cases space
  · cases plain

/-- What stands before the line of the wrapper without a line feed becomes a part of it. -/
theorem lines_append_line {last : List Char} (unfinished : '\n' ∉ last) :
    Text.lines (.ofList last ++ a.line) = [.ofList (last ++ usageMarker.toList ++ a.values)] := by
  have joined : String.ofList last ++ a.line =
      .ofList (last ++ usageMarker.toList ++ a.values ++ ['\n']) := by
    simp [line]
  have some_value : a.values ≠ [] := List.append_ne_nil_of_right_ne_nil _ (List.cons_ne_nil _ _)
  rw [joined, Text.lines_singleton]
  · have marker : '\n' ∉ usageMarker.toList := by decide
    simp [unfinished, marker, a.feedless]
  · rw [List.getLast?_append, List.getLast?_eq_some_getLast some_value, Option.some_or, ne_eq,
      Option.some.injEq]
    exact fun back => a.unreturned (back ▸ List.getLast_mem some_value)

end Account

theorem lastUsage?_concat (lines : List String) (line : String) :
    lastUsage? (lines ++ [line]) = ((afterMarker? line).bind Usage.ofString?).or (lastUsage? lines) := by
  rw [lastUsage?, lastUsage?, List.reverse_append, List.filterMap_append, List.findSome?_append]
  cases marked : afterMarker? line <;> simp [marked]

theorem lastUsage?_unmarked {lines : List String} (unmarked : ∀ line ∈ lines, afterMarker? line = none) :
    lastUsage? lines = none := by
  have nothing : lines.reverse.filterMap afterMarker? = [] :=
    List.filterMap_eq_nil_iff.2 fun line here => unmarked line (List.mem_reverse.1 here)
  rw [lastUsage?, nothing]
  rfl

theorem afterMarker?_marked (values : List Char) :
    afterMarker? (.ofList (usageMarker.toList ++ values)) = some (.ofList values) := by
  have starts : Text.startsWith (.ofList (usageMarker.toList ++ values)) usageMarker = true := by
    rw [Text.startsWith, String.toList_ofList, List.isPrefixOf_iff_prefix]
    exact List.prefix_append _ _
  rw [afterMarker?, if_pos starts, String.toList_ofList]
  exact congrArg (fun cs => some (String.ofList cs)) List.drop_left

/-- No part of a text without the marker at its front makes up a marker with one that follows. -/
theorem startsWith_unmarked {last : List Char} (some_char : last ≠ []) (values : List Char) :
    usageMarker.toList.isPrefixOf (last ++ usageMarker.toList ++ values) =
      usageMarker.toList.isPrefixOf last := by
  have letters : usageMarker.toList = ['T', 'I', 'M', 'E', ':'] := by decide
  rw [letters]
  -- the marker has five characters, and its first one does not occur in it again
  rcases last with _ | ⟨c₀, _ | ⟨c₁, _ | ⟨c₂, _ | ⟨c₃, _ | ⟨c₄, rest⟩⟩⟩⟩⟩
  · exact absurd rfl some_char
  all_goals simp [List.isPrefixOf]

theorem afterMarker?_unmarked {last : List Char} (some_char : last ≠ [])
    (unmarked : afterMarker? (.ofList last) = none) (values : List Char) :
    afterMarker? (.ofList (last ++ usageMarker.toList ++ values)) = none := by
  simp only [afterMarker?, Text.startsWith, String.toList_ofList, startsWith_unmarked some_char]
  simpa only [afterMarker?, Text.startsWith, String.toList_ofList, ite_eq_right_iff,
    reduceCtorEq] using unmarked

variable {own : String} (a : Account)

/-- After whole lines the line of the wrapper counts, whatever those lines say. -/
theorem splitErrors_whole (whole : Whole own) : (splitErrors (own ++ a.line)).1 = some a.usage := by
  have lines : Text.lines (own ++ a.line) =
      Text.lines own ++ [.ofList (usageMarker.toList ++ a.values)] := by
    have last := a.lines_append_line (List.not_mem_nil : '\n' ∉ [])
    rw [String.ofList_nil, String.empty_append, List.nil_append] at last
    rw [Text.lines_append whole, last]
  have last : lastUsage? (Text.lines (own ++ a.line)) = some a.usage := by
    rw [lines, lastUsage?_concat, afterMarker?_marked, Option.bind_some, a.ofString?_values,
      Option.some_or]
  rw [splitErrors, last]

/-- A last line that is unfinished swallows the line of the wrapper: where the program wrote no
marker itself, no usage is found, whatever the wrapper reports. -/
theorem splitErrors_unfinished (unfinished : ¬ Whole own)
    (unmarked : ∀ line ∈ Text.lines own, afterMarker? line = none) :
    (splitErrors (own ++ a.line)).1 = none := by
  obtain ⟨start, last, rfl, whole, feedless⟩ := Text.exists_whole_append own
  have some_char : last ≠ [] := by
    rintro rfl
    rw [String.ofList_nil, String.append_empty] at unfinished
    exact unfinished whole
  rw [Text.lines_append whole, Text.lines_unfinished some_char feedless] at unmarked
  have swallowed : Text.lines (start ++ .ofList last ++ a.line) =
      Text.lines start ++ [.ofList (last ++ usageMarker.toList ++ a.values)] := by
    rw [String.append_assoc, Text.lines_append whole, a.lines_append_line feedless]
  have nothing : lastUsage? (Text.lines (start ++ .ofList last ++ a.line)) = none := by
    rw [swallowed]
    refine lastUsage?_unmarked fun line here => ?_
    rcases List.mem_append.1 here with before | joined
    · exact unmarked line (List.mem_append_left _ before)
    · rw [List.mem_singleton.1 joined]
      refine afterMarker?_unmarked some_char (unmarked _ ?_) a.values
      exact List.mem_append_right _ (List.mem_singleton_self _)
  rw [splitErrors, nothing]

end Sandbox

namespace Judging

open Text (Whole)

/-- A run that is charged more time than its limit is told so, whatever else came out of it. -/
theorem resultOf_over_time (s : SandboxSettings) (r : Run) {output : Sandbox.Output}
    {usage : Sandbox.Usage} (charged : (Sandbox.splitErrors output.stderr).1 = some usage)
    (late : r.limits.timeMs < usage.cpuMs) :
    ∃ result, resultOf s r output = pure result ∧ result.verdict = .timeLimitExceeded ∧
      result.points = 0 ∧ result.timeMs = usage.cpuMs := by
  obtain ⟨error, split⟩ : ∃ error, Sandbox.splitErrors output.stderr = (some usage, error) :=
    ⟨_, Prod.ext charged rfl⟩
  have limit (memoryKb : Nat) : limitVerdict? r.limits usage.cpuMs memoryKb output =
      some .timeLimitExceeded := if_pos late
  unfold resultOf
  rw [split]
  simp only [Option.elim_some, limit]
  exact ⟨_, rfl, rfl, rfl, rfl⟩

/-- A program whose errors end with a line feed cannot hide that it took too long, whatever its exit
code, its output and the way it is judged. -/
theorem resultOf_whole_errors (s : SandboxSettings) (r : Run) {output : Sandbox.Output} {own : String}
    (whole : Whole own) (a : Sandbox.Account) (errors : output.stderr = own ++ a.line)
    (late : r.limits.timeMs < a.usage.cpuMs) :
    ∃ result, resultOf s r output = pure result ∧ result.verdict = .timeLimitExceeded ∧
      result.points = 0 ∧ result.timeMs = a.usage.cpuMs := by
  refine resultOf_over_time s r ?_ late
  rw [errors]
  exact Sandbox.splitErrors_whole a whole

end Judging

end Arbiter
