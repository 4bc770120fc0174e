import Arbiter.Command.Gate
import Arbiter.Proofs.Judging.Usage
import Mathlib.Data.List.Infix
import Mathlib.Data.List.TakeWhile

/-! What a command that passes the gate holds and what it may still hold. Main statements: without the
blanks around it the command is one line, with none of the characters that the gate looks for; but a line
feed at its end passes, and so does whatever follows a lone mark of the shell that the gate does not look
for, as long as it names no program that does harm. -/

namespace Arbiter

namespace Text

section Trim

variable {before after : List Char}

theorem exists_trim (s : String) : ∃ before after : List Char, (∀ c ∈ before, isBlank c = true) ∧
    (∀ c ∈ after, isBlank c = true) ∧ s.toList = before ++ (trim s).toList ++ after := by
  refine ⟨s.toList.takeWhile isBlank, ((trimStart s).toList.reverse.takeWhile isBlank).reverse,
    fun c here => List.all_eq_true.1 List.all_takeWhile c here,
    fun c here => List.all_eq_true.1 List.all_takeWhile c (List.mem_reverse.1 here), ?_⟩
  have back : (trimStart s).toList = (trim s).toList ++
      ((trimStart s).toList.reverse.takeWhile isBlank).reverse := by
    rw [trim, trimEnd, String.toList_ofList, ← List.reverse_append, List.takeWhile_append_dropWhile,
      List.reverse_reverse]
  rw [List.append_assoc, ← back, trimStart, String.toList_ofList, List.takeWhile_append_dropWhile]

theorem trim_eq_self {s : String} (first : ∀ c, s.toList.head? = some c → isBlank c = false)
    (last : ∀ c, s.toList.getLast? = some c → isBlank c = false) : trim s = s := by
  have kept : ∀ cs : List Char, (∀ c, cs.head? = some c → isBlank c = false) →
      cs.dropWhile isBlank = cs := by
    intro cs stops
    cases cs with
    | nil => rfl
    | cons c cs => rw [List.dropWhile_cons_of_neg (by simp [stops c rfl])]
  have start : trimStart s = s := by rw [trimStart, kept _ first, String.ofList_toList]
  rw [trim, start, trimEnd, kept _ (by rwa [List.head?_reverse]), List.reverse_reverse,
    String.ofList_toList]

theorem not_isBlank_of_first {s : String} {c : Char} (first : (trim s).toList.head? = some c) :
    isBlank c = false := by
  have start : (trim s).toList <+: s.toList.dropWhile isBlank := by
    rw [trim, trimEnd, trimStart, String.toList_ofList, String.toList_ofList,
      ← List.reverse_suffix, List.reverse_reverse]
    exact List.dropWhile_suffix isBlank
  obtain ⟨rest, split⟩ := start
  have stopped := List.head?_dropWhile_not isBlank s.toList
  rw [← split, List.head?_append, first] at stopped
  simpa using stopped

theorem not_isBlank_of_last {s : String} {c : Char} (last : (trim s).toList.getLast? = some c) :
    isBlank c = false := by
  rw [trim, trimEnd, String.toList_ofList, List.getLast?_reverse] at last
  have stopped := List.head?_dropWhile_not isBlank (trimStart s).toList.reverse
  rw [last] at stopped
  simpa using stopped

theorem trim_trim (s : String) : trim (trim s) = trim s :=
  trim_eq_self (fun _ => not_isBlank_of_first) fun _ => not_isBlank_of_last

theorem trim_surrounded (front : ∀ c ∈ before, isBlank c = true) (back : ∀ c ∈ after, isBlank c = true)
    (s : String) : trim (.ofList before ++ s ++ .ofList after) = trim s := by
  have start : ∀ cs : List Char, (before ++ cs).dropWhile isBlank = cs.dropWhile isBlank :=
    fun _ => List.dropWhile_append_of_pos front
  have back : ∀ c ∈ after.reverse, isBlank c = true := fun c here => back c (List.mem_reverse.1 here)
  rw [trim, trim, trimEnd, trimEnd, trimStart, trimStart]
  simp only [String.toList_append, String.toList_ofList, List.append_assoc, start]
  rw [List.dropWhile_append]
  split
  · rename_i all
    have none : s.toList.dropWhile isBlank = [] := List.isEmpty_iff.1 all
    have rest : after.dropWhile isBlank = [] :=
      List.dropWhile_eq_nil_iff.2 fun c here => back c (List.mem_reverse.2 here)
    rw [none, rest]
  · rw [List.reverse_append, List.dropWhile_append_of_pos back]

end Trim

theorem lines_of_feedless {s : String} (some_char : s ≠ "") (feedless : '\n' ∉ s.toList) :
    lines s = [s] := by
  have one := lines_unfinished (mt String.toList_eq_nil_iff.1 some_char) feedless
  rwa [String.ofList_toList] at one

theorem lines_feed {s : String} (feedless : '\n' ∉ s.toList)
    (unreturned : s.toList.getLast? ≠ some '\r') : lines (s ++ "\n") = [s] := by
  have one := lines_singleton feedless unreturned
  rwa [String.ofList_append, String.ofList_toList] at one

theorem hasPart_iff {part cs : List Char} : hasPart part cs = true ↔ part <:+: cs := by
  induction cs with
  | nil => rw [hasPart, List.isEmpty_iff, List.infix_nil]
  | cons c cs ih =>
    rw [hasPart, Bool.or_eq_true, List.isPrefixOf_iff_prefix, ih, List.infix_cons_iff]

/-- A part without the character between two texts lies in one of them. -/
theorem infix_or_infix {part a b : List Char} {x : Char} (apart : x ∉ part)
    (h : part <:+: a ++ x :: b) : part <:+: a ∨ part <:+: b := by
  have at_start : ∀ l : List Char, part <+: l ++ x :: b → part <+: l := by
    intro l start
    have cut : l ++ [x] <+: l ++ x :: b := ⟨b, by rw [List.append_assoc, List.singleton_append]⟩
    rcases List.prefix_or_prefix_of_prefix start cut with short | long
    · rcases List.prefix_concat_iff.1 short with whole | inside
      · exact absurd (whole ▸ List.mem_append_right l (List.mem_singleton_self x)) apart
      · exact inside
    · exact absurd (long.subset (List.mem_append_right l (List.mem_singleton_self x))) apart
  induction a with
  | nil =>
    rcases List.infix_cons_iff.1 h with start | later
    · exact .inl (at_start [] start).isInfix
    · exact .inr later
  | cons c a ih =>
    rcases List.infix_cons_iff.1 h with start | later
    · exact .inl (at_start (c :: a) start).isInfix
    · exact (ih later).imp_left List.infix_cons

end Text

namespace Command

/-- The text holds none of what the gate looks for. -/
structure Harmless (text : String) : Prop where
  partless : ∀ part ∈ forbiddenParts, ¬ part.toList <:+: text.toList
  nameless : ∀ name ∈ names text, name ∉ forbiddenWords

/-- What the gate asks of a command that has no blanks around it. -/
structure Fit (command : String) : Prop extends Harmless command where
  some_char : command ≠ ""
  starts : allowed ((Text.words command).headD "") = true

theorem check_eq_ok_iff {command : String} : check command = .ok () ↔ Fit (Text.trim command) := by
  have parts : forbiddenParts.find? (Text.contains (Text.trim command)) = none ↔
      ∀ part ∈ forbiddenParts, ¬ part.toList <:+: (Text.trim command).toList := by
    simp only [List.find?_eq_none, Text.contains, Text.hasPart_iff]
  have programs : (names (Text.trim command)).find? (forbiddenWords.contains ·) = none ↔
      ∀ name ∈ names (Text.trim command), name ∉ forbiddenWords := by
    simp only [List.find?_eq_none, List.contains_iff_mem]
  constructor
  · intro passes
    simp only [check] at passes
    split at passes
    · cases passes
    · rename_i some_char
      split at passes
      · cases passes
      · rename_i no_part
        split at passes
        · cases passes
        · rename_i no_name
          split at passes
          · rename_i starts
            exact ⟨⟨parts.1 no_part, programs.1 no_name⟩, fun empty => some_char (by rw [empty]; rfl),
              starts⟩
          · cases passes
  · intro fit
    have some_char : (Text.trim command).isEmpty = false := by
      rw [String.isEmpty_eq_false_iff]
      exact fit.some_char
    simp only [check, some_char, parts.2 fit.partless, programs.2 fit.nameless, fit.starts]
    rfl

/-- The blanks around a command do not count, line feeds among them. -/
theorem check_surrounded (before after : List Char) (front : ∀ c ∈ before, Text.isBlank c = true)
    (back : ∀ c ∈ after, Text.isBlank c = true) (command : String) :
    check (.ofList before ++ command ++ .ofList after) = check command := by
  rw [check, check, Text.trim_surrounded front back]

theorem check_trim (command : String) : check (Text.trim command) = check command := by
  rw [check, check, Text.trim_trim]

/-- No character that the gate looks for stands in a command that passes, once it is trimmed. -/
theorem mark_notMem (mark : Char) (forbidden : mark.toString ∈ forbiddenParts) {command : String}
    (passes : check command = .ok ()) : mark ∉ (Text.trim command).toList := by
  intro here
  refine (check_eq_ok_iff.1 passes).partless _ forbidden ?_
  rw [Char.toString, String.toList_singleton, List.singleton_infix_iff]
  exact here

/-- Untrimmed, a command that passes may hold line feeds, but no other character that the gate looks
for. -/
theorem mark_notMem_of_visible (mark : Char) (forbidden : mark.toString ∈ forbiddenParts)
    (visible : Text.isBlank mark = false) {command : String} (passes : check command = .ok ()) :
    mark ∉ command.toList := by
  obtain ⟨before, after, front, back, split⟩ := Text.exists_trim command
  have outside : ¬ Text.isBlank mark = true := by simp [visible]
  intro here
  rw [split, List.mem_append, List.mem_append] at here
  obtain (first | inside) | last := here
  · exact outside (front mark first)
  · exact mark_notMem mark forbidden passes inside
  · exact outside (back mark last)

theorem Fit.exists_last {command : String} (h : Fit command) :
    ∃ c, command.toList.getLast? = some c := by
  have some_char : command.toList.getLast? ≠ none := by
    rw [ne_eq, List.getLast?_eq_none_iff, String.toList_eq_nil_iff]
    exact h.some_char
  exact Option.ne_none_iff_exists'.1 some_char

/-! What the gate does not look for. -/

theorem Harmless.append {a b : String} (ha : Harmless a) (hb : Harmless b) :
    Harmless (a ++ " " ++ b) := by
  have chars : (a ++ " " ++ b).toList = a.toList ++ ' ' :: b.toList := by
    rw [String.toList_append, String.toList_append, List.append_assoc]
    rfl
  refine ⟨fun part listed inside => ?_, fun name listed => ?_⟩
  · have apart : ' ' ∉ part.toList := by
      have known : forbiddenParts.all (fun part => !part.toList.contains ' ') = true := by decide
      have here := List.all_eq_true.1 known part listed
      simpa using here
    rw [chars] at inside
    rcases Text.infix_or_infix apart inside with here | here
    · exact ha.partless part listed here
    · exact hb.partless part listed here
  · rw [names, chars, List.splitOnP_append_cons _ _ (by decide), List.map_append, List.mem_append]
      at listed
    exact listed.elim (ha.nameless name) (hb.nameless name)

/-- Marks of the shell's own language that the gate does not look for. -/
def openMarks : List String := ["&", "(", ")"]

theorem harmless_mark {mark : String} (h : mark ∈ openMarks) : Harmless mark := by
  have parts : openMarks.all (fun mark => forbiddenParts.all fun part =>
      !Text.contains mark part) = true := by decide
  have programs : openMarks.all (fun mark => mark.toList.all (!separates ·) &&
      !forbiddenWords.contains mark) = true := by decide
  have passed := List.all_eq_true.1 parts mark h
  have program := List.all_eq_true.1 programs mark h
  rw [Bool.and_eq_true] at program
  have unlisted : mark ∉ forbiddenWords := by simpa using program.2
  refine ⟨fun part listed inside => ?_, fun name listed => ?_⟩
  · have none := List.all_eq_true.1 passed part listed
    rw [Text.contains, Text.hasPart_iff.2 inside] at none
    cases none
  · have one : mark.toList.splitOnP separates = [mark.toList] :=
      List.splitOnP_eq_singleton fun c here => by simpa using List.all_eq_true.1 program.1 c here
    rw [names, one, List.map_singleton, String.ofList_toList, List.mem_singleton] at listed
    exact listed ▸ unlisted

theorem words_append (a b : String) : Text.words (a ++ " " ++ b) = Text.words a ++ Text.words b := by
  have chars : (a ++ " " ++ b).toList = a.toList ++ ' ' :: b.toList := by
    rw [String.toList_append, String.toList_append, List.append_assoc]
    rfl
  rw [Text.words, Text.wordsOf, chars, List.splitOnP_append_cons _ _ (by decide), List.filter_append,
    List.map_append]
  rfl

/-- The gate judges a command by its first word, and looks for harm only in what follows. -/
theorem Fit.append {a b : String} (ha : Fit a) (hb : Harmless b) : Fit (a ++ " " ++ b) := by
  refine ⟨ha.toHarmless.append hb, ?_, ?_⟩
  · intro empty
    exact ha.some_char (by simp at empty)
  · have some_word : Text.words a ≠ [] := by
      intro none
      have starts := ha.starts
      rw [none] at starts
      cases starts
    rw [words_append]
    obtain ⟨first, rest, split⟩ := List.exists_cons_of_ne_nil some_word
    have starts := ha.starts
    rw [split] at starts ⊢
    exact starts

/-- Two commands that pass also pass with a mark between them that the gate does not look for: as
with `&`, with which the shell runs the first one in the background and then the second. -/
theorem check_marked {first second mark : String} (passes : check first = .ok ())
    (passes_second : check second = .ok ()) (h : mark ∈ openMarks) :
    check (Text.trim first ++ " " ++ (mark ++ " " ++ Text.trim second)) = .ok () := by
  have start := check_eq_ok_iff.1 passes
  have rest := check_eq_ok_iff.1 passes_second
  have fit := start.append ((harmless_mark h).append rest.toHarmless)
  rw [check_eq_ok_iff, Text.trim_eq_self]
  · exact fit
  · intro c here
    obtain ⟨d, more, chars⟩ := List.exists_cons_of_ne_nil
      (mt String.toList_eq_nil_iff.1 start.some_char)
    rw [String.toList_append, String.toList_append, List.append_assoc, List.head?_append, chars] at here
    cases here
    exact Text.not_isBlank_of_first (s := first) (by rw [chars]; rfl)
  · intro c here
    obtain ⟨d, last⟩ := rest.exists_last
    rw [← String.append_assoc, String.toList_append, List.getLast?_append, last] at here
    cases here
    exact Text.not_isBlank_of_last last

example : check "python3 main.py & ls" = .ok () := by decide +kernel

end Command

namespace Sandbox

open Command (check)

variable {command input : String}

/-- What the shell of the sandbox runs for a command, up to where the input is named. -/
def timed (command : String) : String := "/usr/bin/time -f '" ++ usageMarker ++ "%U %S %M' " ++ command

theorem wrapCommand_eq (command input : String) :
    wrapCommand command input = ["sh", "-c", timed command ++ " < " ++ input] := rfl

theorem feed_notMem_timed (passes : check command = .ok ()) :
    '\n' ∉ (timed (Text.trim command)).toList := by
  unfold timed
  rw [String.toList_append, List.mem_append, not_or]
  have start : '\n' ∉ ("/usr/bin/time -f '" ++ usageMarker ++ "%U %S %M' ").toList := by
    simp [usageMarker]
  exact ⟨start, Command.mark_notMem '\n' (by simp [Command.forbiddenParts]) passes⟩

theorem feed_notMem_input (feedless : '\n' ∉ input.toList) : '\n' ∉ (" < " ++ input).toList := by
  rw [String.toList_append, List.mem_append, not_or]
  exact ⟨by decide, feedless⟩

/-- What the shell runs is one line, for a command that passes and has no blanks around it. -/
theorem lines_wrapCommand (passes : check command = .ok ()) (feedless : '\n' ∉ input.toList) :
    ∃ script, wrapCommand (Text.trim command) input = ["sh", "-c", script] ∧
      Text.lines script = [script] := by
  refine ⟨_, wrapCommand_eq _ _, ?_⟩
  have one : '\n' ∉ (timed (Text.trim command) ++ (" < " ++ input)).toList := by
    rw [String.toList_append, List.mem_append, not_or]
    exact ⟨feed_notMem_timed passes, feed_notMem_input feedless⟩
  rw [← String.append_assoc] at one
  exact Text.lines_of_feedless (by simp) one

/-- A line feed at the end of a command that passes also passes, and cuts the input off: the command is
one line of what the shell runs, and reading the input is another one. -/
theorem lines_wrapCommand_feed (passes : check command = .ok ()) (feedless : '\n' ∉ input.toList) :
    check (Text.trim command ++ "\n") = .ok () ∧
      ∃ script, wrapCommand (Text.trim command ++ "\n") input = ["sh", "-c", script] ∧
        Text.lines script = [timed (Text.trim command), " < " ++ input] := by
  constructor
  · have blank : ∀ c ∈ ['\n'], Text.isBlank c = true := fun c here => by
      rw [List.mem_singleton.1 here]
      decide
    have same := Command.check_surrounded [] ['\n'] nofun blank (Text.trim command)
    rw [String.ofList_nil, String.empty_append] at same
    exact same.trans ((Command.check_trim command).trans passes)
  · refine ⟨_, wrapCommand_eq _ _, ?_⟩
    have fed : timed (Text.trim command ++ "\n") = timed (Text.trim command) ++ "\n" :=
      (String.append_assoc ..).symm
    have whole : Text.Whole (timed (Text.trim command) ++ "\n") := by
      intro c last
      simpa using last.symm
    have unreturned : (timed (Text.trim command)).toList.getLast? ≠ some '\r' := by
      obtain ⟨c, last⟩ := (Command.check_eq_ok_iff.1 passes).exists_last
      unfold timed
      rw [String.toList_append, List.getLast?_append, last]
      rintro ⟨⟩
      exact absurd (Text.not_isBlank_of_last last) (by decide)
    rw [fed, String.append_assoc, Text.lines_append whole, Text.lines_feed
      (feed_notMem_timed passes) unreturned, Text.lines_of_feedless (by simp)
      (feed_notMem_input feedless)]
    rfl

end Sandbox

end Arbiter
