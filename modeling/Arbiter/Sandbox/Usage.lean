import Arbiter.Decimal.Basic
import Arbiter.Text.Blank
import Arbiter.Text.Part

/-! The time that a program takes, as the wrapper around it reports: after the program's own errors
comes one line with a marker, the seconds and the memory. -/

namespace Arbiter.Sandbox

/-- The start of the line with the report. -/
def usageMarker : String := "TIME:"

/-- Other lines that the wrapper writes. -/
def wrapperNotes : List String :=
  ["Command exited with non-zero status", "Command terminated by signal"]

structure Usage where
  /-- Seconds in the program itself. -/
  userSecs : Decimal
  /-- Seconds in the system on its behalf. -/
  systemSecs : Decimal
  maxRssKb : UInt64
deriving DecidableEq

namespace Usage

/-- The seconds of both kinds in whole milliseconds, at most `2 ^ 32 - 1` of them. -/
def cpuMs (u : Usage) : UInt32 :=
  ((u.userSecs.toFloat + u.systemSecs.toFloat) * 1000.0).round.toUInt32

/-- The usage after the marker. The memory may be missing or unreadable, the seconds may not. -/
def ofString? (values : String) : Option Usage :=
  match Text.words values with
  | user :: system :: rest => do
    let rss := rest.head?.map (Decimal.whole? UInt64.size)
    return {
      userSecs := ← Decimal.ofString? user
      systemSecs := ← Decimal.ofString? system
      maxRssKb := match rss with
        | some (.ok n) => .ofNat n
        | _ => 0 }
  | _ => none

end Usage

/-- The command that runs a program on an input file and reports its usage. -/
def wrapCommand (runCommand inputFile : String) : List String :=
  ["sh", "-c",
    "/usr/bin/time -f '" ++ usageMarker ++ "%U %S %M' " ++ runCommand ++ " < " ++ inputFile]

/-- What a line with the marker says after it. -/
def afterMarker? (line : String) : Option String :=
  if Text.startsWith line usageMarker then
    some (.ofList (line.toList.drop usageMarker.length))
  else none

/-- The last usage that the lines report. -/
def lastUsage? (lines : List String) : Option Usage :=
  (lines.reverse.filterMap afterMarker?).findSome? Usage.ofString?

/-- The usage in a text of errors, and what the program itself wrote. A text without usage is all
the program's own. -/
def splitErrors (stderr : String) : Option Usage × String :=
  let lines := Text.lines stderr
  match lastUsage? lines with
  | none => (none, stderr)
  | some usage =>
    let own := lines.filter fun line =>
      (afterMarker? line).isNone && !wrapperNotes.any (Text.startsWith line)
    (some usage, "\n".intercalate own)

end Arbiter.Sandbox
