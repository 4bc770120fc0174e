import Arbiter.Text.Blank
import Arbiter.Text.Part
import Arbiter.Text.Quoted

/-! The gate that command lines pass before a language is registered. A command may start with a few
programs only and holds neither a character of the shell's own language nor the name of a program
that does harm. -/

namespace Arbiter.Command

/-- What a command may start with. -/
def allowedStarts : List String :=
  ["gcc", "g++", "python", "python3", "timeout", "/usr/bin/time", "./"]

/-- What no command contains, in the order in which it is looked for. -/
def forbiddenParts : List String := [";", "&&", "|", "\x60", "$(", ">", ">>", "<", "\n"]

/-- Programs that no word of a command names. -/
def forbiddenWords : List String :=
  ["rm", "shutdown", "reboot", "mkfs", "dd", "kill", "init", "telnet", "ftp", "nc", "ncat", "wget",
    "curl", "scp", "chmod", "chown", "echo", "cat", "nano", "vi", "docker", "mount", "umount", "sh",
    "bash"]

/-- Why a command is turned down. -/
inductive Rejection
  | empty
  | forbiddenPart (part : String)
  | forbiddenWord (word : String)
  | notAllowed
deriving DecidableEq

def Rejection.message : Rejection → String
  | empty => "command is empty"
  | forbiddenPart part => "command contains forbidden sequence \x60" ++ part ++ "\x60"
  | forbiddenWord word => "command invokes forbidden program \x60" ++ word ++ "\x60"
  | notAllowed =>
    "command must start with one of ["
      ++ ", ".intercalate (allowedStarts.map Text.quoted) ++ "]"

/-- The characters between the names in a command. -/
def separates (c : Char) : Bool := Text.isBlank c || c == '/' || c == '='

/-- The names in a command, among them empty ones. -/
def names (command : String) : List String :=
  (command.toList.splitOnP separates).map .ofList

/-- The program may be invoked: it is one of the allowed ones, a version of one, or lies in an
allowed directory. -/
def allowed (program : String) : Bool :=
  allowedStarts.any fun start =>
    program == start || start.toList.getLast? == some '/' && Text.startsWith program start
      || Text.startsWith program (start ++ ".")

/-- Whether a command passes; the blanks around it do not count. -/
def check (command : String) : Except Rejection Unit :=
  let command := Text.trim command
  if command.isEmpty then .error .empty
  else
    match forbiddenParts.find? (Text.contains command) with
    | some part => .error (.forbiddenPart part)
    | none =>
      match (names command).find? (forbiddenWords.contains ·) with
      | some word => .error (.forbiddenWord word)
      | none =>
        if allowed ((Text.words command).headD "") then .ok () else .error .notAllowed

/-- A step that does not exist needs no command. -/
def checkStep : Option String → Except Rejection Unit
  | some command => check command
  | none => .ok ()

end Arbiter.Command
