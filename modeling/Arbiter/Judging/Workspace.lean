import Arbiter.Sandbox.Spec

/-! The working directory of a judging pass. It holds files and, once a special judge is prepared,
one directory inside of it for that judge's own files. -/

namespace Arbiter

open Sandbox (Folder)

namespace Workspace

/-- Why a file or directory cannot be made. -/
inductive Fault
  | notFound
  | alreadyThere
  | notDirectory
  | isDirectory
  | nameTooLong
  | nulInName
deriving DecidableEq

def Fault.message : Fault → String
  | notFound => "No such file or directory (os error 2)"
  | alreadyThere => "File exists (os error 17)"
  | notDirectory => "Not a directory (os error 20)"
  | isDirectory => "Is a directory (os error 21)"
  | nameTooLong => "File name too long (os error 36)"
  | nulInName => "file name contained an unexpected NUL byte"

/-- Files with their contents. -/
abbrev Files := List (String × String)

/-- The files with one more, or with new contents of one. -/
def putFile (files : Files) (name contents : String) : Files :=
  if (files.lookup name).isSome then
    files.map fun f => if f.1 == name then (name, contents) else f
  else files ++ [(name, contents)]

/-- The parts of a path between slashes. -/
def pathParts (path : String) : List String :=
  (path.toList.splitOnP (· == '/')).map .ofList

/-- The longest name of a file, in bytes. -/
def nameLimit : Nat := 255

/-- Why no file can be written under a name, in a directory with the given files and without
directories. -/
def writeFault? (files : Files) (name : String) : Option Fault :=
  if name.toList.contains '\x00' then some .nulInName
  else
    match pathParts name with
    | [] => none
    | first :: rest =>
      if nameLimit < first.utf8ByteSize then some .nameTooLong
      else if rest.isEmpty then none
      else if rest.all (·.isEmpty) then some .isDirectory
      else if (files.lookup first).isSome then some .notDirectory
      else some .notFound

end Workspace

structure Workspace where
  label : String
  files : Workspace.Files
  /-- The directory of the special judge. -/
  judgeFiles : Option Workspace.Files

namespace Workspace

def empty (label : String) : Workspace := ⟨label, [], none⟩

/-- The name of the special judge's directory. -/
def judgeFolderName : String := "spj"

def filesIn (w : Workspace) : Folder → Files
  | .work => w.files
  | .judge => w.judgeFiles.getD []

def setFiles (w : Workspace) (folder : Folder) (files : Files) : Workspace :=
  match folder with
  | .work => { w with files }
  | .judge => { w with judgeFiles := some files }

/-- Where a folder lies, from the directory that all passes share. -/
def path (w : Workspace) : Folder → String
  | .work => w.label
  | .judge => w.label ++ "/" ++ judgeFolderName

/-- Writes a file, over one of the same name. -/
def write (w : Workspace) (folder : Folder) (name contents : String) :
    Except Fault Unit × Workspace :=
  match writeFault? (w.filesIn folder) name with
  | some fault => (.error fault, w)
  | none => (.ok (), w.setFiles folder (putFile (w.filesIn folder) name contents))

/-- Makes the special judge's directory, if it is not there. -/
def makeJudgeFolder (w : Workspace) : Except Fault Unit × Workspace :=
  if (w.files.lookup judgeFolderName).isSome then (.error .alreadyThere, w)
  else (.ok (), { w with judgeFiles := some (w.judgeFiles.getD []) })

/-- The path leads to something in the folder. -/
def holds (w : Workspace) (folder : Folder) (path : String) : Bool :=
  match pathParts path with
  | [name] =>
    ["", ".", ".."].contains name || ((w.filesIn folder).lookup name).isSome
      || folder = .work && name == judgeFolderName && w.judgeFiles.isSome
  | "." :: name :: [] => name.isEmpty || ((w.filesIn folder).lookup name).isSome
  | _ => false

end Workspace

end Arbiter
