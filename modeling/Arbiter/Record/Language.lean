import Arbiter.Json.Decode
import Arbiter.Text.Lowercase

/-! Languages: how programs of one are compiled and run. -/

namespace Arbiter

structure Language where
  id : Int64
  name : String
  /-- The ending of source files, with its point. -/
  fileExt : String
  compileCommand : Option String
  /-- A file that compiling has to leave behind. -/
  compileArtifact : Option String
  runCommand : String
  /-- The image of the sandboxes. -/
  image : String
  timeLimitMs : UInt32
  memoryLimitMb : UInt32
deriving DecidableEq

namespace Language

def sourceFile (l : Language) : String := "main" ++ l.fileExt

/-- Dependence graphs are made of programs in these languages. -/
def isPython (l : Language) : Bool :=
  "python".toList.isPrefixOf (Text.lowercase l.name).toList || l.fileExt == ".py"

def encode (l : Language) : Json :=
  .object [
    ("id", .ofInt l.id.toInt), ("name", .string l.name), ("file_ext", .string l.fileExt),
    ("compile_command", .ofOption .string l.compileCommand),
    ("compile_artifact", .ofOption .string l.compileArtifact),
    ("run_command", .string l.runCommand), ("image", .string l.image),
    ("time_limit_ms", .ofNat l.timeLimitMs.toNat),
    ("memory_limit_mb", .ofNat l.memoryLimitMb.toNat)]

def decode? (j : Json) : Option Language := do
  let fs ← j.fieldsOf? ["id", "name", "file_ext", "compile_command", "compile_artifact",
    "run_command", "image", "time_limit_ms", "memory_limit_mb"]
  return {
    id := ← fs.required "id" Json.toInt64?
    name := ← fs.required "name" Json.toString?
    fileExt := ← fs.required "file_ext" Json.toString?
    compileCommand := ← fs.withDefault "compile_command" (Json.toOption? Json.toString?) none
    compileArtifact := ← fs.withDefault "compile_artifact" (Json.toOption? Json.toString?) none
    runCommand := ← fs.required "run_command" Json.toString?
    image := ← fs.required "image" Json.toString?
    timeLimitMs := ← fs.required "time_limit_ms" Json.toUInt32?
    memoryLimitMb := ← fs.required "memory_limit_mb" Json.toUInt32? }

end Language

end Arbiter
