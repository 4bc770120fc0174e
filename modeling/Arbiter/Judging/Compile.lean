import Arbiter.Settings
import Arbiter.Text.Blank
import Arbiter.Work.Request

/-! Compiling a program in a sandbox. -/

namespace Arbiter

open Sandbox (Folder Spec)

/-- The sandbox for a step under the given settings. No sandbox has access to the network. -/
def SandboxSettings.spec (s : SandboxSettings) (image : String) (command : List String)
    (folder : Folder) (readOnly : Bool) (memoryLimitMb : UInt32) (wallTimeout : Duration) : Spec :=
  { image, command, folder, mountPoint := s.mountPoint, readOnly, memoryLimitMb, wallTimeout
    networkDisabled := true, user := s.user }

namespace Judging

/-- The program and the arguments of a command, which the gate has found free of quotes. -/
def arguments (command : String) : List String := Text.words command

/-- The product, or the largest number of 32 bits where it is larger. -/
def cappedProduct (a b : UInt32) : UInt32 := .ofNat (min (a.toNat * b.toNat) (UInt32.size - 1))

inductive CompileOutcome
  | compiled
  /-- The code is at fault, or the verdict is that nothing is known. -/
  | failed (verdict : Verdict) (message : String)
deriving DecidableEq

/-- Runs the compile command of a language on a folder, if the language has one. -/
def compile (s : SandboxSettings) (language : Language) (folder : Folder) (memoryLimitMb : UInt32) :
    Work CompileOutcome := do
  match language.compileCommand with
  | none => return .compiled
  | some command =>
    let spec := s.spec language.image (arguments command) folder false
      (cappedProduct memoryLimitMb s.compileMemoryFactor) s.compileTimeout
    match ← Work.execute spec with
    | .error (.timeout budget) =>
      return .failed .compileError ("Compilation did not finish within " ++ budget.text)
    | .error fault => return .failed .unknown ("Compile sandbox error: " ++ fault.message)
    | .ok output =>
      if output.exitCode ≠ 0 then
        let said := if (Text.trim output.stderr).isEmpty then output.stdout else output.stderr
        return .failed .compileError said
      else
        match language.compileArtifact with
        | none => return .compiled
        | some artifact =>
          if ← Work.holds folder artifact then return .compiled
          else return .failed .compileError "Compiler did not produce an executable."

end Judging

end Arbiter
