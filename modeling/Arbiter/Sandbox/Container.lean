import Arbiter.Decimal.Basic
import Arbiter.Sandbox.Spec
import Arbiter.Text.Blank

/-! Containers that serve as sandboxes: the arguments that start one, and the text in which the
memory in use is reported. -/

namespace Arbiter.Sandbox

/-- The arguments that start a container on a directory of the host. The image and the command come
last. -/
def Spec.runArgs (hostDir : String) (s : Spec) : List String :=
  let memory := toString s.memoryLimitMb.toNat ++ "m"
  let volume := hostDir ++ ":" ++ s.mountPoint ++ if s.readOnly then ":ro" else ""
  ["run", "-d", "--user", s.user, "--memory", memory, "--memory-swap", memory, "-v", volume, "-w",
    s.mountPoint]
    ++ (if s.networkDisabled then ["--network", "none"] else [])
    ++ s.image :: s.command

/-- The size of a unit in units of 1024 bytes. -/
def unitKb? : String → Option Float
  | "B" => some (1.0 / 1024.0)
  | "KiB" => some 1.0
  | "kB" | "KB" => some (1000.0 / 1024.0)
  | "MiB" => some 1024.0
  | "MB" => some (1000.0 * 1000.0 / 1024.0)
  | "GiB" => some (1024.0 * 1024.0)
  | "GB" => some (1000.0 * 1000.0 * 1000.0 / 1024.0)
  | _ => none

/-- The memory in use, in units of 1024 bytes, from a column such as `12.5MiB / 256MiB`. -/
def memoryInUse? (column : String) : Option UInt64 := do
  let used := (Text.trim (.ofList (column.toList.takeWhile (· != '/')))).toList
  let value := used.takeWhile (!·.isAlpha)
  let unit := used.drop value.length
  if unit.isEmpty then none
  else
    let value ← Decimal.ofString? (Text.trim (.ofList value))
    let factor ← unitKb? (Text.trim (.ofList unit))
    return (value.toFloat * factor).round.toUInt64

end Arbiter.Sandbox
