/-
# The command line

Reads the files that the arguments refer to, answers the request, and prints. Workspaces that are
kept are written to the scratch directory in the end.

This is the outer layer. The answer is `CommandLine.answer`, of which theorems speak, for any host;
the host put in here starts rule engines in a shell of its own (`Shell.host`), of which none does.
-/
import ImagePolicy.CommandLine.Answer
import ImagePolicy.Shell.Host
import Std.Time.DateTime.Timestamp

namespace ImagePolicy
namespace CommandLine

/-- The files that a request refers to. -/
def Request.files : Request → List String
  | .classify r =>
    r.policy :: r.attestations.toList ++ r.rules ++
      (match r.source with
        | .file path => [path]
        | .engine _ _ => [])
  | .attestationTime path => [path]
  | _ => []

/-- The instant of the system's clock. -/
def clock : IO Instant := do
  let now ← Std.Time.Timestamp.now
  let nanos := now.toNanosecondsSinceUnixEpoch.val
  return ⟨nanos / nanosPerSecond, (nanos % nanosPerSecond).toNat⟩

/-- A disk with those of the files that can be read. -/
def loadFiles (paths : List String) : IO Disk :=
  paths.foldlM (fun (d : Disk) (path : String) => do
    try
      let content ← IO.FS.readBinFile path
      return d.install path content.toList
    catch _ => return d) Disk.blank

/-- Writes what is left in the scratch directory. -/
def keepFiles (d : Disk) : IO Unit :=
  d.entries.forM fun (path, node) => do
    if Disk.within Disk.scratchDirectory path then
      match node with
      | .directory => IO.FS.createDirAll (Path.text path)
      | .file content => IO.FS.writeBinFile (Path.text path) ⟨content.toArray⟩
      | .null => return ()

/-- The variables that rule engines are told of, if they are set. -/
def toldVariables : List String := ["PATH", "HOME", "LANG", "TMPDIR", "USER", keepVariable]

/-- The variables that rule engines are told of, with their values. -/
def environment : IO (List (String × String)) :=
  toldVariables.filterMapM fun name => return (← IO.getEnv name).map fun value => (name, value)

end CommandLine
end ImagePolicy

open ImagePolicy CommandLine in
/-- Answers the request of the arguments. -/
def main (args : List String) : IO UInt32 := do
  let keep ← IO.getEnv keepVariable
  let request := Request.read keep args
  let a := answer (Shell.host (← environment)) (← clock) request (← loadFiles request.files)
  keepFiles a.disk
  IO.print a.output
  if let some error := a.error then IO.eprintln ("Error: " ++ error)
  return a.status.toUInt32
