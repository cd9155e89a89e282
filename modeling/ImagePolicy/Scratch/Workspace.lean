/-
# Evaluation workspaces

A scratch directory for one evaluation, with a directory for rules and one for data. The
configuration that rules see is written into the latter. Once released, a workspace is gone,
unless it was asked to be retained; releasing it again does nothing.

Key definitions: `Workspace`, `Workspace.create`, `Workspace.writeConfig?`, `Workspace.release`.
-/
import ImagePolicy.Scratch.Disk
import ImagePolicy.Policy.RuleConfig

namespace ImagePolicy

/-- A scratch directory for one evaluation. -/
structure Workspace where
  root : Path
  retain : Bool
  held : Bool
  deriving DecidableEq, Repr

namespace Workspace

/-- The directory that rules are put in. -/
def policyDirectory (w : Workspace) : Path := w.root ++ ["policy"]

/-- The directory that data documents are put in. -/
def dataDirectory (w : Workspace) : Path := w.root ++ ["data"]

/-- The file of the configuration. -/
def configFile (w : Workspace) : Path := w.dataDirectory ++ ["config.json"]

/-- Makes a workspace with its two directories. -/
def create (retain : Bool) (d : Disk) : Workspace × Disk :=
  let (root, d) := d.makeScratch "custos-"
  let w : Workspace := ⟨root, retain, true⟩
  (w, (d.put w.policyDirectory .directory).put w.dataDirectory .directory)

/-- The bytes of the configuration of a context. -/
def configBytes (c : PolicyContext) : Bytes :=
  Utf8.encode (RuleConfig.ofContext c).text

/-- Writes the configuration of a context over an earlier one, if the workspace is there. -/
def writeConfig? (w : Workspace) (c : PolicyContext) (d : Disk) : Option Disk :=
  d.write? w.configFile (configBytes c)

/-- Lets go of a workspace: it is removed unless it is to be retained. -/
def release (w : Workspace) (d : Disk) : Workspace × Disk :=
  if w.held then ({ w with held := false }, if w.retain then d else d.removeTree w.root) else (w, d)

end Workspace
end ImagePolicy
