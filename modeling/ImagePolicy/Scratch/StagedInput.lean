/-
# Staged input

The document that rule engines evaluate: the statements of some attestations, in a file of a scratch
directory of its own. The directory is removed when the input is released.

Key definitions: `StagedInput`, `inputDocument`, `StagedInput.stage`, `StagedInput.release`.
-/
import ImagePolicy.Scratch.Disk
import ImagePolicy.Attestation.Record
import ImagePolicy.Json.Printer

namespace ImagePolicy

/-- A document in a scratch directory. -/
structure StagedInput where
  directory : Path
  deriving DecidableEq, Repr

/-- The document of some attestations. -/
def inputDocument (as : List Attestation) : Json.Value :=
  .object [("attestations", .list (as.map Attestation.statement))]

namespace StagedInput

/-- The name of the file. -/
def fileName : String := "input.json"

/-- The file of the document. -/
def path (s : StagedInput) : Path := s.directory ++ [fileName]

/-- The bytes of the document of some attestations. -/
def bytes (as : List Attestation) : Bytes :=
  Utf8.encode (Json.render (inputDocument as))

/-- Puts the document of some attestations into a new scratch directory. -/
def stage (as : List Attestation) (d : Disk) : StagedInput × Disk :=
  let (directory, d) := d.makeScratch "custos-input-"
  let s : StagedInput := ⟨directory⟩
  (s, d.put s.path (.file (bytes as)))

/-- Removes the scratch directory. -/
def release (s : StagedInput) (d : Disk) : Disk :=
  d.removeTree s.directory

end StagedInput
end ImagePolicy
