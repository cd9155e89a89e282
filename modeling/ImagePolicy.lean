import ImagePolicy.Main
import ImagePolicy.Pipeline.Run
import ImagePolicy.Proofs.Rule.Reading
import ImagePolicy.Proofs.Rule.Partition
import ImagePolicy.Proofs.Attestation.Counting
import ImagePolicy.Proofs.Attestation.Governing
import ImagePolicy.Proofs.Reference.Digest
import ImagePolicy.Proofs.Pipeline.Replies
import ImagePolicy.Proofs.Pipeline.Admission
import ImagePolicy.Proofs.Pipeline.Calls
import ImagePolicy.Proofs.Pipeline.Influence
import ImagePolicy.Proofs.Text.Digits
import ImagePolicy.Proofs.Time.Calendar
import ImagePolicy.Proofs.Time.WholeSeconds
import ImagePolicy.Proofs.Pipeline.Gates
import ImagePolicy.Proofs.Pipeline.Endings
import ImagePolicy.Proofs.Pipeline.Errors
import ImagePolicy.Proofs.Pipeline.GoverningTime
import ImagePolicy.Proofs.CommandLine.Printing
import ImagePolicy.Proofs.CommandLine.Reproduction
import ImagePolicy.Proofs.CommandLine.Verdict
import ImagePolicy.Proofs.Text.Cuts
import ImagePolicy.Proofs.Reference.RoundTrip
import ImagePolicy.Proofs.Text.Encoding
import ImagePolicy.Proofs.Json.Strings
import ImagePolicy.Proofs.Json.Numbers
import ImagePolicy.Proofs.Json.RoundTrip
import ImagePolicy.Proofs.Json.Nesting
import ImagePolicy.Proofs.Json.Indented
import ImagePolicy.Proofs.Record.Rows
import ImagePolicy.Proofs.Record.RoundTrip
import ImagePolicy.Proofs.Scratch.Disk
import ImagePolicy.Proofs.Scratch.Workspaces
import ImagePolicy.Proofs.Pipeline.Evidence
import ImagePolicy.Proofs.Pipeline.Reordering
import ImagePolicy.Proofs.Pipeline.Isolation
import ImagePolicy.Proofs.Pipeline.Canonical
import ImagePolicy.Proofs.Pipeline.Leftovers
import ImagePolicy.Proofs.Rule.Selection
import ImagePolicy.Proofs.Rule.Entry
import ImagePolicy.Proofs.Policy.RuleTime
import ImagePolicy.Proofs.Pipeline.Judgement
import ImagePolicy.Proofs.Rule.Instants
import ImagePolicy.Proofs.Rule.Rounds
import ImagePolicy.Proofs.Scratch.RuleFiles
import ImagePolicy.Proofs.Record.Forms
import ImagePolicy.Proofs.Text.Boundaries
import ImagePolicy.Proofs.Reference.Cuts
import ImagePolicy.Proofs.Reference.Grammar
import ImagePolicy.Proofs.Reference.Registry
import ImagePolicy.Proofs.Text.DigitOrder
import ImagePolicy.Proofs.Time.DateForms
import ImagePolicy.Proofs.Time.DayOrder
import ImagePolicy.Proofs.Time.ExactDates
import ImagePolicy.Proofs.Rule.Onset
import ImagePolicy.Proofs.Json.Documents
import ImagePolicy.Proofs.Time.TimeForms
import ImagePolicy.Proofs.Attestation.BuildTimes
import ImagePolicy.Proofs.Attestation.Shape
import ImagePolicy.Proofs.Rule.Contract
import ImagePolicy.Proofs.Policy.RuleDocument
import ImagePolicy.Proofs.Scratch.Lifetime
import ImagePolicy.Proofs.Policy.Occurrences
import ImagePolicy.Proofs.Policy.Construction
import ImagePolicy.Proofs.Time.Printing
import ImagePolicy.Proofs.Record.Reports
