import ExerciseAudit.Main
import ExerciseAudit.Proofs.Path.Join
import ExerciseAudit.Proofs.Path.Order
import ExerciseAudit.Proofs.FileTree.Resolution
import ExerciseAudit.Proofs.Text.Ascii
import ExerciseAudit.Proofs.Discovery
import ExerciseAudit.Proofs.Decimal.Binary64
import ExerciseAudit.Proofs.Json.Token
import ExerciseAudit.Proofs.Json.Figure
import ExerciseAudit.Proofs.Json.Magnitude
import ExerciseAudit.Proofs.Json.Reader
import ExerciseAudit.Proofs.Json.Skip
import ExerciseAudit.Proofs.Json.Ordinary
import ExerciseAudit.Proofs.Manifest.Read
import ExerciseAudit.Proofs.Manifest.Members
import ExerciseAudit.Proofs.Manifest.Declared
import ExerciseAudit.Proofs.Manifest.Decode
import ExerciseAudit.Proofs.Audit.Account
import ExerciseAudit.Proofs.Audit.Obligation
import ExerciseAudit.Proofs.Audit.Order
import ExerciseAudit.Proofs.Audit.Dependence
import ExerciseAudit.Proofs.Audit.Isolation
import ExerciseAudit.Proofs.FileTree.Content
import ExerciseAudit.Proofs.Audit.Scope
import ExerciseAudit.Proofs.Run.Settings
import ExerciseAudit.Proofs.Run.Modes
import ExerciseAudit.Proofs.Json.Cause
import ExerciseAudit.Proofs.Manifest.Refusal
import ExerciseAudit.Proofs.Report.Wording
import ExerciseAudit.Proofs.Run.Lines
import ExerciseAudit.Proofs.Audit.Tally
import ExerciseAudit.Proofs.Heading
import ExerciseAudit.Proofs.Audit.Appending
import ExerciseAudit.Proofs.Json.Alike
import ExerciseAudit.Proofs.Manifest.Respelling
import ExerciseAudit.Proofs.Audit.Respelling
import ExerciseAudit.Proofs.Path.Relative
import ExerciseAudit.Proofs.FileTree.Root
import ExerciseAudit.Proofs.Audit.Root
import ExerciseAudit.Proofs.Json.Grammar
import ExerciseAudit.Proofs.Manifest.Grammar
import ExerciseAudit.Proofs.Text.Utf8
import ExerciseAudit.Proofs.Json.Printing
import ExerciseAudit.Proofs.Report.Document
import ExerciseAudit.Proofs.FileTree.Trail
import ExerciseAudit.Proofs.Config.Selection
import ExerciseAudit.Proofs.Text.Styled
import ExerciseAudit.Proofs.Run.Colour
import ExerciseAudit.Proofs.Heading.Grammar
import ExerciseAudit.Proofs.Json.Fault
import ExerciseAudit.Proofs.Audit.Misfit
import ExerciseAudit.Proofs.Audit.Naming
import ExerciseAudit.Proofs.Audit.Growth
import ExerciseAudit.Proofs.Audit.Base
import ExerciseAudit.Proofs.Heading.LineEnds
import ExerciseAudit.Proofs.Audit.LineEnds
import ExerciseAudit.Proofs.Manifest.Fields
import ExerciseAudit.Proofs.Manifest.Unknown
import ExerciseAudit.Proofs.Manifest.Shape
import ExerciseAudit.Proofs.Json.Extent
import ExerciseAudit.Proofs.Manifest.Extent
import ExerciseAudit.Proofs.Audit.Refusal
