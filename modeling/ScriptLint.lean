import ScriptLint.Report
import ScriptLint.Vocabulary.Data
import ScriptLint.Proofs.Document.Move
import ScriptLint.Proofs.Document.Order
import ScriptLint.Proofs.Document.Rest
import ScriptLint.Proofs.Document.Outline
import ScriptLint.Proofs.Document.RoundTrip
import ScriptLint.Proofs.Document.Shape
import ScriptLint.Proofs.Faultless
import ScriptLint.Proofs.Document.Renumber
import ScriptLint.Proofs.Renumber
import ScriptLint.Proofs.Document.Resume
import ScriptLint.Proofs.Resynchronize
import ScriptLint.Proofs.Document.Mark
import ScriptLint.Proofs.Document.Record
import ScriptLint.Proofs.Document.Account
import ScriptLint.Proofs.Document.Drop
import ScriptLint.Proofs.Document.Pair
import ScriptLint.Proofs.Document.Supply
import ScriptLint.Proofs.Document.Gather
import ScriptLint.Proofs.Document.Container
import ScriptLint.Proofs.Argument.Layout
import ScriptLint.Proofs.Command.Issues
import ScriptLint.Proofs.Command.Flow
import ScriptLint.Proofs.Document.Rescale
import ScriptLint.Proofs.Reindent
import ScriptLint.Proofs.Invisible
import ScriptLint.Proofs.Vocabulary.Larger
import ScriptLint.Proofs.Tag.Expression
import ScriptLint.Proofs.Tag.RoundTrip
import ScriptLint.Proofs.Container.Finding
import ScriptLint.Proofs.Container.Course
import ScriptLint.Proofs.Container.Data
import ScriptLint.Proofs.Located
import ScriptLint.Proofs.Isolation
import ScriptLint.Proofs.Contentless
import ScriptLint.Proofs.Command.Introduction
import ScriptLint.Proofs.Tag.Recase
import ScriptLint.Proofs.Command.Recase
import ScriptLint.Proofs.Covered
import ScriptLint.Proofs.Document.Nesting
import ScriptLint.Proofs.Tag.Tally
import ScriptLint.Proofs.Tag.Region
import ScriptLint.Proofs.Tag.Cut
import ScriptLint.Proofs.Tag.Nested
import ScriptLint.Proofs.Container.Placed
import ScriptLint.Proofs.Container.Outermost
import ScriptLint.Proofs.Tag.Split
import ScriptLint.Proofs.Tag.Layout
import ScriptLint.Proofs.Diagnostic.Folded
import ScriptLint.Proofs.KeyPattern
import ScriptLint.Proofs.Container.Section
import ScriptLint.Proofs.Yaml.Escape
import ScriptLint.Proofs.Vocabulary.Shapes
import ScriptLint.Proofs.ScriptType.Derivation
import ScriptLint.Proofs.Document.Widths
import ScriptLint.Proofs.Tag.Depth
import ScriptLint.Proofs.LineBreaks
