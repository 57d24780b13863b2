import Emend.Buffer.Glyphs
import Emend.Command.Together
import Emend.Command.Written
import Emend.Document.Replay
import Emend.Document.Typing
import Emend.Highlight.Trace
import Emend.Main
import Emend.Pattern.Closed
import Emend.Pattern.Grammar
import Emend.Pattern.Meaning
import Emend.Pattern.Preference
import Emend.Proofs.Command.Edits
import Emend.Proofs.Command.Failing
import Emend.Proofs.Command.Gathering
import Emend.Proofs.Highlight.Remembered
import Emend.Proofs.Pattern.Agreement
import Emend.Proofs.Session.Highlighting
import Emend.Proofs.Session.OneStep
import Emend.Proofs.Session.StaleMark
import Emend.Proofs.Session.UndoLog
import Emend.Text.Brackets
import Emend.Text.Embedding
import Emend.Text.Lines
import Emend.Proofs.Buffer.Operations
import Emend.Proofs.Document.Selections
import Emend.Proofs.Session.Registered
import Emend.Proofs.Pattern.Backward
import Emend.Proofs.Pattern.Anchored
import Emend.Proofs.Session.Listening
import Emend.Proofs.Session.Protected
import Emend.Proofs.Pattern.Derivation
import Emend.Proofs.Session.Reopening
import Emend.Proofs.Pattern.Groups
import Emend.Proofs.Document.Following
import Emend.Proofs.Session.Inverse
import Emend.Proofs.Session.Displaced
import Emend.Proofs.Address.Searching
import Emend.Proofs.Command.Substituting
import Emend.Proofs.Command.SubstitutionAsLoop
import Emend.Proofs.Command.Visiting
import Emend.Proofs.Command.Template
import Emend.Proofs.Document.Stretches
import Emend.Proofs.Address.Lines
import Emend.Proofs.Command.Transferring
import Emend.Proofs.Command.EachLine
import Emend.Proofs.Address.LinesAhead
import Emend.Proofs.Command.Covering
import Emend.Proofs.Session.Reloading
import Emend.Proofs.Pattern.Fuzzy
import Emend.Proofs.Text.Brackets
import Emend.Proofs.Text.Runs
import Emend.Proofs.Command.Written
import Emend.Proofs.Command.Leaving
import Emend.Proofs.Highlight.Regions
import Emend.Pattern.Checked
import Emend.Pattern.Openings
import Emend.Proofs.Command.Addressed
import Emend.Proofs.Command.References
import Emend.Proofs.Highlight.RegionEnds
import Emend.Proofs.Pattern.Checked
