import Assay.Analysis
import Assay.Command.Run
import Assay.Command.Terminal
import Assay.Main
import Assay.Parsing.Session
import Assay.Proofs.Parsing.Completeness
import Assay.Proofs.Phases
import Assay.Proofs.Usage.Phrase
import Assay.Reader
import Assay.Typing.Snapshots
import Assay.Proofs.Parsing.Nesting
import Assay.Proofs.Layout.Alike
import Assay.Proofs.Layout.Checking
import Assay.Proofs.Layout.Parsing
import Assay.Proofs.Layout.Analysis
import Assay.Proofs.Printing.Canonical
import Assay.Proofs.Printing.RoundTrip
import Assay.Proofs.Typing.Frame
import Assay.Proofs.Typing.Lineage
import Assay.Proofs.Typing.Stack
import Assay.Proofs.Token.Lossless
import Assay.Proofs.Parsing.Extension
import Assay.Proofs.Parsing.Agreement
import Assay.Proofs.Parsing.Earliest
import Assay.Proofs.Usage.Nodes
import Assay.Proofs.Tree.Names
import Assay.Proofs.Typing.Renaming
import Assay.Proofs.Typing.Locality
import Assay.Proofs.Typing.Absence
import Assay.Proofs.Parsing.Spans
import Assay.Proofs.Token.Longest
import Assay.Proofs.Token.Seam
import Assay.Proofs.Parsing.Progress
import Assay.Proofs.Parsing.Ending
import Assay.Proofs.Parsing.Session
import Assay.Proofs.Text.Lines
import Assay.Proofs.Diagnostic.Caret
import Assay.Proofs.Tree.Regular
import Assay.Proofs.Parsing.Regular
