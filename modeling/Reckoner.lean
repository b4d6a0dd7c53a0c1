import Reckoner.Expr.Assembly
import Reckoner.Expr.Leaves
import Reckoner.Main
import Reckoner.Report.Log
import Reckoner.Token.Sharing
import Reckoner.Tree.Cursor
import Reckoner.Proofs.Line.Blanks
import Reckoner.Proofs.Line.Group
import Reckoner.Proofs.Line.Meaning
import Reckoner.Proofs.Tree.Earliest
import Reckoner.Proofs.Tree.Layout
import Reckoner.Proofs.Tree.Missing
import Reckoner.Proofs.Tree.Stray
import Reckoner.Proofs.Token.Munch
import Reckoner.Proofs.Token.Sharing
import Reckoner.Proofs.Token.Places
import Reckoner.Proofs.Tree.Stretch
import Reckoner.Proofs.Tree.Allowance
import Reckoner.Proofs.Tree.Requests
import Reckoner.Proofs.Tree.Span
import Reckoner.Proofs.Expr.Walk
import Reckoner.Proofs.Expr.Words
import Reckoner.Proofs.Session.Report
import Reckoner.Proofs.Command.Agreement
import Reckoner.Proofs.Expr.Exact
import Reckoner.Proofs.Tree.Mended
import Reckoner.Proofs.Expr.Traversal
import Reckoner.Proofs.Line.Rendering
import Reckoner.Proofs.Settings.Section
import Reckoner.Proofs.Settings.Load
import Reckoner.Proofs.Numeral.Decoding
