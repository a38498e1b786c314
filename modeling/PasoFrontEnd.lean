import PasoFrontEnd.Main
import PasoFrontEnd.Proofs.Grammar.Calls
import PasoFrontEnd.Proofs.Grammar.Precedence
import PasoFrontEnd.Proofs.Grammar.Readback
import PasoFrontEnd.Proofs.Grammar.Viability
import PasoFrontEnd.Proofs.Layout.Canonical
import PasoFrontEnd.Proofs.Layout.Openings
import PasoFrontEnd.Proofs.Source.BlankLines
import PasoFrontEnd.Proofs.Source.Comments
import PasoFrontEnd.Proofs.Source.FinalNewline
import PasoFrontEnd.Proofs.Source.LineEnds
import PasoFrontEnd.Proofs.Source.Outlines
import PasoFrontEnd.Proofs.Source.Reindentation
import PasoFrontEnd.Proofs.Grammar.Height
import PasoFrontEnd.Proofs.Grammar.Alternatives
import PasoFrontEnd.Proofs.Scan.Order
import PasoFrontEnd.Proofs.Source.Order
import PasoFrontEnd.Proofs.Explorer.Session
import PasoFrontEnd.Proofs.Explorer.Drawing
import PasoFrontEnd.Proofs.Explorer.Following
import PasoFrontEnd.Proofs.Explorer.Jump
import PasoFrontEnd.Proofs.Explorer.Scrolling
import PasoFrontEnd.Proofs.Scan.Lexeme
import PasoFrontEnd.Proofs.Grammar.Depth
import PasoFrontEnd.Proofs.Explorer.Highlighting
import PasoFrontEnd.Proofs.Grammar.Begun
import PasoFrontEnd.Proofs.Scan.Traces
import PasoFrontEnd.Proofs.Source.Widths
import PasoFrontEnd.Proofs.Grammar.Looks
import PasoFrontEnd.Proofs.Source.Tracking
