import Abacus.Env.Lemmas
import Abacus.Main
import Abacus.Proofs.CommandLine.Modes
import Abacus.Proofs.Eval.Frame
import Abacus.Proofs.Eval.Shape
import Abacus.Proofs.Eval.Types
import Abacus.Proofs.Eval.WellFormed
import Abacus.Proofs.Eval.Wraparound
import Abacus.Proofs.Grammar
import Abacus.Proofs.Grammar.Unambiguous
import Abacus.Proofs.Number.Binary64
import Abacus.Proofs.Number.Layout
import Abacus.Proofs.Number.Shortest
import Abacus.Proofs.Number.TwosComplement
import Abacus.Proofs.Parser.Allocation
import Abacus.Proofs.Parser.Completeness
import Abacus.Proofs.Parser.Language
import Abacus.Proofs.Parser.Lookahead
import Abacus.Proofs.Parser.Numeral
import Abacus.Proofs.Parser.Rendering
import Abacus.Proofs.Parser.Settling
import Abacus.Proofs.Parser.Shape
import Abacus.Proofs.Parser.Soundness
import Abacus.Proofs.Session.Block
import Abacus.Proofs.Session.Concatenation
import Abacus.Proofs.Session.Continuation
import Abacus.Proofs.Session.Dialogue
import Abacus.Proofs.Session.Errors
import Abacus.Proofs.Session.History
import Abacus.Proofs.Session.Output
import Abacus.Proofs.Session.ReadFailure
import Abacus.Proofs.Session.Types
import Abacus.Proofs.Text.Digit
import Abacus.Proofs.Text.Quoted
import Abacus.Proofs.Token.Accounting
import Abacus.Proofs.Token.Comment
import Abacus.Proofs.Token.Continuation
import Abacus.Proofs.Token.Layout
import Abacus.Proofs.Token.Lookahead
import Abacus.Proofs.Token.Lossless
import Abacus.Proofs.Token.ReadFailure
import Abacus.Proofs.Token.ReadNumber
import Abacus.Proofs.Token.ReadToken
import Abacus.Proofs.Token.Reader
import Abacus.Proofs.Token.Separation
import Abacus.Proofs.Token.Spelling
import Abacus.Proofs.Token.StringLiteral
import Abacus.Proofs.Tree.Printer
import Abacus.Proofs.Tree.Sharing
import Abacus.Proofs.Tree.Statement
import Abacus.Proofs.Tree.Visits
import Abacus.Proofs.Tree.WellFormed
