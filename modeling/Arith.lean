import Arith.Location
import Arith.Text.Ranges
import Arith.Text.Printable
import Arith.Text.DecimalDigit
import Arith.Text.Blank
import Arith.Text.Quoted
import Arith.Text.Aligned
import Arith.Text.Decimal
import Arith.Token
import Arith.Scanner
import Arith.Scanner.Command
import Arith.Level
import Arith.Tree
import Arith.Grammar
import Arith.Tree.Printer
import Arith.Tree.Outline
import Arith.NodeGraph
import Arith.Diagnostic
import Arith.SyntaxError
import Arith.Parser
import Arith.Parser.Expression
import Arith.Parser.Nodes
import Arith.Session
import Arith.Repl
import Arith.CommandLine
import Arith.Program
import Arith.Main
import Arith.Proofs.TokenStream
import Arith.Proofs.TokenReading
import Arith.Proofs.Numerals
import Arith.Proofs.TokenTiling
import Arith.Proofs.ScannerCursor
import Arith.Proofs.TokenSeams
import Arith.Proofs.Phrases
import Arith.Proofs.ParserMoves
import Arith.Proofs.Passing
import Arith.Proofs.ReadingOutcome
import Arith.Proofs.PhraseReading
import Arith.Proofs.WholeText
import Arith.Proofs.Acceptance
import Arith.Proofs.Expectation
import Arith.Proofs.FirstError
import Arith.Proofs.Unlimited
import Arith.Proofs.NestingLimit
import Arith.Proofs.PanicRecovery
import Arith.Proofs.ParserTurns
import Arith.Proofs.SessionRuns
import Arith.Proofs.NestingBounds
import Arith.Proofs.ParserInvariants
import Arith.Proofs.SessionHistory
import Arith.Proofs.SideBySide
import Arith.Proofs.StrayCharacters
import Arith.Proofs.UnreadText
import Arith.Proofs.Layout
import Arith.Proofs.TreePlaces
import Arith.Proofs.FrozenParser
import Arith.Proofs.TokenDelivery
import Arith.Proofs.SessionParts
import Arith.Proofs.ErrorTexts
import Arith.Proofs.LineLoop
import Arith.Proofs.FrontEnds
import Arith.Proofs.ReadingCourse
import Arith.Proofs.Grouping
import Arith.Proofs.ErrorTokens
import Arith.Proofs.TreeTokens
import Arith.Proofs.SpanOrder
import Arith.Proofs.JoinedTexts
import Arith.Proofs.TokensAhead
import Arith.Proofs.TokenAccounts
import Arith.Proofs.Progress
import Arith.Proofs.NodeLinks
import Arith.Proofs.NodeReading
import Arith.Proofs.GraphWalks
import Arith.Proofs.GraphHistory
import Arith.Proofs.PrintedForms
import Arith.Proofs.AlikeTexts
import Arith.Proofs.Interrupts
import Arith.Proofs.TokenDumps
import Arith.Proofs.LongestPhrase
