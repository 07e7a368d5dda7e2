import Lexis.Scan.Session
import Lexis.Token.OfJson
import Lexis.Main
import Lexis.Proofs.Alphabet.Apart
import Lexis.Proofs.Lexeme.Longest
import Lexis.Proofs.Lexeme.Spelling
import Lexis.Proofs.Lexeme.Continuation
import Lexis.Proofs.Line.Cuts
import Lexis.Proofs.Line.Segmentation
import Lexis.Proofs.Line.Lexemes
import Lexis.Proofs.Scan.Calls
import Lexis.Proofs.Scan.Gathering
import Lexis.Proofs.Scan.Reports
import Lexis.Proofs.Scan.LineTokens
import Lexis.Proofs.Scan.Retry
import Lexis.Proofs.Scan.Concatenation
import Lexis.Proofs.Scan.Demand
import Lexis.Proofs.Scan.Foresight
import Lexis.Proofs.Scan.TextRun
import Lexis.Proofs.Scan.Journal
import Lexis.Proofs.Supply.Pieces
import Lexis.Proofs.Supply.Pulls
import Lexis.Proofs.Supply.CutAfter
import Lexis.Proofs.Supply.ByteLines
import Lexis.Proofs.Supply.FileLines
import Lexis.Proofs.Printing.WellFormed
import Lexis.Proofs.Printing.Spaced
import Lexis.Proofs.Printing.RoundTrip
import Lexis.Proofs.Scan.SameLines
import Lexis.Proofs.Scan.ValidLines
import Lexis.Proofs.Json.Numeral
import Lexis.Proofs.Json.Object
import Lexis.Proofs.Token.Json
import Lexis.Proofs.CommandLine.Requests
import Lexis.Proofs.CommandLine.TextReport
import Lexis.Proofs.CommandLine.RecordLines
import Lexis.Proofs.CommandLine.BrokenReport
import Lexis.Proofs.Line.Quotes
import Lexis.Proofs.Line.Splitting
import Lexis.Proofs.Supply.Signals
import Lexis.Lexeme.ByColumn
import Lexis.Proofs.Lexeme.ByColumn
import Lexis.Proofs.Scan.ByColumn
import Lexis.Proofs.Scan.Progress
import Lexis.Proofs.Scan.Limited
import Lexis.Proofs.Json.Value
import Lexis.Proofs.Scan.LineEndings
import Lexis.Proofs.Token.Fingerprint
import Lexis.Proofs.Token.Spelling
import Lexis.Proofs.Json.Lasting
import Lexis.Proofs.Token.Display
import Lexis.Proofs.Token.Lasting
import Lexis.Proofs.Json.BrokenOff
import Lexis.Proofs.Token.BrokenOff
