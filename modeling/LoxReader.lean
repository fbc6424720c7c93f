import LoxReader.Directory
import LoxReader.Expr.Conversion
import LoxReader.Expr.Sketch
import LoxReader.Main
import LoxReader.Proofs.Expr.Diagnosis
import LoxReader.Proofs.Expr.Spelling
import LoxReader.Proofs.Scan.Cleaned
import LoxReader.Proofs.Scan.Lines
import LoxReader.Proofs.Scan.Lookahead
import LoxReader.Proofs.Scan.Respelling
import LoxReader.Proofs.Scan.Streams
import LoxReader.Proofs.Session.Concatenation
import LoxReader.Proofs.Expr.Calls
import LoxReader.Proofs.Expr.EndOfTokens
import LoxReader.Proofs.Expr.ErrorLines
import LoxReader.Proofs.Text.LineBreak
import LoxReader.Proofs.Scan.Reports
import LoxReader.Proofs.Session.Reports
import LoxReader.Proofs.Number.Nearest
import LoxReader.Proofs.Scan.DisplayedNumber
import LoxReader.Proofs.Expr.Rounds
import LoxReader.Proofs.Expr.Outline
import LoxReader.Proofs.Expr.Walk
import LoxReader.Proofs.Session.File
import LoxReader.Proofs.Expr.Stops
import LoxReader.Proofs.Token.DebugText
import LoxReader.Proofs.Expr.IntegerLiteral
