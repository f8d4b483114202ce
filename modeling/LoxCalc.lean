import LoxCalc.Main
import LoxCalc.Proofs.Expr.Grammar
import LoxCalc.Proofs.Expr.Parsing
import LoxCalc.Proofs.Expr.Height
import LoxCalc.Proofs.Expr.CountedHeight
import LoxCalc.Proofs.Expr.BreaksOff
import LoxCalc.Proofs.Expr.FirstFault
import LoxCalc.Proofs.Expr.Boundaries
import LoxCalc.Proofs.Token.FirstSegment
import LoxCalc.Proofs.Token.Segmentation
import LoxCalc.Proofs.Token.LineEnds
import LoxCalc.Proofs.Token.Written
import LoxCalc.Proofs.Token.LineNumbers
import LoxCalc.Proofs.Binary64.Nearest
import LoxCalc.Proofs.Decimal.ReadBack
import LoxCalc.Proofs.Expr.Printed
import LoxCalc.Proofs.Expr.RoundTrip
import LoxCalc.Proofs.Expr.SourceNesting
import LoxCalc.Proofs.Expr.Meaning
import LoxCalc.Proofs.Expr.NormalForm
import LoxCalc.Proofs.Expr.OperandFaults
import LoxCalc.Proofs.Expr.Layout
import LoxCalc.Proofs.Expr.Cursor
import LoxCalc.Proofs.Expr.InRange
import LoxCalc.Proofs.Expr.Walk
import LoxCalc.Proofs.Expr.Balance
import LoxCalc.Proofs.FileTree.Writing
import LoxCalc.Proofs.FileTree.Rooted
import LoxCalc.Proofs.CommandLine.Files
import LoxCalc.Proofs.Json.Quoted
import LoxCalc.Proofs.Json.Symbols
import LoxCalc.Proofs.Json.ReadBack
import LoxCalc.Proofs.CommandLine.SavedSettings
import LoxCalc.Proofs.CommandLine.Scripts
import LoxCalc.Proofs.CommandLine.Conversation
import LoxCalc.Proofs.CommandLine.Agreement
import LoxCalc.Proofs.Binary64.Rounding
import LoxCalc.Proofs.Decimal.Numerals
import LoxCalc.Proofs.Expr.EvalOrder
import LoxCalc.Proofs.Decimal.Displayed
import LoxCalc.Proofs.CommandLine.Tracing
import LoxCalc.Proofs.Expr.Sorts
import LoxCalc.Proofs.Expr.LispForm
import LoxCalc.Proofs.Json.Grammar
import LoxCalc.Proofs.Json.Written
import LoxCalc.Proofs.Settings
import LoxCalc.Proofs.Text.Words
import LoxCalc.Proofs.Text.Quoted
import LoxCalc.Proofs.Decimal.Spelling
import LoxCalc.Proofs.Decimal.Exponents
import LoxCalc.Proofs.Token.Listing
import LoxCalc.Proofs.Expr.Dump
import LoxCalc.Proofs.Expr.Carriers
import LoxCalc.Proofs.Expr.Groupings
import LoxCalc.Proofs.Expr.Equality
