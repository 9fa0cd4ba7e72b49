import LinearProgram.Cbc.Run
import LinearProgram.Cbc.SolutionFile
import LinearProgram.Constraint
import LinearProgram.Decimal.Binary
import LinearProgram.Decimal.Fixed
import LinearProgram.Decimal.Layout
import LinearProgram.Decimal.Rounding
import LinearProgram.Decimal.Shortest
import LinearProgram.Description
import LinearProgram.Description.Model
import LinearProgram.Grouping
import LinearProgram.InProcess.Program
import LinearProgram.InProcess.Result
import LinearProgram.Json.Parser
import LinearProgram.Json.Printer
import LinearProgram.Json.Value
import LinearProgram.LinearFunction
import LinearProgram.Log
import LinearProgram.Model
import LinearProgram.Mps.Batch
import LinearProgram.Mps.Entry
import LinearProgram.Mps.File
import LinearProgram.Mps.Line
import LinearProgram.Mps.Name
import LinearProgram.Mps.Number
import LinearProgram.Number
import LinearProgram.Number.Text
import LinearProgram.Operand
import LinearProgram.Scalar
import LinearProgram.Scalar.Double
import LinearProgram.Schema
import LinearProgram.Schema.Problem
import LinearProgram.Schema.Scalar
import LinearProgram.Service
import LinearProgram.Service.Address
import LinearProgram.Session
import LinearProgram.Session.Action
import LinearProgram.Session.Call
import LinearProgram.Session.Draft
import LinearProgram.Session.Equality
import LinearProgram.Session.Field
import LinearProgram.Session.Making
import LinearProgram.Session.Normalized
import LinearProgram.Session.Operator
import LinearProgram.Session.Outline
import LinearProgram.Session.Question
import LinearProgram.Session.Report
import LinearProgram.Session.Source
import LinearProgram.Session.Text
import LinearProgram.Session.Value
import LinearProgram.Session.View
import LinearProgram.Settings
import LinearProgram.Solution
import LinearProgram.Text
import LinearProgram.Text.Blank
import LinearProgram.Text.Digit
import LinearProgram.Text.Encoding
import LinearProgram.Text.Numeral
import LinearProgram.Text.Printable
import LinearProgram.Text.Quoted
import LinearProgram.Text.Uppercase
import LinearProgram.Text.Utf8
import LinearProgram.Validation
import LinearProgram.Variable
import LinearProgram.Proofs.Lists
import LinearProgram.Proofs.NormalForm
import LinearProgram.Proofs.Exact
import LinearProgram.Proofs.InProcess.Program
import LinearProgram.Proofs.InProcess.Meaning
import LinearProgram.Proofs.Text.Numeral
import LinearProgram.Proofs.Mps.Line
import LinearProgram.Proofs.Mps.Deck
import LinearProgram.Proofs.Mps.Decoding
import LinearProgram.Proofs.Cbc.Report
import LinearProgram.Proofs.Double.Integer
import LinearProgram.Proofs.Agreement
import LinearProgram.Proofs.Preservation
import LinearProgram.Proofs.Repeats
import LinearProgram.Proofs.Validation
import LinearProgram.Proofs.Operators
import LinearProgram.Proofs.Formula
import LinearProgram.Proofs.Cbc.Reading
import LinearProgram.Proofs.Mps.File
import LinearProgram.Proofs.Cbc.Run
import LinearProgram.Proofs.Description
import LinearProgram.Proofs.Survival
import LinearProgram.Proofs.Service
import LinearProgram.Proofs.Double.Zero
import LinearProgram.Proofs.Canonical
import LinearProgram.Proofs.InProcess.Result
import LinearProgram.Proofs.Mps.Numbers
import LinearProgram.Proofs.Renaming
import LinearProgram.Proofs.TextIndependence
import LinearProgram.Proofs.Decimal.Significant
import LinearProgram.Proofs.Double.Order
import LinearProgram.Proofs.Mps.NumberText
import LinearProgram.Proofs.Handover
import LinearProgram.Proofs.Order
import LinearProgram.Proofs.Projection
import LinearProgram.Proofs.Completeness
import LinearProgram.Proofs.Mps.Place
import LinearProgram.Proofs.Text.Order
import LinearProgram.Proofs.Description.References
import LinearProgram.Proofs.Description.Sharing
import LinearProgram.Proofs.Identities
import LinearProgram.Proofs.Description.Redeclaring
import LinearProgram.Proofs.Cbc.Truncation
import LinearProgram.Proofs.Rounding
import LinearProgram.Proofs.Decimal.Value
import LinearProgram.Proofs.Double.Value
import LinearProgram.Proofs.Double.Rounding
import LinearProgram.Proofs.Mps.NumberValue
import LinearProgram.Proofs.Mps.Batch
import LinearProgram.Proofs.Session.Summation
import LinearProgram.Proofs.Schema.Strict
import LinearProgram.Proofs.Site
import LinearProgram.Proofs.Columns
import LinearProgram.Proofs.Mps.Transposition
import LinearProgram.Proofs.Schema.Rewriting
import LinearProgram.Proofs.Double.Nearest
import LinearProgram.Proofs.Double.Reading
import LinearProgram.Proofs.Decimal.Shortest
import LinearProgram.Proofs.Json.Numbers
import LinearProgram.Proofs.Json.Strings
import LinearProgram.Proofs.Json.RoundTrip
import LinearProgram.Proofs.Json.Reading
import LinearProgram.Proofs.Schema.Printing
