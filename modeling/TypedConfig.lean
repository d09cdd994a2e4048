import TypedConfig.Configuration.Printer
import TypedConfig.Elaboration
import TypedConfig.Value.Extraction
import TypedConfig.Value.Json
import TypedConfig.Proofs.Grammar
import TypedConfig.Proofs.Grammar.Acceptance
import TypedConfig.Proofs.Grammar.Lists
import TypedConfig.Proofs.Grammar.Declarations
import TypedConfig.Proofs.Grammar.Values
import TypedConfig.Proofs.Grammar.Documents
import TypedConfig.Proofs.Typing
import TypedConfig.Proofs.Typing.Verdicts
import TypedConfig.Proofs.Typing.Exactness
import TypedConfig.Proofs.Typing.Reports
import TypedConfig.Proofs.Typing.Strictness
import TypedConfig.Proofs.Inclusion
import TypedConfig.Proofs.Inclusion.Graph
import TypedConfig.Proofs.Inclusion.Paths
import TypedConfig.Proofs.Inclusion.Exactness
import TypedConfig.Proofs.Inclusion.Nesting
import TypedConfig.Proofs.Inclusion.Visited
import TypedConfig.Proofs.Inclusion.Failures
import TypedConfig.Proofs.Inclusion.Joining
import TypedConfig.Proofs.Printing.Lexing
import TypedConfig.Proofs.Printing.Layouts
import TypedConfig.Proofs.Printing.Declarations
import TypedConfig.Proofs.Printing.Floats
import TypedConfig.Proofs.Printing.Values
import TypedConfig.Proofs.Printing.Reading
import TypedConfig.Proofs.Printing.Printability
import TypedConfig.Proofs.Printing.Formats
import TypedConfig.Proofs.Printing.Retyping
import TypedConfig.Proofs.Printing.RoundTrip
import TypedConfig.Proofs.Lexing
import TypedConfig.Proofs.Lexing.Locality
import TypedConfig.Proofs.Lexing.Pieces
import TypedConfig.Proofs.Lexing.Slices
import TypedConfig.Proofs.Lexing.Quoting
import TypedConfig.Proofs.Lexing.Integers
import TypedConfig.Proofs.Places
import TypedConfig.Proofs.Places.Lexing
import TypedConfig.Proofs.Places.Reading
import TypedConfig.Proofs.Places.Checking
import TypedConfig.Proofs.Places.Diagnostics
import TypedConfig.Proofs.Runs
import TypedConfig.Proofs.Uniqueness
import TypedConfig.Proofs.Comparison
import TypedConfig.Proofs.Comparison.Verdicts
import TypedConfig.Proofs.Comparison.Demands
import TypedConfig.Proofs.Comparison.Plans
import TypedConfig.Proofs.Comparison.Checking
import TypedConfig.Proofs.Comparison.Values
import TypedConfig.Proofs.Comparison.Order
import TypedConfig.Proofs.Comparison.Registries
import TypedConfig.Proofs.Comparison.Reading
import TypedConfig.Proofs.Comparison.Documents
import TypedConfig.Proofs.Comparison.Inclusion
import TypedConfig.Proofs.Comparison.Lexing
import TypedConfig.Proofs.Comparison.Layout
import TypedConfig.Proofs.Comparison.Spelling
import TypedConfig.Proofs.Lexing.Lines
import TypedConfig.Proofs.Typing.Surfacing
import TypedConfig.Proofs.Printing.Homogeneity
import TypedConfig.Proofs.Grammar.Nesting
import TypedConfig.Proofs.Printing.Arrays
import TypedConfig.Proofs.Extraction
import TypedConfig.Proofs.Formats.Addresses
import TypedConfig.Proofs.Formats.Curve
import TypedConfig.Proofs.Formats.Keys
import TypedConfig.Proofs.Brackets
import TypedConfig.Proofs.Brackets.Tracking
import TypedConfig.Proofs.Brackets.Documents
import TypedConfig.Proofs.Truncation
import TypedConfig.Proofs.Truncation.Reading
import TypedConfig.Proofs.Truncation.Lists
import TypedConfig.Proofs.Truncation.Declarations
import TypedConfig.Proofs.Truncation.Values
import TypedConfig.Proofs.Truncation.Documents
import TypedConfig.Proofs.Progress
import TypedConfig.Proofs.Progress.Following
import TypedConfig.Proofs.Progress.Loops
import TypedConfig.Proofs.Progress.Documents
import TypedConfig.Proofs.Progress.Parts
