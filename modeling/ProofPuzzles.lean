import ProofPuzzles.Backward
import ProofPuzzles.Bounds
import ProofPuzzles.Chapters
import ProofPuzzles.CommandLine.Options
import ProofPuzzles.CommandLine.Request
import ProofPuzzles.CommandLine.Run
import ProofPuzzles.Commitments
import ProofPuzzles.Config.Calendar
import ProofPuzzles.Config.File
import ProofPuzzles.Config.Number
import ProofPuzzles.Config.Reading
import ProofPuzzles.Config.SetOrder
import ProofPuzzles.Config.Value
import ProofPuzzles.Config.Yaml.Block
import ProofPuzzles.Config.Yaml.Cursor
import ProofPuzzles.Config.Yaml.Document
import ProofPuzzles.Config.Yaml.Fault
import ProofPuzzles.Config.Yaml.Layout
import ProofPuzzles.Config.Yaml.Merge
import ProofPuzzles.Config.Yaml.Node
import ProofPuzzles.Config.Yaml.Object
import ProofPuzzles.Config.Yaml.Plain
import ProofPuzzles.Config.Yaml.Property
import ProofPuzzles.Config.Yaml.Quote
import ProofPuzzles.Config.Yaml.Reading
import ProofPuzzles.Config.Yaml.Tag
import ProofPuzzles.Config.Yaml.Token
import ProofPuzzles.Config.Yaml.Unfolding
import ProofPuzzles.Config.Yaml.Word
import ProofPuzzles.Decimal.Double
import ProofPuzzles.Decimal.Numeral
import ProofPuzzles.Decimal.Shortest
import ProofPuzzles.Digest.Sha256
import ProofPuzzles.Firsts
import ProofPuzzles.Formula.Basic
import ProofPuzzles.Formula.Error
import ProofPuzzles.Formula.Literal
import ProofPuzzles.Formula.Parser
import ProofPuzzles.Formula.Spelling
import ProofPuzzles.Formula.Symbol
import ProofPuzzles.Formula.Tile
import ProofPuzzles.Graph.Basic
import ProofPuzzles.Graph.Cut
import ProofPuzzles.Inference
import ProofPuzzles.Known
import ProofPuzzles.Main
import ProofPuzzles.Proof
import ProofPuzzles.Puzzle.Attempt
import ProofPuzzles.Puzzle.Generator
import ProofPuzzles.Puzzle.Problem
import ProofPuzzles.Puzzle.Weights
import ProofPuzzles.Random.Source
import ProofPuzzles.Random.Twister
import ProofPuzzles.Replacement
import ProofPuzzles.Rule
import ProofPuzzles.Search
import ProofPuzzles.Statement
import ProofPuzzles.Suggestion
import ProofPuzzles.Text.Base64
import ProofPuzzles.Text.Blank
import ProofPuzzles.Text.DecimalDigit
import ProofPuzzles.Text.Order
import ProofPuzzles.Text.Printable
import ProofPuzzles.Text.Quoted
import ProofPuzzles.Validation
import ProofPuzzles.Proofs.Firsts
import ProofPuzzles.Proofs.Replacement.Context
import ProofPuzzles.Proofs.Inference.Enumeration
import ProofPuzzles.Proofs.Inference.Matching
import ProofPuzzles.Proofs.Validation.Lines
import ProofPuzzles.Proofs.Validation.Exact
import ProofPuzzles.Proofs.Validation.Soundness
import ProofPuzzles.Proofs.Validation.Building
import ProofPuzzles.Proofs.Search.Growth
import ProofPuzzles.Proofs.Search.Support
import ProofPuzzles.Proofs.Search.Prove
import ProofPuzzles.Proofs.Search.Progress
import ProofPuzzles.Proofs.Graph.Soundness
import ProofPuzzles.Proofs.Graph.Cut
import ProofPuzzles.Proofs.Puzzle.Turns
import ProofPuzzles.Proofs.Puzzle.Moves
import ProofPuzzles.Proofs.Puzzle.Soundness
import ProofPuzzles.Proofs.Graph.Linear
import ProofPuzzles.Proofs.Text.Order
import ProofPuzzles.Proofs.Puzzle.Solvable
import ProofPuzzles.Proofs.Formula.Grammar
import ProofPuzzles.Proofs.Commitments
import ProofPuzzles.Proofs.Graph.Operations
import ProofPuzzles.Proofs.Puzzle.Consistency
import ProofPuzzles.Proofs.Puzzle.Tidy
import ProofPuzzles.Proofs.Decimal.Rounding
import ProofPuzzles.Proofs.Decimal.Packing
import ProofPuzzles.Proofs.Decimal.Worth
import ProofPuzzles.Proofs.Puzzle.Weights
import ProofPuzzles.Proofs.Puzzle.Failure
import ProofPuzzles.Proofs.Search.Outline
import ProofPuzzles.Proofs.Puzzle.Searchable
import ProofPuzzles.Proofs.Formula.FullForm
import ProofPuzzles.Proofs.Inference.Respelling
import ProofPuzzles.Proofs.Search.Respelling
import ProofPuzzles.Proofs.Puzzle.Invariant
import ProofPuzzles.Proofs.Search.Completeness
import ProofPuzzles.Proofs.Search.OneStep
import ProofPuzzles.Proofs.Commitments.Copies
import ProofPuzzles.Proofs.Puzzle.Denials
import ProofPuzzles.Proofs.Replacement.Variants
import ProofPuzzles.Proofs.Inference.Yields
import ProofPuzzles.Proofs.Graph.Budget
import ProofPuzzles.Proofs.Commitments.Steps
import ProofPuzzles.Proofs.Suggestion
import ProofPuzzles.Proofs.Backward
import ProofPuzzles.Proofs.Commitments.Negations
import ProofPuzzles.Proofs.Puzzle.Atomicity
import ProofPuzzles.Proofs.Config.Faults
import ProofPuzzles.Proofs.Search.Limits
import ProofPuzzles.Proofs.Search.Saturation
import ProofPuzzles.Proofs.Validation.Respelling
import ProofPuzzles.Proofs.Formula.Spelling
import ProofPuzzles.Proofs.Validation.Insertion
import ProofPuzzles.Proofs.Formula.Contradiction
import ProofPuzzles.Proofs.Formula.Normalization
import ProofPuzzles.Proofs.Puzzle.Fingerprint
