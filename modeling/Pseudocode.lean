import Pseudocode.Bindings
import Pseudocode.Power
import Pseudocode.Text.Span
import Pseudocode.Text.Position
import Pseudocode.Text.Blank
import Pseudocode.Text.Lines
import Pseudocode.Text.Quoted
import Pseudocode.Binary64.Integral
import Pseudocode.Decimal.Layout
import Pseudocode.Decimal.Reading
import Pseudocode.Integer
import Pseudocode.Token.Lexer
import Pseudocode.Program.Parser
import Pseudocode.Program.Nodes
import Pseudocode.Program.Document
import Pseudocode.Heap
import Pseudocode.Value.Render
import Pseudocode.Operator
import Pseudocode.World.Basic
import Pseudocode.Eval
import Pseudocode.Diagnostic
import Pseudocode.Command.Run
import Pseudocode.Main
import Pseudocode.Proofs.Congruence
import Pseudocode.Proofs.Outcome
import Pseudocode.Proofs.Unscoped
import Pseudocode.Proofs.Effects
import Pseudocode.Proofs.Execution
import Pseudocode.Proofs.Sound
import Pseudocode.Proofs.Names
import Pseudocode.Proofs.Termination
import Pseudocode.Proofs.Marks
import Pseudocode.Proofs.Plain
import Pseudocode.Proofs.Signal
import Pseudocode.Proofs.Returning
import Pseudocode.Proofs.RoundTrip
import Pseudocode.Proofs.Files.Store
import Pseudocode.Proofs.Files.Calls
import Pseudocode.Proofs.Files.Handles
import Pseudocode.Proofs.Files.ReadBack
import Pseudocode.Proofs.Spans.Parsing
import Pseudocode.Proofs.Spans.Evaluation
import Pseudocode.Proofs.Spans.Execution
import Pseudocode.Proofs.Spans.Layout
import Pseudocode.Proofs.Spans.Excerpt
import Pseudocode.Proofs.Spans.Tokens
import Pseudocode.Proofs.Spans.Location
import Pseudocode.Proofs.Lexing.Cover
import Pseudocode.Proofs.Lexing.Grammar
import Pseudocode.Proofs.Lexing.Part
import Pseudocode.Proofs.Lexing.Respelled
import Pseudocode.Proofs.Derivation.Parsing
import Pseudocode.Proofs.Derivation.Parts
import Pseudocode.Proofs.Derivation.Reading
import Pseudocode.Proofs.Spans.ErrorPlace
import Pseudocode.Proofs.Spans.Selection
import Pseudocode.Proofs.Moments
import Pseudocode.Proofs.Depth
import Pseudocode.Proofs.Pieces
import Pseudocode.Proofs.Output
import Pseudocode.Proofs.Members
import Pseudocode.Proofs.Lexing.Number
import Pseudocode.Proofs.Numerals
import Pseudocode.Proofs.Waiting
import Pseudocode.Proofs.Spans.Moved
import Pseudocode.Proofs.Spans.Sessions
import Pseudocode.Proofs.Flawless
import Pseudocode.Proofs.Constructors
import Pseudocode.Proofs.Cursors
import Pseudocode.Proofs.Refusals
import Pseudocode.Proofs.Unguarded.Basic
import Pseudocode.Proofs.Unguarded.Agreement
import Pseudocode.Proofs.Defences
import Pseudocode.Proofs.Binary64.Rounding
import Pseudocode.Proofs.Binary64.Power
import Pseudocode.Proofs.Binary64.Digits
import Pseudocode.Proofs.Bisimilarity
import Pseudocode.Proofs.Casts
import Pseudocode.Proofs.Powers
import Pseudocode.Proofs.Keyed
import Pseudocode.Proofs.ScopeTree.Names
import Pseudocode.Proofs.ScopeTree.Returns
import Pseudocode.Proofs.Spans.Nesting
import Pseudocode.Proofs.Progress.Routines
import Pseudocode.Proofs.Arrays.Assignment
import Pseudocode.Proofs.Arrays.Rectangular
import Pseudocode.Proofs.Arrays.Slices
import Pseudocode.Proofs.Arrays.Rendering
import Pseudocode.Proofs.Loops.Capped
import Pseudocode.Proofs.Loops.Counting
import Pseudocode.Proofs.Documents
import Pseudocode.Proofs.Classes.Instances
import Pseudocode.Proofs.Arithmetic
import Pseudocode.Proofs.Pages.Color
import Pseudocode.Proofs.Decimal.FloatText
import Pseudocode.Proofs.Links.Sessions
