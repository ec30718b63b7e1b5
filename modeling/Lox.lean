import Lox.Character.Extending
import Lox.Character.Ignorable
import Lox.Character.Ranges
import Lox.Character.Unprintable
import Lox.CommandLine
import Lox.Diagnostic
import Lox.Evaluate
import Lox.Forest
import Lox.Grammar.Expression
import Lox.Grammar.Program
import Lox.Grammar.Reading
import Lox.Grammar.Statement
import Lox.Machine
import Lox.Main
import Lox.Number.Magnitude
import Lox.Number.Shortest
import Lox.Number.Text
import Lox.Quoted
import Lox.Scope
import Lox.Session
import Lox.Sink
import Lox.Source.InPlace
import Lox.Source.Item
import Lox.Source.Piece
import Lox.Table
import Lox.Token
import Lox.Token.Text
import Lox.Tree
import Lox.Tree.Text
import Lox.Utf8
import Lox.Value
import Lox.Proofs.History.Correspondence
import Lox.Proofs.History.Faithful
import Lox.Proofs.History.Onward
import Lox.Proofs.Grammar.Accepting
import Lox.Proofs.Grammar.Derivation
import Lox.Proofs.Grammar.ExpressionSoundness
import Lox.Proofs.Grammar.StatementSoundness
import Lox.Proofs.Grammar.ExpressionCompleteness
import Lox.Proofs.Grammar.StatementCompleteness
import Lox.Proofs.Grammar.Sentence
import Lox.Proofs.Source.Spelling
import Lox.Proofs.Tree.Occurrences
import Lox.Proofs.Tree.Proper
import Lox.Proofs.Scope.Scoped
import Lox.Proofs.Scope.Balance
import Lox.Proofs.Scope.Resolution
import Lox.Proofs.Scope.Enclosure
import Lox.Proofs.Scope.Distances
import Lox.Proofs.Scope.Rules
import Lox.Proofs.Scope.Violations
import Lox.Proofs.Forest.Access
import Lox.Proofs.Lexical.Interpreter
import Lox.Proofs.Lexical.Fitting
import Lox.Proofs.Lexical.World
import Lox.Proofs.Lexical.Agreement
import Lox.Proofs.Lexical.Steps
import Lox.Proofs.Lexical.Simulation
import Lox.Proofs.Lexical.Session
import Lox.Proofs.Lexical.Activity
import Lox.Proofs.Lexical.Presence
import Lox.Proofs.Lexical.Overwriting
import Lox.Proofs.Lexical.Fuel
import Lox.Proofs.Lexical.DirectLoop
import Lox.Proofs.Lexical.Looping
import Lox.Proofs.Source.Joining
import Lox.Proofs.Source.Segments
import Lox.Proofs.Variation.Reading
import Lox.Proofs.Variation.Expression
import Lox.Proofs.Variation.Statement
import Lox.Proofs.Session.Distances
import Lox.Proofs.Variation.Scope
import Lox.Proofs.Variation.Weaker
import Lox.Proofs.Variation.Machine
import Lox.Proofs.Variation.Evaluation
import Lox.Proofs.Session.Varying
import Lox.Proofs.Session.Rejection
import Lox.Proofs.Session.Moving
import Lox.Proofs.Session.Joining
import Lox.Proofs.History.Truncation
import Lox.Proofs.History.Lodging
import Lox.Proofs.History.Progress
import Lox.Proofs.History.Advance
import Lox.Proofs.History.Preservation
import Lox.Proofs.History.Order
import Lox.Proofs.History.Receivers
import Lox.Proofs.History.Initializers
import Lox.Proofs.History.Origins
import Lox.Proofs.Failure.Effects
import Lox.Proofs.Fields.Reading
import Lox.Proofs.History.Returns
import Lox.Grammar.Cursor
import Lox.Grammar.InPlace
import Lox.Proofs.Source.Lexemes
import Lox.Proofs.Grammar.Cursor
import Lox.Proofs.Grammar.Following
import Lox.Proofs.Grammar.ExpressionInPlace
import Lox.Proofs.Grammar.StatementInPlace
import Lox.Proofs.Grammar.InPlace
import Lox.Proofs.Grammar.Continuation
import Lox.Proofs.Grammar.Pattern
import Lox.Proofs.Grammar.Prediction
import Lox.Proofs.Grammar.Guidance
import Lox.Proofs.Grammar.ExpressionGuidance
import Lox.Proofs.Grammar.StatementGuidance
import Lox.Proofs.Grammar.Earliest
import Lox.Proofs.Tree.Bare
import Lox.Proofs.Source.Spacing
import Lox.Proofs.Source.Encoding
import Lox.Proofs.Source.InPlace
import Lox.Proofs.Number.Fields
import Lox.Proofs.Number.Literal
import Lox.Proofs.Tree.ExpressionPrinting
import Lox.Proofs.Tree.Identification
import Lox.Proofs.History.Reaching
import Lox.Proofs.Classes.Ancestry
import Lox.Proofs.Classes.Calls
import Lox.Proofs.Classes.Inheritance
