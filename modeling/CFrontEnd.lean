import CFrontEnd.Grammar.Start
import CFrontEnd.Spelling.Tree
import CFrontEnd.Tree.Listing
import CFrontEnd.Tree.Visitor
import CFrontEnd.Artifact
import CFrontEnd.Failure
import CFrontEnd.Host.Basic
import CFrontEnd.Host.Table
import CFrontEnd.Preprocessor.Options
import CFrontEnd.Preprocessor.Run
import CFrontEnd.Command.Arguments
import CFrontEnd.Command.Options
import CFrontEnd.Command.Run
import CFrontEnd.Main
import CFrontEnd.Proofs.Grammar.Evaluation
import CFrontEnd.Proofs.Grammar.Nesting
import CFrontEnd.Proofs.Grammar.Operands
import CFrontEnd.Proofs.Grammar.Operators
import CFrontEnd.Proofs.Grammar.Questions
import CFrontEnd.Proofs.Language.Tables
import CFrontEnd.Proofs.Grammar.Words
import CFrontEnd.Proofs.Expression.Grammar
import CFrontEnd.Proofs.Expression.Completeness
import CFrontEnd.Proofs.Grammar.Accounting
import CFrontEnd.Proofs.Grammar.Start
import CFrontEnd.Proofs.Expression.Reading
import CFrontEnd.Proofs.Expression.Forms
import CFrontEnd.Proofs.Expression.Soundness
import CFrontEnd.Proofs.Expression.Recognition
import CFrontEnd.Proofs.Scan.Pieces
import CFrontEnd.Proofs.Scan.Tokens
import CFrontEnd.Proofs.Scan.TokenSegments
import CFrontEnd.Proofs.Scan.Segments
import CFrontEnd.Proofs.Scan.Partition
import CFrontEnd.Proofs.Scan.Words
import CFrontEnd.Proofs.Scan.Lexemes
import CFrontEnd.Proofs.Scan.Chains
import CFrontEnd.Proofs.Scan.Cuts
import CFrontEnd.Proofs.Spelling.OperatorTrees
import CFrontEnd.Proofs.Spelling.Expressions
import CFrontEnd.Proofs.Spelling.ExpressionRoundTrip
import CFrontEnd.Proofs.Scan.Locality
import CFrontEnd.Proofs.Scan.Rules
import CFrontEnd.Proofs.Scan.LineBoundary
import CFrontEnd.Proofs.Scan.Composition
import CFrontEnd.Proofs.Scan.Totality
import CFrontEnd.Proofs.Scan.Positions
import CFrontEnd.Proofs.Scan.Linemarkers
import CFrontEnd.Proofs.Scan.Origins
import CFrontEnd.Proofs.Scan.Messages
import CFrontEnd.Proofs.Scan.Relayout
import CFrontEnd.Proofs.Grammar.Declarations
import CFrontEnd.Proofs.Grammar.Specifiers
import CFrontEnd.Proofs.Blocks.Items
import CFrontEnd.Proofs.Blocks.Scoping
import CFrontEnd.Proofs.Blocks.Program
import CFrontEnd.Proofs.Recovery.Fence
import CFrontEnd.Proofs.Recovery.Rules
import CFrontEnd.Proofs.Recovery.Brackets
import CFrontEnd.Proofs.Recovery.Items
import CFrontEnd.Proofs.Recovery.Specifiers
import CFrontEnd.Proofs.Recovery.Declarations
import CFrontEnd.Proofs.Recovery.Expressions
import CFrontEnd.Proofs.Recovery.Statements
import CFrontEnd.Proofs.Recovery.Program
import CFrontEnd.Proofs.Types.BuiltinNames
import CFrontEnd.Proofs.Types.Trees
import CFrontEnd.Proofs.Types.Declarators
import CFrontEnd.Proofs.Conduct.Rules
import CFrontEnd.Proofs.Conduct.Items
import CFrontEnd.Proofs.Conduct.Specifiers
import CFrontEnd.Proofs.Conduct.Declarations
import CFrontEnd.Proofs.Conduct.Expressions
import CFrontEnd.Proofs.Conduct.Statements
import CFrontEnd.Proofs.Conduct.Catalogue
import CFrontEnd.Proofs.Conduct.Progress
import CFrontEnd.Proofs.Conduct.Panic
import CFrontEnd.Proofs.Conduct.Scopes
import CFrontEnd.Proofs.Schema.Layout
import CFrontEnd.Proofs.Schema.Rules
import CFrontEnd.Proofs.Schema.Specifiers
import CFrontEnd.Proofs.Schema.Declarations
import CFrontEnd.Proofs.Schema.Expressions
import CFrontEnd.Proofs.Schema.Program
import CFrontEnd.Proofs.Types.Functions
import CFrontEnd.Proofs.Types.Parts
import CFrontEnd.Proofs.Types.Specifiers
import CFrontEnd.Proofs.Types.Parameters
import CFrontEnd.Proofs.Types.Spine
import CFrontEnd.Proofs.Types.RoundTrip
import CFrontEnd.Proofs.Likeness.Relations
import CFrontEnd.Proofs.Likeness.Rules
import CFrontEnd.Proofs.Likeness.Recovery
import CFrontEnd.Proofs.Likeness.Specifiers
import CFrontEnd.Proofs.Likeness.Declarators
import CFrontEnd.Proofs.Likeness.Declarations
import CFrontEnd.Proofs.Likeness.Expressions
import CFrontEnd.Proofs.Likeness.Statements
import CFrontEnd.Proofs.Likeness.Program
import CFrontEnd.Proofs.Expression.Precedence
import CFrontEnd.Proofs.Conduct.StartRule
import CFrontEnd.Proofs.Scan.Promotion
import CFrontEnd.Proofs.Text.Numerals
import CFrontEnd.Proofs.Strings.Units
import CFrontEnd.Proofs.Strings.Pieces
import CFrontEnd.Proofs.Strings.RoundTrip
import CFrontEnd.Proofs.Characters.Values
import CFrontEnd.Proofs.Characters.RoundTrip
import CFrontEnd.Proofs.Statements.Trees
import CFrontEnd.Proofs.Statements.Parts
import CFrontEnd.Proofs.Statements.Forms
import CFrontEnd.Proofs.Statements.Nested
import CFrontEnd.Proofs.Statements.Blocks
import CFrontEnd.Proofs.Statements.RoundTrip
import CFrontEnd.Proofs.Initializers.Designators
import CFrontEnd.Proofs.Initializers.Lists
import CFrontEnd.Proofs.Initializers.RoundTrip
import CFrontEnd.Proofs.Scan.Prefixes
import CFrontEnd.Proofs.Suffixes.Chains
import CFrontEnd.Proofs.Suffixes.TypeMeasures
import CFrontEnd.Proofs.Suffixes.Beginnings
import CFrontEnd.Proofs.Suffixes.RoundTrip
import CFrontEnd.Proofs.Listing.Labels
import CFrontEnd.Proofs.Listing.Assembly
import CFrontEnd.Proofs.Listing.Lines
import CFrontEnd.Proofs.Listing.Problems
import CFrontEnd.Proofs.Text.Unicode
import CFrontEnd.Proofs.Literals.Items
import CFrontEnd.Proofs.Literals.Scanning
import CFrontEnd.Proofs.Literals.Display
import CFrontEnd.Proofs.Literals.Completeness
import CFrontEnd.Proofs.Literals.Widening
import CFrontEnd.Proofs.Literals.Concatenation
import CFrontEnd.Proofs.Nesting.Initializers
import CFrontEnd.Proofs.Nesting.Operands
import CFrontEnd.Proofs.Numbers.Integers
import CFrontEnd.Proofs.Numbers.Constants
import CFrontEnd.Proofs.Numbers.FloatingConstants
import CFrontEnd.Proofs.Source.Lines
import CFrontEnd.Proofs.Specifiers.Words
import CFrontEnd.Proofs.Specifiers.Order
import CFrontEnd.Proofs.Recovery.SafePoints
import CFrontEnd.Proofs.Scopes.History
import CFrontEnd.Proofs.Scopes.Refinement
import CFrontEnd.Proofs.Tree.Traversal
import CFrontEnd.Proofs.Tree.Visitors
import CFrontEnd.Proofs.Conduct.Lookahead
