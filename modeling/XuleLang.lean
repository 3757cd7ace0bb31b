import XuleLang.Main
import XuleLang.Server.Request
import XuleLang.Server.Session
import XuleLang.Source.FileTree
import XuleLang.Domain.Composition
import XuleLang.Domain.Direction
import XuleLang.Domain.Joiner
import XuleLang.Domain.Mapping
import XuleLang.Domain.Name
import XuleLang.Server.ItemShape
import XuleLang.Proofs.Server.Freshness
import XuleLang.Proofs.Analysis.Reparse
import XuleLang.Proofs.Server.Record
import XuleLang.Proofs.Server.Answers
import XuleLang.Proofs.Server.Validation
import XuleLang.Proofs.Text.Position
import XuleLang.Proofs.Token.Lexeme
import XuleLang.Proofs.Token.Piece
import XuleLang.Proofs.Token.Lossless
import XuleLang.Proofs.Parser.Growth
import XuleLang.Proofs.Parser.Conduct
import XuleLang.Proofs.Parser.Grammar
import XuleLang.Proofs.Parser.File
import XuleLang.Proofs.Parser.Lossless
import XuleLang.Proofs.Analysis.TokenOffset
import XuleLang.Proofs.Token.Visible
import XuleLang.Proofs.Syntax.Hull
import XuleLang.Proofs.Analysis.Caret
import XuleLang.Proofs.Syntax.FileTree
import XuleLang.Proofs.Scope.Environments
import XuleLang.Proofs.Scope.Walk
import XuleLang.Proofs.Scope.Traversal
import XuleLang.Proofs.Scope.Declarations
import XuleLang.Proofs.Scope.Lookup
import XuleLang.Proofs.Analysis.CandidatePlace
import XuleLang.Proofs.Syntax.Production
import XuleLang.Proofs.Parser.Derivation
import XuleLang.Proofs.Parser.Production
import XuleLang.Proofs.Parser.ErrorFree
import XuleLang.Proofs.Parser.Operation
import XuleLang.Proofs.Parser.Alike
import XuleLang.Proofs.Parser.Composition
import XuleLang.Proofs.Parser.Prediction
import XuleLang.Proofs.Parser.Barrier
import XuleLang.Proofs.Parser.Halting
import XuleLang.Proofs.Parser.Shift
import XuleLang.Proofs.Parser.Recovery
import XuleLang.Proofs.Parser.Renumbering
import XuleLang.Proofs.Scope.Renumbering
import XuleLang.Proofs.Parser.Fork
import XuleLang.Proofs.Parser.Meeting
import XuleLang.Proofs.Parser.Foresight.Declaration
import XuleLang.Proofs.Parser.KeywordPrediction
import XuleLang.Proofs.Text.Editor
import XuleLang.Proofs.Syntax.Complaints
import XuleLang.Proofs.Syntax.EditorRange
import XuleLang.Proofs.Syntax.Cursor
import XuleLang.Proofs.Syntax.WellFormed
import XuleLang.Proofs.Analysis.Imports
import XuleLang.Proofs.Analysis.Suggestion
import XuleLang.Proofs.Scope.Forest
import XuleLang.Proofs.Scope.Listing
import XuleLang.Proofs.Parser.Shape
import XuleLang.Proofs.Parser.NodeShape
import XuleLang.Proofs.Token.Spelling
import XuleLang.Proofs.Syntax.ReadFile
import XuleLang.Proofs.Vocabulary.Registration
import XuleLang.Proofs.Vocabulary.History
import XuleLang.Proofs.Analysis.DeclaredName
import XuleLang.Proofs.Analysis.UnknownName
import XuleLang.Proofs.Analysis.Definition
import XuleLang.Proofs.Analysis.Agreement
import XuleLang.Proofs.Server.Closing
import XuleLang.Proofs.Server.Overtaking
import XuleLang.Proofs.Token.Brackets
import XuleLang.Proofs.Token.Scanning
import XuleLang.Proofs.Token.BracketMatching
import XuleLang.Proofs.Parser.Assembly
import XuleLang.Proofs.Parser.Keeping
import XuleLang.Proofs.Parser.Nesting
import XuleLang.Proofs.Parser.Operand
import XuleLang.Proofs.Parser.Tower
import XuleLang.Proofs.Parser.Books
import XuleLang.Proofs.Token.Markers
import XuleLang.Proofs.Token.LongestMatch
import XuleLang.Proofs.Analysis.Completion
import XuleLang.Proofs.Analysis.LocalNames
import XuleLang.Proofs.Analysis.GapDefinition
import XuleLang.Proofs.Analysis.EditorPlace
import XuleLang.Proofs.CommandLine.ErrorLines
import XuleLang.Proofs.CommandLine.Opening
