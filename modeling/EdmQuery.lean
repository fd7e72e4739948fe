import EdmQuery.Annotation.Basic
import EdmQuery.Annotation.Terms
import EdmQuery.Calendar.Clock
import EdmQuery.Calendar.Date
import EdmQuery.Calendar.DateTimeOffset
import EdmQuery.Calendar.TimeOfDay
import EdmQuery.Command.Arguments
import EdmQuery.Command.Basic
import EdmQuery.Digest.Sha256
import EdmQuery.Emission.Output
import EdmQuery.Emission.Preparation
import EdmQuery.Emission.Representation
import EdmQuery.Emission.Request
import EdmQuery.Emission.RequestText
import EdmQuery.Emission.Token
import EdmQuery.Error.Basic
import EdmQuery.Error.Code
import EdmQuery.Error.Envelope
import EdmQuery.Error.Location
import EdmQuery.Evaluation.Arithmetic
import EdmQuery.Evaluation.CalendarFunctions
import EdmQuery.Evaluation.Comparison
import EdmQuery.Evaluation.Context
import EdmQuery.Evaluation.Engine
import EdmQuery.Evaluation.Error
import EdmQuery.Evaluation.Function
import EdmQuery.Evaluation.Logic
import EdmQuery.Evaluation.Operand
import EdmQuery.Evaluation.RoundingFunctions
import EdmQuery.Evaluation.Search
import EdmQuery.Evaluation.Selection
import EdmQuery.Evaluation.StandardFunctions
import EdmQuery.Evaluation.TextFunctions
import EdmQuery.Json.Basic
import EdmQuery.Json.Printer
import EdmQuery.Json.Reader
import EdmQuery.Keyed
import EdmQuery.Main
import EdmQuery.Number.Binary64
import EdmQuery.Number.Decimal
import EdmQuery.Number.DecimalReader
import EdmQuery.Number.Rounding
import EdmQuery.Number.Shortest
import EdmQuery.Pattern.Basic
import EdmQuery.Pattern.CharSet
import EdmQuery.Pattern.Grammar
import EdmQuery.Primitive.Base64
import EdmQuery.Primitive.Basic
import EdmQuery.Primitive.Coercion
import EdmQuery.Primitive.Guid
import EdmQuery.Primitive.PrimitiveType
import EdmQuery.Proofs.Digits
import EdmQuery.Proofs.LiteralText
import EdmQuery.Proofs.OperandText
import EdmQuery.Proofs.OperatorText
import EdmQuery.Proofs.PathText
import EdmQuery.Proofs.PrintableNodes
import EdmQuery.Proofs.Words
import EdmQuery.Query.Filter
import EdmQuery.Query.Literal
import EdmQuery.Query.Node
import EdmQuery.Query.Operator
import EdmQuery.Query.Parsing
import EdmQuery.Query.Path
import EdmQuery.Query.ReferencedPaths
import EdmQuery.Query.Search
import EdmQuery.Query.SearchGrammar
import EdmQuery.Schema.Basic
import EdmQuery.Schema.Compile
import EdmQuery.Schema.Document
import EdmQuery.Service.Basic
import EdmQuery.Service.Options
import EdmQuery.Service.RecordStore
import EdmQuery.Text.CaseFolding
import EdmQuery.Text.CaseMapping
import EdmQuery.Text.Category
import EdmQuery.Text.CharProperties
import EdmQuery.Text.CharRanges
import EdmQuery.Text.Position
import EdmQuery.Type.Basic
import EdmQuery.Value.Basic
import EdmQuery.Value.Container
import EdmQuery.Value.Edit
import EdmQuery.Value.Entity
import EdmQuery.Value.Metadata
import EdmQuery.Value.Reading
import EdmQuery.Proofs.CalendarText
import EdmQuery.Proofs.DecimalText
import EdmQuery.Proofs.EmissionText
import EdmQuery.Proofs.FilterText
import EdmQuery.Proofs.GuidText
import EdmQuery.Proofs.Base64Text
import EdmQuery.Proofs.TemporalText
import EdmQuery.Proofs.KeyText
import EdmQuery.Proofs.Identities
import EdmQuery.Proofs.Related
import EdmQuery.Proofs.Loading
import EdmQuery.Proofs.Completion
import EdmQuery.Proofs.Contexts
import EdmQuery.Proofs.StoredOperands
import EdmQuery.Proofs.ParsedTrees
import EdmQuery.Proofs.Agreement
import EdmQuery.Proofs.ReferencedPaths
import EdmQuery.Proofs.Runs
import EdmQuery.Proofs.Containment
import EdmQuery.Proofs.Supplies
import EdmQuery.Proofs.Copies
import EdmQuery.Proofs.Reading
import EdmQuery.Proofs.Holdings
import EdmQuery.Proofs.Ownership
import EdmQuery.Proofs.Conformance
import EdmQuery.Proofs.Extension
import EdmQuery.Proofs.Preparing
import EdmQuery.Proofs.Stability
import EdmQuery.Proofs.Rereading
import EdmQuery.Proofs.CompiledTypes
import EdmQuery.Proofs.Enrichment
import EdmQuery.Proofs.Resolving
import EdmQuery.Proofs.Rearrangement
import EdmQuery.Proofs.Selecting
import EdmQuery.Proofs.Responses
import EdmQuery.Proofs.ClosedExpressions
import EdmQuery.Proofs.Filling
import EdmQuery.Proofs.QuotedText
import EdmQuery.Proofs.EntityTags
import EdmQuery.Proofs.Reproduction
import EdmQuery.Proofs.Contracts
import EdmQuery.Proofs.Refusals
import EdmQuery.Proofs.Validation
import EdmQuery.Proofs.Registration
import EdmQuery.Proofs.IndentedText
import EdmQuery.Proofs.SealedSchemas
import EdmQuery.Proofs.Layouts
import EdmQuery.Proofs.References
import EdmQuery.Proofs.CompilationOrder
import EdmQuery.Proofs.Outlines
import EdmQuery.Proofs.ReorderedDocuments
import EdmQuery.Proofs.RefusedWrites
import EdmQuery.Proofs.Nesting
import EdmQuery.Proofs.Duality
import EdmQuery.Proofs.SortKeys
import EdmQuery.Proofs.Sorting
import EdmQuery.Proofs.KeyedValues
import EdmQuery.Proofs.LaidOutValues
import EdmQuery.Proofs.MemberNames
import EdmQuery.Proofs.OperandErrors
import EdmQuery.Proofs.ErrorOrigins
import EdmQuery.Proofs.DepthLimit
import EdmQuery.Proofs.Quantifiers
import EdmQuery.Proofs.Membership
import EdmQuery.Proofs.MixedKeys
import EdmQuery.Proofs.OperatorChains
import EdmQuery.Proofs.FollowedText
import EdmQuery.Proofs.MemberLists
import EdmQuery.Proofs.SearchText
import EdmQuery.Proofs.KeyReads
import EdmQuery.Proofs.SearchEscapes
import EdmQuery.Proofs.IntegerLimits
import EdmQuery.Proofs.Separators
import EdmQuery.Proofs.QueryParameters
import EdmQuery.Proofs.WhiteSpace
import EdmQuery.Proofs.TopLevel
import EdmQuery.Proofs.RequestTexts
import EdmQuery.Proofs.RequestReading
import EdmQuery.Proofs.InlineRecords
import EdmQuery.Proofs.Inference
import EdmQuery.Proofs.IntegerArithmetic
import EdmQuery.Proofs.TextPositions
import EdmQuery.Proofs.BinaryRounding
import EdmQuery.Proofs.BinaryBounds
import EdmQuery.Proofs.ShortestDigits
import EdmQuery.Proofs.DecimalPromotion
import EdmQuery.Proofs.NumberText
import EdmQuery.Proofs.DecimalJson
import EdmQuery.Proofs.ControlLevels
import EdmQuery.Proofs.IntegerLiterals
import EdmQuery.Proofs.FaithfulTypes
import EdmQuery.Proofs.TreeLevels
import EdmQuery.Proofs.FewerLevels
import EdmQuery.Proofs.Parentheses
import EdmQuery.Proofs.BalancedTexts
import EdmQuery.Proofs.SearchRemainders
import EdmQuery.Proofs.Locations
