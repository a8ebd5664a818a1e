import ErrorHints.Candidate
import ErrorHints.Distinct
import ErrorHints.DottedName
import ErrorHints.Engine
import ErrorHints.FieldName
import ErrorHints.Fields
import ErrorHints.Files.Host
import ErrorHints.Files.Path
import ErrorHints.Files.Tree
import ErrorHints.Grammar.Phrasing
import ErrorHints.Grammar.Standard
import ErrorHints.Grammar.Table
import ErrorHints.Hexadecimal
import ErrorHints.Json
import ErrorHints.Kind
import ErrorHints.KindIndex
import ErrorHints.Knowledge.Basic
import ErrorHints.Knowledge.Settings
import ErrorHints.Knowledge.Standard
import ErrorHints.Pattern.Automaton
import ErrorHints.Pattern.Basic
import ErrorHints.Pattern.CharSet
import ErrorHints.Pattern.CharSet.Table
import ErrorHints.Pattern.Finds
import ErrorHints.Pattern.Footprint
import ErrorHints.Pattern.Joining
import ErrorHints.Pattern.Matcher
import ErrorHints.Pattern.Memo
import ErrorHints.Pattern.Reader
import ErrorHints.Pattern.SetReader
import ErrorHints.Proofs.Pattern.Reading
import ErrorHints.Registry
import ErrorHints.Report
import ErrorHints.Rounding
import ErrorHints.Similarity.Block
import ErrorHints.Similarity.CloseMatches
import ErrorHints.Similarity.Matching
import ErrorHints.Similarity.Score
import ErrorHints.Similarity.Stock
import ErrorHints.Slots
import ErrorHints.SourceLine
import ErrorHints.Strategy.Basic
import ErrorHints.Strategy.Curated
import ErrorHints.Strategy.FileTree
import ErrorHints.Strategy.Likeness
import ErrorHints.Strategy.Receiver
import ErrorHints.Strategy.Scope
import ErrorHints.Strategy.SourceCode
import ErrorHints.Suffix
import ErrorHints.Symbols.Environment
import ErrorHints.Symbols.Resolver
import ErrorHints.Symbols.Tier
import ErrorHints.Symbols.Value
import ErrorHints.Unicode.AlphabeticRanges
import ErrorHints.Unicode.ByteRanges
import ErrorHints.Unicode.Classes
import ErrorHints.Unicode.DecimalRanges
import ErrorHints.Unicode.NumberRanges
import ErrorHints.Unicode.WordRanges
import ErrorHints.Proofs.Pattern.Walk
import ErrorHints.Proofs.Pattern.Search
import ErrorHints.Proofs.Pattern.Rendering
import ErrorHints.Proofs.Pattern.Splitting
import ErrorHints.Proofs.Pattern.Ways
import ErrorHints.Proofs.Pattern.Preference
import ErrorHints.Proofs.Pattern.Finding
import ErrorHints.Proofs.SourceLine.Cuts
import ErrorHints.Proofs.SourceLine.Integers
import ErrorHints.Proofs.SourceLine.Calls
import ErrorHints.Proofs.Grammar.RoundTrip
import ErrorHints.Proofs.Diagnosis
import ErrorHints.Proofs.Pattern.Outline
import ErrorHints.Proofs.Grammar.Overlap
import ErrorHints.Proofs.Similarity.LongestBlock
import ErrorHints.Proofs.Similarity.Exhaustive
import ErrorHints.Proofs.Similarity.Bounds
import ErrorHints.Proofs.Engine.Isolation
import ErrorHints.Proofs.Grammar.Suffixed
import ErrorHints.Proofs.Engine.Unclassified
import ErrorHints.Proofs.Engine.Recapture
import ErrorHints.Proofs.Engine.Wording
import ErrorHints.Proofs.Lifecycle
import ErrorHints.Proofs.Engine.Relevance
import ErrorHints.Proofs.Engine.Demands
import ErrorHints.Proofs.Grammar.Construction
import ErrorHints.Proofs.Symbols.Caching
import ErrorHints.Proofs.Symbols.Insertion
import ErrorHints.Proofs.Symbols.Views
import ErrorHints.Proofs.Engine.Undefined
import ErrorHints.Proofs.Engine.Exposure
import ErrorHints.Proofs.Similarity.Ranking
import ErrorHints.Proofs.Similarity.FoundBlocks
import ErrorHints.Proofs.Similarity.Renaming
import ErrorHints.Proofs.Similarity.WindowSearch
import ErrorHints.Proofs.Knowledge.KeyOrder
import ErrorHints.Proofs.Knowledge.Validation
import ErrorHints.Proofs.Pattern.Replacing
import ErrorHints.Proofs.Files.Expansion
import ErrorHints.Proofs.Files.Parent
import ErrorHints.Proofs.Files.Listing
import ErrorHints.Proofs.Stripping
import ErrorHints.Proofs.Knowledge.Synonyms
