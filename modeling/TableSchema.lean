import TableSchema.Main
import TableSchema.Session
import TableSchema.Sql.Blanking
import TableSchema.Proofs.Regions
import TableSchema.Proofs.Segments
import TableSchema.Proofs.Masking
import TableSchema.Proofs.Scanning
import TableSchema.Proofs.Headers
import TableSchema.Proofs.Bodies
import TableSchema.Proofs.StrippedScripts
import TableSchema.Proofs.Pieces
import TableSchema.Proofs.Reading
import TableSchema.Proofs.StrippedClauses
import TableSchema.Proofs.CommentFree
import TableSchema.Proofs.Parentheses
import TableSchema.Proofs.SelfContained
import TableSchema.Proofs.Quoting
import TableSchema.Proofs.Generated
import TableSchema.Proofs.Rereading
import TableSchema.Proofs.TypeLabels
import TableSchema.Proofs.PlainColumns
import TableSchema.Proofs.RoundTrip
import TableSchema.Proofs.Marks
import TableSchema.Proofs.Labels
import TableSchema.Proofs.Weights
import TableSchema.Proofs.Wordings
import TableSchema.Proofs.SpelledOut
import TableSchema.Proofs.KeptColumns
import TableSchema.Proofs.KeptTables
import TableSchema.Proofs.Unambiguous
import TableSchema.Proofs.Regeneration
import TableSchema.Proofs.RegionEnds
import TableSchema.Proofs.Tokens
import TableSchema.Proofs.Tokenisation
import TableSchema.Proofs.HeaderPattern
import TableSchema.Proofs.HeaderSites
import TableSchema.Proofs.HeaderAccount
import TableSchema.Proofs.ClauseAccount
import TableSchema.Proofs.Concatenation
import TableSchema.Proofs.WrittenStatements
import TableSchema.Proofs.ClauseSpans
import TableSchema.Proofs.Hiding
import TableSchema.Proofs.PhrasesInCode
import TableSchema.Proofs.CommentOwners
import TableSchema.Proofs.Descriptions
import TableSchema.Proofs.DocumentInvariants
import TableSchema.Proofs.SourceSearch
import TableSchema.Proofs.Exchanges
import TableSchema.Proofs.Respacing
import TableSchema.Proofs.RespacedHeaders
import TableSchema.Proofs.Variations
import TableSchema.Proofs.OwnersInOrder
import TableSchema.Proofs.Cells
import TableSchema.Proofs.VariedColumns
import TableSchema.Proofs.VariedClauses
import TableSchema.Proofs.VariedScripts
import TableSchema.Proofs.StringContents
import TableSchema.Proofs.RespacedSegments
import TableSchema.Proofs.Layout
import TableSchema.Proofs.LineEnds
import TableSchema.Proofs.CsvReading
import TableSchema.Proofs.JsonStrings
import TableSchema.Proofs.JsonReading
import TableSchema.Proofs.JsonDocuments
import TableSchema.Proofs.LetterCase
import TableSchema.Proofs.SessionMemory
import TableSchema.Proofs.ConfigFaults
import TableSchema.Proofs.Visibility
import TableSchema.Proofs.CutClauses
import TableSchema.Proofs.JoinedBodies
import TableSchema.Proofs.ReportedPlaces
import TableSchema.Proofs.ConstraintTests
import TableSchema.Proofs.DollarsInNames
import TableSchema.Proofs.Spellings
import TableSchema.Proofs.ColumnTypes
import TableSchema.Proofs.OutermostGroups
import TableSchema.Proofs.TypeParameters
import TableSchema.Proofs.ColumnConstraints
import TableSchema.Proofs.BlankedSpans
import TableSchema.Proofs.Utf8Decoding
import TableSchema.Proofs.LoadedTexts
import TableSchema.Proofs.CandidatePaths
import TableSchema.Proofs.ValidConfigs
import TableSchema.Proofs.ConfigSettings
import TableSchema.Proofs.ReportLines
import TableSchema.Proofs.DialectScripts
import TableSchema.Proofs.StrippedRegions
import TableSchema.Proofs.LongerTexts
import TableSchema.Proofs.DownloadNames
