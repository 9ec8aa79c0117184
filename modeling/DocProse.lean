import DocProse.CommandLine.Arguments
import DocProse.CommandLine.Run
import DocProse.Comment.Description
import DocProse.Decimal.Nearest
import DocProse.Decimal.Notation
import DocProse.Decimal.Shortest
import DocProse.Dialect
import DocProse.Document
import DocProse.Document.Format
import DocProse.Error
import DocProse.FileTree
import DocProse.Ignore.Pattern
import DocProse.Ignore.Rules
import DocProse.Json.Number
import DocProse.Json.Printer
import DocProse.Json.Reader
import DocProse.Json.Schema
import DocProse.Json.Value
import DocProse.LineTable
import DocProse.Listing
import DocProse.Main
import DocProse.Path
import DocProse.Position
import DocProse.Processor
import DocProse.Proofs.Advertising
import DocProse.Proofs.BlockComments
import DocProse.Proofs.BlockTags
import DocProse.Proofs.Building
import DocProse.Proofs.ByteCursor
import DocProse.Proofs.CommentBody
import DocProse.Proofs.CommentLines
import DocProse.Proofs.CommentPlaces
import DocProse.Proofs.CommentSequence
import DocProse.Proofs.Concatenation
import DocProse.Proofs.Cursor
import DocProse.Proofs.Description
import DocProse.Proofs.DescriptionImage
import DocProse.Proofs.Dialects
import DocProse.Proofs.Dispatch
import DocProse.Proofs.DocumentShape
import DocProse.Proofs.Entries
import DocProse.Proofs.EntryCount
import DocProse.Proofs.Extensions
import DocProse.Proofs.FileIsolation
import DocProse.Proofs.FirstFault
import DocProse.Proofs.JsonAtoms
import DocProse.Proofs.JsonText
import DocProse.Proofs.Layout
import DocProse.Proofs.LineBreaks
import DocProse.Proofs.LineContents
import DocProse.Proofs.LineEndings
import DocProse.Proofs.LineLookup
import DocProse.Proofs.Lines
import DocProse.Proofs.ListingContents
import DocProse.Proofs.ListingLines
import DocProse.Proofs.ObjectFields
import DocProse.Proofs.OffsetBijection
import DocProse.Proofs.OneLine
import DocProse.Proofs.PathsBelow
import DocProse.Proofs.Pieces
import DocProse.Proofs.Places
import DocProse.Proofs.PositionOrder
import DocProse.Proofs.PrintedDocuments
import DocProse.Proofs.Reading
import DocProse.Proofs.RecordForms
import DocProse.Proofs.RoundTrip
import DocProse.Proofs.RowOrder
import DocProse.Proofs.SettingsSources
import DocProse.Proofs.Shapes
import DocProse.Proofs.Skeletons
import DocProse.Proofs.SourceConsistency
import DocProse.Proofs.SourceOrder
import DocProse.Proofs.TextTables
import DocProse.Proofs.Trimming
import DocProse.Proofs.VisibleText
import DocProse.Settings
import DocProse.Settings.File
import DocProse.Source.Comments
import DocProse.Source.Grammar
import DocProse.Source.Lexeme
import DocProse.Source.Markup
import DocProse.Source.Scan
import DocProse.SyntaxTree
import DocProse.Text.Blank
import DocProse.Text.Bytes
import DocProse.Text.Lines
import DocProse.Text.Printable
import DocProse.Text.Quoted
import DocProse.Theme
import DocProse.Toml.Number
import DocProse.Toml.Reader
import DocProse.Toml.Table
import DocProse.Toml.Text
import DocProse.TypeScript
import DocProse.Walk
