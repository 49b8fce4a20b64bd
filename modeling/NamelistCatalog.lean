import NamelistCatalog.Artifact
import NamelistCatalog.Build
import NamelistCatalog.Build.Error
import NamelistCatalog.Catalog
import NamelistCatalog.Catalog.Query
import NamelistCatalog.Clock
import NamelistCatalog.CommandLine
import NamelistCatalog.CommandLine.Run
import NamelistCatalog.Config
import NamelistCatalog.Config.Yaml
import NamelistCatalog.ContentHash
import NamelistCatalog.Declarations
import NamelistCatalog.Defaults
import NamelistCatalog.Defaults.Doc
import NamelistCatalog.Entry
import NamelistCatalog.Extraction
import NamelistCatalog.Files.Disk
import NamelistCatalog.Files.Fault
import NamelistCatalog.Files.Path
import NamelistCatalog.Files.Tree
import NamelistCatalog.Json
import NamelistCatalog.Layout
import NamelistCatalog.Literal
import NamelistCatalog.Main
import NamelistCatalog.Merge
import NamelistCatalog.Name
import NamelistCatalog.Proofs.Artifact
import NamelistCatalog.Proofs.Artifact.Backup
import NamelistCatalog.Proofs.Association
import NamelistCatalog.Proofs.Build.Accounts
import NamelistCatalog.Proofs.Build.Loading
import NamelistCatalog.Proofs.Build.NewestRelease
import NamelistCatalog.Proofs.Build.Outcome
import NamelistCatalog.Proofs.Build.ReleaseOrder
import NamelistCatalog.Proofs.Build.Supersession
import NamelistCatalog.Proofs.Catalog
import NamelistCatalog.Proofs.Catalog.Query
import NamelistCatalog.Proofs.Catalog.Search
import NamelistCatalog.Proofs.Catalog.Start
import NamelistCatalog.Proofs.ContentHash
import NamelistCatalog.Proofs.ContentHash.Separation
import NamelistCatalog.Proofs.Declarations
import NamelistCatalog.Proofs.Declarations.Entity
import NamelistCatalog.Proofs.Declarations.Length
import NamelistCatalog.Proofs.Declarations.Place
import NamelistCatalog.Proofs.Declarations.RoundTrip
import NamelistCatalog.Proofs.Declarations.Statement
import NamelistCatalog.Proofs.Defaults
import NamelistCatalog.Proofs.Defaults.Assignment
import NamelistCatalog.Proofs.Defaults.Block
import NamelistCatalog.Proofs.Defaults.Doc
import NamelistCatalog.Proofs.Defaults.Heading
import NamelistCatalog.Proofs.Defaults.Parameter
import NamelistCatalog.Proofs.Defaults.Records
import NamelistCatalog.Proofs.Defaults.Rendering
import NamelistCatalog.Proofs.Defaults.RoundTrip
import NamelistCatalog.Proofs.Except
import NamelistCatalog.Proofs.Extraction
import NamelistCatalog.Proofs.Extraction.Accounts
import NamelistCatalog.Proofs.Extraction.Join
import NamelistCatalog.Proofs.Extraction.Progress
import NamelistCatalog.Proofs.Files.Change
import NamelistCatalog.Proofs.Files.Mishap
import NamelistCatalog.Proofs.Files.Path
import NamelistCatalog.Proofs.Files.Place
import NamelistCatalog.Proofs.Layout
import NamelistCatalog.Proofs.Literal
import NamelistCatalog.Proofs.Merge
import NamelistCatalog.Proofs.Merge.Choice
import NamelistCatalog.Proofs.Merge.Decisions
import NamelistCatalog.Proofs.Merge.Stages
import NamelistCatalog.Proofs.Name
import NamelistCatalog.Proofs.Scans
import NamelistCatalog.Proofs.Statement.BrokenString
import NamelistCatalog.Proofs.Statement.Layout
import NamelistCatalog.Proofs.Statement.Line
import NamelistCatalog.Proofs.Statement.Nesting
import NamelistCatalog.Proofs.Statement.Parentheses
import NamelistCatalog.Proofs.Statement.Scan
import NamelistCatalog.Proofs.Statement.Splitting
import NamelistCatalog.Proofs.Statement.TopLevel
import NamelistCatalog.Proofs.Store.Classification
import NamelistCatalog.Proofs.Store.History
import NamelistCatalog.Proofs.Store.Image
import NamelistCatalog.Proofs.Store.Metadata
import NamelistCatalog.Proofs.Store.NulFree
import NamelistCatalog.Proofs.Store.Reading
import NamelistCatalog.Proofs.Store.RoundTrip
import NamelistCatalog.Proofs.Store.Rows
import NamelistCatalog.Proofs.Store.Tampering
import NamelistCatalog.Proofs.Store.Transaction
import NamelistCatalog.Proofs.Store.Writing
import NamelistCatalog.Proofs.Summary
import NamelistCatalog.Proofs.Text.Bytes
import NamelistCatalog.Proofs.Text.Case
import NamelistCatalog.Proofs.Text.Join
import NamelistCatalog.Proofs.Text.Lines
import NamelistCatalog.Proofs.Text.Numeral
import NamelistCatalog.Proofs.Text.Paragraphs
import NamelistCatalog.Proofs.Text.Search
import NamelistCatalog.Proofs.Text.Trim
import NamelistCatalog.Proofs.Text.Words
import NamelistCatalog.Proofs.Version
import NamelistCatalog.Proofs.Version.Numbers
import NamelistCatalog.Sha256
import NamelistCatalog.Source
import NamelistCatalog.Statement
import NamelistCatalog.Statement.Line
import NamelistCatalog.Statement.Nesting
import NamelistCatalog.Store
import NamelistCatalog.Store.Edit
import NamelistCatalog.Store.Error
import NamelistCatalog.Store.Image
import NamelistCatalog.Store.Sqlite
import NamelistCatalog.Store.Storage
import NamelistCatalog.Summary
import NamelistCatalog.Text.Blank
import NamelistCatalog.Text.Case
import NamelistCatalog.Text.CaseTable
import NamelistCatalog.Text.ClassTable
import NamelistCatalog.Text.Decimal
import NamelistCatalog.Text.Lines
import NamelistCatalog.Text.Ranges
import NamelistCatalog.Text.Search
import NamelistCatalog.Text.Utf8
import NamelistCatalog.Validation
import NamelistCatalog.Version
import NamelistCatalog.Warning
import NamelistCatalog.Yaml
import NamelistCatalog.Yaml.Reader
import NamelistCatalog.Yaml.Resolution
import NamelistCatalog.Yaml.Scalar
import NamelistCatalog.Yaml.Writer
