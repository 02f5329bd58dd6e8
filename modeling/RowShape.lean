import RowShape.Catalog
import RowShape.Coercion
import RowShape.Config
import RowShape.Context
import RowShape.Definition
import RowShape.Document.Fault
import RowShape.Document.Reading
import RowShape.Document.Tag
import RowShape.Error
import RowShape.Fetching
import RowShape.Field
import RowShape.Files.Basic
import RowShape.Files.Tree
import RowShape.Inspection
import RowShape.Json.Basic
import RowShape.Json.Reader
import RowShape.Json.Token
import RowShape.Json.Writer
import RowShape.Number.Bounds
import RowShape.Number.Decimal
import RowShape.Number.Double
import RowShape.Number.Layout
import RowShape.Number.Numeral
import RowShape.Number.Shortest
import RowShape.Parameter
import RowShape.Path
import RowShape.Proofs.Assembly
import RowShape.Proofs.Basic
import RowShape.Proofs.Binding
import RowShape.Proofs.Blanks
import RowShape.Proofs.Causality
import RowShape.Proofs.Cells
import RowShape.Proofs.Confinement
import RowShape.Proofs.Conformance
import RowShape.Proofs.Constants
import RowShape.Proofs.Conversions
import RowShape.Proofs.DeclaredTypes
import RowShape.Proofs.DialectNames
import RowShape.Proofs.Failures
import RowShape.Proofs.Fractions
import RowShape.Proofs.Grammar
import RowShape.Proofs.KeyOrder
import RowShape.Proofs.Keyed
import RowShape.Proofs.Layouts
import RowShape.Proofs.LeadingIntegers
import RowShape.Proofs.Locating
import RowShape.Proofs.NumberTexts
import RowShape.Proofs.NumeralBytes
import RowShape.Proofs.Numerals
import RowShape.Proofs.Placeholders
import RowShape.Proofs.Providers
import RowShape.Proofs.QueryTexts
import RowShape.Proofs.Readers
import RowShape.Proofs.Reading
import RowShape.Proofs.Runs
import RowShape.Proofs.Scoping
import RowShape.Proofs.Splitting
import RowShape.Proofs.Stepwise
import RowShape.Proofs.TagTypes
import RowShape.Proofs.Terminators
import RowShape.Proofs.Timestamps
import RowShape.Proofs.TomlTexts
import RowShape.Proofs.Windows
import RowShape.Rendering
import RowShape.Sql.DeclaredType
import RowShape.Sql.Dialect
import RowShape.Sqlite.Binding
import RowShape.Sqlite.Cell
import RowShape.Sqlite.Conversion
import RowShape.Sqlite.Database
import RowShape.Sqlite.Statement
import RowShape.Sqlite.Word
import RowShape.Template
import RowShape.Text.Blank
import RowShape.Text.Printable
import RowShape.Text.Search
import RowShape.Text.Utf8
import RowShape.Time.Calendar
import RowShape.Time.Reading
import RowShape.Time.Timestamp
import RowShape.Toml.Basic
import RowShape.Toml.Reader
import RowShape.Toml.Scalar
import RowShape.Toml.Text
