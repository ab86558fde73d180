import SchemaLoom.Calendar
import SchemaLoom.Choice
import SchemaLoom.CommandLine
import SchemaLoom.Config
import SchemaLoom.Conversion
import SchemaLoom.Digest.Sha256
import SchemaLoom.Distinct
import SchemaLoom.Files.Path
import SchemaLoom.Files.Store
import SchemaLoom.Json.Literal
import SchemaLoom.Json.Reader
import SchemaLoom.Json.Value
import SchemaLoom.Json.Writer
import SchemaLoom.JsonSchema.Check
import SchemaLoom.JsonSchema.Convert
import SchemaLoom.JsonSchema.Draft
import SchemaLoom.JsonSchema.Metaschema
import SchemaLoom.JsonSchema.Rule
import SchemaLoom.Main
import SchemaLoom.Number.Binary64
import SchemaLoom.Number.Decimal
import SchemaLoom.Number.Integer
import SchemaLoom.Operation
import SchemaLoom.Profile.Attribute
import SchemaLoom.Profile.Declaration
import SchemaLoom.Profile.Document
import SchemaLoom.Profile.Facet
import SchemaLoom.Profile.Notice
import SchemaLoom.Profile.Primitive
import SchemaLoom.Profile.Range
import SchemaLoom.Profile.Shape
import SchemaLoom.Profile.Siblings
import SchemaLoom.Proofs.Files.Path
import SchemaLoom.Proofs.Files.Store
import SchemaLoom.Proofs.Json.Line
import SchemaLoom.Proofs.Json.Members
import SchemaLoom.Proofs.JsonSchema.Validity
import SchemaLoom.Proofs.Number.Decimal
import SchemaLoom.Proofs.Profile.Declaration
import SchemaLoom.Proofs.Profile.Document
import SchemaLoom.Proofs.Profile.Range
import SchemaLoom.Proofs.Profile.Siblings
import SchemaLoom.Proofs.Profile.Walk
import SchemaLoom.Proofs.Sample.Conformance
import SchemaLoom.Proofs.Sample.Specimen
import SchemaLoom.Proofs.Sample.Tag
import SchemaLoom.Proofs.Sample.Validity
import SchemaLoom.Proofs.Sample.Value
import SchemaLoom.Proofs.Text.Case
import SchemaLoom.Proofs.Traversal
import SchemaLoom.Proofs.Xml.Dtd
import SchemaLoom.Proofs.Xml.Layout
import SchemaLoom.Proofs.Xml.Legal
import SchemaLoom.Proofs.Xml.Reader
import SchemaLoom.Proofs.Xml.Tree
import SchemaLoom.Proofs.Xsd.Building
import SchemaLoom.Proofs.Xsd.Census
import SchemaLoom.Proofs.Xsd.Closure
import SchemaLoom.Proofs.Xsd.Compiling
import SchemaLoom.Proofs.Xsd.Drafting
import SchemaLoom.Proofs.Xsd.Expansion
import SchemaLoom.Proofs.Xsd.Fingerprint
import SchemaLoom.Proofs.Xsd.Judgement
import SchemaLoom.Proofs.Xsd.Ledger
import SchemaLoom.Proofs.Xsd.Likeness
import SchemaLoom.Proofs.Xsd.Memo
import SchemaLoom.Proofs.Xsd.Modes
import SchemaLoom.Proofs.Xsd.Names
import SchemaLoom.Proofs.Xsd.Rearrangement
import SchemaLoom.Proofs.Xsd.Registry
import SchemaLoom.Proofs.Xsd.Roots
import SchemaLoom.Proofs.Xsd.Session
import SchemaLoom.Proofs.Xsd.Sharing
import SchemaLoom.Proofs.Xsd.Signature
import SchemaLoom.Proofs.Xsd.Strictness
import SchemaLoom.Proofs.Xsd.Validity
import SchemaLoom.Sample.Document
import SchemaLoom.Sample.Json
import SchemaLoom.Sample.Value
import SchemaLoom.Text.Base64
import SchemaLoom.Text.Blank
import SchemaLoom.Text.Case
import SchemaLoom.Text.CaseTable
import SchemaLoom.Text.Digit
import SchemaLoom.Text.Line
import SchemaLoom.Text.Printable
import SchemaLoom.Text.Quoted
import SchemaLoom.Text.Surrogate
import SchemaLoom.Text.Utf8
import SchemaLoom.Uri
import SchemaLoom.Xml.Declaration
import SchemaLoom.Xml.Dtd
import SchemaLoom.Xml.Encoding
import SchemaLoom.Xml.Entity
import SchemaLoom.Xml.Name
import SchemaLoom.Xml.Naming
import SchemaLoom.Xml.Piece
import SchemaLoom.Xml.Reader
import SchemaLoom.Xml.Tree
import SchemaLoom.Xml.Writer
import SchemaLoom.Xsd.Check
import SchemaLoom.Xsd.Compile
import SchemaLoom.Xsd.Pattern
import SchemaLoom.Xsd.Registry
import SchemaLoom.Xsd.Render
import SchemaLoom.Xsd.Schema
import SchemaLoom.Xsd.Signature
import SchemaLoom.Yaml.Cursor
import SchemaLoom.Yaml.Fault
import SchemaLoom.Yaml.Meaning
import SchemaLoom.Yaml.Node
import SchemaLoom.Yaml.Scalar
import SchemaLoom.Yaml.Time
import SchemaLoom.Yaml.Token
import SchemaLoom.Yaml.Value
import SchemaLoom.Yaml.Writer
import SchemaLoom.Proofs.Conversion
import SchemaLoom.Proofs.CommandLine
import SchemaLoom.Proofs.Delivery
import SchemaLoom.Proofs.JsonSchema.Metaschema
import SchemaLoom.Proofs.JsonSchema.Soundness
import SchemaLoom.Proofs.Json.Reading
import SchemaLoom.Proofs.Xsd.Recall
import SchemaLoom.Proofs.Xsd.Outline
import SchemaLoom.Proofs.Xsd.Repetition
import SchemaLoom.Proofs.Xml.Escaping
import SchemaLoom.Proofs.Xml.Scanning
import SchemaLoom.Proofs.Xml.Assembly
import SchemaLoom.Proofs.Xml.RoundTrip
import SchemaLoom.Proofs.Xml.Opening
import SchemaLoom.Proofs.Xsd.Reading
import SchemaLoom.Proofs.Xsd.Verdict
import SchemaLoom.Proofs.Xsd.Atomicity
import SchemaLoom.Proofs.Xsd.Substitution
import SchemaLoom.Proofs.Xsd.Extension
import SchemaLoom.Proofs.Xsd.Economy
import SchemaLoom.Proofs.Xsd.Occurrence
import SchemaLoom.Proofs.JsonSchema.Reference
import SchemaLoom.Proofs.Xsd.Acceptance
import SchemaLoom.Proofs.Profile.Partition
import SchemaLoom.Proofs.Profile.Semilattice
import SchemaLoom.Proofs.Xsd.Allocation
import SchemaLoom.Proofs.Files.Normal
import SchemaLoom.Proofs.Operation
import SchemaLoom.Proofs.Config
import SchemaLoom.Proofs.Xsd.Sorting
import SchemaLoom.Proofs.Xml.Height
import SchemaLoom.Proofs.Xml.Settled
import SchemaLoom.Proofs.Xsd.Settling
import SchemaLoom.Proofs.Sample.Reading
import SchemaLoom.Proofs.Xsd.Orderly
