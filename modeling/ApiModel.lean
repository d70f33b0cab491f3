import ApiModel.Class
import ApiModel.Class.Discovery
import ApiModel.Class.Members
import ApiModel.Class.Rule
import ApiModel.CommandLine
import ApiModel.Config
import ApiModel.Config.Reading
import ApiModel.DataType
import ApiModel.DataType.Resolution
import ApiModel.DataType.Rule
import ApiModel.Decimal.Reading
import ApiModel.Decimal.Shortest
import ApiModel.Document
import ApiModel.Error
import ApiModel.FileTree
import ApiModel.Identifier
import ApiModel.Json.Number
import ApiModel.Json.Reader
import ApiModel.Json.Writer
import ApiModel.Keyed
import ApiModel.Main
import ApiModel.Operation
import ApiModel.Operation.Naming
import ApiModel.Operation.PathTemplate
import ApiModel.Path
import ApiModel.Pointer
import ApiModel.Proofs.Class.Discovery
import ApiModel.Proofs.Class.Rule
import ApiModel.Proofs.DataType.Resolution
import ApiModel.Proofs.DataType.Rule
import ApiModel.Proofs.DataType.Termination
import ApiModel.Proofs.Document
import ApiModel.Proofs.Document.Occurrences
import ApiModel.Proofs.Keyed
import ApiModel.Proofs.Pointer
import ApiModel.Proofs.Property.Resolution
import ApiModel.Proofs.Property.Unfolding
import ApiModel.Proofs.Reference
import ApiModel.Proofs.Registry.Addressing
import ApiModel.Proofs.Registry.Assembly
import ApiModel.Proofs.Registry.Evaluation
import ApiModel.Proofs.Registry.Frame
import ApiModel.Proofs.Registry.Following
import ApiModel.Proofs.Registry.Inline
import ApiModel.Proofs.Registry.Integrity
import ApiModel.Proofs.Registry.Likeness
import ApiModel.Proofs.Registry.Lookup
import ApiModel.Proofs.Registry.Members
import ApiModel.Proofs.Registry.Order
import ApiModel.Proofs.Registry.Placement
import ApiModel.Proofs.Registry.Reachability
import ApiModel.Proofs.Registry.Reading
import ApiModel.Proofs.Registry.Separation
import ApiModel.Proofs.Registry.Sweep
import ApiModel.Proofs.Registry.Unions
import ApiModel.Proofs.Registry.Whitelist
import ApiModel.Proofs.Site
import ApiModel.Proofs.Text.Percent
import ApiModel.Proofs.Text.Utf8
import ApiModel.Proofs.Traversal
import ApiModel.Property
import ApiModel.Property.Resolution
import ApiModel.Property.Rule
import ApiModel.Reference
import ApiModel.Registry
import ApiModel.Registry.Build
import ApiModel.Registry.Following
import ApiModel.Registry.Reachability
import ApiModel.Registry.Unions
import ApiModel.Registry.Whitelist
import ApiModel.Report
import ApiModel.Rules
import ApiModel.Schema
import ApiModel.Site
import ApiModel.Source
import ApiModel.Text.Case
import ApiModel.Text.CaseTable
import ApiModel.Text.LetterTable
import ApiModel.Text.Percent
import ApiModel.Text.Singular
import ApiModel.Text.Transliteration
import ApiModel.Text.UpperCamel
import ApiModel.Text.Utf8
import ApiModel.Text.Words
import ApiModel.Url
import ApiModel.Url.Host
import ApiModel.Yaml.Cursor
import ApiModel.Yaml.Graph
import ApiModel.Yaml.Node
import ApiModel.Yaml.Scalar
import ApiModel.Yaml.ScalarText
import ApiModel.Yaml.TagText
import ApiModel.Yaml.Token
import ApiModel.Yaml.Token.Reading
import ApiModel.Proofs.Reference.Paths
import ApiModel.Proofs.Resolver
import ApiModel.Proofs.DataType.Objects
import ApiModel.Proofs.DataType.Aliases
import ApiModel.Proofs.Registry.Location
import ApiModel.Proofs.Registry.Extensions
import ApiModel.Proofs.Registry.Nullability
import ApiModel.Proofs.Registry.Spelling
import ApiModel.Proofs.Class.Coverage
import ApiModel.Proofs.Registry.Coverage
import ApiModel.Proofs.Registry.Distinct
import ApiModel.Proofs.Registry.Hydration
import ApiModel.Proofs.Config.Failure
import ApiModel.Proofs.Registry.Naming
import ApiModel.Storage
import ApiModel.Storage.Build
import ApiModel.Storage.Edit
import ApiModel.Proofs.Registry.Growth
import ApiModel.Proofs.Storage.Filing
import ApiModel.Proofs.Storage.Lookup
import ApiModel.Proofs.Storage.Passes
import ApiModel.Proofs.Storage.Runs
import ApiModel.Proofs.Class.Repetition
import ApiModel.Proofs.Registry.Identifiers
import ApiModel.Proofs.Class.Registration
import ApiModel.Proofs.Registry.Repetition
import ApiModel.Proofs.Registry.Relations
import ApiModel.Proofs.Operation.Naming
import ApiModel.Proofs.Text.Words
import ApiModel.Proofs.Operation.Casing
import ApiModel.Proofs.Property.Requirement
import ApiModel.Proofs.Operation.Extension
import ApiModel.Proofs.Url.Relative
import ApiModel.Proofs.Reference.Relative
import ApiModel.Proofs.Text.Folding
import ApiModel.Proofs.Text.Settled
import ApiModel.Proofs.Text.Slices
import ApiModel.Proofs.Text.Transliteration
import ApiModel.Proofs.Config.Loading
import ApiModel.Proofs.Yaml.Graph
import ApiModel.Proofs.Yaml.Node
import ApiModel.Proofs.Yaml.Tokens
