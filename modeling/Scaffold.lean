import Scaffold.Attribute.Basic
import Scaffold.Attribute.Record
import Scaffold.Calendar
import Scaffold.Column.Expression
import Scaffold.Column.Type
import Scaffold.CommandLine.Arguments
import Scaffold.CommandLine.Flag
import Scaffold.CommandLine.Needs
import Scaffold.CommandLine.Session
import Scaffold.Decimal.Double
import Scaffold.Decimal.Numeral
import Scaffold.Decimal.Shortest
import Scaffold.Decimal.Written
import Scaffold.Digest.Sha256
import Scaffold.Disk.Content
import Scaffold.Disk.Path
import Scaffold.Disk.Tree
import Scaffold.Disk.Write
import Scaffold.Document.Describe
import Scaffold.Document.Fault
import Scaffold.Document.File
import Scaffold.Document.Json
import Scaffold.Document.JsonText
import Scaffold.Document.Switch
import Scaffold.Document.Value
import Scaffold.Document.Yaml.Cursor
import Scaffold.Document.Yaml.Directive
import Scaffold.Document.Yaml.Error
import Scaffold.Document.Yaml.Node
import Scaffold.Document.Yaml.Read
import Scaffold.Document.Yaml.Scalar
import Scaffold.Document.Yaml.ScalarText
import Scaffold.Document.Yaml.Spelling
import Scaffold.Document.Yaml.Tag
import Scaffold.Document.Yaml.Token
import Scaffold.Entity.Descriptor
import Scaffold.Entity.Discovery
import Scaffold.Entity.Registry
import Scaffold.Entity.Target
import Scaffold.Export.Basic
import Scaffold.Export.Manifest
import Scaffold.Factory.Expression
import Scaffold.Index.Basic
import Scaffold.Keyed
import Scaffold.Ledger.Basic
import Scaffold.Ledger.Store
import Scaffold.Log
import Scaffold.Main
import Scaffold.Migration.Key
import Scaffold.Migration.Moment
import Scaffold.Migration.Order
import Scaffold.Migration.Sequence
import Scaffold.Module.Compilation
import Scaffold.Module.Component
import Scaffold.Module.Config
import Scaffold.Module.Definition
import Scaffold.Module.Document
import Scaffold.Module.Loading
import Scaffold.Module.Review
import Scaffold.Output.Aggregate
import Scaffold.Output.Entity
import Scaffold.Output.File
import Scaffold.Output.Plan
import Scaffold.Php.Literal
import Scaffold.Relation.Basic
import Scaffold.Relation.Method
import Scaffold.Relation.Record
import Scaffold.Run.Basic
import Scaffold.Run.Generate
import Scaffold.Run.Rendering
import Scaffold.Run.Report
import Scaffold.Run.Selection
import Scaffold.Schema.Basic
import Scaffold.Schema.Projection
import Scaffold.Schema.Record
import Scaffold.Setup.Basic
import Scaffold.Setup.Example
import Scaffold.Stub.Builtin
import Scaffold.Stub.Placeholder
import Scaffold.Stub.Shelf
import Scaffold.Text.Base64
import Scaffold.Text.Blank
import Scaffold.Text.DecimalDigit
import Scaffold.Text.Identifier
import Scaffold.Text.Inflection
import Scaffold.Text.Lines
import Scaffold.Text.Printable
import Scaffold.Text.Quoted
import Scaffold.Text.WordCharacter
import Scaffold.Text.Words
import Scaffold.Violation
import Scaffold.Proofs.Migration.CallHistory
import Scaffold.Proofs.Migration.CreationOrder
import Scaffold.Proofs.Migration.KeyAssignment
import Scaffold.Proofs.Disk.Growth
import Scaffold.Proofs.Disk.Listing
import Scaffold.Proofs.Document.JsonRoundTrip
import Scaffold.Proofs.Entity.Agreement
import Scaffold.Proofs.Entity.Discovery
import Scaffold.Proofs.Export.Effect
import Scaffold.Proofs.Ledger.Saving
import Scaffold.Proofs.Migration.ExistingKeys
import Scaffold.Proofs.Module.Naming
import Scaffold.Proofs.Output.Rendering
import Scaffold.Proofs.Run.Exporting
import Scaffold.Proofs.Run.Idempotence
import Scaffold.Proofs.Attribute.Grammar
import Scaffold.Proofs.Module.ReviewAgreement
import Scaffold.Proofs.Run.Layers
import Scaffold.Proofs.Attribute.Allowance
import Scaffold.Proofs.Schema.Creation
import Scaffold.Proofs.Schema.IndexPlacement
import Scaffold.Proofs.Php.Literal
import Scaffold.Proofs.Php.ArgumentList
import Scaffold.Proofs.Column.CallChain
import Scaffold.Proofs.Column.Distinction
import Scaffold.Proofs.Php.Binding
import Scaffold.Proofs.Relation.Fields
import Scaffold.Proofs.Relation.Binding
import Scaffold.Proofs.Disk.Writing
import Scaffold.Proofs.Export.Outcome
import Scaffold.Proofs.Export.Account
import Scaffold.Proofs.Export.DryRun
import Scaffold.Proofs.Output.Spelling
import Scaffold.Proofs.Run.Containment
import Scaffold.Proofs.Output.Bundles
import Scaffold.Proofs.Run.Bundles
import Scaffold.Proofs.Run.FirstRun
import Scaffold.Proofs.Migration.Stability
import Scaffold.Ledger.Call
import Scaffold.Proofs.Disk.Absence
import Scaffold.Proofs.Factory.ForeignTarget
import Scaffold.Proofs.Module.SiblingIndependence
import Scaffold.Proofs.Ledger.Reloading
import Scaffold.Proofs.Ledger.Calls
import Scaffold.Proofs.Column.ConstraintClauses
import Scaffold.Proofs.Factory.DeclarationOrder
import Scaffold.Proofs.Text.Inflection
import Scaffold.Proofs.Text.Humps
import Scaffold.Proofs.Text.TableName
import Scaffold.Proofs.Text.Correspondence
import Scaffold.Proofs.Factory.SiblingTarget
import Scaffold.Proofs.Export.Records
import Scaffold.Proofs.Output.Migration
import Scaffold.Proofs.Run.TableMigration
import Scaffold.Proofs.Schema.KnownColumns
import Scaffold.Proofs.Text.Separated
import Scaffold.Proofs.Text.Identifier
import Scaffold.Proofs.Schema.RequestRules
import Scaffold.Proofs.Relation.Names
import Scaffold.Proofs.Entity.CompiledTargets
import Scaffold.Proofs.Output.BuiltinFiles
import Scaffold.Proofs.Stub.Heads
import Scaffold.Proofs.Php.Imports
import Scaffold.Proofs.Entity.TargetImports
import Scaffold.Proofs.Output.EntityImports
import Scaffold.Proofs.Output.ImportBlocks
import Scaffold.Proofs.Output.ImportClash
import Scaffold.Proofs.Entity.Resolution
import Scaffold.Proofs.Violation
import Scaffold.Proofs.Entity.Strictness
import Scaffold.Proofs.Relation.Grammar
import Scaffold.Proofs.Php.Tokens
import Scaffold.Proofs.Php.ClassFile
import Scaffold.Proofs.Relation.Reading
import Scaffold.Proofs.Output.ModelFile
import Scaffold.Proofs.Output.LegibleModel
import Scaffold.Proofs.Output.ModelReferences
import Scaffold.Proofs.Stub.SinglePass
import Scaffold.Proofs.Output.ChosenKinds
import Scaffold.Proofs.Run.KeyStops
import Scaffold.Proofs.Text.Normalisation
import Scaffold.Proofs.Php.ListLiteral
import Scaffold.Proofs.Migration.KeyCorrespondence
import Scaffold.Proofs.Schema.Projections
