import ResourceModels.Document
import ResourceModels.Model.Basic
import ResourceModels.Files.FileSystem
import ResourceModels.Code.DeclarationOrder
import ResourceModels.Code.Hint
import ResourceModels.Code.Layout
import ResourceModels.Code.ModuleText
import ResourceModels.Code.Package
import ResourceModels.Schema.Conventions
import ResourceModels.Schema.Decoding
import ResourceModels.Schema.Reference
import ResourceModels.Derivation.Document
import ResourceModels.Bucket
import ResourceModels.Extraction
import ResourceModels.Pipeline
import ResourceModels.Source.Cluster
import ResourceModels.Source.Repository
import ResourceModels.Yaml.Basic
import ResourceModels.Yaml.Cursor
import ResourceModels.Yaml.Scalar
import ResourceModels.Yaml.Node
import ResourceModels.Settings
import ResourceModels.CommandLine.Command
import ResourceModels.Main
import ResourceModels.Proofs.Entries
import ResourceModels.Proofs.Merging
import ResourceModels.Proofs.Promotion
import ResourceModels.Proofs.Nodes
import ResourceModels.Proofs.Resolution
import ResourceModels.Proofs.Modules
import ResourceModels.Proofs.Closure
import ResourceModels.Proofs.Values
import ResourceModels.Proofs.Acceptance
import ResourceModels.Proofs.FileTrees
import ResourceModels.Proofs.Paths
import ResourceModels.Proofs.Saving
import ResourceModels.Proofs.FileOrder
import ResourceModels.Proofs.Extraction
import ResourceModels.Proofs.Output
import ResourceModels.Proofs.Rerun
import ResourceModels.Proofs.Streaming
import ResourceModels.Proofs.FailedExtraction
import ResourceModels.Proofs.ImportLines
import ResourceModels.Proofs.Imports
import ResourceModels.Proofs.WriteOut
import ResourceModels.Proofs.Positions
import ResourceModels.Proofs.Nullability
import ResourceModels.Proofs.Sameness
import ResourceModels.Proofs.NormalTypes
import ResourceModels.Proofs.Decoded
import ResourceModels.Proofs.Collapse
import ResourceModels.Proofs.GivenNames
import ResourceModels.Proofs.Scopes
import ResourceModels.Proofs.SchemaNames
import ResourceModels.Proofs.LegalNames
import ResourceModels.Proofs.Reachability
import ResourceModels.Proofs.Adjusting
import ResourceModels.Proofs.Failures
import ResourceModels.Proofs.Defaults
import ResourceModels.Proofs.DefaultPlaces
import ResourceModels.Proofs.UnitPaths
import ResourceModels.Proofs.UnitFiles
import ResourceModels.Proofs.ReleaseFiles
import ResourceModels.Proofs.StepwiseResolution
import ResourceModels.Proofs.ImportTargets
import ResourceModels.Proofs.DeclarationOrder
import ResourceModels.Proofs.PromotedParts
import ResourceModels.Proofs.Restoring
import ResourceModels.Proofs.UnionForms
import ResourceModels.Proofs.AdjustedPlaces
import ResourceModels.Proofs.StringLiterals
import ResourceModels.Proofs.SplitLiterals
import ResourceModels.Proofs.LiteralWidths
import ResourceModels.Proofs.LiteralValues
import ResourceModels.Proofs.CallReading
import ResourceModels.Proofs.Layouts
import ResourceModels.Proofs.Conjunctions
import ResourceModels.Proofs.SanitisedNames
import ResourceModels.Proofs.FieldAttributes
import ResourceModels.Proofs.EnumMembers
import ResourceModels.Proofs.Remerging
import ResourceModels.Proofs.Packages
import ResourceModels.Proofs.StoppedRuns
import ResourceModels.Proofs.CodeReading
import ResourceModels.Proofs.UsedNames
import ResourceModels.Proofs.CalledNames
import ResourceModels.Proofs.ClassCode
import ResourceModels.Proofs.LibraryImports
import ResourceModels.Proofs.KeywordReading
import ResourceModels.Proofs.DeclaredProperties
import ResourceModels.Proofs.ListedValues
import ResourceModels.Proofs.SharedClasses
import ResourceModels.Proofs.KeptOrder
