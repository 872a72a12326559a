import ClientGen.Api.Extract
import ClientGen.Artifact
import ClientGen.CommandLine.Run
import ClientGen.Config
import ClientGen.Document.Load
import ClientGen.Inspect
import ClientGen.Main
import ClientGen.Mapping.Table
import ClientGen.Model
import ClientGen.Package
import ClientGen.Proofs.Bootstrap
import ClientGen.Proofs.Casing
import ClientGen.Proofs.Casing.Agreement
import ClientGen.Proofs.Code
import ClientGen.Proofs.CommandLine.Generate
import ClientGen.Proofs.CommandLine.Writing
import ClientGen.Proofs.Document.Chain
import ClientGen.Proofs.Document.Reading
import ClientGen.Proofs.Document.Reference
import ClientGen.Proofs.Document.Resolution
import ClientGen.Proofs.Document.Schema
import ClientGen.Proofs.Document.Server
import ClientGen.Proofs.Documentation
import ClientGen.Proofs.Entries
import ClientGen.Proofs.Extraction.Aliases
import ClientGen.Proofs.Extraction.AllOf
import ClientGen.Proofs.Extraction.Api
import ClientGen.Proofs.Extraction.Chain
import ClientGen.Proofs.Extraction.Found
import ClientGen.Proofs.Extraction.Identifiers
import ClientGen.Proofs.Extraction.OnlyPart
import ClientGen.Proofs.Extraction.Parameters
import ClientGen.Proofs.Extraction.Records
import ClientGen.Proofs.Extraction.Responses
import ClientGen.Proofs.Extraction.Shape
import ClientGen.Proofs.Extraction.Termination
import ClientGen.Proofs.Extraction.WellFormed
import ClientGen.Proofs.Folding
import ClientGen.Proofs.Folding.First
import ClientGen.Proofs.Folding.Names
import ClientGen.Proofs.Grouping
import ClientGen.Proofs.Grouping.Partition
import ClientGen.Proofs.Identifier
import ClientGen.Proofs.Json.Literal
import ClientGen.Proofs.Json.Printer
import ClientGen.Proofs.Literal
import ClientGen.Proofs.Literal.Lists
import ClientGen.Proofs.MappingFile
import ClientGen.Proofs.Marks
import ClientGen.Proofs.Model
import ClientGen.Proofs.Outcome
import ClientGen.Proofs.Package.Accessors
import ClientGen.Proofs.Package.Arguments
import ClientGen.Proofs.Package.Basic
import ClientGen.Proofs.Package.BuiltIn
import ClientGen.Proofs.Package.Classes
import ClientGen.Proofs.Package.Clients
import ClientGen.Proofs.Package.Closed
import ClientGen.Proofs.Package.Exports
import ClientGen.Proofs.Package.Fields
import ClientGen.Proofs.Package.Header
import ClientGen.Proofs.Package.Member
import ClientGen.Proofs.Package.Named
import ClientGen.Proofs.Package.Names
import ClientGen.Proofs.Package.Parameters
import ClientGen.Proofs.Package.Python
import ClientGen.Proofs.Package.Requests
import ClientGen.Proofs.Package.TypeScript
import ClientGen.Proofs.Records
import ClientGen.Proofs.Renaming.Basic
import ClientGen.Proofs.Renaming.Chosen
import ClientGen.Proofs.Renaming.Identifiers
import ClientGen.Proofs.Renaming.Isomorphism
import ClientGen.Proofs.Renaming.LastTable
import ClientGen.Proofs.Renaming.Neutral
import ClientGen.Proofs.Renaming.Numbered
import ClientGen.Proofs.Renaming.Refusal
import ClientGen.Proofs.Renaming.Types
import ClientGen.Proofs.Shape
import ClientGen.Proofs.Signature
import ClientGen.Proofs.Types
import ClientGen.Proofs.Types.Named
import ClientGen.Proofs.Types.Printed
import ClientGen.Proofs.Workspace
import ClientGen.Python.Package
import ClientGen.TypeScript.Package
import ClientGen.View
import ClientGen.Workspace
