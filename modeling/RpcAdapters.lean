import RpcAdapters.CommandLine.Read
import RpcAdapters.Exchange
import RpcAdapters.Generation.Listing
import RpcAdapters.Main
import RpcAdapters.Standalone.Run
import RpcAdapters.Proofs.Naming.Identifiers
import RpcAdapters.Proofs.Source.Aliases
import RpcAdapters.Proofs.Source.Imports
import RpcAdapters.Proofs.Schema.Accepted
import RpcAdapters.Proofs.Schema.Paths
import RpcAdapters.Proofs.Generation.Correspondence
import RpcAdapters.Proofs.Generation.Outcome
import RpcAdapters.Proofs.Generation.Packages
import RpcAdapters.Proofs.Generation.FileNames
import RpcAdapters.Proofs.Generation.Subsets
import RpcAdapters.Proofs.Generation.Supply
import RpcAdapters.Proofs.Generation.Listings
import RpcAdapters.Proofs.Wire.Requests
import RpcAdapters.Proofs.Wire.Resending
import RpcAdapters.Proofs.Exchange.Answers
import RpcAdapters.Proofs.Files.Plain
import RpcAdapters.Proofs.Standalone.Outputs
import RpcAdapters.Proofs.Standalone.Agreement
import RpcAdapters.Proofs.Files.Confined
import RpcAdapters.Proofs.Standalone.Confinement
import RpcAdapters.Proofs.Source.Appending
import RpcAdapters.Proofs.Generation.Captures
import RpcAdapters.Proofs.Schema.Demands
import RpcAdapters.Proofs.Schema.FullNames
import RpcAdapters.Proofs.Source.Unrecorded
import RpcAdapters.Proofs.Options.Parameters
import RpcAdapters.Proofs.Options.Written
import RpcAdapters.Proofs.Schema.Edited
import RpcAdapters.Proofs.Generation.ImportBlocks
import RpcAdapters.Proofs.Generation.PackageClauses
import RpcAdapters.Proofs.Naming.Markers
import RpcAdapters.Proofs.Generation.Collisions
import RpcAdapters.Proofs.Generation.Warnings
import RpcAdapters.Proofs.Generation.SourceLines
import RpcAdapters.Proofs.Naming.Nested
import RpcAdapters.Proofs.Naming.CamelCase
import RpcAdapters.Proofs.Naming.SchemaNames
import RpcAdapters.Proofs.Generation.GoNames
import RpcAdapters.Proofs.Naming.Sanitized
import RpcAdapters.Proofs.Source.Literals
import RpcAdapters.Proofs.Source.Depths
import RpcAdapters.Proofs.Source.Nesting
import RpcAdapters.Proofs.Source.Blocks
