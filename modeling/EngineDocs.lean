import EngineDocs.Header
import EngineDocs.Json.Read
import EngineDocs.Json.Write
import EngineDocs.Rules
import EngineDocs.Digest
import EngineDocs.Calendar
import EngineDocs.Duration
import EngineDocs.Module
import EngineDocs.Path
import EngineDocs.Glob
import EngineDocs.FileTree.Write
import EngineDocs.Document.Output
import EngineDocs.Discovery.Modules
import EngineDocs.Generation.Run
import EngineDocs.Command.Run
import EngineDocs.Main
import EngineDocs.Proofs.Json.Token
import EngineDocs.Proofs.Json.Value
import EngineDocs.Proofs.Text.Order
import EngineDocs.Proofs.Module
import EngineDocs.Proofs.FileTree.Lookup
import EngineDocs.Proofs.FileTree.Change
import EngineDocs.Proofs.Discovery.Names
import EngineDocs.Proofs.Generation.FingerprintFile
import EngineDocs.Proofs.Generation.Documents
import EngineDocs.Proofs.Generation.Stages
import EngineDocs.Proofs.Generation.Histories
import EngineDocs.Proofs.Generation.FullRuns
import EngineDocs.Proofs.Generation.StaleFingerprints
import EngineDocs.Proofs.Generation.Clashes
import EngineDocs.Proofs.FileTree.Erase
import EngineDocs.Proofs.Generation.Deletions
import EngineDocs.Proofs.Text.Runs
import EngineDocs.Proofs.Search
import EngineDocs.Proofs.Header.ExportMacro
import EngineDocs.Proofs.Header.Keyword
import EngineDocs.Proofs.Header.Function
import EngineDocs.Proofs.Header.Locality
import EngineDocs.Proofs.Header.Parameter
import EngineDocs.Proofs.Text.Case
import EngineDocs.Proofs.Header.FunctionRecords
import EngineDocs.Proofs.Header.MacroCuts
import EngineDocs.Proofs.Header.Canonical
import EngineDocs.Proofs.Header.Passing
import EngineDocs.Proofs.Header.CanonicalTypes
import EngineDocs.Proofs.Header.CanonicalFunctions
import EngineDocs.Proofs.Header.CanonicalHeader
import EngineDocs.Proofs.Document.DataFile
import EngineDocs.Proofs.Generation.Balance
import EngineDocs.Proofs.Generation.Failures
import EngineDocs.Proofs.FileTree.Ancestors
import EngineDocs.Proofs.FileTree.Ways
import EngineDocs.Proofs.FileTree.Calls
import EngineDocs.Proofs.FileTree.Plans
import EngineDocs.Proofs.FileTree.Same
import EngineDocs.Proofs.Generation.Pool
import EngineDocs.Proofs.Generation.Interleaving
import EngineDocs.Proofs.Generation.ModulePlans
import EngineDocs.Proofs.Discovery.JoinedPaths
import EngineDocs.Proofs.FileTree.Listings
import EngineDocs.Proofs.Discovery.Mirrors
import EngineDocs.Proofs.Discovery.Regions
import EngineDocs.Proofs.Discovery.Homes
import EngineDocs.Proofs.Discovery.ModulePaths
import EngineDocs.Proofs.Generation.Contexts
import EngineDocs.Proofs.FileTree.Places
import EngineDocs.Proofs.FileTree.Footprints
import EngineDocs.Proofs.Discovery.Rescans
import EngineDocs.Proofs.Generation.RunFootprints
import EngineDocs.Proofs.Generation.SecondRuns
import EngineDocs.Proofs.Text.ByteOrder
import EngineDocs.Proofs.Discovery.Components
import EngineDocs.Proofs.Discovery.EngineModules
import EngineDocs.Proofs.Discovery.PluginModules
import EngineDocs.Proofs.Discovery.HeaderLists
import EngineDocs.Proofs.Generation.FingerprintStore
import EngineDocs.Proofs.Text.Pieces
import EngineDocs.Proofs.Header.Enumerator
import EngineDocs.Proofs.Document.ParameterList
import EngineDocs.Proofs.Document.Enumeration
import EngineDocs.Proofs.Rules.Statement
import EngineDocs.Proofs.Rules.Collecting
import EngineDocs.Proofs.Rules.Calls
import EngineDocs.Proofs.Rules.ListedStrings
import EngineDocs.Proofs.Text.Collapse
import EngineDocs.Proofs.Header.ParameterReading
import EngineDocs.Proofs.Header.ParameterLayout
import EngineDocs.Proofs.Header.ClassSites
import EngineDocs.Proofs.Header.Cleaning
import EngineDocs.Proofs.Text.Words
import EngineDocs.Proofs.Document.ReturnType
import EngineDocs.Proofs.Grouping
import EngineDocs.Proofs.Document.Index
import EngineDocs.Proofs.Command.Scan
import EngineDocs.Proofs.Document.DataIndices
import EngineDocs.Proofs.Generation.StageTotals
import EngineDocs.Proofs.Document.PracticeGroups
import EngineDocs.Proofs.Header.ParameterCuts
import EngineDocs.Proofs.Header.BaseNames
