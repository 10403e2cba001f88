import CodeCache.Blob.Edit
import CodeCache.Bytes
import CodeCache.CommandLine.Run
import CodeCache.Config.File
import CodeCache.Engine.Passes
import CodeCache.Engine.State
import CodeCache.Error
import CodeCache.Flags
import CodeCache.Header
import CodeCache.Json
import CodeCache.Loader
import CodeCache.Main
import CodeCache.Number
import CodeCache.Proofs.Acceptance
import CodeCache.Proofs.Accounting
import CodeCache.Proofs.Canonical
import CodeCache.Proofs.Closure
import CodeCache.Proofs.CompiledBlobs
import CodeCache.Proofs.CompiledFiles
import CodeCache.Proofs.Computation
import CodeCache.Proofs.Concatenation
import CodeCache.Proofs.Contexts
import CodeCache.Proofs.Cursor
import CodeCache.Proofs.CursorParsing
import CodeCache.Proofs.DiskCommands
import CodeCache.Proofs.ExportNames
import CodeCache.Proofs.FailedRuns
import CodeCache.Proofs.Failures
import CodeCache.Proofs.Grammar
import CodeCache.Proofs.HalfLinked
import CodeCache.Proofs.HeaderSummary
import CodeCache.Proofs.ImportCycles
import CodeCache.Proofs.ImportTree
import CodeCache.Proofs.ImporterChains
import CodeCache.Proofs.Interpreter
import CodeCache.Proofs.Isolation
import CodeCache.Proofs.Lifecycle
import CodeCache.Proofs.LinkRecords
import CodeCache.Proofs.Linking
import CodeCache.Proofs.Nesting
import CodeCache.Proofs.NumberLiterals
import CodeCache.Proofs.OfflinePatches
import CodeCache.Proofs.Opening
import CodeCache.Proofs.Operations
import CodeCache.Proofs.Overlay
import CodeCache.Proofs.OwnBlobs
import CodeCache.Proofs.PackageModules
import CodeCache.Proofs.Packages
import CodeCache.Proofs.PassDepth
import CodeCache.Proofs.PassesEnd
import CodeCache.Proofs.Payload
import CodeCache.Proofs.PrintedConfig
import CodeCache.Proofs.PrintedJson
import CodeCache.Proofs.ProcessFlags
import CodeCache.Proofs.Productions
import CodeCache.Proofs.Refinement
import CodeCache.Proofs.Refusals
import CodeCache.Proofs.Rendering
import CodeCache.Proofs.RepeatedPatches
import CodeCache.Proofs.SourceSize
import CodeCache.Proofs.Stepwise
import CodeCache.Proofs.StoredData
import CodeCache.Proofs.Utf8
import CodeCache.Proofs.VersionTexts
import CodeCache.Sample
import CodeCache.Script.Basic
import CodeCache.Script.Parser
import CodeCache.Script.Payload
import CodeCache.Session
import CodeCache.Storage
import CodeCache.Text
import CodeCache.Value
import CodeCache.Yaml.Form
import CodeCache.Yaml.Layout
import CodeCache.Yaml.Node
import CodeCache.Yaml.Scanner
