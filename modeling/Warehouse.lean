import Warehouse.Sql.Definition
import Warehouse.Sql.Merge
import Warehouse.Sql.KeyHash
import Warehouse.Sql.Script
import Warehouse.Sql.Template
import Warehouse.Catalog.QueryPlan
import Warehouse.Catalog.Encoding
import Warehouse.Catalog.Fingerprint
import Warehouse.Load.Compose
import Warehouse.Drift.Plan
import Warehouse.Graph.Order
import Warehouse.Run.Execution
import Warehouse.Run.SnapshotDiff
import Warehouse.Run.Manifest
import Warehouse.Run.Log
import Warehouse.Run.LogTable
import Warehouse.Run.Script
import Warehouse.Settings.Basic
import Warehouse.Command.Program
import Warehouse.Command.Memory
import Warehouse.Main
import Warehouse.Proofs.Sql.MergeFallback
import Warehouse.Proofs.Load.HistoryFrame
import Warehouse.Proofs.Load.RetargetedFilter
import Warehouse.Proofs.Run.Blocking
import Warehouse.Proofs.Drift.Convergence
import Warehouse.Proofs.Run.Selection
import Warehouse.Proofs.Load.Reads
import Warehouse.Proofs.Graph.LeastOrder
import Warehouse.Proofs.Sql.HashInput
import Warehouse.Proofs.Sql.TypeSpelling
import Warehouse.Proofs.Drift.Created
import Warehouse.Proofs.Drift.Names
import Warehouse.Proofs.Drift.Ambiguity
import Warehouse.Proofs.Drift.AfterRun
import Warehouse.Proofs.Catalog.InferenceSearch
import Warehouse.Proofs.Catalog.QueryOutputs
import Warehouse.Proofs.Catalog.QueryShape
import Warehouse.Proofs.Load.ColumnOrder
import Warehouse.Proofs.Run.Existence
import Warehouse.Proofs.Drift.Shadow
import Warehouse.Proofs.Run.FailFast
import Warehouse.Proofs.Catalog.Stages
import Warehouse.Proofs.Catalog.Acceptance
import Warehouse.Proofs.Catalog.Pairing
import Warehouse.Proofs.Catalog.Reload
import Warehouse.Proofs.Sql.Quoting
import Warehouse.Proofs.Sql.Substitution
import Warehouse.Proofs.Sql.Scanning
import Warehouse.Proofs.Sql.Precedence
import Warehouse.Proofs.Sql.Conjoined
import Warehouse.Proofs.Sql.Faults
import Warehouse.Proofs.Sql.Lexing
import Warehouse.Proofs.Run.TableRenames
import Warehouse.Proofs.Load.WrittenColumns
import Warehouse.Proofs.Graph.Levels
import Warehouse.Proofs.Graph.LongestChains
import Warehouse.Proofs.Graph.Cycle
import Warehouse.Proofs.Run.Manifest
import Warehouse.Proofs.Run.SnapshotDiff
import Warehouse.Proofs.Catalog.Decoded
import Warehouse.Proofs.Load.Fingerprint
import Warehouse.Proofs.Catalog.DocumentOrder
import Warehouse.Proofs.Load.FilterMarkers
import Warehouse.Proofs.Load.KeySeparator
import Warehouse.Proofs.Run.LogRows
import Warehouse.Proofs.Catalog.DisplayedKeys
import Warehouse.Proofs.Catalog.ShadowColumns
import Warehouse.Proofs.Catalog.ShadowNumbers
import Warehouse.Proofs.Load.HistoryPlan
import Warehouse.Proofs.Run.MirroredDiff
import Warehouse.Proofs.Settings.Variables
import Warehouse.Proofs.Sql.CanonicalTypes
import Warehouse.Proofs.Run.FormerTables
