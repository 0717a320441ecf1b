import YourSQL.Lib.Transition
import YourSQL.Lib.Program
import YourSQL.Lib.Replay
import YourSQL.Lib.Index
import YourSQL.Lib.Bytes
import YourSQL.Lib.Memory
import YourSQL.Lib.Framing
import YourSQL.Lib.Linked
import YourSQL.Lib.LowerBound
import YourSQL.Lib.Machine
import YourSQL.Lib.TransactionalStore
import YourSQL.Lib.Fstream
import YourSQL.Common.Types
import YourSQL.Catalog.Catalog
import YourSQL.Storage.Identifiers
import YourSQL.Storage.LogDiskManager
import YourSQL.Storage.PosixDiskManager
import YourSQL.Log.LogRecord
import YourSQL.Log.LogPayload
import YourSQL.Log.LogBuffer
import YourSQL.Log.SerialLog
import YourSQL.Log.WalRoundTrip
import YourSQL.Log.TornTail
import YourSQL.Log.ReadBounds
import YourSQL.Transaction.TransactionManager
import YourSQL.Transaction.RecoveryManager
import YourSQL.Transaction.CommitDurability
import YourSQL.Transaction.CommitPublication
import YourSQL.Transaction.Snapshot
import YourSQL.Storage.Record
import YourSQL.Storage.RecordStore
import YourSQL.Storage.Contents
import YourSQL.Transaction.Rollback
import YourSQL.Buffer.MetaPage
import YourSQL.Buffer.MetaRoundTrip
import YourSQL.Buffer.MetaPageBounds
import YourSQL.Catalog.CatalogReload
import YourSQL.Catalog.TerminalRestart
import YourSQL.Catalog.CreateTable
import YourSQL.Buffer.LRUManager
import YourSQL.Buffer.BufferManager
import YourSQL.Buffer.PoolInvariant
import YourSQL.Buffer.PoolRun
import YourSQL.Buffer.PinnedPage
import YourSQL.Buffer.FailingDisk
import YourSQL.Buffer.ReadYourWrites
import YourSQL.Buffer.PoolClient
import YourSQL.Buffer.Database
import YourSQL.Storage.TablePage
import YourSQL.Storage.TablePageBytes
import YourSQL.Storage.SlottedPage
import YourSQL.Storage.PageRun
import YourSQL.Storage.Row
import YourSQL.Storage.RowRoundTrip
import YourSQL.Storage.RowCodec
import YourSQL.Parser.Transformer
import YourSQL.Binder.BoundExpression
import YourSQL.Catalog.ColumnNames
import YourSQL.Planner.PhysicalExpression
import YourSQL.Planner.Conditions
import YourSQL.Planner.WhereMeaning
import YourSQL.Binder.InsertBinding
import YourSQL.Transaction.Redo
import YourSQL.Storage.PageStore
import YourSQL.Transaction.UndoLog
import YourSQL.Transaction.UndoPageBytes
import YourSQL.Transaction.UndoRecords
import YourSQL.Index.IndexPage
import YourSQL.Index.BPlusIndexManager
import YourSQL.Index.InternalRouting
import YourSQL.Index.Multimap
import YourSQL.Index.LeafPage
import YourSQL.Index.LeafViews
import YourSQL.Index.BPlusIndexIterator
import YourSQL.Storage.Layout
import YourSQL.Transaction.UndoPages
import YourSQL.Transaction.Commands
import YourSQL.Transaction.AbortRestores
import YourSQL.Executor.TableIterator
import YourSQL.Executor.Statements
import YourSQL.Executor.Command
import YourSQL.Executor.PinBalance
import YourSQL.Executor.RowChanges
import YourSQL.Storage.ChainGrowth
import YourSQL.Executor.RowInserts
import YourSQL.Log.WriteAhead
import YourSQL.Buffer.PoolRefinement
import YourSQL.Mvcc.LogicalRow
import YourSQL.Mvcc.ReadViews
import YourSQL.Mvcc.VersionStore
import YourSQL.Mvcc.ChainEnds
import YourSQL.Mvcc.Changes
import YourSQL.Mvcc.Withdrawal
import YourSQL.Mvcc.RowWrites
import YourSQL.Mvcc.RowSteps
import YourSQL.Mvcc.WorkedRows
import YourSQL.Mvcc.StatementSteps
import YourSQL.Executor.RowUpdates
import YourSQL.Executor.Iteration
import YourSQL.Executor.LogCapacity
import YourSQL.Mvcc.Targets
import YourSQL.Mvcc.DeleteRun
import YourSQL.Mvcc.UpdateRun
import YourSQL.Mvcc.VersionWalk
import YourSQL.Mvcc.RowStates
import YourSQL.Mvcc.ScanRun
import YourSQL.Mvcc.Histories
import YourSQL.Executor.Execute
import YourSQL.Executor.RowPredicate
import YourSQL.Executor.Projection
import YourSQL.Executor.HeapChain
import YourSQL.Executor.ExecutorSteps
import YourSQL.Executor.HeaderCopies
import YourSQL.Executor.TwoExecutors
import YourSQL.Mvcc.VersionChains
import YourSQL.Mvcc.RollPointers
import YourSQL.Mvcc.RowCounts
import YourSQL.Mvcc.DirtyWrites
import YourSQL.Mvcc.Writers
import YourSQL.Mvcc.AloneRun
import YourSQL.Executor.StoredRows
import YourSQL.Mvcc.SnapshotScans
import YourSQL.Mvcc.SelectedRows
import YourSQL.Mvcc.UpdatedRows
import YourSQL.Mvcc.UndoSpace
import YourSQL.Mvcc.UpdateConserves
import YourSQL.Mvcc.DeletedRows
import YourSQL.Executor.TableEntries
import YourSQL.Client.ClientSession
import YourSQL.Client.TableContents
import YourSQL.Client.StatementEffects
import YourSQL.Client.SessionRefinement
import YourSQL.Client.TakenBack
import YourSQL.Planner.StatementPlans
import YourSQL.Client.DmlMeaning
import YourSQL.Client.TypedSession
import YourSQL.Mvcc.SnapshotIsolation
import YourSQL.Executor.QueryPipeline
