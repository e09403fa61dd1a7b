import VectorForge.Catalog.Atomicity
import VectorForge.Catalog.Catalog
import VectorForge.Catalog.Confinement
import VectorForge.Catalog.CrashRecovery
import VectorForge.Catalog.CrashSteps
import VectorForge.Catalog.Creation
import VectorForge.Catalog.Dropping
import VectorForge.Catalog.Incarnations
import VectorForge.Catalog.Isolation
import VectorForge.Catalog.Ledger
import VectorForge.Catalog.NameReuse
import VectorForge.Catalog.Recovery
import VectorForge.Catalog.References
import VectorForge.Catalog.Reopening
import VectorForge.Catalog.Standing
import VectorForge.Collection.Adding
import VectorForge.Collection.Answers
import VectorForge.Collection.BatchSemantics
import VectorForge.Collection.Batches
import VectorForge.Collection.Compaction
import VectorForge.Collection.ConfigFile
import VectorForge.Collection.Corruption
import VectorForge.Collection.CrashSafety
import VectorForge.Collection.FlatAnswers
import VectorForge.Collection.FlatQueries
import VectorForge.Collection.FlatRefinement
import VectorForge.Collection.FlatRuns
import VectorForge.Collection.Generations
import VectorForge.Collection.GraphRuns
import VectorForge.Collection.Guarantees
import VectorForge.Collection.IndexReader
import VectorForge.Collection.IndexWriter
import VectorForge.Collection.Indexing
import VectorForge.Collection.Insertion
import VectorForge.Collection.Isolation
import VectorForge.Collection.KeyedMap
import VectorForge.Collection.Layout
import VectorForge.Collection.LinkFailures
import VectorForge.Collection.LinkedQueries
import VectorForge.Collection.LockProtocol
import VectorForge.Collection.Manifest
import VectorForge.Collection.Mutations
import VectorForge.Collection.Operations
import VectorForge.Collection.Persistence
import VectorForge.Collection.Queries
import VectorForge.Collection.QueryBatch
import VectorForge.Collection.QueryEntries
import VectorForge.Collection.QueryReplies
import VectorForge.Collection.ReaderSafety
import VectorForge.Collection.RoundTrip
import VectorForge.Collection.Runs
import VectorForge.Collection.Sections
import VectorForge.Collection.SerialSections
import VectorForge.Collection.Session
import VectorForge.Collection.Snapshot
import VectorForge.Collection.State
import VectorForge.Collection.StoppedBatches
import VectorForge.Collection.TableRoundTrip
import VectorForge.Collection.TableSafety
import VectorForge.Collection.Transparent
import VectorForge.Collection.Undisturbed
import VectorForge.Collection.WrittenBytes
import VectorForge.Collection.WrittenFile
import VectorForge.Concurrency.BatchCalls
import VectorForge.Concurrency.BatchDeadlock
import VectorForge.Concurrency.BoundedWaiting
import VectorForge.Concurrency.ChunkOrder
import VectorForge.Concurrency.Completion
import VectorForge.Concurrency.FairSharedMutex
import VectorForge.Concurrency.LockSafety
import VectorForge.Concurrency.ParallelFor
import VectorForge.Concurrency.Ranges
import VectorForge.Concurrency.ThreadPool
import VectorForge.Core.Config
import VectorForge.Core.Rng
import VectorForge.Core.Types
import VectorForge.Core.VectorOps
import VectorForge.Hnsw.BackLinks
import VectorForge.Hnsw.Backend
import VectorForge.Hnsw.BeamSearch
import VectorForge.Hnsw.ConcurrentQuery
import VectorForge.Hnsw.Construction
import VectorForge.Hnsw.Graph
import VectorForge.Hnsw.GraphMemory
import VectorForge.Hnsw.GreedyDescent
import VectorForge.Hnsw.Insert
import VectorForge.Hnsw.InsertSafety
import VectorForge.Hnsw.InsertStats
import VectorForge.Hnsw.Io
import VectorForge.Hnsw.IoRoundTrip
import VectorForge.Hnsw.IoSafety
import VectorForge.Hnsw.LevelDistribution
import VectorForge.Hnsw.LevelGenerator
import VectorForge.Hnsw.LinkDiscipline
import VectorForge.Hnsw.LinkSafety
import VectorForge.Hnsw.LinkSteps
import VectorForge.Hnsw.Linking
import VectorForge.Hnsw.LinkingRuns
import VectorForge.Hnsw.NeighborSelect
import VectorForge.Hnsw.PublishSafety
import VectorForge.Hnsw.Query
import VectorForge.Hnsw.QueryBeam
import VectorForge.Hnsw.QuietSearch
import VectorForge.Hnsw.Relink
import VectorForge.Hnsw.Replay
import VectorForge.Hnsw.Search
import VectorForge.Hnsw.SearchAnswers
import VectorForge.Hnsw.SearchSafety
import VectorForge.Hnsw.SelectionSpec
import VectorForge.Hnsw.SerialInsert
import VectorForge.Hnsw.Validator
import VectorForge.Index.FlatBackend
import VectorForge.Lib.BinaryHeap
import VectorForge.Lib.Burst
import VectorForge.Lib.Commuting
import VectorForge.Lib.Confined
import VectorForge.Lib.Crc
import VectorForge.Lib.Critical
import VectorForge.Lib.Decimal
import VectorForge.Lib.Effect
import VectorForge.Lib.Files
import VectorForge.Lib.Interleaving
import VectorForge.Lib.JsonText
import VectorForge.Lib.LittleEndian
import VectorForge.Lib.Lockstep
import VectorForge.Lib.Machine
import VectorForge.Lib.OrderedMap
import VectorForge.Lib.Outcome
import VectorForge.Lib.PrefixCode
import VectorForge.Lib.Progress
import VectorForge.Lib.Removal
import VectorForge.Lib.Replaced
import VectorForge.Lib.Text
import VectorForge.Lib.Words
import VectorForge.Search.ContextPool
import VectorForge.Search.HeapContents
import VectorForge.Search.Heaps
import VectorForge.Search.VisitedSet
import VectorForge.Server.BulkDecoder
import VectorForge.Server.JsonCodec
import VectorForge.Server.JsonCreate
import VectorForge.Server.JsonDepth
import VectorForge.Server.JsonRequests
import VectorForge.Server.Metrics
import VectorForge.Server.Requests
import VectorForge.Simd.KernelAgreement
import VectorForge.Simd.KernelSums
import VectorForge.Simd.Kernels
import VectorForge.Storage.AtomicFile
import VectorForge.Storage.BinaryIo
import VectorForge.Storage.Checksums
import VectorForge.Storage.Crc32c
import VectorForge.Storage.FlatJson
import VectorForge.Storage.Format
import VectorForge.Storage.IdMap
import VectorForge.Storage.OutputFile
import VectorForge.Storage.RowList
import VectorForge.Storage.Tombstones
import VectorForge.Storage.VectorStore
import VectorForge.Util.LogLine
import VectorForge.Util.NpyFile
import VectorForge.Util.NpyHeader
import VectorForge.Util.TexmexFile
