import KacheDB.Resp.Reader
import KacheDB.Resp.Decoding
import KacheDB.Connection
import KacheDB.Pipeline
import KacheDB.Foundation.Runs
import KacheDB.Pool
import KacheDB.Client
import KacheDB.AsyncPool
import KacheDB.AsyncClient
import KacheDB.PoolThreads
import KacheDB.AsyncTasks
import KacheDB.Descriptor
import KacheDB.Dma
import KacheDB.Foundation.Dict
import KacheDB.Foundation.HashChain
import KacheDB.Vllm.Archive
import KacheDB.Vllm.Hits
import KacheDB.ClientModes
import KacheDB.Foundation.Prefixes
import KacheDB.Foundation.Script
import KacheDB.Foundation.Text
import KacheDB.Foundation.Tracking
import KacheDB.Resp.Accepting
import KacheDB.Resp.Commands
import KacheDB.Resp.ErrorReplies
import KacheDB.Semantic.AsyncCache
import KacheDB.Semantic.Deletion
import KacheDB.Semantic.Filters
import KacheDB.Semantic.Workspaces
import KacheDB.Vllm.LongestPrefix
import KacheDB.Sglang.Connector
import KacheDB.Sglang.Hits
import KacheDB.ClientMethods
import KacheDB.PipelineMethods
import KacheDB.DecodeResponses
import KacheDB.AsyncPoolFailures
import KacheDB.ClientLeaks
import KacheDB.ClientThreads
import KacheDB.Foundation.LastWrite
import KacheDB.Foundation.Json
import KacheDB.Integrations.KeyValue
import KacheDB.Integrations.LlamaIndex
import KacheDB.Integrations.LangChain
import KacheDB.Integrations.LangChainSemantic
import KacheDB.Resp.Malformed
import KacheDB.Resp.Resuming
import KacheDB.Foundation.Memo
import KacheDB.Foundation.Greedy
import KacheDB.DmaRuns
import KacheDB.BlockHeaders
import KacheDB.SharedMemory
import KacheDB.SharedMemoryHistory
import KacheDB.Sglang.Matching
import KacheDB.Sglang.Siblings
import KacheDB.Sglang.Paths
import KacheDB.Sglang.Copies
import KacheDB.Vllm.Copies
import KacheDB.CompleteHits
import KacheDB.Vllm.Layout
import KacheDB.Vllm.FirstCalls
import KacheDB.Vllm.RoundTrips
import KacheDB.Vllm.Precisions
import KacheDB.Semantic.Freshness
import KacheDB.Semantic.FailedStores
import KacheDB.Foundation.Rounding
import KacheDB.Quantizer
import KacheDB.Foundation.Lines
import KacheDB.Foundation.Segments
import KacheDB.Semantic.Chunker
import KacheDB.Semantic.ChunkTrace
import KacheDB.Semantic.ChunkRuns
import KacheDB.Semantic.ChunkTitles
import KacheDB.Semantic.ChunkFences
import KacheDB.Semantic.ChunkNext
import KacheDB.Semantic.ChunkOverlap
import KacheDB.Semantic.ChunkBudget
import KacheDB.Semantic.TagMasks
import KacheDB.DescriptorCodec
import KacheDB.Foundation.BitSets
import KacheDB.Foundation.Budget
import KacheDB.Foundation.StructLayout
import KacheDB.Foundation.Simulation
import KacheDB.Transport
import KacheDB.VectorCommands
import KacheDB.Semantic.OverWire
import KacheDB.AsyncTransport
import KacheDB.Foundation.Linearization
import KacheDB.Linearizable
import KacheDB.Foundation.Ledger
import KacheDB.AsyncPoolTasks
import KacheDB.Semantic.ChunkSizes
import KacheDB.Faults
import KacheDB.AtMostOnce
import KacheDB.TorchReader
import KacheDB.SharedMemoryRestarts
import KacheDB.Foundation.Histogram
import KacheDB.Semantic.MockEmbedder
