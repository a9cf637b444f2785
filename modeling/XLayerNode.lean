import XLayerNode.Common.Outcome
import XLayerNode.Common.Bytes
import XLayerNode.Common.GoHex
import XLayerNode.Common.Decimal
import XLayerNode.Common.Limbs
import XLayerNode.Common.Rlp
import XLayerNode.Common.ReleaseBuffer
import XLayerNode.Common.GoSort
import XLayerNode.Common.MerkleTree
import XLayerNode.L1InfoTree.Tree
import XLayerNode.L1InfoTree.Incremental
import XLayerNode.State.Transaction
import XLayerNode.State.Helper
import XLayerNode.State.EncodingBatchV2
import XLayerNode.State.TxRecord
import XLayerNode.State.RoundTrip
import XLayerNode.State.Records
import XLayerNode.State.ForkId
import XLayerNode.State.L1InfoTree
import XLayerNode.Synchronizer.BlockRange
import XLayerNode.Synchronizer.SyncStatus
import XLayerNode.Synchronizer.OrdererFilter
import XLayerNode.Synchronizer.ProcessorForkId
import XLayerNode.Synchronizer.L1EventOrders
import XLayerNode.Synchronizer.AsyncCheck
import XLayerNode.Synchronizer.CheckL1Block
import XLayerNode.Sequencer.TxSortedList
import XLayerNode.Sequencer.AddrQueue
import XLayerNode.Sequencer.Worker
import XLayerNode.Sequencer.BatchResources
import XLayerNode.Aggregator.ProofTable
import XLayerNode.State.EstimateGas
import XLayerNode.Synchronizer.CheckReorg
import XLayerNode.Common.Journal
import XLayerNode.Synchronizer.SequenceBatches
import XLayerNode.State.DataStream
import XLayerNode.State.IncrementalBatch
import XLayerNode.Sequencer.ForcedBatch
import XLayerNode.DataAvailability.DataCommittee
import XLayerNode.DataAvailability.BatchData
import XLayerNode.Pool.ValidateTx
import XLayerNode.JsonRpc.FilterPolling
import XLayerNode.State.EffectiveGasPrice
import XLayerNode.JsonRpc.Codec
import XLayerNode.GasPrice.Clamp
import XLayerNode.Merkletree.Split
import XLayerNode.Merkletree.Key
import XLayerNode.JsonRpc.InnerTx
import XLayerNode.GasPrice.LastN
import XLayerNode.JsonRpc.DynamicGasPrice
import XLayerNode.Common.TtlCache
import XLayerNode.Synchronizer.TrustedBatch
import XLayerNode.Synchronizer.TrustedProcessor
import XLayerNode.Synchronizer.TrustedSync
import XLayerNode.EthTxManager.Monitor
import XLayerNode.EthTxManager.System
