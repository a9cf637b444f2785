import XLayerNode.State.EncodingBatchV2
/-!
# The data stream file

`GenerateDataStreamFile` writes the batches, L2 blocks and transactions of
the state to the stream server, one atomic operation per batch, and resumes
from the last entry a previous run committed. The stream server is an
append-only log of entries, bookmarks among them, with all-or-nothing
atomic operations and lookup by bookmark; the protobuf messages are the
entries themselves, so their encoding is injective.

A run keeps cursors across batches: the current batch, the last L2 block
added, and the timestamp of the previous L2 block, which each L2 block
entry subtracts from its own. A resumed run rebuilds the cursors from the
type of the last entry. After a batch end it restarts the previous
timestamp at zero, so the first L2 block it adds carries its whole
timestamp as its delta, where a single run carries the difference to the
block before it (`generateDataStreamFile_resumed_after_batch_end`).

Each read groups the L2 blocks and transactions under their batches with
`computeFullBatches`, a merge of three sorted lists by cursors that count
what was taken. On the orders the queries return it is the grouping
`groupFullBatches` (`computeFullBatches_eq_groupFullBatches`).
-/

namespace XLayerNode

namespace State

open Outcome

/-! ## Stream entries -/

/-- `datastream.BookmarkType`, of the bookmarks the generator writes. -/
inductive BookmarkType where
  | batch
  | l2Block
  deriving DecidableEq, Repr

/-- `datastream.BookMark`. -/
structure BookMark where
  type : BookmarkType
  value : ℕ
  deriving DecidableEq, Repr

/-- `datastream.BatchType`. -/
inductive BatchType where
  | unspecified
  | regular
  | forced
  | injected
  deriving DecidableEq, Repr

/-- `datastream.BatchStart`. -/
structure BatchStart where
  number : ℕ
  type : BatchType
  forkId : ℕ
  chainId : ℕ
  deriving DecidableEq, Repr

/-- `datastream.L2Block`. Hashes and addresses are numbers; a field the
generator leaves unset is zero. -/
structure L2Block where
  number : ℕ
  batchNumber : ℕ
  timestamp : ℕ
  deltaTimestamp : ℕ
  minTimestamp : ℕ
  l1BlockHash : ℕ
  l1InfoTreeIndex : ℕ
  hash : ℕ
  stateRoot : ℕ
  globalExitRoot : ℕ
  coinbase : ℕ
  blockGasLimit : ℕ
  blockInfoRoot : ℕ
  deriving DecidableEq, Repr

/-- `datastream.L2BlockEnd`. -/
structure L2BlockEnd where
  number : ℕ
  deriving DecidableEq, Repr

/-- `datastream.Transaction`. -/
structure Transaction where
  l2BlockNumber : ℕ
  index : ℕ
  isValid : Bool
  encoded : List UInt8
  effectiveGasPricePercentage : ℕ
  imStateRoot : ℕ
  deriving DecidableEq, Repr

/-- `datastream.BatchEnd`. -/
structure BatchEnd where
  number : ℕ
  localExitRoot : ℕ
  stateRoot : ℕ
  deriving DecidableEq, Repr

/-- `datastream.UpdateGER`. -/
structure UpdateGER where
  batchNumber : ℕ
  timestamp : ℕ
  globalExitRoot : ℕ
  coinbase : ℕ
  forkId : ℕ
  chainId : ℕ
  stateRoot : ℕ
  deriving DecidableEq, Repr

/-- An entry of the stream: a bookmark, or an entry of one of the
generator's types with its message. -/
inductive Entry where
  | bookmark (b : BookMark)
  | batchStart (m : BatchStart)
  | l2Block (m : L2Block)
  | l2BlockEnd (m : L2BlockEnd)
  | transaction (m : Transaction)
  | batchEnd (m : BatchEnd)
  | updateGER (m : UpdateGER)
  deriving DecidableEq, Repr

/-! ## The stream server -/

/-- The stream server: its committed entries, and the entries of the open
atomic operation. -/
structure StreamServer where
  entries : List Entry
  atomicOp : List Entry
  deriving DecidableEq, Repr

/-- The stream server of an empty file. -/
def StreamServer.empty : StreamServer := ⟨[], []⟩

/-- The errors a run returns. -/
inductive DSError where
  /-- `GetEntry` of an entry number past the end. -/
  | entryNotFound (entryNumber : ℕ)
  /-- `GetFirstEventAfterBookmark` of a bookmark not in the stream. -/
  | bookmarkNotFound (b : BookMark)
  /-- `proto.Unmarshal` of an entry of another type. -/
  | unmarshal
  /-- An error of `DecodeBatchV2`. -/
  | decode (e : CodecError)
  deriving DecidableEq, Repr

/-- The generator's programs: over the stream server, returning a value, an
error or a panic (`log.Fatalf`, an index out of range). -/
abbrev Gen (α : Type) := StateT StreamServer (Outcome DSError) α

namespace StreamServer

/-- `StartAtomicOp`. -/
def startAtomicOp : Gen Unit := modify fun s => { s with atomicOp := [] }

/-- `AddStreamEntry` and `AddStreamBookmark`: into the open atomic
operation. -/
def addStreamEntry (e : Entry) : Gen Unit := modify fun s => { s with atomicOp := s.atomicOp ++ [e] }

/-- `CommitAtomicOp`: the entries of the atomic operation, all of them,
become entries of the stream. -/
def commitAtomicOp : Gen Unit := modify fun s => ⟨s.entries ++ s.atomicOp, []⟩

/-- `GetEntry`. -/
def getEntry (entryNumber : ℕ) : Gen Entry := do
  match (← get).entries[entryNumber]? with
  | some e => pure e
  | none => throw (.entryNotFound entryNumber)

/-- `GetBookmark`: the entry number of a committed bookmark. -/
def getBookmark (b : BookMark) : Gen (Option ℕ) := do
  return (← get).entries.idxOf? (.bookmark b)

/-- `GetFirstEventAfterBookmark`: the first entry after the bookmark that
is not a bookmark. -/
def getFirstEventAfterBookmark (b : BookMark) : Gen Entry := do
  let entries := (← get).entries
  match entries.idxOf? (.bookmark b) with
  | none => throw (.bookmarkNotFound b)
  | some i =>
    match (entries.drop (i + 1)).find? (fun | .bookmark _ => false | _ => true) with
    | some e => pure e
    | none => throw (.bookmarkNotFound b)

end StreamServer

open StreamServer

/-! ## The state -/

/-- `DSBatch`: the batch with its fork id and Etrog timestamp, the fields
the generator reads. Batch data is shorter than `2 ^ 63` bytes, as
`DecodeBatchV2` needs. -/
structure DSBatch where
  batchNumber : ℕ
  coinbase : ℕ
  batchL2Data : List UInt8
  batchL2Data_lt : batchL2Data.length < 2 ^ 63
  stateRoot : ℕ
  globalExitRoot : ℕ
  localExitRoot : ℕ
  timestamp : ℕ
  wip : Bool
  forcedBatchNum : Option ℕ
  forkID : ℕ
  etrogTimestamp : Option ℕ

/-- `DSL2Block`, the fields the generator reads. -/
structure DSL2Block where
  batchNumber : ℕ
  l2BlockNumber : ℕ
  timestamp : ℕ
  l1InfoTreeIndex : ℕ
  globalExitRoot : ℕ
  coinbase : ℕ
  forkID : ℕ
  blockHash : ℕ
  stateRoot : ℕ
  blockGasLimit : ℕ
  blockInfoRoot : ℕ
  deriving DecidableEq, Repr

/-- `DSL2Transaction`, the fields the generator reads. -/
structure DSL2Transaction where
  l2BlockNumber : ℕ
  imStateRoot : ℕ
  effectiveGasPricePercentage : ℕ
  isValid : ℕ
  index : ℕ
  stateRoot : ℕ
  encoded : List UInt8
  deriving DecidableEq, Repr

/-- `DSL2FullBlock`. -/
structure DSL2FullBlock where
  block : DSL2Block
  txs : List DSL2Transaction
  deriving DecidableEq, Repr

/-- `DSFullBatch`. -/
structure DSFullBatch where
  batch : DSBatch
  l2Blocks : List DSL2FullBlock

/-- The state the generator reads (`DSState`): the genesis block, the
batches, L2 blocks and transactions in their queries' order, and the
lookups of L1 block hashes and of intermediate state roots. -/
structure DSState where
  genesisBlock : DSL2Block
  batches : List DSBatch
  l2Blocks : List DSL2Block
  l2Txs : List DSL2Transaction
  /-- `GetL1InfoRootLeafByIndex(i).L1InfoTreeLeaf.PreviousBlockHash`. -/
  l1InfoTreePreviousBlockHash : ℕ → ℕ
  /-- `GetVirtualBatchParentHash`. -/
  virtualBatchParentHash : ℕ → ℕ
  /-- `GetForcedBatchParentHash`. -/
  forcedBatchParentHash : ℕ → ℕ
  /-- `GetStorageAt` of the system contract at the position of an L2 block,
  under a state root. -/
  storageAt : ℕ → ℕ → ℕ

namespace DSState

/-- `GetDSBatches`: the batches numbered from `first` to `last`, the WIP
batch only when asked. -/
def getDSBatches (db : DSState) (first last : ℕ) (readWIPBatch : Bool) : List DSBatch :=
  db.batches.filter fun b => first ≤ b.batchNumber && b.batchNumber ≤ last && (readWIPBatch || !b.wip)

/-- `GetDSL2Blocks`: the L2 blocks of the batches from `first` to `last`. -/
def getDSL2Blocks (db : DSState) (first last : ℕ) : List DSL2Block :=
  db.l2Blocks.filter fun b => first ≤ b.batchNumber && b.batchNumber ≤ last

/-- `GetDSL2Transactions`: the transactions of the L2 blocks from `first`
to `last`. -/
def getDSL2Transactions (db : DSState) (first last : ℕ) : List DSL2Transaction :=
  db.l2Txs.filter fun t => first ≤ t.l2BlockNumber && t.l2BlockNumber ≤ last

/-- The highest batch number of the state. -/
def maxBatchNumber (db : DSState) : ℕ := (db.batches.map (·.batchNumber)).foldr max 0

end DSState

/-! ## `computeFullBatches` -/

/-- The loop over transactions of `computeFullBatches` for one L2 block,
from the transaction `currentL2Tx` on: the block's transactions, and how
many it took. It stops at the first transaction of a later block. -/
def collectTxs (l2Block : DSL2Block) : List DSL2Transaction → List DSL2Transaction × ℕ
  | [] => ([], 0)
  | tx :: rest =>
    if tx.l2BlockNumber = l2Block.l2BlockNumber then
      let (txs, n) := collectTxs l2Block rest
      (tx :: txs, n + 1)
    else if tx.l2BlockNumber > l2Block.l2BlockNumber then ([], 0)
    else collectTxs l2Block rest

/-- The loop over L2 blocks of `computeFullBatches` for one batch, from the
block `currentL2Block` on, with the transaction counter and the number of
the last block taken: the batch's blocks above that number. It stops at
the first block of a later batch. -/
def collectBlocks (batch : DSBatch) (l2Txs : List DSL2Transaction) :
    List DSL2Block → ℕ → ℕ → ℕ → List DSL2FullBlock × ℕ × ℕ × ℕ
  | [], currentL2Tx, prevL2BlockNumber, currentL2Block => ([], currentL2Tx, prevL2BlockNumber, currentL2Block)
  | l2Block :: rest, currentL2Tx, prevL2BlockNumber, currentL2Block =>
    if prevL2BlockNumber ≠ 0 ∧ l2Block.l2BlockNumber ≤ prevL2BlockNumber then
      collectBlocks batch l2Txs rest currentL2Tx prevL2BlockNumber currentL2Block
    else if l2Block.batchNumber = batch.batchNumber then
      let (txs, n) := collectTxs l2Block (l2Txs.drop currentL2Tx)
      let (blocks, tx', prev', block') :=
        collectBlocks batch l2Txs rest (currentL2Tx + n) l2Block.l2BlockNumber (currentL2Block + 1)
      (⟨l2Block, txs⟩ :: blocks, tx', prev', block')
    else if l2Block.batchNumber > batch.batchNumber then
      ([], currentL2Tx, prevL2BlockNumber, currentL2Block)
    else collectBlocks batch l2Txs rest currentL2Tx prevL2BlockNumber currentL2Block

/-- The loop over batches of `computeFullBatches`, with its counters. -/
def computeFullBatchesLoop (l2Blocks : List DSL2Block) (l2Txs : List DSL2Transaction) :
    List DSBatch → ℕ → ℕ → ℕ → List DSFullBatch
  | [], _, _, _ => []
  | batch :: rest, currentL2Tx, currentL2Block, prevL2BlockNumber =>
    let (blocks, tx', prev', block') :=
      collectBlocks batch l2Txs (l2Blocks.drop currentL2Block) currentL2Tx prevL2BlockNumber currentL2Block
    ⟨batch, blocks⟩ :: computeFullBatchesLoop l2Blocks l2Txs rest tx' block' prev'

/-- `computeFullBatches`: each batch with its L2 blocks above
`prevL2BlockNumber` and their transactions. -/
def computeFullBatches (batches : List DSBatch) (l2Blocks : List DSL2Block) (l2Txs : List DSL2Transaction)
    (prevL2BlockNumber : ℕ) : List DSFullBatch :=
  computeFullBatchesLoop l2Blocks l2Txs batches 0 0 prevL2BlockNumber

/-! ## `GenerateDataStreamFile` -/

/-- `const limit`: the batches read at a time. -/
def limit : ℕ := 10000

/-- `DSVersion4`, the first version with `L2BlockEnd`. -/
def dsVersion4 : ℕ := 4

/-- `uint64(n - 1)`. -/
def predUint64 (n : ℕ) : ℕ := (n + (2 ^ 64 - 1)) % 2 ^ 64

/-- `uint32(timestamp - previousTimestamp)` of two `uint64`s. -/
def deltaTimestamp (timestamp previousTimestamp : ℕ) : ℕ :=
  (timestamp + (2 ^ 64 - previousTimestamp % 2 ^ 64)) % 2 ^ 32

/-- The variables a run carries across batches. -/
structure Cursor where
  currentBatchNumber : ℕ
  lastAddedL2BlockNumber : ℕ
  lastAddedBatchNumber : ℕ
  previousTimestamp : ℕ
  currentGER : ℕ
  deriving DecidableEq, Repr

/-- The settings of a run. -/
structure Settings where
  readWIPBatch : Bool
  /-- The cache of intermediate state roots by L2 block, when there is one. -/
  imStateRoots : Option (ℕ → Option ℕ)
  chainID : ℕ
  upgradeEtrogBatchNumber : ℕ
  version : ℕ

/-- The genesis batch: its bookmark, start, L2 block and end, in one atomic
operation. -/
def addGenesis (g : DSL2Block) (st : Settings) : Gen Unit := do
  startAtomicOp
  addStreamEntry (.bookmark ⟨.batch, g.batchNumber⟩)
  addStreamEntry (.batchStart ⟨g.batchNumber, .unspecified, g.forkID, st.chainID⟩)
  addStreamEntry (.bookmark ⟨.l2Block, g.l2BlockNumber⟩)
  addStreamEntry (.l2Block
    { number := g.l2BlockNumber, batchNumber := 0, timestamp := 0, deltaTimestamp := 0, minTimestamp := 0,
      l1BlockHash := 0, l1InfoTreeIndex := 0, hash := g.blockHash, stateRoot := g.stateRoot,
      globalExitRoot := g.globalExitRoot, coinbase := g.coinbase, blockGasLimit := 0, blockInfoRoot := 0 })
  if st.version ≥ dsVersion4 then
    addStreamEntry (.l2BlockEnd ⟨g.l2BlockNumber⟩)
  addStreamEntry (.batchEnd ⟨g.batchNumber, 0, g.stateRoot⟩)
  commitAtomicOp

/-- The L2 block entry after the bookmark of an L2 block. -/
def l2BlockAfterBookmark (l2BlockNumber : ℕ) : Gen L2Block := do
  match ← getFirstEventAfterBookmark ⟨.l2Block, l2BlockNumber⟩ with
  | .l2Block m => pure m
  | _ => throw .unmarshal

/-- The cursors a resumed run rebuilds from the type of the last entry:
the current batch, the previous timestamp and the last L2 block added. -/
def resumeFrom : Entry → Gen (ℕ × ℕ × ℕ)
  | .batchStart m => pure (m.number, 0, 0)
  | .batchEnd m => pure (m.number + 1, 0, 0)
  | .updateGER m => pure (m.batchNumber + 1, 0, 0)
  | .l2Block m => pure (m.batchNumber, m.timestamp, m.number)
  | .l2BlockEnd m => do
    -- the L2 block gives the batch number and the timestamp
    let l2Block ← l2BlockAfterBookmark m.number
    pure (l2Block.batchNumber, l2Block.timestamp, m.number)
  | .transaction m => do
    let currentL2Block ← l2BlockAfterBookmark m.l2BlockNumber
    -- the timestamp of the L2 block before the transaction's
    let prevL2Block ← l2BlockAfterBookmark (predUint64 m.l2BlockNumber)
    pure (currentL2Block.batchNumber, prevL2Block.timestamp, m.l2BlockNumber)
  | .bookmark b =>
    match b.type with
    | .batch => pure (b.value, 0, 0)
    -- "Latest entry type is an unexpected bookmark type"
    | .l2Block => StateT.lift panic

/-- Batch 1, and the batch of the Etrog upgrade, are injected. -/
def isInjected (upgradeEtrogBatchNumber batchNumber : ℕ) : Prop :=
  batchNumber = 1 ∨ (upgradeEtrogBatchNumber ≠ 0 ∧ batchNumber = upgradeEtrogBatchNumber)

instance (u n : ℕ) : Decidable (isInjected u n) := inferInstanceAs (Decidable (_ ∨ _))

/-- The type of a batch start. -/
def batchStartType (st : Settings) (batch : DSBatch) : BatchType :=
  if batch.forcedBatchNum.isSome then .forced
  else if batch.forkID ≥ forkIdEtrog ∧ isInjected st.upgradeEtrogBatchNumber batch.batchNumber then .injected
  else .regular

/-- The L1 block hash and L1 info tree index of the L2 block at
`blockIndex` of its batch's blocks. From Etrog on an injected batch takes
the L1 block of its virtual batch, a forced batch that of its forced batch,
and any other batch the L1 info tree leaf of the block at that index of its
decoded batch data. -/
def l1BlockData (db : DSState) (decodeBytes : List UInt8 → Option (List (List UInt8))) (st : Settings)
    (batch : DSBatch) (blockIndex : ℕ) (l2Block : DSL2Block) : Gen (ℕ × ℕ) := do
  if l2Block.forkID ≥ forkIdEtrog then
    if isInjected st.upgradeEtrogBatchNumber batch.batchNumber then
      pure (db.virtualBatchParentHash batch.batchNumber, 0)
    else
      match batch.forcedBatchNum with
      | some forcedBatchNum => pure (db.forcedBatchParentHash forcedBatchNum, 0)
      | none =>
        let batchRawData ← StateT.lift <| (decodeBatchV2 decodeBytes batch.batchL2Data batch.batchL2Data_lt).mapErr
          .decode
        -- the block of the batch data at the index in the list of blocks to add
        let l2blockRaw ← StateT.lift (index batchRawData.blocks blockIndex)
        let l1InfoTreeIndex := l2blockRaw.indexL1InfoTree.toNat
        if l1InfoTreeIndex ≠ 0 then pure (db.l1InfoTreePreviousBlockHash l1InfoTreeIndex, l1InfoTreeIndex)
        else pure (0, l1InfoTreeIndex)
  else pure (0, 0)

/-- The transaction entry of a transaction of an L2 block. Before Etrog the
intermediate state root is the system contract's, from the cache when it
has it; after Etrog it is the receipt's, and the entry clears it. -/
def txEntry (db : DSState) (st : Settings) (l2Block : DSL2Block) (tx : DSL2Transaction) : Transaction :=
  let stateRoot :=
    if l2Block.forkID < forkIdEtrog then
      match st.imStateRoots.bind (· l2Block.l2BlockNumber) with
      | some root => root
      | none => db.storageAt l2Block.l2BlockNumber l2Block.stateRoot
    else if l2Block.forkID > forkIdEtrog then tx.imStateRoot
    else tx.stateRoot
  { l2BlockNumber := tx.l2BlockNumber, index := tx.index, isValid := tx.isValid ≠ 0, encoded := tx.encoded,
    effectiveGasPricePercentage := tx.effectiveGasPricePercentage,
    imStateRoot := if l2Block.forkID > forkIdEtrog then 0 else stateRoot }

/-- The minimum timestamp of an L2 block entry: the batch's timestamp, the
Etrog timestamp of the virtual batch at Etrog, and zero from Etrog on when
the block has no L1 info tree index. -/
def minTimestamp (batch : DSBatch) (l2Block : DSL2Block) : ℕ :=
  if l2Block.forkID ≥ forkIdEtrog ∧ l2Block.l1InfoTreeIndex = 0 then 0
  else if l2Block.forkID = forkIdEtrog then batch.etrogTimestamp.getD batch.timestamp
  else batch.timestamp

/-- One L2 block of a batch: skipped when it is not above the last L2 block
added or its bookmark is in the stream; otherwise its bookmark, its entry,
its transactions and, from version 4, its end. -/
def addL2Block (db : DSState) (decodeBytes : List UInt8 → Option (List (List UInt8))) (st : Settings)
    (batch : DSBatch) (blockIndex : ℕ) (l2Block : DSL2FullBlock) (cur : Cursor) : Gen Cursor := do
  if l2Block.block.l2BlockNumber ≤ cur.lastAddedL2BlockNumber ∧ cur.lastAddedL2BlockNumber ≠ 0 then
    return cur
  let cur := { cur with lastAddedL2BlockNumber := l2Block.block.l2BlockNumber }
  let (l1BlockHash, l1InfoTreeIndex) ← l1BlockData db decodeBytes st batch blockIndex l2Block.block
  let streamL2Block : L2Block :=
    { number := l2Block.block.l2BlockNumber, batchNumber := l2Block.block.batchNumber,
      timestamp := l2Block.block.timestamp,
      deltaTimestamp := deltaTimestamp l2Block.block.timestamp cur.previousTimestamp,
      minTimestamp := minTimestamp batch l2Block.block, l1BlockHash, l1InfoTreeIndex,
      hash := l2Block.block.blockHash, stateRoot := l2Block.block.stateRoot,
      globalExitRoot := l2Block.block.globalExitRoot, coinbase := l2Block.block.coinbase,
      blockGasLimit := l2Block.block.blockGasLimit, blockInfoRoot := l2Block.block.blockInfoRoot }
  let cur := { cur with previousTimestamp := l2Block.block.timestamp }
  -- an L2 block already in the stream is not added again
  if (← getBookmark ⟨.l2Block, streamL2Block.number⟩).isSome then
    return cur
  addStreamEntry (.bookmark ⟨.l2Block, streamL2Block.number⟩)
  addStreamEntry (.l2Block streamL2Block)
  for tx in l2Block.txs do
    addStreamEntry (.transaction (txEntry db st l2Block.block tx))
  let cur := { cur with currentGER := l2Block.block.globalExitRoot }
  if st.version ≥ dsVersion4 then
    addStreamEntry (.l2BlockEnd ⟨l2Block.block.l2BlockNumber⟩)
  return cur

/-- The loop over the L2 blocks of a batch, with their index. -/
def addL2Blocks (db : DSState) (decodeBytes : List UInt8 → Option (List (List UInt8))) (st : Settings)
    (batch : DSBatch) : ℕ → List DSL2FullBlock → Cursor → Gen Cursor
  | _, [], cur => pure cur
  | blockIndex, l2Block :: rest, cur => do
    let cur ← addL2Block db decodeBytes st batch blockIndex l2Block cur
    addL2Blocks db decodeBytes st batch (blockIndex + 1) rest cur

/-- One full batch, in one atomic operation: skipped when it is not above
the last batch added; its bookmark and start unless the first batch read
already has its bookmark; an update of the global exit root for an empty
closed batch before Etrog, or its L2 blocks; and its end when it is
closed. -/
def addBatch (db : DSState) (decodeBytes : List UInt8 → Option (List (List UInt8))) (st : Settings)
    (b : ℕ) (batch : DSFullBatch) (cur : Cursor) : Gen Cursor := do
  if batch.batch.batchNumber ≤ cur.lastAddedBatchNumber ∧ cur.lastAddedBatchNumber ≠ 0 then
    return cur
  let cur := { cur with lastAddedBatchNumber := batch.batch.batchNumber }
  startAtomicOp
  let bookMark : BookMark := ⟨.batch, batch.batch.batchNumber⟩
  let missingBatchBookMark ← if b = 0 then Option.isNone <$> getBookmark bookMark else pure true
  if missingBatchBookMark then
    addStreamEntry (.bookmark bookMark)
    addStreamEntry (.batchStart ⟨batch.batch.batchNumber, batchStartType st batch.batch, batch.batch.forkID, st.chainID⟩)
  let cur ← if batch.l2Blocks = [] then do
      if !batch.batch.wip ∧ batch.batch.forkID < forkIdEtrog ∧ batch.batch.globalExitRoot ≠ cur.currentGER ∧
          batch.batch.globalExitRoot ≠ 0 then
        -- an empty batch: the update of the global exit root
        addStreamEntry (.updateGER
          { batchNumber := batch.batch.batchNumber, timestamp := batch.batch.timestamp,
            globalExitRoot := batch.batch.globalExitRoot, coinbase := batch.batch.coinbase,
            forkId := batch.batch.forkID, chainId := st.chainID, stateRoot := batch.batch.stateRoot })
        pure { cur with currentGER := batch.batch.globalExitRoot }
      else pure cur
    else addL2Blocks db decodeBytes st batch.batch 0 batch.l2Blocks cur
  if !batch.batch.wip then
    addStreamEntry (.batchEnd ⟨batch.batch.batchNumber, batch.batch.localExitRoot, batch.batch.stateRoot⟩)
  commitAtomicOp
  return cur

/-- The loop over the full batches read at a time, with their index. -/
def addBatches (db : DSState) (decodeBytes : List UInt8 → Option (List (List UInt8))) (st : Settings) :
    ℕ → List DSFullBatch → Cursor → Gen Cursor
  | _, [], cur => pure cur
  | b, batch :: rest, cur => do
    let cur ← addBatch db decodeBytes st b batch cur
    addBatches db decodeBytes st (b + 1) rest cur

/-- A batch read at the current batch number lies at or below the highest
batch number. -/
theorem le_maxBatchNumber_of_getDSBatches {db : DSState} {first last : ℕ} {r : Bool}
    (h : db.getDSBatches first last r ≠ []) : first ≤ db.maxBatchNumber := by
  obtain ⟨b, hb⟩ := List.exists_mem_of_ne_nil _ h
  simp only [DSState.getDSBatches, List.mem_filter, Bool.and_eq_true, decide_eq_true_eq] at hb
  -- every batch number is at most the fold of `max` over them
  have hmax : ∀ l : List DSBatch, ∀ c ∈ l, c.batchNumber ≤ (l.map (·.batchNumber)).foldr max 0 := by
    intro l
    induction l with
    | nil => intro c hc; cases hc
    | cons d ds ih =>
      intro c hc
      rcases List.mem_cons.mp hc with rfl | hc
      · exact le_max_left _ _
      · exact le_trans (ih c hc) (le_max_right _ _)
  have := hmax db.batches b hb.1
  unfold DSState.maxBatchNumber
  omega

/-- The full batches of one read: the L2 blocks of the batches read and
their transactions, above the last L2 block added. -/
def readFullBatches (db : DSState) (first : DSBatch) (rest : List DSBatch) (lastAddedL2BlockNumber : ℕ) :
    List DSFullBatch :=
  let batches := first :: rest
  let l2Blocks := db.getDSL2Blocks first.batchNumber (batches.getLast (List.cons_ne_nil _ _)).batchNumber
  let l2Txs := match l2Blocks with
    | [] => []
    | b :: bs => db.getDSL2Transactions b.l2BlockNumber ((b :: bs).getLast (List.cons_ne_nil _ _)).l2BlockNumber
  computeFullBatches batches l2Blocks l2Txs lastAddedL2BlockNumber

/-- The loop of `GenerateDataStreamFile`: read the batches from the current
batch number on, `limit` at a time, until there are none. -/
def streamLoop (db : DSState) (decodeBytes : List UInt8 → Option (List (List UInt8))) (st : Settings)
    (cur : Cursor) : Gen Unit :=
  match _hbatches : db.getDSBatches cur.currentBatchNumber (cur.currentBatchNumber + limit) st.readWIPBatch with
  | [] => pure ()
  | first :: rest => do
    let cur' ← addBatches db decodeBytes st 0 (readFullBatches db first rest cur.lastAddedL2BlockNumber)
      { cur with currentBatchNumber := cur.currentBatchNumber + limit }
    -- adding batches leaves the batch number as it is
    streamLoop db decodeBytes st { cur' with currentBatchNumber := cur.currentBatchNumber + limit }
termination_by db.maxBatchNumber + 1 - cur.currentBatchNumber
decreasing_by
  have := le_maxBatchNumber_of_getDSBatches (_hbatches ▸ List.cons_ne_nil first rest)
  simp only [limit]
  omega

/-- The cursors a run starts from: after the genesis batch for an empty
stream, or rebuilt from the last entry. -/
def startCursor (db : DSState) (st : Settings) : Gen Cursor := do
  let totalEntries := (← get).entries.length
  if totalEntries = 0 then
    addGenesis db.genesisBlock st
    pure ⟨1, 0, 0, 0, 0⟩
  else
    let latestEntry ← getEntry (totalEntries - 1)
    let (currentBatchNumber, previousTimestamp, lastAddedL2BlockNumber) ← resumeFrom latestEntry
    pure ⟨currentBatchNumber, lastAddedL2BlockNumber, 0, previousTimestamp, 0⟩

/-- `GenerateDataStreamFile`. -/
def generateDataStreamFile (db : DSState) (decodeBytes : List UInt8 → Option (List (List UInt8)))
    (st : Settings) : Gen Unit := do
  let cur ← startCursor db st
  streamLoop db decodeBytes st cur

/-! ## Runs of the loop -/

section Runs

variable {db : DSState} {decodeBytes : List UInt8 → Option (List (List UInt8))} {st : Settings}
  {cur : Cursor} {s : StreamServer}

/-- The loop stops when no batch is left to read. -/
theorem streamLoop_run_of_nil
    (h : db.getDSBatches cur.currentBatchNumber (cur.currentBatchNumber + limit) st.readWIPBatch = []) :
    (streamLoop db decodeBytes st cur).run s = .ok ((), s) := by
  rw [streamLoop]
  split
  · rfl
  · next first rest hbatches =>
    rw [h] at hbatches
    cases hbatches

/-- One read of the loop: the batches read are added, and the loop goes on
`limit` batches further. -/
theorem streamLoop_run_of_cons {first : DSBatch} {rest : List DSBatch} {cur' : Cursor} {s' : StreamServer}
    (h : db.getDSBatches cur.currentBatchNumber (cur.currentBatchNumber + limit) st.readWIPBatch = first :: rest)
    (hadd : (addBatches db decodeBytes st 0 (readFullBatches db first rest cur.lastAddedL2BlockNumber)
      { cur with currentBatchNumber := cur.currentBatchNumber + limit }).run s = .ok (cur', s')) :
    (streamLoop db decodeBytes st cur).run s =
      (streamLoop db decodeBytes st { cur' with currentBatchNumber := cur.currentBatchNumber + limit }).run s' := by
  rw [streamLoop]
  split
  · next hbatches =>
    rw [h] at hbatches
    cases hbatches
  · next first' rest' hbatches =>
    rw [h] at hbatches
    obtain ⟨rfl, rfl⟩ := List.cons.inj hbatches
    rw [StateT.run_bind, hadd, ok_bind]

theorem generateDataStreamFile_run {s' : StreamServer} (hstart : (startCursor db st).run s = .ok (cur, s')) :
    (generateDataStreamFile db decodeBytes st).run s = (streamLoop db decodeBytes st cur).run s' := by
  rw [generateDataStreamFile, StateT.run_bind, hstart, ok_bind]

/-- A resumed run after a batch end starts at the next batch, with no L2
block or batch added and the previous timestamp at zero. -/
theorem startCursor_run_of_batchEnd {m : BatchEnd} (h : s.entries.getLast? = some (.batchEnd m)) :
    (startCursor db st).run s = .ok (⟨m.number + 1, 0, 0, 0, 0⟩, s) := by
  obtain ⟨front, hs⟩ := List.getLast?_eq_some_iff.mp h
  have hne : s.entries ≠ [] := by simp [hs]
  have hentry : (getEntry (s.entries.length - 1)).run s = .ok (.batchEnd m, s) := by
    simp [getEntry, hs]
  simp [startCursor, hne, StateT.run_bind, hentry, resumeFrom]

end Runs

/-! ## Resuming after a batch end -/

/-- An L2 block of batch `n` before Etrog, numbered `n`, at `timestamp`. -/
def dragonfruitBlock (n timestamp : ℕ) : DSL2Block :=
  { batchNumber := n, l2BlockNumber := n, timestamp, l1InfoTreeIndex := 0, globalExitRoot := 0, coinbase := 0,
    forkID := forkIdDragonfruit, blockHash := n, stateRoot := n, blockGasLimit := 0, blockInfoRoot := 0 }

/-- The transaction of the L2 block `n`. -/
def dragonfruitTx (n : ℕ) : DSL2Transaction :=
  { l2BlockNumber := n, imStateRoot := 0, effectiveGasPricePercentage := 255, isValid := 1, index := 0,
    stateRoot := n, encoded := [0xc0] }

/-- The closed batch `n` before Etrog. -/
def dragonfruitBatch (n : ℕ) : DSBatch :=
  { batchNumber := n, coinbase := 0, batchL2Data := [], batchL2Data_lt := by decide, stateRoot := n,
    globalExitRoot := 0, localExitRoot := 0, timestamp := 0, wip := false, forcedBatchNum := none,
    forkID := forkIdDragonfruit, etrogTimestamp := none }

/-- The state with the closed batches 1 and 2, each with one L2 block and
one transaction; the blocks are at timestamps 10 and 20. -/
def twoBatches : DSState :=
  { genesisBlock := dragonfruitBlock 0 0, batches := [dragonfruitBatch 1, dragonfruitBatch 2],
    l2Blocks := [dragonfruitBlock 1 10, dragonfruitBlock 2 20], l2Txs := [dragonfruitTx 1, dragonfruitTx 2],
    l1InfoTreePreviousBlockHash := fun _ => 0, virtualBatchParentHash := fun _ => 0,
    forcedBatchParentHash := fun _ => 0, storageAt := fun n _ => n }

/-- The state before batch 2: its prefix. -/
def oneBatch : DSState :=
  { twoBatches with batches := [dragonfruitBatch 1], l2Blocks := [dragonfruitBlock 1 10], l2Txs := [dragonfruitTx 1] }

/-- Protocol version 3, closed batches only, no cache of intermediate
state roots. -/
def version3 : Settings :=
  { readWIPBatch := false, imStateRoots := none, chainID := 1, upgradeEtrogBatchNumber := 0, version := 3 }

/-- The L2 block entry of the block `n` at `timestamp` of these states,
with its delta timestamp. -/
def dragonfruitL2Block (n timestamp delta : ℕ) : Entry :=
  .l2Block
    { number := n, batchNumber := n, timestamp, deltaTimestamp := delta, minTimestamp := 0, l1BlockHash := 0,
      l1InfoTreeIndex := 0, hash := n, stateRoot := n, globalExitRoot := 0, coinbase := 0, blockGasLimit := 0,
      blockInfoRoot := 0 }

/-- The entries of the genesis batch of these states. -/
def dragonfruitGenesisEntries : List Entry :=
  [.bookmark ⟨.batch, 0⟩, .batchStart ⟨0, .unspecified, forkIdDragonfruit, 1⟩, .bookmark ⟨.l2Block, 0⟩,
    dragonfruitL2Block 0 0 0, .batchEnd ⟨0, 0, 0⟩]

/-- The entries of the closed batch `n` of these states, whose L2 block
entry carries `delta`. -/
def dragonfruitBatchEntries (n timestamp delta : ℕ) : List Entry :=
  [.bookmark ⟨.batch, n⟩, .batchStart ⟨n, .regular, forkIdDragonfruit, 1⟩, .bookmark ⟨.l2Block, n⟩,
    dragonfruitL2Block n timestamp delta, .transaction ⟨n, 0, true, [0xc0], 255, n⟩, .batchEnd ⟨n, 0, n⟩]

/-- **A resumed run differs from a single run.** A run over the state with
batch 1 leaves a stream that ends with batch 1's end. Run again over the
state with batch 2 added, it adds batch 2 with the delta timestamp 20 on
its L2 block, the block's whole timestamp; a single run over that state
gives the same entries but with the delta 10, the difference to batch 1's
block. -/
theorem generateDataStreamFile_resumed_after_batch_end (decodeBytes : List UInt8 → Option (List (List UInt8))) :
    (generateDataStreamFile oneBatch decodeBytes version3).run .empty =
        .ok ((), ⟨dragonfruitGenesisEntries ++ dragonfruitBatchEntries 1 10 10, []⟩) ∧
      (generateDataStreamFile twoBatches decodeBytes version3).run
          ⟨dragonfruitGenesisEntries ++ dragonfruitBatchEntries 1 10 10, []⟩ =
        .ok ((), ⟨dragonfruitGenesisEntries ++ dragonfruitBatchEntries 1 10 10 ++ dragonfruitBatchEntries 2 20 20, []⟩) ∧
      (generateDataStreamFile twoBatches decodeBytes version3).run .empty =
        .ok ((), ⟨dragonfruitGenesisEntries ++ dragonfruitBatchEntries 1 10 10 ++ dragonfruitBatchEntries 2 20 10, []⟩) := by
  refine ⟨?_, ?_, ?_⟩
  · refine (generateDataStreamFile_run rfl).trans ((streamLoop_run_of_cons rfl rfl).trans ?_)
    exact streamLoop_run_of_nil rfl
  · refine (generateDataStreamFile_run (startCursor_run_of_batchEnd rfl)).trans
      ((streamLoop_run_of_cons rfl rfl).trans ?_)
    exact streamLoop_run_of_nil rfl
  · refine (generateDataStreamFile_run rfl).trans ((streamLoop_run_of_cons rfl rfl).trans ?_)
    exact streamLoop_run_of_nil rfl

/-! ## `computeFullBatches` loses and repeats nothing

On the orders the queries return (batches by number, L2 blocks by number
with their batch numbers non-decreasing, transactions by L2 block number),
`computeFullBatches` is a grouping (`computeFullBatches_eq_groupFullBatches`).
Its cursors count what was taken, not how far the scan went, so a loop may
start behind where the last one stopped; what makes up for that is that
everything behind a cursor belongs to a block or batch already done
(`TxsBelow`, and the blocks before `currentL2Block`). -/

/-- What `computeFullBatches` is for: each batch with its L2 blocks, those
above `prevL2BlockNumber` when it is not zero, in their order, each with
its transactions in their order. -/
def groupFullBatches (batches : List DSBatch) (l2Blocks : List DSL2Block) (l2Txs : List DSL2Transaction)
    (prevL2BlockNumber : ℕ) : List DSFullBatch :=
  batches.map fun batch =>
    ⟨batch, (l2Blocks.filter fun b => b.batchNumber = batch.batchNumber ∧
        (prevL2BlockNumber = 0 ∨ prevL2BlockNumber < b.l2BlockNumber)).map fun b =>
      ⟨b, l2Txs.filter (·.l2BlockNumber = b.l2BlockNumber)⟩⟩

/-- In a list sorted by `f`, the first `m` elements lie at or below `v`
when at least `m` elements do. -/
theorem le_of_mem_take_of_le_length_filter {α : Type} (f : α → ℕ) (v : ℕ) :
    ∀ {l : List α}, l.Pairwise (f · ≤ f ·) → ∀ {m : ℕ}, m ≤ (l.filter (f · ≤ v)).length →
      ∀ x ∈ l.take m, f x ≤ v
  | [], _, _, _, x, hx => by simp at hx
  | a :: l, hl, m, hm, x, hx => by
    rw [List.pairwise_cons] at hl
    cases m with
    | zero => simp at hx
    | succ m =>
      by_cases ha : f a ≤ v
      · rw [List.filter_cons_of_pos (by simpa using ha), List.length_cons] at hm
        rcases List.mem_cons.1 (List.take_succ_cons ▸ hx) with rfl | hx
        · exact ha
        · exact le_of_mem_take_of_le_length_filter f v hl.2 (by omega) x hx
      · -- `a` is above `v`, and so is everything after it
        have hnil : l.filter (f · ≤ v) = [] :=
          List.filter_eq_nil_iff.2 fun b hb => by have := hl.1 b hb; simp; omega
        rw [List.filter_cons_of_neg (by simpa using ha), hnil] at hm
        simp at hm

section Grouping

variable {l2Txs : List DSL2Transaction}

/-- On transactions sorted by L2 block number, the loop over transactions
takes exactly those of the block. -/
theorem collectTxs_of_sorted (l2Block : DSL2Block) :
    ∀ {txs : List DSL2Transaction}, txs.Pairwise (·.l2BlockNumber ≤ ·.l2BlockNumber) →
      collectTxs l2Block txs = (txs.filter (·.l2BlockNumber = l2Block.l2BlockNumber),
        (txs.filter (·.l2BlockNumber = l2Block.l2BlockNumber)).length)
  | [], _ => rfl
  | tx :: rest, hsorted => by
    rw [List.pairwise_cons] at hsorted
    rw [collectTxs]
    split_ifs with heq hgt
    · rw [collectTxs_of_sorted l2Block hsorted.2, List.filter_cons_of_pos (by simpa using heq)]
      rfl
    · -- past the block: no later transaction is one of its own
      have hnil : rest.filter (·.l2BlockNumber = l2Block.l2BlockNumber) = [] :=
        List.filter_eq_nil_iff.2 fun t ht => by have := hsorted.1 t ht; simp; omega
      rw [List.filter_cons_of_neg (by simpa using heq), hnil]
      rfl
    · rw [collectTxs_of_sorted l2Block hsorted.2, List.filter_cons_of_neg (by simpa using heq)]

/-- The transaction cursor `t` is behind block number `n`: every
transaction before it is of a lower block. -/
def TxsBelow (l2Txs : List DSL2Transaction) (t n : ℕ) : Prop :=
  ∀ x ∈ l2Txs.take t, x.l2BlockNumber < n

theorem txsBelow_zero (n : ℕ) : TxsBelow l2Txs 0 n := by
  simp [TxsBelow]

/-- Behind the cursor there is none of a block's transactions, so reading
from the cursor finds them all. -/
theorem TxsBelow.filter_drop {t : ℕ} {b : DSL2Block} (h : TxsBelow l2Txs t b.l2BlockNumber) :
    (l2Txs.drop t).filter (·.l2BlockNumber = b.l2BlockNumber) =
      l2Txs.filter (·.l2BlockNumber = b.l2BlockNumber) := by
  conv_rhs => rw [← List.take_append_drop t l2Txs, List.filter_append]
  have hnil : (l2Txs.take t).filter (·.l2BlockNumber = b.l2BlockNumber) = [] :=
    List.filter_eq_nil_iff.2 fun x hx => by have := h x hx; simp; omega
  rw [hnil, List.nil_append]

/-- Taking a block's transactions moves the cursor past them and no
further than the block. -/
theorem TxsBelow.collect (hT : l2Txs.Pairwise (·.l2BlockNumber ≤ ·.l2BlockNumber)) {t n : ℕ}
    (h : TxsBelow l2Txs t n) {b : DSL2Block} (hb : b.l2BlockNumber < n) :
    TxsBelow l2Txs (t + ((l2Txs.drop t).filter (·.l2BlockNumber = b.l2BlockNumber)).length) n := by
  intro x hx
  rw [List.take_add, List.mem_append] at hx
  rcases hx with hx | hx
  · exact h x hx
  · -- the block's transactions are among those up to its number
    have hle : ((l2Txs.drop t).filter (·.l2BlockNumber = b.l2BlockNumber)).length ≤
        ((l2Txs.drop t).filter (·.l2BlockNumber ≤ b.l2BlockNumber)).length :=
      (List.monotone_filter_right _ fun y hy => by simp at hy ⊢; omega).length_le
    have := le_of_mem_take_of_le_length_filter (·.l2BlockNumber) b.l2BlockNumber
      (hT.sublist (List.drop_sublist t l2Txs)) hle x hx
    omega

/-- Of two blocks of a sorted list, the one of the lower batch has the
lower number. -/
theorem l2BlockNumber_lt_of_batchNumber_lt : ∀ {l2Blocks : List DSL2Block},
    l2Blocks.Pairwise (fun b b' => b.l2BlockNumber < b'.l2BlockNumber ∧ b.batchNumber ≤ b'.batchNumber) →
    ∀ {b₁ b₂ : DSL2Block}, b₁ ∈ l2Blocks → b₂ ∈ l2Blocks → b₁.batchNumber < b₂.batchNumber →
      b₁.l2BlockNumber < b₂.l2BlockNumber
  | [], _, _, _, h₁, _, _ => by simp at h₁
  | a :: l, hl, b₁, b₂, h₁, h₂, hlt => by
    rw [List.pairwise_cons] at hl
    rcases List.mem_cons.1 h₁ with rfl | hb₁ <;> rcases List.mem_cons.1 h₂ with rfl | hb₂
    · omega
    · exact (hl.1 _ hb₂).1
    · have := (hl.1 _ hb₁).2
      omega
    · exact l2BlockNumber_lt_of_batchNumber_lt hl.2 hb₁ hb₂ hlt

/-- **One batch's loop over L2 blocks.** From the block cursor on, it takes
the blocks of the batch above the last block taken `q`, each with its
transactions. The block counter goes up by as many, the last block taken
is one of them or still `q`, and the transaction cursor moves past their
transactions only. -/
theorem collectBlocks_spec (hT : l2Txs.Pairwise (·.l2BlockNumber ≤ ·.l2BlockNumber)) (batch : DSBatch) :
    ∀ {blocks : List DSL2Block},
      blocks.Pairwise (fun b b' => b.l2BlockNumber < b'.l2BlockNumber ∧ b.batchNumber ≤ b'.batchNumber) →
    ∀ {t q c : ℕ}, (∀ b ∈ blocks, b.batchNumber = batch.batchNumber → (q = 0 ∨ q < b.l2BlockNumber) →
        TxsBelow l2Txs t b.l2BlockNumber) →
    ∃ full t' q', collectBlocks batch l2Txs blocks t q c = (full, t', q', c + full.length) ∧
      full = (blocks.filter fun b => b.batchNumber = batch.batchNumber ∧
          (q = 0 ∨ q < b.l2BlockNumber)).map (fun b => ⟨b, l2Txs.filter (·.l2BlockNumber = b.l2BlockNumber)⟩) ∧
      (q' = q ∨ ∃ b ∈ blocks, b.batchNumber = batch.batchNumber ∧ (q = 0 ∨ q < b.l2BlockNumber) ∧
        q' = b.l2BlockNumber) ∧
      ∀ n, (∀ b ∈ blocks, b.batchNumber = batch.batchNumber → b.l2BlockNumber < n) →
        TxsBelow l2Txs t n → TxsBelow l2Txs t' n
  | [], _, t, q, c, _ => ⟨[], t, q, rfl, rfl, .inl rfl, fun _ _ h => h⟩
  | b :: rest, hK, t, q, c, hbelow => by
    rw [List.pairwise_cons] at hK
    have hrest : ∀ b' ∈ rest, b' ∈ b :: rest := fun b' hb' => List.mem_cons_of_mem b hb'
    rw [collectBlocks]
    split_ifs with hskip hmatch hgt
    · -- at or below the last block taken: skipped
      obtain ⟨full, t', q', hrun, hfull, hq', htx⟩ :=
        collectBlocks_spec hT batch hK.2 fun b' hb' => hbelow b' (hrest b' hb')
      refine ⟨full, t', q', hrun, ?_, ?_, fun n hn => htx n fun b' hb' => hn b' (hrest b' hb')⟩
      · rw [hfull, List.filter_cons_of_neg (by simp; omega)]
      · exact hq'.imp_right fun ⟨b', hb', h⟩ => ⟨b', hrest b' hb', h⟩
    · -- a block of the batch: taken with its transactions, and the test
      -- against it passes every later block
      have hpass : q = 0 ∨ q < b.l2BlockNumber := by omega
      have hbt := hbelow b List.mem_cons_self hmatch hpass
      rw [collectTxs_of_sorted b (hT.sublist (List.drop_sublist t l2Txs))]
      dsimp only
      obtain ⟨full, t', q', hrun, hfull, hq', htx⟩ := collectBlocks_spec hT batch hK.2
        (t := t + ((l2Txs.drop t).filter (·.l2BlockNumber = b.l2BlockNumber)).length)
        (q := b.l2BlockNumber) (c := c + 1) fun b' hb' hm _ =>
          (hbelow b' (hrest b' hb') hm (by have := (hK.1 b' hb').1; omega)).collect hT (hK.1 b' hb').1
      rw [hrun]
      refine ⟨⟨b, (l2Txs.drop t).filter (·.l2BlockNumber = b.l2BlockNumber)⟩ :: full, t', q', ?_, ?_, ?_, ?_⟩
      · simp only [List.length_cons]
        congr 3
        omega
      · have hcongr : rest.filter (fun b' => b'.batchNumber = batch.batchNumber ∧
              (b.l2BlockNumber = 0 ∨ b.l2BlockNumber < b'.l2BlockNumber)) =
            rest.filter fun b' => b'.batchNumber = batch.batchNumber ∧ (q = 0 ∨ q < b'.l2BlockNumber) :=
          List.filter_congr fun b' hb' => by
            have hlt := (hK.1 b' hb').1
            have hq : q = 0 ∨ q < b'.l2BlockNumber := by omega
            simp [hlt, hq]
        rw [hfull, hcongr, List.filter_cons_of_pos (by simp; omega), List.map_cons, hbt.filter_drop]
      · rcases hq' with rfl | ⟨b', hb', hm, _, rfl⟩
        · exact .inr ⟨b, List.mem_cons_self, hmatch, hpass, rfl⟩
        · have := (hK.1 b' hb').1
          exact .inr ⟨b', hrest b' hb', hm, by omega, rfl⟩
      · intro n hn hbn
        exact htx n (fun b' hb' hm => hn b' (hrest b' hb') hm)
          (hbn.collect hT (hn b List.mem_cons_self hmatch))
    · -- a block of a later batch: the loop stops, and no later block is of
      -- this batch
      refine ⟨[], t, q, rfl, ?_, .inl rfl, fun _ _ h => h⟩
      refine (List.map_eq_nil_iff.2 (List.filter_eq_nil_iff.2 fun b' hb' => ?_)).symm
      rcases List.mem_cons.1 hb' with rfl | hb'
      · simp
        omega
      · have := (hK.1 b' hb').2
        simp
        omega
    · -- a block of an earlier batch: skipped
      obtain ⟨full, t', q', hrun, hfull, hq', htx⟩ :=
        collectBlocks_spec hT batch hK.2 fun b' hb' => hbelow b' (hrest b' hb')
      refine ⟨full, t', q', hrun, ?_, ?_, fun n hn => htx n fun b' hb' => hn b' (hrest b' hb')⟩
      · rw [hfull, List.filter_cons_of_neg (by simp [hmatch])]
      · exact hq'.imp_right fun ⟨b', hb', h⟩ => ⟨b', hrest b' hb', h⟩

/-- **The loop over batches**, from a batch on. Behind the block cursor are
blocks of earlier batches, behind the transaction cursor transactions of
lower blocks, and on the blocks of this batch and later ones the test
against the last block taken agrees with the test against
`prevL2BlockNumber`. -/
theorem computeFullBatchesLoop_eq {l2Blocks : List DSL2Block}
    (hK : l2Blocks.Pairwise fun b b' => b.l2BlockNumber < b'.l2BlockNumber ∧ b.batchNumber ≤ b'.batchNumber)
    (hT : l2Txs.Pairwise (·.l2BlockNumber ≤ ·.l2BlockNumber)) (prevL2BlockNumber : ℕ) :
    ∀ {batches : List DSBatch}, batches.Pairwise (·.batchNumber < ·.batchNumber) → ∀ {t c q : ℕ},
      (∀ b ∈ l2Blocks.take c, ∀ batch ∈ batches, b.batchNumber < batch.batchNumber) →
      (∀ b ∈ l2Blocks, ∀ batch ∈ batches, batch.batchNumber ≤ b.batchNumber →
        TxsBelow l2Txs t b.l2BlockNumber) →
      (∀ b ∈ l2Blocks, ∀ batch ∈ batches, batch.batchNumber ≤ b.batchNumber →
        ((q = 0 ∨ q < b.l2BlockNumber) ↔ (prevL2BlockNumber = 0 ∨ prevL2BlockNumber < b.l2BlockNumber))) →
      computeFullBatchesLoop l2Blocks l2Txs batches t c q =
        groupFullBatches batches l2Blocks l2Txs prevL2BlockNumber
  | [], _, _, _, _, _, _, _ => rfl
  | batch :: rest, hB, t, c, q, hblocks, htxs, hprev => by
    rw [List.pairwise_cons] at hB
    have hself : batch ∈ batch :: rest := List.mem_cons_self
    obtain ⟨full, t', q', hrun, hfull, hq', htx⟩ :=
      collectBlocks_spec hT batch (hK.sublist (List.drop_sublist c l2Blocks)) (t := t) (q := q) (c := c)
        fun b hb hm _ => htxs b (List.mem_of_mem_drop hb) batch hself hm.ge
    -- the blocks behind the cursor are of earlier batches, and on the
    -- batch's own blocks the two tests agree
    have hbehind : (l2Blocks.take c).filter (fun b => b.batchNumber = batch.batchNumber ∧
        (prevL2BlockNumber = 0 ∨ prevL2BlockNumber < b.l2BlockNumber)) = [] :=
      List.filter_eq_nil_iff.2 fun b hb => by have := hblocks b hb batch hself; simp; omega
    have htests : (l2Blocks.drop c).filter (fun b => b.batchNumber = batch.batchNumber ∧
          (q = 0 ∨ q < b.l2BlockNumber)) =
        (l2Blocks.drop c).filter fun b => b.batchNumber = batch.batchNumber ∧
          (prevL2BlockNumber = 0 ∨ prevL2BlockNumber < b.l2BlockNumber) :=
      List.filter_congr fun b hb => by
        by_cases hm : b.batchNumber = batch.batchNumber
        · simp [hm, hprev b (List.mem_of_mem_drop hb) batch hself hm.ge]
        · simp [hm]
    have hgroup : full = (l2Blocks.filter fun b => b.batchNumber = batch.batchNumber ∧
        (prevL2BlockNumber = 0 ∨ prevL2BlockNumber < b.l2BlockNumber)).map
          fun b => ⟨b, l2Txs.filter (·.l2BlockNumber = b.l2BlockNumber)⟩ := by
      conv_rhs => rw [← List.take_append_drop c l2Blocks, List.filter_append, hbehind, List.nil_append]
      rw [hfull, htests]
    rw [computeFullBatchesLoop, hrun]
    dsimp only
    rw [groupFullBatches, List.map_cons, ← hgroup]
    congr 1
    refine computeFullBatchesLoop_eq hK hT prevL2BlockNumber hB.2 ?_ ?_ ?_
    · -- the cursor moved past the batch's blocks, and no further than its batch
      intro b hb batch' hb'
      have hlt := hB.1 batch' hb'
      rw [List.take_add, List.mem_append] at hb
      rcases hb with hb | hb
      · exact (hblocks b hb batch hself).trans hlt
      · have hle : full.length ≤ ((l2Blocks.drop c).filter (·.batchNumber ≤ batch.batchNumber)).length := by
          rw [hfull, List.length_map]
          exact (List.monotone_filter_right _ fun b h => by simp at h ⊢; omega).length_le
        have := le_of_mem_take_of_le_length_filter (·.batchNumber) batch.batchNumber
          ((hK.sublist (List.drop_sublist c l2Blocks)).imp fun h => h.2) hle b hb
        omega
    · -- the transactions taken are of the batch's blocks, below every later one
      intro b hb batch' hb' hle
      have hlt := hB.1 batch' hb'
      exact htx b.l2BlockNumber
        (fun b₀ hb₀ hm => l2BlockNumber_lt_of_batchNumber_lt hK (List.mem_of_mem_drop hb₀) hb (by omega))
        (htxs b hb batch hself (by omega))
    · -- the last block taken passed the test and lies below every later block
      intro b hb batch' hb' hle
      have hlt := hB.1 batch' hb'
      rcases hq' with rfl | ⟨b₀, hb₀, hm, hpass, rfl⟩
      · exact hprev b hb batch hself (by omega)
      · have hb₀K := List.mem_of_mem_drop hb₀
        have hnum := l2BlockNumber_lt_of_batchNumber_lt hK hb₀K hb (by omega)
        have hp := (hprev b₀ hb₀K batch hself hm.ge).1 hpass
        constructor
        · intro _
          omega
        · intro _
          exact .inr hnum

end Grouping

/-- **`computeFullBatches` groups the L2 blocks and the transactions under
their batches**, losing and repeating none, on the orders the queries
return them in. -/
theorem computeFullBatches_eq_groupFullBatches {batches : List DSBatch} {l2Blocks : List DSL2Block}
    {l2Txs : List DSL2Transaction} (hB : batches.Pairwise (·.batchNumber < ·.batchNumber))
    (hK : l2Blocks.Pairwise fun b b' => b.l2BlockNumber < b'.l2BlockNumber ∧ b.batchNumber ≤ b'.batchNumber)
    (hT : l2Txs.Pairwise (·.l2BlockNumber ≤ ·.l2BlockNumber)) (prevL2BlockNumber : ℕ) :
    computeFullBatches batches l2Blocks l2Txs prevL2BlockNumber =
      groupFullBatches batches l2Blocks l2Txs prevL2BlockNumber :=
  computeFullBatchesLoop_eq hK hT prevL2BlockNumber hB (by simp) (fun _ _ _ _ _ => txsBelow_zero _)
    fun _ _ _ _ _ => Iff.rfl

/-- The grouping of the two batches above after L2 block 1. -/
theorem computeFullBatches_eq_groupFullBatches_twoBatches :
    twoBatches.batches.Pairwise (·.batchNumber < ·.batchNumber) ∧
      twoBatches.l2Blocks.Pairwise (fun b b' => b.l2BlockNumber < b'.l2BlockNumber ∧
        b.batchNumber ≤ b'.batchNumber) ∧
      twoBatches.l2Txs.Pairwise (·.l2BlockNumber ≤ ·.l2BlockNumber) ∧
      computeFullBatches twoBatches.batches twoBatches.l2Blocks twoBatches.l2Txs 1 =
        groupFullBatches twoBatches.batches twoBatches.l2Blocks twoBatches.l2Txs 1 :=
  ⟨by decide, by decide, by decide,
    computeFullBatches_eq_groupFullBatches (by decide) (by decide) (by decide) 1⟩


end State

end XLayerNode
