import XLayerNode.Common.Journal
import XLayerNode.State.IncrementalBatch
import XLayerNode.State.ForkId
import XLayerNode.Synchronizer.TrustedBatch
/-!
# Processing one trusted batch, over a journal of calls

`ProcessTrustedBatch` of `l2_shared` checks that L1 is synced far enough
for the batch's global exit root, decides the mode of the batch
(`getModeForProcessBatch`), runs the etrog step of that mode
(`SyncTrustedBatchExecutorForEtrog`), checks a batch it must close, and
turns the response into the next cache (`updateStatus`). All of it runs on
the database transaction `dbTx` the sync loop opened.

The programs are written over a journal of their calls
(`Common.Journal`): an environment gives every answer of the state, the
executor and the trusted node, each depending on all calls before it, and
the time the clock reads. An exit is the error a Go function returns, or a
panic.

What the loop relies on is proved here. The processing makes only calls
of the transaction it is given: it never begins, commits or rolls back a
transaction, nor asks the trusted node for a batch
(`processTrustedBatch_effects`). It resets the trusted state only right
after the state said the last virtual batch is at most the reset point
(`processTrustedBatch_resetsGuarded`). And it panics only where the batch decoder does, on the
data of an incremental step: the nil dereferences of `NothingProcess`,
`updateStatus` and `checkProcessBatchResultMatchExpected` are never
reached (`processTrustedBatch_panic`).
-/

namespace XLayerNode

namespace Synchronizer

namespace L2Sync

open Journal

/-- `state.ProcessingContext` as `openBatch` fills it. -/
structure ProcessingContext where
  batchNumber : ℕ
  coinbase : ℕ
  timestamp : ℕ
  globalExitRoot : ℕ
  batchL2Data : List UInt8
  forcedBatchNum : Option ℕ
  deriving DecidableEq, Repr

/-- `state.ProcessRequest` as `getProcessRequest` fills it; the L1 info
tree leaves are the map from leaf index to leaf, as a list of pairs. -/
structure ProcessRequest where
  batchNumber : ℕ
  oldStateRoot : ℕ
  oldAccInputHash : ℕ
  coinbase : ℕ
  l1InfoRoot : ℕ
  l1InfoTreeData : List (ℕ × ℕ)
  timestampLimit : ℕ
  transactions : List UInt8
  forkID : ℕ
  skipVerifyL1InfoRoot : Bool
  deriving DecidableEq, Repr

/-- `state.ProcessingReceipt` as `updateWIPBatch` and `CloseBatch` fill
it. -/
structure ProcessingReceipt where
  batchNumber : ℕ
  stateRoot : ℕ
  localExitRoot : ℕ
  batchL2Data : List UInt8
  accInputHash : ℕ
  globalExitRoot : ℕ
  deriving DecidableEq, Repr

/-- The calls of the L2 sync: to the trusted node, to the state (on
`dbTx`, except `processBatchV2`), to the synchronizer's flush ids, and to
`dbTx` itself. -/
inductive Call where
  | batchNumber
  | batchByNumber (number : ℕ)
  | exitRootsByGER (globalExitRoot : ℕ)
  | beginStateTransaction
  | getBatchByNumber (batchNumber : ℕ)
  | getExitRootByGlobalExitRoot (globalExitRoot : ℕ)
  | getLastBlock
  | openBatch (processingContext : ProcessingContext)
  | getL1InfoTreeDataFromBatchL2Data (batchL2Data : List UInt8)
  | processBatchV2 (request : ProcessRequest)
  | pendingFlushID (flushID proverID : ℕ)
  | storeL2Block (batchNumber blockNumber : ℕ)
  | updateWIPBatch (receipt : ProcessingReceipt)
  | closeBatch (receipt : ProcessingReceipt)
  | getLastVirtualBatchNum
  | resetTrustedState (batchNumber : ℕ)
  | getLastL2BlockByBatchNumber (batchNumber : ℕ)
  | checkFlushID
  | commit
  | rollback
  deriving DecidableEq, Repr

/-- The answers of the calls, each from the journal that ends with it; the
state's fork ids and in-memory fork intervals; the clock; and the Keccak
hash and RLP decoder the model leaves abstract. `.error none` from the state is
`state.ErrNotFound`; from `CloseBatch`, an error with the text of
`state.ErrBatchAlreadyClosed`. -/
structure Env (ε : Type) where
  batchNumber : List Call → Except ε ℕ
  /-- `nil` when the trusted node has no batch. -/
  batchByNumber : List Call → Except ε (Option RpcBatch)
  /-- The L1 block of the global exit root, `nil` when there is none. -/
  exitRootsByGER : List Call → Except ε (Option ℕ)
  beginStateTransaction : List Call → Except ε Unit
  getBatchByNumber : List Call → Except (Option ε) Batch
  getExitRootByGlobalExitRoot : List Call → Except (Option ε) Unit
  /-- The number of the last L1 block synced. -/
  getLastBlock : List Call → Except ε ℕ
  openBatch : List Call → Except ε Unit
  /-- The leaves and the L1 info root. -/
  getL1InfoTreeDataFromBatchL2Data : List Call → Except ε (List (ℕ × ℕ) × ℕ)
  processBatchV2 : List Call → Except ε ProcessBatchResponse
  storeL2Block : List Call → Except ε Unit
  updateWIPBatch : List Call → Except ε Unit
  closeBatch : List Call → Except (Option ε) Unit
  getLastVirtualBatchNum : List Call → Except ε ℕ
  resetTrustedState : List Call → Except ε Unit
  /-- The number and hash of the batch's last L2 block, `nil` when the
  state returns none. -/
  getLastL2BlockByBatchNumber : List Call → Except ε (Option (ℕ × ℕ))
  checkFlushID : List Call → Except ε Unit
  commit : List Call → Except ε Unit
  rollback : List Call → Except ε Unit
  getForkIDByBatchNumber : ℕ → ℕ
  getForkIDInMemory : ℕ → Option State.ForkIDInterval
  now : List Call → ℕ
  hashByteArray : List UInt8 → ℕ
  decodeBytes : List UInt8 → Option (List (List UInt8))

/-- The errors of the L2 sync. -/
inductive SyncError (ε : Type) where
  /-- The error of a call. -/
  | call (err : ε)
  /-- `state.ErrNotFound`. -/
  | notFound
  /-- An error of the decisions on the batch (`l2_shared`). -/
  | batch (err : BatchError)
  /-- An error of `composePartialBatch`. -/
  | compose (err : State.ComposeError)
  /-- "batch %d is nil" -/
  | batchNil (expectedBatchNumber : ℕ)
  /-- "batch %d is not the expected batch %d" -/
  | batchNotExpected (number expectedBatchNumber : ℕ)
  /-- "%s trustedBatch is nil, it never should be nil" -/
  | trustedBatchNil
  /-- "data is nil" -/
  | dataNil
  /-- `ErrBatchDataIsNotIncremental`. -/
  | batchDataIsNotIncremental
  /-- "%s executorLevelError detected err: %w" (`ErrFailExecuteBatch`) -/
  | executorLevelError
  /-- "%s romOOCError detected.err: %w" (`ErrFailExecuteBatch`) -/
  | romOOCError
  /-- "%s failed to store l2block: %v  err:%w" -/
  | storeL2Block (blockNumber : ℕ) (err : ε)
  /-- "%s processBatchResp.NewStateRoot is ZeroHash. Err: %w" -/
  | newStateRootZero
  /-- "%s processBatchResp.NewStateRoot(%s) != data.TrustedBatch.StateRoot(%s). Err: %w" -/
  | newStateRootDiffers (calculated expected : ℕ)
  /-- "%s processBatchResp.NewLocalExitRoot(%s) != data.StateBatch.LocalExitRoot(%s). Err: %w" -/
  | newLocalExitRootDiffers (calculated expected : ℕ)
  /-- `ErrCriticalClosedBatchDontContainExpectedData`, with the fields that
  differ when `CloseBatch` found them. -/
  | criticalClosedBatchDontContainExpectedData (diffs : Option (List BatchField))
  /-- `ErrCantReprocessBatchMissingPreviousStateBatch`. -/
  | cantReprocessBatchMissingPreviousStateBatch
  /-- `syncinterfaces.ErrMissingSyncFromL1`. -/
  | missingSyncFromL1
  /-- `DeSyncPermissionlessAndTrustedNodeError`. -/
  | deSyncPermissionlessAndTrustedNode (l1BlockNumber : ℕ)
  /-- "last L2Block in the database is nil" -/
  | lastL2BlockNil
  /-- "last L2Block in the database %s and the trusted batch %d are different" -/
  | lastL2BlockNumberDiffers (stateNumber trustedNumber : ℕ)
  /-- "last L2Block %s in the database %s and the trusted batch %s are different" -/
  | lastL2BlockHashDiffers (number stateHash trustedHash : ℕ)
  /-- `syncinterfaces.ErrCantSyncFromL2`. -/
  | cantSyncFromL2

/-- How a function of the sync ends early: the error it returns, or a
panic. -/
inductive Exit (ε : Type) where
  | error (err : SyncError ε)
  | panic

/-- The programs of the L2 sync. -/
abbrev Run (ε α : Type) := Journal Call (Exit ε) α

variable {ε α β : Type}

/-- Return the error of a check. -/
def orReturnExcept : Except (SyncError ε) α → Run ε α
  | .ok a => pure a
  | .error err => exit (.error err)

/-- A call whose error is returned. -/
def orReturn (c : Call) (answer : List Call → Except ε β) : Run ε β := do
  match ← call c answer with
  | .ok b => pure b
  | .error err => exit (.error (.call err))

/-- A call of the state whose error, `ErrNotFound` too, is returned. -/
def orReturnState (c : Call) (answer : List Call → Except (Option ε) β) : Run ε β := do
  match ← call c answer with
  | .ok b => pure b
  | .error none => exit (.error .notFound)
  | .error (some err) => exit (.error (.call err))

/-! ## The etrog steps -/

section Steps

variable (env : Env ε)

/-- `openBatch`: the trusted batch opened in the state, at the time of the
clock. -/
def openBatch (trustedBatch : RpcBatch) : Run ε Unit := do
  let now ← read env.now
  orReturn (.openBatch
    { batchNumber := trustedBatch.number, coinbase := trustedBatch.coinbase, timestamp := now,
      globalExitRoot := trustedBatch.globalExitRoot, batchL2Data := trustedBatch.batchL2Data,
      forcedBatchNum := trustedBatch.forcedBatchNumber }) env.openBatch

/-- `CloseBatch`: close the batch with the trusted roots. A batch the state
had closed already must hold the trusted batch's data. -/
def closeBatch (trustedBatch : RpcBatch) : Run ε Unit := do
  let receipt : ProcessingReceipt :=
    { batchNumber := trustedBatch.number, stateRoot := trustedBatch.stateRoot,
      localExitRoot := trustedBatch.localExitRoot, batchL2Data := trustedBatch.batchL2Data,
      accInputHash := trustedBatch.accInputHash, globalExitRoot := 0 }
  match ← call (.closeBatch receipt) env.closeBatch with
  | .ok () => pure ()
  | .error (some err) => exit (.error (.call err))
  | .error none =>
    -- the errors are compared by their text
    let dbBatch ← orReturnState (.getBatchByNumber trustedBatch.number) env.getBatchByNumber
    let (equals, diffs) := areEqualStateBatchAndTrustedBatch (some dbBatch) (some trustedBatch) cmpBatchIgnoreTstamp
    if equals then pure () else exit (.error (.criticalClosedBatchDontContainExpectedData (some diffs)))

/-- `updateWIPBatch`: the batch, still open, with the new state root and
the trusted data. -/
def updateWIPBatch (data : ProcessData) (newStateRoot : ℕ) : Run ε Unit :=
  orReturn (.updateWIPBatch
    { batchNumber := data.batchNumber, stateRoot := newStateRoot,
      localExitRoot := data.trustedBatch.localExitRoot, batchL2Data := data.trustedBatch.batchL2Data,
      accInputHash := data.trustedBatch.accInputHash, globalExitRoot := data.trustedBatch.globalExitRoot })
    env.updateWIPBatch

/-- `processAndStoreTxs`: execute the request and store each block of the
response, unless the executor reports an error of its own or out of
counters. -/
def processAndStoreTxs (request : ProcessRequest) : Run ε ProcessBatchResponse := do
  let processBatchResp ← orReturn (.processBatchV2 request) env.processBatchV2
  let _ ← call (.pendingFlushID processBatchResp.flushID processBatchResp.proverID) fun _ => ()
  if processBatchResp.isExecutorLevelError then exit (.error .executorLevelError)
  else if processBatchResp.isRomOOCError then exit (.error .romOOCError)
  else
    processBatchResp.blockResponses.forM fun block => do
      match ← call (.storeL2Block request.batchNumber block) env.storeL2Block with
      | .ok () => pure ⟨⟩
      | .error err => exit (.error (.storeL2Block block err))
    pure processBatchResp

/-- `getProcessRequest`. -/
def getProcessRequest (data : ProcessData) (l1InfoTreeLeafs : List (ℕ × ℕ)) (l1InfoTreeRoot : ℕ) :
    ProcessRequest :=
  { batchNumber := data.trustedBatch.number, oldStateRoot := data.oldStateRoot,
    oldAccInputHash := data.oldAccInputHash, coinbase := data.trustedBatch.coinbase,
    l1InfoRoot := l1InfoTreeRoot, l1InfoTreeData := l1InfoTreeLeafs,
    timestampLimit := data.trustedBatch.timestamp, transactions := data.trustedBatch.batchL2Data,
    forkID := env.getForkIDByBatchNumber data.trustedBatch.number, skipVerifyL1InfoRoot := true }

/-- `batchResultSanityCheck`: the execution gives the trusted roots. The
accumulated input hash is not checked. -/
def batchResultSanityCheck (data : ProcessData) (processBatchResp : Option ProcessBatchResponse) :
    Except (SyncError ε) Unit :=
  match processBatchResp with
  | none => .ok ()
  | some resp =>
    if resp.newStateRoot = 0 then .error .newStateRootZero
    else if resp.newStateRoot ≠ data.trustedBatch.stateRoot then
      .error (.newStateRootDiffers resp.newStateRoot data.trustedBatch.stateRoot)
    else if resp.newLocalExitRoot ≠ data.trustedBatch.localExitRoot then
      .error (.newLocalExitRootDiffers resp.newLocalExitRoot data.trustedBatch.localExitRoot)
    else .ok ()

/-- `CreateEmptyBatch`: an empty batch is opened and closed, or left open
with the trusted state root, without execution. -/
def createEmptyBatch (data : ProcessData) : Run ε ProcessResponse := do
  openBatch env data.trustedBatch
  (if data.batchMustBeClosed then closeBatch env data.trustedBatch
    else updateWIPBatch env data data.trustedBatch.stateRoot)
  pure (newProcessResponse.updateCurrentBatch (rpcBatchToStateBatch data.trustedBatch))

/-- `FullProcess`: open the batch, execute all its data, check the roots,
close it or update it, and read it back. -/
def fullProcess (data : ProcessData) : Run ε ProcessResponse := do
  if data.trustedBatch.batchL2Data.length = 0 then createEmptyBatch env data
  else
    openBatch env data.trustedBatch
    let (leaves, l1InfoRoot) ← orReturn (.getL1InfoTreeDataFromBatchL2Data data.trustedBatch.batchL2Data)
      env.getL1InfoTreeDataFromBatchL2Data
    let processBatchResp ← processAndStoreTxs env (getProcessRequest env data leaves l1InfoRoot)
    orReturnExcept (batchResultSanityCheck data (some processBatchResp))
    (if data.batchMustBeClosed then closeBatch env data.trustedBatch
      else updateWIPBatch env data processBatchResp.newStateRoot)
    let resultBatch ← orReturnState (.getBatchByNumber data.trustedBatch.number) env.getBatchByNumber
    pure (newProcessResponse.updateCurrentBatchWithExecutionResult resultBatch processBatchResp)

/-- `ReProcess`: delete the batches from this one on, unless a virtual
batch would go with them, and process the batch in full. -/
def reProcess (data : ProcessData) : Run ε ProcessResponse := do
  let lastVirtualBatchNum ← orReturn .getLastVirtualBatchNum env.getLastVirtualBatchNum
  if data.trustedBatch.number ≤ lastVirtualBatchNum then exit (.error .missingSyncFromL1)
  else
    orReturn (.resetTrustedState (data.trustedBatch.number - 1)) env.resetTrustedState
    fullProcess env data

/-- `NothingProcess`: no new data. A batch that differs from the trusted
one is reprocessed from the previous batch when it is open, and an error
when it is closed; an equal batch is closed when it must be. Reading `WIP`
of a nil state batch panics. -/
def nothingProcess (data : ProcessData) : Run ε ProcessResponse := do
  let (isEqual, _) := areEqualStateBatchAndTrustedBatch data.stateBatch (some data.trustedBatch)
    (cmpBatchIgnoreTstamp + cmpBatchIgnoreWip)
  if !isEqual then
    match data.stateBatch with
    | none => exit .panic
    | some stateBatch =>
      if stateBatch.wip then
        match data.previousStateBatch with
        | some prev => reProcess env { data with oldAccInputHash := prev.accInputHash, oldStateRoot := prev.stateRoot }
        | none => exit (.error .cantReprocessBatchMissingPreviousStateBatch)
      else exit (.error (.criticalClosedBatchDontContainExpectedData none))
  else if data.batchMustBeClosed then
    closeBatch env data.trustedBatch
    match data.stateBatch with
    | none => exit .panic
    | some stateBatch => pure (newProcessResponse.updateCurrentBatch { stateBatch with wip := false })
  else pure newProcessResponse

/-- `checkThatL2DataIsIncremental`. -/
def checkThatL2DataIsIncremental (stateBatch : Batch) (trustedBatch : RpcBatch) : Except (SyncError ε) Unit :=
  match thereAreNewBatchL2Data env.hashByteArray stateBatch.batchL2Data trustedBatch.batchL2Data with
  | .error reason => .error (.batch (.notIncremental reason))
  | .ok false => .error .batchDataIsNotIncremental
  | .ok true => .ok ()

/-- `composePartialBatch` as a step: its panic is the sync's. -/
def composePartialBatchStep (stateBatch : Batch) (trustedBatch : RpcBatch) : Run ε (List UInt8) :=
  match State.composePartialBatch env.decodeBytes stateBatch.batchL2Data trustedBatch.batchL2Data
      stateBatch.batchL2Data_length_lt trustedBatch.batchL2Data_length_lt with
  | .ok partialBatchL2Data => pure partialBatchL2Data
  | .err err => exit (.error (.compose err))
  | .panic => exit .panic

/-- `IncrementalProcess`: execute only the data the trusted batch adds,
from the state batch's root, update the batch and close it when it must
be. -/
def incrementalProcess (data : ProcessData) : Run ε ProcessResponse := do
  match data.stateBatch with
  | none => exit (.error .dataNil)
  | some stateBatch =>
    orReturnExcept (checkThatL2DataIsIncremental env stateBatch data.trustedBatch)
    let partialBatchL2Data ← composePartialBatchStep env stateBatch data.trustedBatch
    match ← call (.getL1InfoTreeDataFromBatchL2Data partialBatchL2Data) env.getL1InfoTreeDataFromBatchL2Data with
    | .error _ => exit (.error .missingSyncFromL1)
    | .ok (leaves, l1InfoRoot) =>
      let processReq := { getProcessRequest env data leaves l1InfoRoot with transactions := partialBatchL2Data }
      let processBatchResp ← processAndStoreTxs env processReq
      orReturnExcept (batchResultSanityCheck data (some processBatchResp))
      updateWIPBatch env data processBatchResp.newStateRoot
      (if data.batchMustBeClosed then closeBatch env data.trustedBatch else pure ())
      let updatedBatch : Batch :=
        { stateBatch with
          localExitRoot := data.trustedBatch.localExitRoot, accInputHash := data.trustedBatch.accInputHash,
          globalExitRoot := data.trustedBatch.globalExitRoot, batchL2Data := data.trustedBatch.batchL2Data,
          wip := !data.batchMustBeClosed, batchL2Data_length_lt := data.trustedBatch.batchL2Data_length_lt }
      pure (newProcessResponse.updateCurrentBatchWithExecutionResult updatedBatch processBatchResp)

end Steps

/-! ## The processor -/

section Processor

variable (env : Env ε)

/-- `CheckL1SyncGlobalExitRootEnoughToProcessBatch`: the state has the
batch's global exit root, or L1 is not synced up to the block the trusted
node has it in. The trusted node answering none passes. -/
def checkL1SyncGlobalExitRootEnoughToProcessBatch (globalExitRoot : ℕ) : Run ε Unit := do
  if globalExitRoot = 0 then pure ()
  else
    match ← call (.getExitRootByGlobalExitRoot globalExitRoot) env.getExitRootByGlobalExitRoot with
    | .ok () => pure ()
    | .error (some err) => exit (.error (.call err))
    | .error none =>
      match ← call (.exitRootsByGER globalExitRoot) env.exitRootsByGER with
      | .error err => exit (.error (.call err))
      | .ok none => pure ()
      | .ok (some blockNumber) =>
        let lastL1BlockSynced ← orReturn .getLastBlock env.getLastBlock
        if lastL1BlockSynced < blockNumber then exit (.error .missingSyncFromL1)
        else exit (.error (.deSyncPermissionlessAndTrustedNode blockNumber))

/-- `PostClosedBatchCheckL2Block.CheckPostClosedBatch`: the last L2 block
of the batch in the state is the trusted batch's last block. -/
def checkPostClosedBatch (processData : ProcessData) : Run ε Unit := do
  match processData.trustedBatch.blocks.getLast? with
  | none => pure ()
  | some (trustedNumber, trustedHash) =>
    match ← call (.getLastL2BlockByBatchNumber processData.batchNumber) env.getLastL2BlockByBatchNumber with
    | .error err => exit (.error (.call err))
    | .ok none => exit (.error .lastL2BlockNil)
    | .ok (some (number, hash)) =>
      if number ≠ trustedNumber then exit (.error (.lastL2BlockNumberDiffers number trustedNumber))
      else if hash ≠ trustedHash then exit (.error (.lastL2BlockHashDiffers number hash trustedHash))
      else pure ()

/-- The switch of `ExecuteProcessBatch`: the step of the mode. -/
def processBatchOfMode (processMode : ProcessData) : Run ε ProcessResponse :=
  match processMode.mode with
  | .nothing => nothingProcess env processMode
  | .full => fullProcess env processMode
  | .incremental => incrementalProcess env processMode
  | .reprocess => reProcess env processMode

/-- The check `ExecuteProcessBatch` makes of a batch it must close: the
trusted roots and, when the configuration asks, the last L2 block. -/
def checkClosedBatch (cfg : Config) (processMode : ProcessData) (processBatchResp : Option ProcessBatchResponse) :
    Run ε Unit :=
  if processMode.batchMustBeClosed then
    match checkProcessBatchResultMatchExpected processMode processBatchResp with
    | .ok () => if cfg.checkLastL2BlockHashOnCloseBatch then checkPostClosedBatch env processMode else pure ()
    | .err err => exit (.error (.batch err))
    | .panic => exit .panic
  else pure ()

/-- `ExecuteProcessBatch`: the step of the mode, then the check of a batch
that must be closed. -/
def executeProcessBatch (cfg : Config) (processMode : ProcessData) : Run ε ProcessResponse := do
  let processBatchResp ← processBatchOfMode env processMode
  checkClosedBatch env cfg processMode processBatchResp.processBatchResponse
  pure processBatchResp

/-- `GetNextStatus`: the next cache. The sanity check of the response is
only logged. -/
def getNextStatus (status : TrustedState) (processBatchResp : Option ProcessResponse) (closedBatch : Bool) :
    Run ε TrustedState :=
  match updateStatus status processBatchResp closedBatch with
  | .ok newStatus => pure newStatus
  | .err e => nomatch e
  | .panic => exit .panic

/-- `ProcessTrustedBatch`. -/
def processTrustedBatch (cfg : Config) (trustedBatch : Option RpcBatch) (status : TrustedState) :
    Run ε TrustedState := do
  match trustedBatch with
  | none => exit (.error .trustedBatchNil)
  | some trustedBatch =>
    let (stateCurrentBatch, statePreviousBatch) := getCurrentAndPreviousBatchFromCache status
    checkL1SyncGlobalExitRootEnoughToProcessBatch env trustedBatch.globalExitRoot
    let now ← read env.now
    let processMode ← orReturnExcept ((getModeForProcessBatch cfg env.hashByteArray now (some trustedBatch)
      stateCurrentBatch statePreviousBatch).mapError .batch)
    let processBatchResp ← executeProcessBatch env cfg processMode
    getNextStatus status (some processBatchResp) processMode.batchMustBeClosed

end Processor

/-! ## What the processing does, whatever the calls answer -/

/-- The calls the processing of one batch may make: all but the trusted
node's batches, the transaction's own begin, commit and rollback, and the
loop's flush id check. -/
def Call.Processing : Call → Prop
  | .batchNumber | .batchByNumber _ | .beginStateTransaction | .checkFlushID | .commit | .rollback => False
  | _ => True

/-- A call of the processing other than a reset of the trusted state. -/
def Call.Plain : Call → Prop
  | .batchNumber | .batchByNumber _ | .beginStateTransaction | .checkFlushID | .commit | .rollback
  | .resetTrustedState _ => False
  | _ => True

theorem Call.Plain.processing {c : Call} (h : c.Plain) : c.Processing := by
  cases c <;> first | exact trivial | exact h.elim

theorem Call.Plain.ne_reset {c : Call} (h : c.Plain) (k : ℕ) : c ≠ .resetTrustedState k := by
  rintro rfl
  exact h

/-- An outcome of the sync: a result with `P`, an error, or a panic only
when `D` holds. -/
def EndsIn (P : α → Prop) (D : Prop) : Except (Exit ε) α → Prop
  | .ok a => P a
  | .error (.error _) => True
  | .error .panic => D

theorem EndsIn.exit {P : α → Prop} {P' : β → Prop} {D D' : Prop} (hD : D → D') :
    ∀ {e : Exit ε}, EndsIn P D (.error e) → EndsIn P' D' (.error e)
  | .error _, _ => trivial
  | .panic, h => hD h

theorem EndsIn.mono {P P' : α → Prop} {D D' : Prop} (hP : ∀ a, P a → P' a) (hD : D → D') :
    ∀ r : Except (Exit ε) α, EndsIn P D r → EndsIn P' D' r
  | .ok a, h => hP a h
  | .error (.error _), _ => trivial
  | .error .panic, h => hD h

/-- The batch decoder panics on the data of the state batch and the trusted
batch, as `composePartialBatch` reads them. -/
def DecoderPanics (env : Env ε) (stateBatch : Option Batch) (trustedBatch : RpcBatch) : Prop :=
  ∃ sb, stateBatch = some sb ∧
    State.composePartialBatch env.decodeBytes sb.batchL2Data trustedBatch.batchL2Data sb.batchL2Data_length_lt
      trustedBatch.batchL2Data_length_lt = .panic

/-- What an etrog step returns: a response that passes `CheckSanity`, with
an execution result unless the batch is empty or already in the state. -/
def StepResponse (data : ProcessData) (resp : ProcessResponse) : Prop :=
  resp.checkSanity = .ok () ∧
    (resp.processBatchResponse = none → data.trustedBatch.batchL2Data = [] ∨ data.stateBatch.isSome)

section Effects

variable {env : Env ε} {S : Call → Prop}

/-- A step that never panics, in a program that panics only when `D`. -/
theorem effects_endsIn_of_false {m : Run ε α} {P : α → Prop} {D : Prop} (h : Effects S (EndsIn P False) m) :
    Effects S (EndsIn P D) m :=
  h.mono (fun _ h => h) (EndsIn.mono (fun _ h => h) False.elim)

theorem orReturnExcept_effects (x : Except (SyncError ε) α) :
    Effects S (EndsIn (fun a => x = .ok a) False) (orReturnExcept x) := by
  rcases x with err | a
  · exact Effects.exit trivial
  · exact Effects.pure rfl

theorem orReturn_effects {c : Call} (hc : S c) (answer : List Call → Except ε β) :
    Effects S (EndsIn (fun _ => True) False) (orReturn c answer) := by
  refine Effects.call_bind hc fun r => ?_
  rcases r with err | b
  · exact Effects.exit trivial
  · exact Effects.pure trivial

theorem orReturnState_effects {c : Call} (hc : S c) (answer : List Call → Except (Option ε) β) :
    Effects S (EndsIn (fun _ => True) False) (orReturnState c answer) := by
  refine Effects.call_bind hc fun r => ?_
  rcases r with (_ | err) | b
  · exact Effects.exit trivial
  · exact Effects.exit trivial
  · exact Effects.pure trivial

theorem openBatch_effects (trustedBatch : RpcBatch) :
    Effects Call.Plain (EndsIn (fun _ => True) False) (openBatch env trustedBatch) :=
  Effects.read_bind fun _ => orReturn_effects (by trivial) _

theorem closeBatch_effects (trustedBatch : RpcBatch) :
    Effects Call.Plain (EndsIn (fun _ => True) False) (closeBatch env trustedBatch) := by
  refine Effects.call_bind (by trivial) fun r => ?_
  rcases r with (_ | err) | _
  · -- closed already: the batch is read back and compared
    refine Effects.bind (orReturnState_effects (by trivial) _) (fun dbBatch _ => ?_)
      fun _ => EndsIn.exit id
    dsimp only
    split_ifs
    · exact Effects.pure trivial
    · exact Effects.exit trivial
  · exact Effects.exit trivial
  · exact Effects.pure trivial

theorem updateWIPBatch_effects (data : ProcessData) (newStateRoot : ℕ) :
    Effects Call.Plain (EndsIn (fun _ => True) False) (updateWIPBatch env data newStateRoot) :=
  orReturn_effects (by trivial) _

theorem processAndStoreTxs_effects (request : ProcessRequest) :
    Effects Call.Plain (EndsIn (fun _ => True) False) (processAndStoreTxs env request) := by
  refine Effects.bind (orReturn_effects (by trivial) _) (fun resp _ => ?_) fun _ => EndsIn.exit id
  refine Effects.call_bind (by trivial) fun _ => ?_
  split_ifs
  · exact Effects.exit trivial
  · exact Effects.exit trivial
  · -- each block is stored, and an error storing one is returned
    have hstore : Effects Call.Plain (ExitsIn fun e => e ≠ Exit.panic) (resp.blockResponses.forM fun block => do
        match ← call (.storeL2Block request.batchNumber block) env.storeL2Block with
        | .ok () => pure ⟨⟩
        | .error err => exit (.error (.storeL2Block block err))) := by
      refine Effects.forM _ fun block _ => Effects.call_bind (by trivial) fun r => ?_
      rcases r with err | _
      · exact Effects.exit nofun
      · exact Effects.pure trivial
    refine Effects.bind hstore (fun _ _ => Effects.pure trivial) fun e he => ?_
    rcases e with _ | _
    · trivial
    · exact he rfl

/-- Closing the batch or updating it, as `FullProcess` and
`CreateEmptyBatch` end. -/
theorem closeOrUpdate_effects (data : ProcessData) (newStateRoot : ℕ) :
    Effects Call.Plain (EndsIn (fun _ => True) False)
      (if data.batchMustBeClosed then closeBatch env data.trustedBatch else updateWIPBatch env data newStateRoot) := by
  split_ifs
  · exact closeBatch_effects _
  · exact updateWIPBatch_effects _ _

theorem createEmptyBatch_effects (data : ProcessData) :
    Effects Call.Plain (EndsIn (fun resp => resp.checkSanity = .ok () ∧ resp.processBatchResponse = none) False)
      (createEmptyBatch env data) := by
  refine Effects.bind (openBatch_effects _) (fun _ _ => ?_) fun _ => EndsIn.exit id
  exact Effects.bind (closeOrUpdate_effects data _) (fun _ _ => Effects.pure ⟨checkSanity_updateCurrentBatch _, rfl⟩)
    fun _ => EndsIn.exit id

theorem fullProcess_effects (data : ProcessData) :
    Effects Call.Plain (EndsIn (StepResponse data) False) (fullProcess env data) := by
  unfold fullProcess
  by_cases hempty : data.trustedBatch.batchL2Data.length = 0
  · -- an empty batch is created without execution
    rw [if_pos hempty]
    refine (createEmptyBatch_effects data).mono (fun _ h => h) (EndsIn.mono (fun resp h => ⟨h.1, fun _ => ?_⟩) id)
    exact .inl (List.length_eq_zero_iff.mp hempty)
  · rw [if_neg hempty]
    refine Effects.bind (openBatch_effects _) (fun _ _ => ?_) fun _ => EndsIn.exit id
    refine Effects.bind (orReturn_effects (by trivial) _) (fun leaves _ => ?_) fun _ => EndsIn.exit id
    refine Effects.bind (processAndStoreTxs_effects _) (fun resp _ => ?_) fun _ => EndsIn.exit id
    refine Effects.bind (orReturnExcept_effects _) (fun _ _ => ?_) fun _ => EndsIn.exit id
    refine Effects.bind (closeOrUpdate_effects data _) (fun _ _ => ?_) fun _ => EndsIn.exit id
    refine Effects.bind (orReturnState_effects (by trivial) _) (fun resultBatch _ => ?_)
      fun _ => EndsIn.exit id
    exact Effects.pure ⟨checkSanity_updateCurrentBatchWithExecutionResult _ _, fun h => nomatch h⟩

theorem reProcess_effects (data : ProcessData) :
    Effects Call.Processing (EndsIn (StepResponse data) False) (reProcess env data) := by
  refine Effects.bind (orReturn_effects trivial _) (fun lastVirtualBatchNum _ => ?_) fun _ => EndsIn.exit id
  split_ifs
  · exact Effects.exit trivial
  · refine Effects.bind (orReturn_effects trivial _) (fun _ _ => ?_) fun _ => EndsIn.exit id
    exact (fullProcess_effects data).mono (fun _ h => h.processing) fun _ h => h

/-- `NothingProcess` panics exactly where it reads a nil state batch; with
a state batch it does not. -/
theorem nothingProcess_effects {data : ProcessData} (hstate : data.stateBatch.isSome) :
    Effects Call.Processing (EndsIn (StepResponse data) False) (nothingProcess env data) := by
  obtain ⟨stateBatch, hsb⟩ := Option.isSome_iff_exists.mp hstate
  unfold nothingProcess
  dsimp only
  split_ifs with hequal hclose
  · -- different batches: reprocess from the previous one, or an error
    rw [hsb]
    dsimp only
    split_ifs
    · rcases data.previousStateBatch with _ | prev
      · exact Effects.exit trivial
      · refine (reProcess_effects _).mono (fun _ h => h) (EndsIn.mono (fun resp h => ?_) id)
        exact ⟨h.1, fun _ => .inr hstate⟩
    · exact Effects.exit trivial
  · -- equal batches to close: the closed copy of the state batch
    refine Effects.bind ((closeBatch_effects _).mono (fun _ h => h.processing) fun _ h => h) (fun _ _ => ?_)
      fun _ => EndsIn.exit id
    rw [hsb]
    exact Effects.pure ⟨checkSanity_updateCurrentBatch _, fun _ => .inr hstate⟩
  · exact Effects.pure ⟨checkSanity_newProcessResponse, fun _ => .inr hstate⟩

/-- `IncrementalProcess` panics only in the decoder of
`composePartialBatch`. -/
theorem incrementalProcess_effects (data : ProcessData) :
    Effects Call.Plain (EndsIn (StepResponse data) (DecoderPanics env data.stateBatch data.trustedBatch))
      (incrementalProcess env data) := by
  unfold incrementalProcess
  rcases hsb : data.stateBatch with _ | stateBatch
  · exact Effects.exit trivial
  · dsimp only
    refine Effects.bind (orReturnExcept_effects _) (fun _ _ => ?_) fun _ => EndsIn.exit False.elim
    have hcompose : Effects Call.Plain (EndsIn (fun _ => True) (DecoderPanics env (some stateBatch) data.trustedBatch))
        (composePartialBatchStep env stateBatch data.trustedBatch) := by
      unfold composePartialBatchStep
      split
      · exact Effects.pure trivial
      · exact Effects.exit trivial
      · rename_i hpanic
        exact Effects.exit ⟨stateBatch, rfl, hpanic⟩
    refine Effects.bind hcompose (fun partialBatchL2Data _ => ?_) fun _ => EndsIn.exit id
    refine Effects.call_bind (by trivial) fun r => ?_
    rcases r with _ | ⟨leaves, l1InfoRoot⟩
    · exact Effects.exit trivial
    · dsimp only
      refine Effects.bind (effects_endsIn_of_false (processAndStoreTxs_effects _))
        (fun resp _ => ?_) fun _ => EndsIn.exit id
      refine Effects.bind (effects_endsIn_of_false (orReturnExcept_effects _))
        (fun _ _ => ?_) fun _ => EndsIn.exit id
      refine Effects.bind (effects_endsIn_of_false (updateWIPBatch_effects _ _))
        (fun _ _ => ?_) fun _ => EndsIn.exit id
      have hclose : Effects Call.Plain (EndsIn (fun _ => True) (DecoderPanics env (some stateBatch) data.trustedBatch))
          (if data.batchMustBeClosed then closeBatch env data.trustedBatch else pure ()) := by
        split_ifs
        · exact effects_endsIn_of_false (closeBatch_effects _)
        · exact Effects.pure trivial
      refine Effects.bind hclose (fun _ _ => ?_) fun _ => EndsIn.exit id
      exact Effects.pure ⟨checkSanity_updateCurrentBatchWithExecutionResult _ _, fun h => nomatch h⟩

theorem checkL1SyncGlobalExitRootEnoughToProcessBatch_effects (globalExitRoot : ℕ) :
    Effects Call.Plain (EndsIn (fun _ => True) False)
      (checkL1SyncGlobalExitRootEnoughToProcessBatch env globalExitRoot) := by
  unfold checkL1SyncGlobalExitRootEnoughToProcessBatch
  split_ifs
  · exact Effects.pure trivial
  · refine Effects.call_bind (by trivial) fun r => ?_
    rcases r with (_ | err) | _
    · -- not in the state: ask the trusted node where it is
      refine Effects.call_bind (by trivial) fun r => ?_
      rcases r with err | (_ | blockNumber)
      · exact Effects.exit trivial
      · exact Effects.pure trivial
      · refine Effects.bind (orReturn_effects (by trivial) _) (fun _ _ => ?_) fun _ => EndsIn.exit id
        split_ifs
        · exact Effects.exit trivial
        · exact Effects.exit trivial
    · exact Effects.exit trivial
    · exact Effects.pure trivial

theorem checkPostClosedBatch_effects (processData : ProcessData) :
    Effects Call.Plain (EndsIn (fun _ => True) False) (checkPostClosedBatch env processData) := by
  unfold checkPostClosedBatch
  split
  · exact Effects.pure trivial
  · refine Effects.call_bind (by trivial) fun r => ?_
    rcases r with err | (_ | ⟨number, hash⟩)
    · exact Effects.exit trivial
    · exact Effects.exit trivial
    · dsimp only
      split_ifs
      · exact Effects.exit trivial
      · exact Effects.exit trivial
      · exact Effects.pure trivial

/-- The step of the mode returns what the steps return, when a mode of
nothing comes with a state batch, as `getModeForProcessBatch` gives it. -/
theorem processBatchOfMode_effects {processMode : ProcessData}
    (hnothing : processMode.mode = .nothing → processMode.stateBatch.isSome) :
    Effects Call.Processing
      (EndsIn (StepResponse processMode) (DecoderPanics env processMode.stateBatch processMode.trustedBatch))
      (processBatchOfMode env processMode) := by
  unfold processBatchOfMode
  rcases hmode : processMode.mode
  · exact (fullProcess_effects _).mono (fun _ h => h.processing) (EndsIn.mono (fun _ h => h) False.elim)
  · exact (incrementalProcess_effects _).mono (fun _ h => h.processing) fun _ h => h
  · exact effects_endsIn_of_false (reProcess_effects _)
  · exact effects_endsIn_of_false (nothingProcess_effects (hnothing hmode))

/-- The check of a batch to close panics only where
`checkProcessBatchResultMatchExpected` does. -/
theorem checkClosedBatch_effects (cfg : Config) (processMode : ProcessData)
    (processBatchResp : Option ProcessBatchResponse) :
    Effects Call.Plain
      (EndsIn (fun _ => True) (checkProcessBatchResultMatchExpected processMode processBatchResp = .panic))
      (checkClosedBatch env cfg processMode processBatchResp) := by
  unfold checkClosedBatch
  by_cases hclose : processMode.batchMustBeClosed
  · rw [if_pos hclose]
    split
    · split_ifs
      · exact effects_endsIn_of_false (checkPostClosedBatch_effects _)
      · exact Effects.pure trivial
    · exact Effects.exit trivial
    · rename_i hpanic
      exact Effects.exit hpanic
  · rw [if_neg hclose]
    exact Effects.pure trivial

/-- What the steps return never makes the check panic: an execution result
is there unless the batch is empty or in the state. -/
theorem checkProcessBatchResultMatchExpected_ne_panic {processMode : ProcessData} {resp : ProcessResponse}
    (hresp : StepResponse processMode resp) :
    checkProcessBatchResultMatchExpected processMode resp.processBatchResponse ≠ .panic := by
  intro hpanic
  obtain ⟨hne, hnone, hstate⟩ := checkProcessBatchResultMatchExpected_eq_panic_iff.mp hpanic
  rcases hresp.2 hnone with hempty | hsome
  · exact hne hempty
  · rw [hstate] at hsome
    cases hsome

theorem executeProcessBatch_effects (cfg : Config) {processMode : ProcessData}
    (hnothing : processMode.mode = .nothing → processMode.stateBatch.isSome) :
    Effects Call.Processing
      (EndsIn (StepResponse processMode) (DecoderPanics env processMode.stateBatch processMode.trustedBatch))
      (executeProcessBatch env cfg processMode) := by
  unfold executeProcessBatch
  refine Effects.bind (processBatchOfMode_effects hnothing) (fun resp hresp => ?_) fun _ => EndsIn.exit id
  refine Effects.bind ((checkClosedBatch_effects cfg processMode _).mono (fun _ h => h.processing) fun _ h => h)
    (fun _ _ => Effects.pure hresp) fun _ => EndsIn.exit (checkProcessBatchResultMatchExpected_ne_panic hresp).elim

/-- The next cache never panics on what the steps return. -/
theorem getNextStatus_effects {status : TrustedState} {resp : ProcessResponse} (closedBatch : Bool)
    (hsane : resp.checkSanity = .ok ()) :
    Effects S (EndsIn (fun _ => True) False) (getNextStatus status (some resp) closedBatch : Run ε TrustedState) := by
  unfold getNextStatus
  split
  · exact Effects.pure trivial
  · rename_i e _
    exact e.elim
  · rename_i hpanic
    exact absurd hpanic (updateStatus_ne_panic_of_checkSanity status hsane closedBatch)

/-- **What `ProcessTrustedBatch` does, whatever the calls answer**: it
makes only calls of the processing, and panics only where the decoder of
`composePartialBatch` panics on the cached current batch's data and the
trusted data. -/
theorem processTrustedBatch_effects (cfg : Config) (trustedBatch : RpcBatch) (status : TrustedState) :
    Effects Call.Processing (EndsIn (fun _ => True) (DecoderPanics env status.getCurrentBatch trustedBatch))
      (processTrustedBatch env cfg (some trustedBatch) status) := by
  unfold processTrustedBatch
  simp only [getCurrentAndPreviousBatchFromCache]
  refine Effects.bind ((checkL1SyncGlobalExitRootEnoughToProcessBatch_effects _).mono (fun _ h => h.processing)
    fun _ h => h) (fun _ _ => ?_) fun _ => EndsIn.exit False.elim
  refine Effects.read_bind fun now => ?_
  refine Effects.bind (orReturnExcept_effects _) (fun processMode hmode => ?_) fun _ => EndsIn.exit False.elim
  -- the mode the batch gets: with the cache's batches, and a state batch when nothing is new
  have hmode' : getModeForProcessBatch cfg env.hashByteArray now (some trustedBatch) status.getCurrentBatch
      status.getPreviousBatch = .ok processMode := by
    simp only [EndsIn] at hmode
    revert hmode
    cases getModeForProcessBatch cfg env.hashByteArray now (some trustedBatch) status.getCurrentBatch
      status.getPreviousBatch <;> simp [Except.mapError]
  obtain ⟨tb, prev, mode, oldStateRoot, htb, -, -, -, -, hdatatb, hstate, -⟩ := getModeForProcessBatch_eq_ok hmode'
  cases htb
  have hpanics : DecoderPanics env processMode.stateBatch processMode.trustedBatch →
      DecoderPanics env status.getCurrentBatch trustedBatch := by
    rw [hstate, hdatatb]
    exact id
  refine Effects.bind ((executeProcessBatch_effects cfg (getModeForProcessBatch_stateBatch_of_nothing hmode')).mono
    (fun _ h => h) (EndsIn.mono (fun _ h => h) hpanics)) (fun resp hresp => ?_) fun _ => EndsIn.exit id
  exact effects_endsIn_of_false (getNextStatus_effects _ hresp.1)

/-- **`ProcessTrustedBatch` panics only in the batch decoder.** A run on a
trusted batch returns, returns an error, or panics where
`composePartialBatch` panics on the cached current batch's data and the
trusted data; the nil dereferences of `NothingProcess`, `updateStatus` and
`checkProcessBatchResultMatchExpected` are never reached. -/
theorem processTrustedBatch_panic (env : Env ε) (cfg : Config) (trustedBatch : RpcBatch) (status : TrustedState)
    (j : List Call) :
    (processTrustedBatch env cfg (some trustedBatch) status j).1 ≠ .error .panic ∨
      DecoderPanics env status.getCurrentBatch trustedBatch := by
  obtain ⟨-, -, -, hends⟩ := processTrustedBatch_effects cfg trustedBatch status j
  by_cases hpanic : (processTrustedBatch env cfg (some trustedBatch) status j).1 = .error .panic
  · rw [hpanic] at hends
    exact .inr hends
  · exact .inl hpanic

end Effects

/-! ## Resets of the trusted state -/

section Resets

variable {env : Env ε}

/-- Every reset of the trusted state in the journal comes right after the
state answered `GetLastVirtualBatchNum` with a batch at most the reset
point, so no reset deletes a virtual batch. -/
def ResetsGuarded (env : Env ε) : List Call → Prop :=
  EveryCall fun pre c => ∀ k, c = .resetTrustedState k →
    ∃ pre', pre = pre' ++ [.getLastVirtualBatchNum] ∧ ∃ v, env.getLastVirtualBatchNum pre = .ok v ∧ v ≤ k

/-- A call that is no reset keeps the resets guarded. -/
theorem ResetsGuarded.append {j : List Call} {c : Call} (h : ResetsGuarded env j)
    (hc : ∀ k, c ≠ .resetTrustedState k) : ResetsGuarded env (j ++ [c]) :=
  everyCall_append_singleton.mpr ⟨h, fun k hk => absurd hk (hc k)⟩

theorem ResetsGuarded.append_plain {j : List Call} {c : Call} (h : ResetsGuarded env j) (hc : c.Plain) :
    ResetsGuarded env (j ++ [c]) :=
  h.append hc.ne_reset

/-- A program of plain calls keeps the resets guarded. -/
theorem resetsGuarded_of_effects {m : Run ε α} {Q : Except (Exit ε) α → Prop} (h : Effects Call.Plain Q m) :
    Triple (ResetsGuarded env) m (fun _ j => ResetsGuarded env j) :=
  (h.triple fun _ _ hc hj => hj.append_plain hc).conseq (fun _ hj => hj) fun _ _ h => h.1

/-- A call whose error is returned, with what its answer was. -/
theorem orReturn_triple {I : List Call → Prop} (c : Call) (answer : List Call → Except ε β) :
    Triple (fun j => I (j ++ [c])) (orReturn c answer)
      (fun r j => I j ∧ ∀ b, r = .ok b → ∃ pre, j = pre ++ [c] ∧ answer j = .ok b) := by
  intro j hj
  unfold orReturn
  rw [call_bind_apply]
  rcases hanswer : answer (j ++ [c]) with err | b
  · exact ⟨hj, fun _ h => nomatch h⟩
  · refine ⟨hj, fun b' hb => ⟨j, rfl, ?_⟩⟩
    dsimp only [pure_apply] at hb ⊢
    obtain rfl : b = b' := Except.ok.inj hb
    exact hanswer

/-- **`ReProcess` resets only below the last virtual batch.** It resets
from the batch before the trusted one only when the state's last virtual
batch is older than the trusted batch. -/
theorem reProcess_resetsGuarded (data : ProcessData) :
    Triple (ResetsGuarded env) (reProcess env data) (fun _ j => ResetsGuarded env j) := by
  unfold reProcess
  refine Triple.bind ((orReturn_triple _ _).conseq (fun _ hj => hj.append_plain (by trivial)) fun _ _ h => h)
    (fun lastVirtualBatchNum => ?_) fun _ _ h => h.1
  by_cases hvirtual : data.trustedBatch.number ≤ lastVirtualBatchNum
  · rw [if_pos hvirtual]
    intro j hj
    exact hj.1
  · rw [if_neg hvirtual]
    -- the reset point is at least the last virtual batch the state answered
    have hguard : ∀ j, ResetsGuarded env j ∧ (∀ b, (.ok lastVirtualBatchNum : Except (Exit ε) ℕ) = .ok b →
        ∃ pre, j = pre ++ [.getLastVirtualBatchNum] ∧ env.getLastVirtualBatchNum j = .ok b) →
        ResetsGuarded env (j ++ [.resetTrustedState (data.trustedBatch.number - 1)]) := by
      rintro j ⟨hj, hanswer⟩
      obtain ⟨pre, hpre, hv⟩ := hanswer lastVirtualBatchNum rfl
      refine everyCall_append_singleton.mpr ⟨hj, fun k hk => ⟨pre, hpre, lastVirtualBatchNum, hv, ?_⟩⟩
      cases hk
      omega
    refine Triple.bind ((orReturn_triple _ _).conseq hguard fun _ _ h => h) (fun _ => ?_) fun _ _ h => h.1
    exact (resetsGuarded_of_effects (fullProcess_effects data)).conseq (fun _ hj => hj.1) fun _ _ h => h

theorem nothingProcess_resetsGuarded (data : ProcessData) :
    Triple (ResetsGuarded env) (nothingProcess env data) (fun _ j => ResetsGuarded env j) := by
  unfold nothingProcess
  dsimp only
  split_ifs
  · rcases data.stateBatch with _ | stateBatch
    · exact fun _ hj => hj
    · dsimp only
      split_ifs
      · rcases data.previousStateBatch with _ | prev
        · exact fun _ hj => hj
        · exact reProcess_resetsGuarded _
      · exact fun _ hj => hj
  · refine Triple.bind (resetsGuarded_of_effects (closeBatch_effects _)) (fun _ => ?_) fun _ _ h => h
    rcases data.stateBatch with _ | stateBatch
    · exact fun _ hj => hj
    · exact fun _ hj => hj
  · exact fun _ hj => hj

theorem processBatchOfMode_resetsGuarded (processMode : ProcessData) :
    Triple (ResetsGuarded env) (processBatchOfMode env processMode) (fun _ j => ResetsGuarded env j) := by
  unfold processBatchOfMode
  rcases processMode.mode
  · exact resetsGuarded_of_effects (fullProcess_effects _)
  · exact resetsGuarded_of_effects (incrementalProcess_effects _)
  · exact reProcess_resetsGuarded _
  · exact nothingProcess_resetsGuarded _

theorem getNextStatus_effects_any (status : TrustedState) (processBatchResp : Option ProcessResponse)
    (closedBatch : Bool) :
    Effects Call.Plain (fun _ => True) (getNextStatus status processBatchResp closedBatch : Run ε TrustedState) := by
  unfold getNextStatus
  split
  · exact Effects.pure trivial
  · rename_i e _
    exact e.elim
  · exact Effects.exit trivial

/-- **`ProcessTrustedBatch` never deletes a virtual batch**: every reset it
makes comes right after the state said the last virtual batch is at most
the reset point. -/
theorem processTrustedBatch_resetsGuarded (cfg : Config) (trustedBatch : Option RpcBatch) (status : TrustedState) :
    Triple (ResetsGuarded env) (processTrustedBatch env cfg trustedBatch status) (fun _ j => ResetsGuarded env j) := by
  unfold processTrustedBatch
  rcases trustedBatch with _ | trustedBatch
  · exact fun _ hj => hj
  · simp only [getCurrentAndPreviousBatchFromCache]
    refine Triple.bind (resetsGuarded_of_effects (checkL1SyncGlobalExitRootEnoughToProcessBatch_effects _))
      (fun _ => ?_) fun _ _ h => h
    refine Triple.read_bind fun now => ?_
    refine Triple.bind (resetsGuarded_of_effects (orReturnExcept_effects _)) (fun processMode => ?_) fun _ _ h => h
    unfold executeProcessBatch
    rw [bind_bind]
    refine Triple.bind (processBatchOfMode_resetsGuarded _) (fun resp => ?_) fun _ _ h => h
    rw [bind_bind]
    refine Triple.bind (resetsGuarded_of_effects (checkClosedBatch_effects _ _ _)) (fun _ => ?_) fun _ _ h => h
    exact resetsGuarded_of_effects (getNextStatus_effects_any _ _ _)

end Resets

end L2Sync

end Synchronizer

end XLayerNode
