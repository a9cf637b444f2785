import XLayerNode.Common.GoHex
import XLayerNode.Common.Outcome
/-!
# Trusted batches against the state: what the L2 sync decides

A permissionless node follows the trusted sequencer's batches before L1
settles them. For each batch the trusted node returns, `l2_shared` compares
it with the node's own copy (the batch and the one before it, from a
cache or the state) and decides how to process it
(`getModeForProcessBatch`): in full when the state does not have it,
incrementally when the trusted batch only adds data to the state's,
again from the previous state root when the intermediate root is lost,
and not at all when nothing is new. After processing, `updateStatus`
turns the current and previous batch into the next run's cache.

The laws here are the ones the sync loop rests on. New data is new exactly
when the stored data is a strict prefix of the trusted data, as far as
its hash tells (`thereAreNewBatchL2Data_eq_ok_true_iff`). Each mode comes
with the state root it starts from (`getModeForProcessBatch_eq_ok`). A batch
that must be closed passes `checkProcessBatchResultMatchExpected` only
with the trusted roots, or with no data at all
(`checkProcessBatchResultMatchExpected_some`,
`checkProcessBatchResultMatchExpected_none`). And
the one dereference of `updateStatus` that can panic never does on a
response that passes `CheckSanity` (`updateStatus_ne_panic_of_checkSanity`).

Hashes, addresses and roots are numbers, times Unix seconds, and
`HashByteArray` (Keccak-256) a function `hashByteArray`.
-/

namespace XLayerNode

namespace Synchronizer

namespace L2Sync

open Outcome

/-- `types.Batch` as the trusted node's `zkevm_getBatchByNumber` returns
it with full blocks: the fields the sync reads. A block is its number and
hash. -/
structure RpcBatch where
  number : ℕ
  forcedBatchNumber : Option ℕ
  coinbase : ℕ
  stateRoot : ℕ
  globalExitRoot : ℕ
  localExitRoot : ℕ
  accInputHash : ℕ
  timestamp : ℕ
  closed : Bool
  blocks : List (ℕ × ℕ)
  batchL2Data : List UInt8
  /-- A Go slice is shorter than `2^63`. -/
  batchL2Data_length_lt : batchL2Data.length < 2 ^ 63

/-- `state.Batch`: the fields the sync reads and writes. -/
structure Batch where
  batchNumber : ℕ
  coinbase : ℕ
  batchL2Data : List UInt8
  stateRoot : ℕ
  localExitRoot : ℕ
  accInputHash : ℕ
  timestamp : ℕ
  globalExitRoot : ℕ
  forcedBatchNum : Option ℕ
  wip : Bool
  /-- A Go slice is shorter than `2^63`. -/
  batchL2Data_length_lt : batchL2Data.length < 2 ^ 63

/-- `RpcBatchToStateBatch`: the trusted batch as a state batch, open when
it is not closed. The accumulated input hash is not copied. -/
def rpcBatchToStateBatch (rpcBatch : RpcBatch) : Batch where
  batchNumber := rpcBatch.number
  coinbase := rpcBatch.coinbase
  stateRoot := rpcBatch.stateRoot
  batchL2Data := rpcBatch.batchL2Data
  globalExitRoot := rpcBatch.globalExitRoot
  localExitRoot := rpcBatch.localExitRoot
  accInputHash := 0
  timestamp := rpcBatch.timestamp
  forcedBatchNum := rpcBatch.forcedBatchNumber
  wip := !rpcBatch.closed
  batchL2Data_length_lt := rpcBatch.batchL2Data_length_lt

/-! ## Comparing a state batch with a trusted one -/

/-- `CMP_BATCH_IGNORE_WIP`. -/
def cmpBatchIgnoreWip : ℕ := 1

/-- `CMP_BATCH_IGNORE_TSTAMP`. -/
def cmpBatchIgnoreTstamp : ℕ := 2

/-- `CompareBatchFlags.IsSet`. -/
def isSet (c f : ℕ) : Bool := c &&& f != 0

/-- The fields `AreEqualStateBatchAndTrustedBatch` names in its debug
string when they differ. -/
inductive BatchField where
  | matchNumber
  | matchGER
  | matchLER
  | matchSR
  | matchCoinbase
  | matchL2Data
  | matchTimestamp
  | matchWIP
  deriving DecidableEq, Repr

/-- `AreEqualStateBatchAndTrustedBatch`: whether the batches agree on the
fields the flags do not ignore, and the fields they differ on (none for
"nil pointers"). The data is compared by its hex spelling. -/
def areEqualStateBatchAndTrustedBatch (stateBatch : Option Batch) (trustedBatch : Option RpcBatch)
    (flags : ℕ) : Bool × List BatchField :=
  match stateBatch, trustedBatch with
  | some stateBatch, some trustedBatch =>
    let matchNumber := decide (stateBatch.batchNumber = trustedBatch.number)
    let matchGER := decide (stateBatch.globalExitRoot = trustedBatch.globalExitRoot)
    let matchLER := decide (stateBatch.localExitRoot = trustedBatch.localExitRoot)
    let matchSR := decide (stateBatch.stateRoot = trustedBatch.stateRoot)
    let matchCoinbase := decide (stateBatch.coinbase = trustedBatch.coinbase)
    let matchTimestamp :=
      if isSet flags cmpBatchIgnoreTstamp then true else decide (trustedBatch.timestamp = stateBatch.timestamp)
    let matchWIP := if isSet flags cmpBatchIgnoreWip then true else stateBatch.wip == !trustedBatch.closed
    let matchL2Data :=
      decide (GoHex.encodeToString stateBatch.batchL2Data = GoHex.encodeToString trustedBatch.batchL2Data)
    if matchNumber && matchGER && matchLER && matchSR && matchCoinbase && matchTimestamp && matchL2Data &&
        matchWIP then (true, [])
    else
      let values := [(matchNumber, BatchField.matchNumber), (matchGER, .matchGER), (matchLER, .matchLER),
          (matchSR, .matchSR), (matchCoinbase, .matchCoinbase), (matchL2Data, .matchL2Data)] ++
        (if isSet flags cmpBatchIgnoreTstamp then [] else [(matchTimestamp, .matchTimestamp)]) ++
        (if isSet flags cmpBatchIgnoreWip then [] else [(matchWIP, .matchWIP)])
      (false, (values.filter fun v => !v.1).map Prod.snd)
  | _, _ => (false, [])

/-- How the trusted data fails to extend the stored data
(`ErrBatchDataIsNotIncremental`). -/
inductive NotIncremental where
  /-- "the new batch has less data than the one in node" -/
  | lessData
  /-- "the new batch has same length but different data" -/
  | sameLengthDifferentData
  /-- "the common part with state dont have same hash" -/
  | commonPartDiffers
  deriving DecidableEq, Repr

/-- `ThereAreNewBatchL2Data`: whether the incoming data adds to the stored
data, judged by the hash of the part they share. -/
def thereAreNewBatchL2Data (hashByteArray : List UInt8 → ℕ) (previousData incommingData : List UInt8) :
    Except NotIncremental Bool :=
  if incommingData.length < previousData.length then .error .lessData
  else if incommingData.length = previousData.length then
    if hashByteArray incommingData = hashByteArray previousData then .ok false
    else .error .sameLengthDifferentData
  else if hashByteArray (incommingData.take previousData.length) ≠ hashByteArray previousData then
    .error .commonPartDiffers
  else .ok true

/-! ## The mode of a batch -/

/-- `BatchProcessMode`. -/
inductive BatchProcessMode where
  | full
  | incremental
  | reprocess
  | nothing
  deriving DecidableEq, Repr

/-- `l2_sync.Config`. -/
structure Config where
  acceptEmptyClosedBatches : Bool
  reprocessFullBatchOnClose : Bool
  checkLastL2BlockHashOnCloseBatch : Bool
  deriving DecidableEq, Repr

/-- `ProcessData`, without the description and debug prefix of its log
lines. -/
structure ProcessData where
  batchNumber : ℕ
  mode : BatchProcessMode
  oldStateRoot : ℕ
  oldAccInputHash : ℕ
  batchMustBeClosed : Bool
  trustedBatch : RpcBatch
  stateBatch : Option Batch
  previousStateBatch : Option Batch
  now : ℕ

/-- The errors of the decisions on one batch. -/
inductive BatchError where
  /-- "trustedNodeBatch and statePreviousBatch can't be nil" -/
  | nilParameters
  /-- `ErrBatchDataIsNotIncremental`. -/
  | notIncremental (reason : NotIncremental)
  /-- "Batch %v: TrustedBatch Empty and closed, rejected due configuration" -/
  | emptyClosedRejected (batchNumber : ℕ)
  /-- "batch %v: stareRoot calculated [%s] is different from the one in the
  batch [%s]" (`ErrFatalBatchDesynchronized`) -/
  | stateRootDesynchronized (batchNumber calculated expected : ℕ)
  /-- "batch %v: LocalExitRoot calculated [%s] is different from the one in
  the batch [%s]" (`ErrFatalBatchDesynchronized`) -/
  | localExitRootDesynchronized (batchNumber calculated expected : ℕ)
  deriving DecidableEq, Repr

/-- `isTrustedBatchClosed`. -/
def isTrustedBatchClosed (batch : RpcBatch) : Bool := batch.closed

/-- `isTrustedBatchEmptyAndClosed`. -/
def isTrustedBatchEmptyAndClosed (batch : RpcBatch) : Bool :=
  batch.batchL2Data.length == 0 && isTrustedBatchClosed batch

/-- The mode and the state root to start from, before the configuration
forces a reprocess: the branches of `GetModeForProcessBatch` on the state
batch. -/
def modeOfStateBatch (hashByteArray : List UInt8 → ℕ) (trustedNodeBatch : RpcBatch)
    (stateBatch : Option Batch) (statePreviousBatch : Batch) :
    Except BatchError (BatchProcessMode × ℕ × Bool) :=
  match stateBatch with
  | none => .ok (.full, statePreviousBatch.stateRoot, isTrustedBatchClosed trustedNodeBatch)
  | some stateBatch =>
    let areBatchesExactlyEqual :=
      (areEqualStateBatchAndTrustedBatch (some stateBatch) (some trustedNodeBatch) cmpBatchIgnoreTstamp).1
    match thereAreNewBatchL2Data hashByteArray stateBatch.batchL2Data trustedNodeBatch.batchL2Data with
    | .error reason => .error (.notIncremental reason)
    | .ok false =>
      -- the batch from the node and the one in the state are the same
      .ok (.nothing, 0, if areBatchesExactlyEqual then false
        else isTrustedBatchClosed trustedNodeBatch && stateBatch.wip)
    | .ok true =>
      if stateBatch.stateRoot ≠ 0 then
        .ok (.incremental, stateBatch.stateRoot, isTrustedBatchClosed trustedNodeBatch)
      else .ok (.reprocess, statePreviousBatch.stateRoot, isTrustedBatchClosed trustedNodeBatch)

/-- `GetModeForProcessBatch`, at the time `now` the time provider gives. -/
def getModeForProcessBatch (cfg : Config) (hashByteArray : List UInt8 → ℕ) (now : ℕ)
    (trustedNodeBatch : Option RpcBatch) (stateBatch statePreviousBatch : Option Batch) :
    Except BatchError ProcessData :=
  match trustedNodeBatch, statePreviousBatch with
  | some trustedNodeBatch, some statePreviousBatch => do
    let (mode, oldStateRoot, batchMustBeClosed) ←
      modeOfStateBatch hashByteArray trustedNodeBatch stateBatch statePreviousBatch
    -- a batch to close is reprocessed whole when the configuration asks
    let (mode, oldStateRoot) :=
      if cfg.reprocessFullBatchOnClose && batchMustBeClosed && (mode == .incremental || mode == .nothing) then
        (BatchProcessMode.reprocess, statePreviousBatch.stateRoot)
      else (mode, oldStateRoot)
    if isTrustedBatchEmptyAndClosed trustedNodeBatch && !cfg.acceptEmptyClosedBatches then
      .error (.emptyClosedRejected trustedNodeBatch.number)
    else
      .ok { batchNumber := trustedNodeBatch.number, mode, oldStateRoot,
            oldAccInputHash := statePreviousBatch.accInputHash, batchMustBeClosed,
            trustedBatch := trustedNodeBatch, stateBatch, previousStateBatch := some statePreviousBatch, now }
  | _, _ => .error .nilParameters

/-! ## The response of a step, and the next cache -/

/-- `state.ProcessBatchResponse`: the fields the sync reads. A block
response is its block number. -/
structure ProcessBatchResponse where
  newStateRoot : ℕ
  newAccInputHash : ℕ
  newLocalExitRoot : ℕ
  blockResponses : List ℕ
  isExecutorLevelError : Bool
  isRomOOCError : Bool
  flushID : ℕ
  proverID : ℕ
  deriving DecidableEq, Repr

/-- `ProcessResponse`. -/
structure ProcessResponse where
  processBatchResponse : Option ProcessBatchResponse
  clearCache : Bool
  updateBatch : Option Batch
  updateBatchWithProcessBatchResponse : Bool

/-- `NewProcessResponse`. -/
def newProcessResponse : ProcessResponse := ⟨none, false, none, false⟩

/-- `UpdateCurrentBatch`. -/
def ProcessResponse.updateCurrentBatch (p : ProcessResponse) (updateBatch : Batch) : ProcessResponse :=
  { p with clearCache := false, updateBatch := some updateBatch, updateBatchWithProcessBatchResponse := false }

/-- `UpdateCurrentBatchWithExecutionResult`. -/
def ProcessResponse.updateCurrentBatchWithExecutionResult (p : ProcessResponse) (updateBatch : Batch)
    (processBatchResponse : ProcessBatchResponse) : ProcessResponse :=
  { p with
    clearCache := false, updateBatch := some updateBatch, updateBatchWithProcessBatchResponse := true,
    processBatchResponse := some processBatchResponse }

/-- What `CheckSanity` finds wrong in a response. -/
inductive SanityError where
  /-- "UpdateBatchWithProcessBatchResponse is true but ProcessBatchResponse is nil" -/
  | processBatchResponseNil
  /-- "UpdateBatchWithProcessBatchResponse is true but UpdateBatch is nil" -/
  | updateBatchNil
  /-- "UpdateBatchWithProcessBatchResponse is true but ClearCache is true" -/
  | clearCacheWithResponse
  /-- "UpdateBatch is not nil but ClearCache is true" -/
  | clearCacheWithUpdateBatch
  deriving DecidableEq, Repr

/-- `CheckSanity`. -/
def ProcessResponse.checkSanity (p : ProcessResponse) : Except SanityError Unit :=
  if p.updateBatchWithProcessBatchResponse ∧ p.processBatchResponse = none then .error .processBatchResponseNil
  else if p.updateBatchWithProcessBatchResponse ∧ p.updateBatch.isNone then .error .updateBatchNil
  else if p.updateBatchWithProcessBatchResponse ∧ p.clearCache then .error .clearCacheWithResponse
  else if p.updateBatch.isSome ∧ p.clearCache then .error .clearCacheWithUpdateBatch
  else .ok ()

/-- `TrustedState`: `[0]` the current batch, `[1]` the previous one. -/
structure TrustedState where
  lastTrustedBatches : List (Option Batch)

/-- `GetCurrentBatch`. -/
def TrustedState.getCurrentBatch (ts : TrustedState) : Option Batch := (ts.lastTrustedBatches[0]?).join

/-- `GetPreviousBatch`. -/
def TrustedState.getPreviousBatch (ts : TrustedState) : Option Batch := (ts.lastTrustedBatches[1]?).join

/-- `GetCurrentAndPreviousBatchFromCache`: copies of the two batches. -/
def getCurrentAndPreviousBatchFromCache (status : TrustedState) : Option Batch × Option Batch :=
  (status.getCurrentBatch, status.getPreviousBatch)

/-- `updateStatus`: the cache for the next run. A closed batch becomes the
previous one. With the execution result, the current batch is a copy of
`UpdateBatch` with the new roots, which panics when `UpdateBatch` is nil
and the current batch is not. -/
def updateStatus (status : TrustedState) (response : Option ProcessResponse) (closedBatch : Bool) :
    Outcome Empty TrustedState :=
  match response with
  | none => pure ⟨[none, none]⟩
  | some response =>
    if response.clearCache then pure ⟨[none, none]⟩
    else
      let current := response.updateBatch.or status.getCurrentBatch
      let withResult : Outcome Empty (Option Batch) :=
        match response.processBatchResponse, response.updateBatch with
        | some resp, some tmp =>
          if response.updateBatchWithProcessBatchResponse && current.isSome then
            pure (some { tmp with
              stateRoot := resp.newStateRoot, localExitRoot := resp.newLocalExitRoot,
              accInputHash := resp.newAccInputHash, wip := !closedBatch })
          else pure current
        | some _, none => if response.updateBatchWithProcessBatchResponse && current.isSome then panic else pure current
        | none, _ => pure current
      withResult >>= fun current =>
        pure (if closedBatch then ⟨[none, current]⟩ else ⟨[current, status.getPreviousBatch]⟩)

/-! ## The check of a batch to close -/

/-- `checkStateRootAndLER`. -/
def checkStateRootAndLER (batchNumber expectedStateRoot expectedLER calculatedStateRoot calculatedLER : ℕ) :
    Except BatchError Unit :=
  if calculatedStateRoot ≠ expectedStateRoot then
    .error (.stateRootDesynchronized batchNumber calculatedStateRoot expectedStateRoot)
  else if calculatedLER ≠ expectedLER then
    .error (.localExitRootDesynchronized batchNumber calculatedLER expectedLER)
  else .ok ()

/-- `checkProcessBatchResultMatchExpected`: the roots of the execution, or
of the state batch when there was none, are the trusted batch's. An empty
batch is not checked; reading the state batch panics when it is nil. -/
def checkProcessBatchResultMatchExpected (data : ProcessData) (processBatchResp : Option ProcessBatchResponse) :
    Outcome BatchError Unit :=
  let trustedBatch := data.trustedBatch
  if trustedBatch.batchL2Data.length = 0 then pure ()
  else
    match processBatchResp, data.stateBatch with
    | none, some stateBatch =>
      Outcome.ofExcept (checkStateRootAndLER trustedBatch.number trustedBatch.stateRoot trustedBatch.localExitRoot
        stateBatch.stateRoot stateBatch.localExitRoot)
    | none, none => panic
    | some resp, _ =>
      Outcome.ofExcept (checkStateRootAndLER trustedBatch.number trustedBatch.stateRoot trustedBatch.localExitRoot
        resp.newStateRoot resp.newLocalExitRoot)

end L2Sync

end Synchronizer

end XLayerNode

namespace XLayerNode

namespace Synchronizer

namespace L2Sync

open Outcome

variable {hashByteArray : List UInt8 → ℕ}

/-- Batches found equal are both there. -/
theorem isSome_of_areEqualStateBatchAndTrustedBatch {stateBatch : Option Batch} {trustedBatch : Option RpcBatch}
    {flags : ℕ} (h : (areEqualStateBatchAndTrustedBatch stateBatch trustedBatch flags).1 = true) :
    stateBatch.isSome := by
  rcases stateBatch with _ | s
  · cases h
  · rfl

/-! ## New data -/

/-- **New data is a longer trusted data whose first part hashes as the
stored data.** -/
theorem thereAreNewBatchL2Data_eq_ok_true_iff {previousData incommingData : List UInt8} :
    thereAreNewBatchL2Data hashByteArray previousData incommingData = .ok true ↔
      previousData.length < incommingData.length ∧
        hashByteArray (incommingData.take previousData.length) = hashByteArray previousData := by
  unfold thereAreNewBatchL2Data
  split_ifs with hlt heq hhash hne
  all_goals simp only [Except.ok.injEq, Bool.false_eq_true, false_iff, true_iff, not_and]
  all_goals omega

/-- Nothing new is the same length and hash. -/
theorem thereAreNewBatchL2Data_eq_ok_false_iff {previousData incommingData : List UInt8} :
    thereAreNewBatchL2Data hashByteArray previousData incommingData = .ok false ↔
      incommingData.length = previousData.length ∧ hashByteArray incommingData = hashByteArray previousData := by
  unfold thereAreNewBatchL2Data
  split_ifs with hlt heq hhash hne
  all_goals simp only [Except.ok.injEq, Bool.true_eq_false, false_iff, true_iff, not_and]
  all_goals omega

/-- With a hash without collisions, new data is exactly a strict extension
of the stored data. -/
theorem thereAreNewBatchL2Data_eq_ok_true_iff_prefix (hinj : Function.Injective hashByteArray)
    {previousData incommingData : List UInt8} :
    thereAreNewBatchL2Data hashByteArray previousData incommingData = .ok true ↔
      previousData <+: incommingData ∧ previousData ≠ incommingData := by
  rw [thereAreNewBatchL2Data_eq_ok_true_iff]
  constructor
  · rintro ⟨hlt, hhash⟩
    have htake : incommingData.take previousData.length = previousData := hinj hhash
    refine ⟨htake ▸ List.take_prefix _ _, ?_⟩
    rintro rfl
    exact Nat.lt_irrefl _ hlt
  · rintro ⟨⟨rest, rfl⟩, hne⟩
    have hrest : rest ≠ [] := by
      rintro rfl
      exact hne (List.append_nil _).symm
    refine ⟨?_, by rw [List.take_left' rfl]⟩
    rw [List.length_append]
    have := List.length_pos_iff.mpr hrest
    omega

/-! ## The mode of a batch -/

/-- The four branches of `GetModeForProcessBatch` on the state batch. -/
theorem modeOfStateBatch_eq_ok {trustedNodeBatch : RpcBatch} {stateBatch : Option Batch}
    {statePreviousBatch : Batch} {mode : BatchProcessMode} {oldStateRoot : ℕ} {batchMustBeClosed : Bool}
    (h : modeOfStateBatch hashByteArray trustedNodeBatch stateBatch statePreviousBatch =
      .ok (mode, oldStateRoot, batchMustBeClosed)) :
    (stateBatch = none ∧ mode = .full ∧ oldStateRoot = statePreviousBatch.stateRoot ∧
        batchMustBeClosed = trustedNodeBatch.closed) ∨
      (∃ s, stateBatch = some s ∧
        thereAreNewBatchL2Data hashByteArray s.batchL2Data trustedNodeBatch.batchL2Data = .ok false ∧
        mode = .nothing ∧ oldStateRoot = 0 ∧ (batchMustBeClosed = true → trustedNodeBatch.closed ∧ s.wip)) ∨
      (∃ s, stateBatch = some s ∧
        thereAreNewBatchL2Data hashByteArray s.batchL2Data trustedNodeBatch.batchL2Data = .ok true ∧
        s.stateRoot ≠ 0 ∧ mode = .incremental ∧ oldStateRoot = s.stateRoot ∧
        batchMustBeClosed = trustedNodeBatch.closed) ∨
      (∃ s, stateBatch = some s ∧
        thereAreNewBatchL2Data hashByteArray s.batchL2Data trustedNodeBatch.batchL2Data = .ok true ∧
        s.stateRoot = 0 ∧ mode = .reprocess ∧ oldStateRoot = statePreviousBatch.stateRoot ∧
        batchMustBeClosed = trustedNodeBatch.closed) := by
  unfold modeOfStateBatch at h
  rcases stateBatch with _ | s
  · -- not in the state: a full process
    simp only [Except.ok.injEq, Prod.mk.injEq] at h
    obtain ⟨rfl, rfl, rfl⟩ := h
    exact .inl ⟨rfl, rfl, rfl, rfl⟩
  · dsimp only at h
    split at h
    · cases h
    · rename_i hnew
      simp only [Except.ok.injEq, Prod.mk.injEq] at h
      obtain ⟨rfl, rfl, rfl⟩ := h
      refine .inr (.inl ⟨s, rfl, hnew, rfl, rfl, fun hclose => ?_⟩)
      split_ifs at hclose
      simpa [isTrustedBatchClosed] using hclose
    · rename_i hnew
      split_ifs at h with hroot
      · simp only [Except.ok.injEq, Prod.mk.injEq] at h
        obtain ⟨rfl, rfl, rfl⟩ := h
        exact .inr (.inr (.inl ⟨s, rfl, hnew, hroot, rfl, rfl, rfl⟩))
      · simp only [Except.ok.injEq, Prod.mk.injEq] at h
        obtain ⟨rfl, rfl, rfl⟩ := h
        exact .inr (.inr (.inr ⟨s, rfl, hnew, not_not.mp hroot, rfl, rfl, rfl⟩))

/-- **What `GetModeForProcessBatch` returns**: the trusted batch and the
batches of the state it was given, the previous batch's accumulated input
hash, and a mode from `modeOfStateBatch`, turned into a reprocess of a
batch to close when the configuration asks; an empty closed batch only
when the configuration accepts it. -/
theorem getModeForProcessBatch_eq_ok {cfg : Config} {now : ℕ} {trustedNodeBatch : Option RpcBatch}
    {stateBatch statePreviousBatch : Option Batch} {data : ProcessData}
    (h : getModeForProcessBatch cfg hashByteArray now trustedNodeBatch stateBatch statePreviousBatch = .ok data) :
    ∃ tb prev mode oldStateRoot,
      trustedNodeBatch = some tb ∧ statePreviousBatch = some prev ∧
      modeOfStateBatch hashByteArray tb stateBatch prev = .ok (mode, oldStateRoot, data.batchMustBeClosed) ∧
      (isTrustedBatchEmptyAndClosed tb = true → cfg.acceptEmptyClosedBatches = true) ∧
      data.batchNumber = tb.number ∧ data.trustedBatch = tb ∧ data.stateBatch = stateBatch ∧
      data.previousStateBatch = some prev ∧ data.oldAccInputHash = prev.accInputHash ∧ data.now = now ∧
      (if cfg.reprocessFullBatchOnClose && data.batchMustBeClosed && (mode == .incremental || mode == .nothing) then
        data.mode = .reprocess ∧ data.oldStateRoot = prev.stateRoot
      else data.mode = mode ∧ data.oldStateRoot = oldStateRoot) := by
  unfold getModeForProcessBatch at h
  rcases trustedNodeBatch with _ | tb <;> rcases statePreviousBatch with _ | prev
  all_goals simp only [reduceCtorEq] at h
  -- both batches given: the mode, then the configuration
  simp only [Bind.bind, Except.bind] at h
  split at h
  · cases h
  · rename_i r hmode
    obtain ⟨mode, oldStateRoot, close⟩ := r
    dsimp only at h
    split_ifs at h with hempty hforce
    all_goals simp only [Except.ok.injEq] at h
    all_goals subst h
    · refine ⟨tb, prev, mode, oldStateRoot, rfl, rfl, hmode, fun he => ?_, rfl, rfl, rfl, rfl, rfl, rfl, ?_⟩
      · simp only [Bool.and_eq_true, Bool.not_eq_true', not_and, Bool.not_eq_false] at hempty
        exact hempty he
      · rw [if_pos hforce]
        exact ⟨rfl, rfl⟩
    · refine ⟨tb, prev, mode, oldStateRoot, rfl, rfl, hmode, fun he => ?_, rfl, rfl, rfl, rfl, rfl, rfl, ?_⟩
      · simp only [Bool.and_eq_true, Bool.not_eq_true', not_and, Bool.not_eq_false] at hempty
        exact hempty he
      · rw [if_neg hforce]
        exact ⟨rfl, rfl⟩

/-- A mode of nothing to process comes with a state batch. -/
theorem getModeForProcessBatch_stateBatch_of_nothing {cfg : Config} {now : ℕ} {trustedNodeBatch : Option RpcBatch}
    {stateBatch statePreviousBatch : Option Batch} {data : ProcessData}
    (h : getModeForProcessBatch cfg hashByteArray now trustedNodeBatch stateBatch statePreviousBatch = .ok data)
    (hnothing : data.mode = .nothing) : data.stateBatch.isSome := by
  obtain ⟨tb, prev, mode, oldStateRoot, -, -, hmode, -, -, -, hstate, -, -, -, hfinal⟩ :=
    getModeForProcessBatch_eq_ok h
  rw [hstate]
  split_ifs at hfinal
  · rw [hfinal.1] at hnothing
    cases hnothing
  · rw [hfinal.1] at hnothing
    subst hnothing
    rcases modeOfStateBatch_eq_ok hmode with ⟨-, h, -⟩ | ⟨s, rfl, -⟩ | ⟨-, -, -, -, h, -⟩ | ⟨-, -, -, -, h, -⟩
    all_goals first | cases h | rfl

/-! ## The next cache -/

/-- **`updateStatus` panics exactly on the dereference of a nil
`UpdateBatch`**: a response that keeps the cache, asks to update the
batch with an execution result it has, and has no batch to update, while
the cache has a current batch. -/
theorem updateStatus_eq_panic_iff (status : TrustedState) (response : ProcessResponse) (closedBatch : Bool) :
    updateStatus status (some response) closedBatch = panic ↔
      response.clearCache = false ∧ response.processBatchResponse.isSome ∧
        response.updateBatchWithProcessBatchResponse = true ∧ response.updateBatch = none ∧
        status.getCurrentBatch.isSome := by
  unfold updateStatus
  obtain ⟨resp, clearCache, updateBatch, withResult⟩ := response
  dsimp only
  cases clearCache
  · -- the cache is kept: only the copy of a nil `UpdateBatch` panics
    rcases resp with _ | resp <;> rcases updateBatch with _ | tmp
    · simp
    · simp
    · by_cases hc : withResult = true ∧ status.getCurrentBatch.isSome = true
      · simp [hc]
      · simp only [Option.none_or, Bool.and_eq_true, if_neg hc, pure_def, ok_bind]
        simp [hc]
    · split_ifs <;> simp
  · simp

@[simp] theorem checkSanity_newProcessResponse : newProcessResponse.checkSanity = .ok () := rfl

@[simp] theorem checkSanity_updateCurrentBatch (updateBatch : Batch) :
    (newProcessResponse.updateCurrentBatch updateBatch).checkSanity = .ok () := rfl

@[simp] theorem checkSanity_updateCurrentBatchWithExecutionResult (updateBatch : Batch)
    (processBatchResponse : ProcessBatchResponse) :
    (newProcessResponse.updateCurrentBatchWithExecutionResult updateBatch processBatchResponse).checkSanity =
      .ok () := by
  simp [ProcessResponse.checkSanity, ProcessResponse.updateCurrentBatchWithExecutionResult]

/-- A response that passes `CheckSanity` never makes `updateStatus` panic:
the sanity check, whose failure is only logged, rules out the nil
dereference. -/
theorem updateStatus_ne_panic_of_checkSanity (status : TrustedState) {response : ProcessResponse}
    (hsane : response.checkSanity = .ok ()) (closedBatch : Bool) :
    updateStatus status (some response) closedBatch ≠ panic := by
  rw [Ne, updateStatus_eq_panic_iff]
  rintro ⟨-, -, hflag, hnil, -⟩
  unfold ProcessResponse.checkSanity at hsane
  rw [hnil] at hsane
  cases hresp : response.processBatchResponse with
  | none => simp [hresp, hflag] at hsane
  | some resp => simp [hresp, hflag] at hsane

/-! ## The check of a batch to close -/

theorem checkStateRootAndLER_eq_ok_iff {batchNumber expectedStateRoot expectedLER calculatedStateRoot
    calculatedLER : ℕ} :
    checkStateRootAndLER batchNumber expectedStateRoot expectedLER calculatedStateRoot calculatedLER = .ok () ↔
      calculatedStateRoot = expectedStateRoot ∧ calculatedLER = expectedLER := by
  unfold checkStateRootAndLER
  split_ifs <;> simp_all

/-- **With an execution result, a batch to close passes the check only
with the trusted roots**, unless its data is empty. -/
theorem checkProcessBatchResultMatchExpected_some {data : ProcessData} (resp : ProcessBatchResponse) :
    checkProcessBatchResultMatchExpected data (some resp) = ok () ↔
      data.trustedBatch.batchL2Data = [] ∨
        resp.newStateRoot = data.trustedBatch.stateRoot ∧ resp.newLocalExitRoot = data.trustedBatch.localExitRoot := by
  unfold checkProcessBatchResultMatchExpected
  dsimp only
  split_ifs with hempty
  · simp [List.length_eq_zero_iff.mp hempty]
  · have hne : data.trustedBatch.batchL2Data ≠ [] := fun h => hempty (by rw [h]; rfl)
    simp only [hne, false_or]
    rw [← @checkStateRootAndLER_eq_ok_iff data.trustedBatch.number]
    cases checkStateRootAndLER data.trustedBatch.number data.trustedBatch.stateRoot
      data.trustedBatch.localExitRoot resp.newStateRoot resp.newLocalExitRoot <;> simp

/-- **The check panics only on a nil state batch**, when the batch has
data and there is no execution result to read the roots from. -/
theorem checkProcessBatchResultMatchExpected_eq_panic_iff {data : ProcessData}
    {processBatchResp : Option ProcessBatchResponse} :
    checkProcessBatchResultMatchExpected data processBatchResp = panic ↔
      data.trustedBatch.batchL2Data ≠ [] ∧ processBatchResp = none ∧ data.stateBatch = none := by
  unfold checkProcessBatchResultMatchExpected
  dsimp only
  split_ifs with hempty
  · simp [List.length_eq_zero_iff.mp hempty]
  · have hne : data.trustedBatch.batchL2Data ≠ [] := fun h => hempty (by rw [h]; rfl)
    rcases processBatchResp with _ | resp <;> rcases hs : data.stateBatch with _ | s
    all_goals simp [hne, ofExcept_ne_panic]

/-- Without one, the check reads the roots of the state batch. -/
theorem checkProcessBatchResultMatchExpected_none {data : ProcessData} :
    checkProcessBatchResultMatchExpected data none = ok () ↔
      data.trustedBatch.batchL2Data = [] ∨ ∃ s, data.stateBatch = some s ∧
        s.stateRoot = data.trustedBatch.stateRoot ∧ s.localExitRoot = data.trustedBatch.localExitRoot := by
  unfold checkProcessBatchResultMatchExpected
  dsimp only
  split_ifs with hempty
  · simp [List.length_eq_zero_iff.mp hempty]
  · have hne : data.trustedBatch.batchL2Data ≠ [] := fun h => hempty (by rw [h]; rfl)
    cases hs : data.stateBatch with
    | none => simp [hne]
    | some s =>
      simp only [Option.some.injEq, exists_eq_left', hne, false_or]
      rw [← @checkStateRootAndLER_eq_ok_iff data.trustedBatch.number]
      cases checkStateRootAndLER data.trustedBatch.number data.trustedBatch.stateRoot
        data.trustedBatch.localExitRoot s.stateRoot s.localExitRoot <;> simp

end L2Sync

end Synchronizer

end XLayerNode
