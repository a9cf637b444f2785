import XLayerNode.Common.Journal
import XLayerNode.Common.GoHex
/-!
# Virtualizing an L1 sequence of batches

`ProcessSequenceBatches` of the etrog processor stores, for each batch of a
sequence L1 reports, the batch itself (from L1's data, or the trusted one
when it agrees with L1) and a virtual batch, and at the end the sequence.
It runs on one database transaction `dbTx`: every call below takes it, and
each error path rolls it back and returns.

The program is written over a journal of its calls (`Common.Journal`), so
an environment gives every answer of the state, of `dbTx` and of the
executor, each one depending on all calls before it.

All error paths but one roll back and return (`rollbackAndReturn`). The
error path of `UpdateBatchTimestamp` rolls back and goes on when the
rollback succeeds, so the processor then calls the state on a rolled-back
transaction and can return no error
(`processSequenceBatches_after_rollback`). When that call does not fail,
every run rolls back only as its last call, and returns an error when it
has rolled back (`processSequenceBatches_rollback_last`).
-/

namespace XLayerNode

namespace Synchronizer

namespace Etrog

open Journal

/-- `etherman.SequencedBatch` with its `PolygonRollupBaseEtrogBatchData`:
the fields the processor reads. Hashes, addresses and times are numbers. -/
structure SequencedBatch where
  batchNumber : ℕ
  txHash : ℕ
  coinbase : ℕ
  sequencerAddr : ℕ
  l1InfoRoot : ℕ
  transactions : List UInt8
  forcedGlobalExitRoot : ℕ
  forcedTimestamp : ℕ
  forcedBlockHashL1 : ℕ
  deriving DecidableEq, Repr

/-- `state.ForcedBatch`, with `ForcedAt` in Unix seconds. -/
structure ForcedBatch where
  forcedBatchNumber : ℕ
  globalExitRoot : ℕ
  forcedAt : ℕ
  rawTxsData : List UInt8
  deriving DecidableEq, Repr

/-- `state.Batch`, the fields the processor writes or compares. -/
structure Batch where
  batchNumber : ℕ
  coinbase : ℕ
  batchL2Data : List UInt8
  stateRoot : ℕ
  globalExitRoot : ℕ
  timestamp : ℕ
  forcedBatchNum : Option ℕ
  wip : Bool
  deriving DecidableEq, Repr

/-- The closing reasons the processor gives. -/
inductive ClosingReason where
  | syncL1EventSequencedForcedBatch
  | syncL1EventInitialBatch
  | syncL1EventSequencedBatch
  deriving DecidableEq, Repr

/-- `state.ProcessingContextV2`. The L1 info tree data is the map from leaf
index to the leaf's global exit root, as a list of pairs. -/
structure ProcessingContextV2 where
  batchNumber : ℕ
  coinbase : ℕ
  timestamp : ℕ
  l1InfoRoot : ℕ
  l1InfoTreeData : List (ℕ × ℕ)
  forcedBatchNum : Option ℕ
  batchL2Data : List UInt8
  forcedBlockHashL1 : Option ℕ
  skipVerifyL1InfoRoot : ℕ
  globalExitRoot : ℕ
  closingReason : ClosingReason
  deriving DecidableEq, Repr

/-- `state.VirtualBatch`. -/
structure VirtualBatch where
  batchNumber : ℕ
  txHash : ℕ
  coinbase : ℕ
  blockNumber : ℕ
  sequencerAddr : ℕ
  timestampBatchEtrog : ℕ
  l1InfoRoot : ℕ
  deriving DecidableEq, Repr

/-- `state.Sequence`. -/
structure Sequence where
  fromBatchNumber : ℕ
  toBatchNumber : ℕ
  deriving DecidableEq, Repr

/-- The differences `checkTrustedState` writes to the reorg reason. -/
inductive ReorgReason where
  | stateRoot
  | batchL2Data
  | globalExitRoot
  | timestamp
  | coinbase
  | wip
  deriving DecidableEq, Repr

/-- `state.TrustedReorg`, with the reason as its list of differences. -/
structure TrustedReorg where
  batchNumber : ℕ
  reason : List ReorgReason
  deriving DecidableEq, Repr

/-- The calls of the processor, each on `dbTx`. -/
inductive Call where
  | getNextForcedBatches (nextForcedBatches : ℕ)
  | getL1InfoTreeDataFromBatchL2Data (batchL2Data : List UInt8)
  | getBatchByNumber (batchNumber : ℕ)
  | processAndStoreClosedBatchV2 (processingCtx : ProcessingContextV2)
  | updateBatchTimestamp (batchNumber timestamp : ℕ)
  | executeBatchV2 (batch : Batch) (l1InfoTreeRoot : ℕ) (l1InfoTreeData : List (ℕ × ℕ)) (timestampLimit : ℕ)
      (skipVerifyL1InfoRoot : ℕ) (forcedBlockHashL1 : Option ℕ)
  | addAccumulatedInputHash (batchNum accInputHash : ℕ)
  | resetTrustedState (batchNumber : ℕ)
  | addTrustedReorg (trustedReorg : TrustedReorg)
  | addVirtualBatch (virtualBatch : VirtualBatch)
  | addSequence (sequence : Sequence)
  | rollback
  deriving DecidableEq, Repr

/-- The answers of the state, of `dbTx` and of the executor, each from the
journal that ends with its call; the role of the node; and the time
`Now()` gives. `getBatchByNumber` answers `.error none` for
`state.ErrNotFound`. -/
structure Env (ε : Type) where
  getNextForcedBatches : List Call → Except ε (List ForcedBatch)
  /-- The leaves, and the highest global exit root of the batch data. -/
  getL1InfoTreeDataFromBatchL2Data : List Call → Except ε (List (ℕ × ℕ) × ℕ)
  getBatchByNumber : List Call → Except (Option ε) Batch
  /-- The new state root. -/
  processAndStoreClosedBatchV2 : List Call → Except ε ℕ
  updateBatchTimestamp : List Call → Except ε Unit
  /-- `NewStateRoot` and `NewAccInputHash` of the response. -/
  executeBatchV2 : List Call → Except ε (ℕ × ℕ)
  addAccumulatedInputHash : List Call → Except ε Unit
  resetTrustedState : List Call → Except ε Unit
  addTrustedReorg : List Call → Except ε Unit
  addVirtualBatch : List Call → Except ε Unit
  addSequence : List Call → Except ε Unit
  rollback : List Call → Except ε Unit
  isTrustedSequencer : Bool
  now : ℕ

/-- The errors the processor returns. -/
inductive SequenceError (ε : Type) where
  /-- The error of a call. -/
  | call (err : ε)
  /-- `rollbackErr`, the error of `dbTx.Rollback`. -/
  | rollback (rollbackErr : ε)
  /-- "error: empty forcedBatches array read from db. BatchNumber: %d" -/
  | emptyForcedBatches (batchNumber : ℕ)
  /-- "error: forcedBatch received doesn't match with the next expected
  forcedBatch stored in db. Expected: %+v, Synced: %+v" -/
  | forcedBatchMismatch (expected : ForcedBatch) (synced : SequencedBatch)
  deriving DecidableEq, Repr

/-- How a run of the processor ends early: it returns an error, or the
trusted sequencer halts on a trusted reorg (`CriticalError` never
returns). -/
inductive Exit (ε : Type) where
  | error (err : SequenceError ε)
  | halted
  deriving DecidableEq, Repr

/-- The processor's programs: over a journal of its calls, ending early with
an `Exit`. -/
abbrev Run (ε α : Type) := Journal Call (Exit ε) α

variable {ε α β : Type}

/-- The error path of the processor: roll back `dbTx`, and return the
rollback's error when it fails, `err` otherwise. -/
def rollbackAndReturn (env : Env ε) (err : SequenceError ε) : Run ε α := do
  match ← call .rollback env.rollback with
  | .error rollbackErr => exit (.error (.rollback rollbackErr))
  | .ok () => exit (.error err)

/-- A call whose error takes the error path. -/
def orRollback (env : Env ε) (c : Call) (answer : List Call → Except ε β) : Run ε β := do
  match ← call c answer with
  | .ok b => pure b
  | .error err => rollbackAndReturn env (.call err)

/-- `uint64(batchNumber - 1)`. -/
def previousBatchNumber (batchNumber : ℕ) : ℕ := (batchNumber + (2 ^ 64 - 1)) % 2 ^ 64

/-- The global exit root of the leaf `len(leaves) - 1`, the zero hash when
the map has no such key. -/
def lastLeafGlobalExitRoot (leaves : List (ℕ × ℕ)) : ℕ := (leaves.lookup (leaves.length - 1)).getD 0

/-- The batch, the processing context and the leaves for one sequenced
batch: a forced batch must be the next forced batch stored; batch 1 is the
injected batch; any other batch takes the L1 info tree data of its
transactions. -/
def batchContext (env : Env ε) (l1BlockTimestamp : ℕ) (sbatch : SequencedBatch) (batch : Batch) :
    Run ε (Batch × ProcessingContextV2 × List (ℕ × ℕ)) := do
  if 0 < sbatch.forcedTimestamp ∧ sbatch.batchNumber ≠ 1 then
    let forcedBatches ← orRollback env (.getNextForcedBatches 1) env.getNextForcedBatches
    match forcedBatches with
    | [] => rollbackAndReturn env (.emptyForcedBatches sbatch.batchNumber)
    | fb :: _ =>
      if fb.forcedAt ≠ sbatch.forcedTimestamp ∨ fb.globalExitRoot ≠ sbatch.forcedGlobalExitRoot ∨
          GoHex.encodeToString fb.rawTxsData ≠ GoHex.encodeToString sbatch.transactions then
        rollbackAndReturn env (.forcedBatchMismatch fb sbatch)
      else
        -- the leaves are not needed for forced batches
        pure ({ batch with forcedBatchNum := some fb.forcedBatchNumber, globalExitRoot := sbatch.forcedGlobalExitRoot },
          { batchNumber := sbatch.batchNumber, coinbase := sbatch.sequencerAddr, timestamp := fb.forcedAt,
            l1InfoRoot := sbatch.forcedGlobalExitRoot, l1InfoTreeData := [], forcedBatchNum := none,
            batchL2Data := fb.rawTxsData, forcedBlockHashL1 := none, skipVerifyL1InfoRoot := 1,
            globalExitRoot := 0, closingReason := .syncL1EventSequencedForcedBatch }, [])
  else if 0 < sbatch.forcedTimestamp ∧ sbatch.batchNumber = 1 then
    pure ({ batch with globalExitRoot := sbatch.forcedGlobalExitRoot },
      { batchNumber := 1, coinbase := sbatch.sequencerAddr, timestamp := sbatch.forcedTimestamp,
        l1InfoRoot := sbatch.forcedGlobalExitRoot, l1InfoTreeData := [], forcedBatchNum := none,
        batchL2Data := sbatch.transactions, forcedBlockHashL1 := some sbatch.forcedBlockHashL1,
        skipVerifyL1InfoRoot := 1, globalExitRoot := 0, closingReason := .syncL1EventInitialBatch }, [])
  else
    let (leaves, maxGER) ← orRollback env (.getL1InfoTreeDataFromBatchL2Data batch.batchL2Data)
      env.getL1InfoTreeDataFromBatchL2Data
    let batch := { batch with globalExitRoot := maxGER }
    let processCtx : ProcessingContextV2 :=
      { batchNumber := batch.batchNumber, coinbase := batch.coinbase, timestamp := l1BlockTimestamp,
        l1InfoRoot := sbatch.l1InfoRoot, l1InfoTreeData := leaves, forcedBatchNum := batch.forcedBatchNum,
        batchL2Data := batch.batchL2Data, forcedBlockHashL1 := none, skipVerifyL1InfoRoot := 1,
        globalExitRoot := batch.globalExitRoot, closingReason := .syncL1EventSequencedBatch }
    -- an empty global exit root takes the one of the last leaf, when there are leaves
    if batch.globalExitRoot = 0 ∧ leaves ≠ [] then
      let globalExitRoot := lastLeafGlobalExitRoot leaves
      pure ({ batch with globalExitRoot }, { processCtx with globalExitRoot }, leaves)
    else pure (batch, processCtx, leaves)

/-- The differences `checkTrustedState` finds between the batch from L1 and
the trusted one. -/
def reorgReasons (batch tBatch : Batch) (newRoot : ℕ) : List ReorgReason :=
  (if newRoot ≠ tBatch.stateRoot then [.stateRoot] else []) ++
  (if GoHex.encodeToString batch.batchL2Data ≠ GoHex.encodeToString tBatch.batchL2Data then [.batchL2Data] else []) ++
  (if batch.globalExitRoot ≠ tBatch.globalExitRoot then [.globalExitRoot] else []) ++
  (if batch.timestamp < tBatch.timestamp then [.timestamp] else []) ++
  (if batch.coinbase ≠ tBatch.coinbase then [.coinbase] else []) ++
  (if tBatch.wip then [.wip] else [])

/-- `checkTrustedState`: whether the trusted batch must be replaced. The
trusted sequencer halts on a difference; another node stores a trusted
reorg for a closed batch, and an error storing it is only logged. -/
def checkTrustedState (env : Env ε) (batch tBatch : Batch) (newRoot : ℕ) : Run ε Bool := do
  let reasons := reorgReasons batch tBatch newRoot
  if reasons ≠ [] then
    if env.isTrustedSequencer then exit .halted
    if !tBatch.wip then
      let _ ← call (.addTrustedReorg ⟨tBatch.batchNumber, reasons⟩) env.addTrustedReorg
    return true
  return false

/-- The trusted batch and the state root to compare it with. A batch the
state does not have is stored, and is its own trusted batch (the source
points `tBatch` at `batch`). A batch it has gets the timestamp of the
context and is executed again; the error path of the timestamp update rolls
back and, when the rollback succeeds, goes on. -/
def trustedBatch (env : Env ε) (batch : Batch) (processCtx : ProcessingContextV2) (leaves : List (ℕ × ℕ)) :
    Run ε (Batch × Batch × ℕ) := do
  match ← call (.getBatchByNumber batch.batchNumber) env.getBatchByNumber with
  | .error none =>
    let newStateRoot ← orRollback env (.processAndStoreClosedBatchV2 processCtx) env.processAndStoreClosedBatchV2
    let tBatch := { batch with stateRoot := newStateRoot }
    pure (tBatch, tBatch, newStateRoot)
  | .error (some err) => rollbackAndReturn env (.call err)
  | .ok tBatch =>
    match ← call (.updateBatchTimestamp batch.batchNumber processCtx.timestamp) env.updateBatchTimestamp with
    | .error _ =>
      match ← call .rollback env.rollback with
      | .error rollbackErr => exit (.error (.rollback rollbackErr))
      | .ok () => pure ()
    | .ok () => pure ()
    let (newStateRoot, accumulatedInputHash) ← orRollback env
      (.executeBatchV2 batch processCtx.l1InfoRoot leaves processCtx.timestamp processCtx.skipVerifyL1InfoRoot
        processCtx.forcedBlockHashL1) env.executeBatchV2
    orRollback env (.addAccumulatedInputHash batch.batchNumber accumulatedInputHash) env.addAccumulatedInputHash
    pure (batch, tBatch, newStateRoot)

/-- One iteration of the loop of `ProcessSequenceBatches`. -/
def processSequencedBatch (env : Env ε) (blockNumber l1BlockTimestamp now : ℕ) (sbatch : SequencedBatch) :
    Run ε PUnit := do
  let batch : Batch :=
    { batchNumber := sbatch.batchNumber, coinbase := sbatch.coinbase, batchL2Data := sbatch.transactions,
      stateRoot := 0, globalExitRoot := 0, timestamp := now, forcedBatchNum := none, wip := false }
  let (batch, processCtx, leaves) ← batchContext env l1BlockTimestamp sbatch batch
  let virtualBatch : VirtualBatch :=
    { batchNumber := sbatch.batchNumber, txHash := sbatch.txHash, coinbase := sbatch.coinbase,
      blockNumber, sequencerAddr := sbatch.sequencerAddr, timestampBatchEtrog := l1BlockTimestamp,
      l1InfoRoot := processCtx.l1InfoRoot }
  let (batch, tBatch, newRoot) ← trustedBatch env batch processCtx leaves
  let status ← checkTrustedState env batch tBatch newRoot
  if status then
    -- reset the trusted state from this batch on, and store it again
    orRollback env (.resetTrustedState (previousBatchNumber batch.batchNumber)) env.resetTrustedState
    let _ ← orRollback env (.processAndStoreClosedBatchV2 processCtx) env.processAndStoreClosedBatchV2
  orRollback env (.addVirtualBatch virtualBatch) env.addVirtualBatch

/-- `ProcessSequenceBatches`: each sequenced batch, then the sequence. -/
def processSequenceBatches (env : Env ε) (sequencedBatches : List SequencedBatch) (blockNumber l1BlockTimestamp : ℕ) :
    Run ε PUnit :=
  match sequencedBatches with
  | [] => pure ⟨⟩
  | first :: rest => do
    let now := env.now
    (first :: rest).forM (processSequencedBatch env blockNumber l1BlockTimestamp now)
    -- the sequence lets the aggregator verify the sequenced batches
    orRollback env (.addSequence ⟨first.batchNumber, ((first :: rest).getLast (List.cons_ne_nil _ _)).batchNumber⟩)
      env.addSequence

/-! ## The transaction discipline -/

section Discipline

variable {env : Env ε}

/-- `dbTx` has not been rolled back. -/
def Open (j : List Call) : Prop := Call.rollback ∉ j

/-- How a run may stop: an error with `dbTx` rolled back last or not at
all, or a halt with `dbTx` open. -/
def Stopped : Exit ε → List Call → Prop
  | .error _, j => Open j ∨ ∃ j₀, Open j₀ ∧ j = j₀ ++ [.rollback]
  | .halted, j => Open j

/-- From an open `dbTx`, `m` leaves it open or stops as `Stopped` says:
it makes no call after a rollback and returns no result after one. -/
def RollsBackLast (m : Run ε α) : Prop := Triple Open m (Ends Open Stopped)

theorem open_append {j : List Call} {c : Call} (hj : Open j) (hc : c ≠ .rollback) : Open (j ++ [c]) := by
  intro hmem
  rcases List.mem_append.mp hmem with h | h
  · exact hj h
  · exact hc (List.mem_singleton.mp h).symm

theorem rollsBackLast_call {c : Call} (hc : c ≠ .rollback) (answer : List Call → β) :
    RollsBackLast (call c answer : Run ε β) :=
  fun _ hj => open_append hj hc

theorem rollsBackLast_exit (e : Exit ε) : RollsBackLast (exit e : Run ε α) := by
  intro j hj
  cases e with
  | error err => exact .inl hj
  | halted => exact hj

/-- The error path rolls back as its last call. -/
theorem rollsBackLast_rollbackAndReturn (err : SequenceError ε) :
    RollsBackLast (rollbackAndReturn env err : Run ε α) := by
  intro j hj
  have hstop : ∀ e : SequenceError ε, Stopped (.error e) (j ++ [.rollback]) := fun _ => .inr ⟨j, hj, rfl⟩
  simp only [rollbackAndReturn, bind_apply, call_apply]
  cases env.rollback (j ++ [.rollback]) with
  | error rollbackErr => exact hstop (.rollback rollbackErr)
  | ok _ => exact hstop err

theorem rollsBackLast_orRollback {c : Call} (hc : c ≠ .rollback) (answer : List Call → Except ε β) :
    RollsBackLast (orRollback env c answer) := by
  refine Triple.bind_ends (rollsBackLast_call hc answer) fun r => ?_
  cases r with
  | ok b => exact Triple.pure_ends b
  | error err => exact rollsBackLast_rollbackAndReturn (.call err)

theorem rollsBackLast_batchContext (l1BlockTimestamp : ℕ) (sbatch : SequencedBatch) (batch : Batch) :
    RollsBackLast (batchContext env l1BlockTimestamp sbatch batch) := by
  unfold batchContext
  split_ifs with hforced hinitial
  · -- a forced batch: the next forced batch stored, or the error path
    refine Triple.bind_ends (rollsBackLast_orRollback Call.noConfusion _) fun forcedBatches => ?_
    split
    · exact rollsBackLast_rollbackAndReturn _
    · split_ifs
      · exact rollsBackLast_rollbackAndReturn _
      · exact Triple.pure_ends _
  · exact Triple.pure_ends _
  · refine Triple.bind_ends (rollsBackLast_orRollback Call.noConfusion _) fun data => ?_
    obtain ⟨leaves, maxGER⟩ := data
    dsimp only
    split_ifs <;> exact Triple.pure_ends _

theorem rollsBackLast_ite {c : Prop} [Decidable c] {a b : Run ε α} (ha : RollsBackLast a)
    (hb : RollsBackLast b) : RollsBackLast (if c then a else b) := by
  split_ifs
  · exact ha
  · exact hb

theorem rollsBackLast_checkTrustedState (batch tBatch : Batch) (newRoot : ℕ) :
    RollsBackLast (checkTrustedState env batch tBatch newRoot) := by
  unfold checkTrustedState
  dsimp only
  refine rollsBackLast_ite (rollsBackLast_ite (Triple.bind_ends (rollsBackLast_exit _) fun _ => ?_) ?_)
    (Triple.pure_ends _)
  -- after a halt, and without one, the store of a trusted reorg, whose error is only logged
  all_goals exact rollsBackLast_ite (Triple.bind_ends (rollsBackLast_call Call.noConfusion _) fun _ =>
    Triple.pure_ends _) (Triple.pure_ends _)

/-- When the timestamp update does not fail, the search for the trusted
batch takes only error paths that return. -/
theorem rollsBackLast_trustedBatch (hupdate : ∀ j, env.updateBatchTimestamp j = .ok ()) (batch : Batch)
    (processCtx : ProcessingContextV2) (leaves : List (ℕ × ℕ)) :
    RollsBackLast (trustedBatch env batch processCtx leaves) := by
  unfold trustedBatch
  refine Triple.bind_ends (rollsBackLast_call (by simp) _) fun found => ?_
  cases found with
  | error e =>
    cases e with
    | none => exact Triple.bind_ends (rollsBackLast_orRollback (by simp) _) fun _ => Triple.pure_ends _
    | some err => exact rollsBackLast_rollbackAndReturn _
  | ok tBatch =>
    -- the update answers no error, so its error path is never taken
    have hanswer : env.updateBatchTimestamp = fun _ => .ok () := funext hupdate
    dsimp only
    rw [hanswer, call_const_bind]
    refine Triple.bind_ends (rollsBackLast_call (by simp) _) fun _ => ?_
    refine Triple.bind_ends (rollsBackLast_orRollback (by simp) _) fun executed => ?_
    exact Triple.bind_ends (rollsBackLast_orRollback (by simp) _) fun _ => Triple.pure_ends _

theorem rollsBackLast_processSequencedBatch (hupdate : ∀ j, env.updateBatchTimestamp j = .ok ())
    (blockNumber l1BlockTimestamp now : ℕ) (sbatch : SequencedBatch) :
    RollsBackLast (processSequencedBatch env blockNumber l1BlockTimestamp now sbatch) := by
  unfold processSequencedBatch
  refine Triple.bind_ends (rollsBackLast_batchContext _ _ _) fun context => ?_
  refine Triple.bind_ends (rollsBackLast_trustedBatch hupdate _ _ _) fun trusted => ?_
  refine Triple.bind_ends (rollsBackLast_checkTrustedState _ _ _) fun status => ?_
  dsimp only
  -- a batch to replace: the reset and the batch stored again, before the virtual batch
  refine rollsBackLast_ite ?_ (rollsBackLast_orRollback (by simp) _)
  exact Triple.bind_ends (rollsBackLast_orRollback (by simp) _) fun _ =>
    Triple.bind_ends (rollsBackLast_orRollback (by simp) _) fun _ => rollsBackLast_orRollback (by simp) _

theorem rollsBackLast_processSequenceBatches (hupdate : ∀ j, env.updateBatchTimestamp j = .ok ())
    (sequencedBatches : List SequencedBatch) (blockNumber l1BlockTimestamp : ℕ) :
    RollsBackLast (processSequenceBatches env sequencedBatches blockNumber l1BlockTimestamp) := by
  unfold processSequenceBatches
  split
  · exact Triple.pure_ends _
  · refine Triple.bind_ends (Triple.forM _ fun sbatch _ => ?_) fun _ => rollsBackLast_orRollback (by simp) _
    exact rollsBackLast_processSequencedBatch hupdate _ _ _ sbatch

/-- A journal that `Stopped` allows has a rollback as its last call at
most. -/
theorem rollback_last_of_stopped {e : Exit ε} {j : List Call} (h : Stopped e j) :
    ∀ i, j[i]? = some .rollback → i + 1 = j.length := by
  have hopen : ∀ {j : List Call}, Open j → ∀ i, j[i]? = some .rollback → i + 1 = j.length :=
    fun hj i hi => absurd (List.mem_of_getElem? hi) hj
  cases e with
  | halted => exact hopen h
  | error err =>
    rcases h with h | ⟨j₀, hj₀, rfl⟩
    · exact hopen h
    · intro i hi
      rw [List.getElem?_append] at hi
      split_ifs at hi with hlt
      · exact absurd (List.mem_of_getElem? hi) hj₀
      · have hle : i - j₀.length < 1 := (List.getElem?_eq_some_iff.mp hi).1
        simp only [List.length_append, List.length_singleton]
        omega

/-- **The transaction discipline outside the timestamp update's error
path.** When `UpdateBatchTimestamp` does not fail, a run from an open
`dbTx` makes no call after a rollback, and returns no error only when it
has not rolled back. -/
theorem processSequenceBatches_rollback_last (hupdate : ∀ j, env.updateBatchTimestamp j = .ok ())
    (sequencedBatches : List SequencedBatch) (blockNumber l1BlockTimestamp : ℕ) {j : List Call}
    (hj : Call.rollback ∉ j) :
    (∀ i, (processSequenceBatches env sequencedBatches blockNumber l1BlockTimestamp j).2[i]? = some .rollback →
        i + 1 = (processSequenceBatches env sequencedBatches blockNumber l1BlockTimestamp j).2.length) ∧
      ((processSequenceBatches env sequencedBatches blockNumber l1BlockTimestamp j).1 = .ok ⟨⟩ →
        Call.rollback ∉ (processSequenceBatches env sequencedBatches blockNumber l1BlockTimestamp j).2) := by
  have hrun := rollsBackLast_processSequenceBatches hupdate sequencedBatches blockNumber l1BlockTimestamp j hj
  revert hrun
  cases (processSequenceBatches env sequencedBatches blockNumber l1BlockTimestamp j).1 with
  | ok _ =>
    intro hopen
    exact ⟨fun i hi => absurd (List.mem_of_getElem? hi) hopen, fun _ => hopen⟩
  | error e =>
    intro hstopped
    exact ⟨rollback_last_of_stopped hstopped, fun h => absurd h (by simp)⟩

/-- Batch 5 as L1 sequences it: not forced, with the transactions `0x0b`. -/
def sequencedBatch5 : SequencedBatch :=
  { batchNumber := 5, txHash := 1, coinbase := 2, sequencerAddr := 2, l1InfoRoot := 3, transactions := [0x0b],
    forcedGlobalExitRoot := 0, forcedTimestamp := 0, forcedBlockHashL1 := 0 }

/-- A state whose trusted batch 5 is closed and agrees with L1, and where
every call succeeds. -/
def agreeingState : Env Unit where
  getNextForcedBatches _ := .ok []
  getL1InfoTreeDataFromBatchL2Data _ := .ok ([], 4)
  getBatchByNumber _ := .ok
    { batchNumber := 5, coinbase := 2, batchL2Data := [0x0b], stateRoot := 7, globalExitRoot := 4, timestamp := 90,
      forcedBatchNum := none, wip := false }
  processAndStoreClosedBatchV2 _ := .ok 7
  updateBatchTimestamp _ := .ok ()
  executeBatchV2 _ := .ok (7, 8)
  addAccumulatedInputHash _ := .ok ()
  resetTrustedState _ := .ok ()
  addTrustedReorg _ := .ok ()
  addVirtualBatch _ := .ok ()
  addSequence _ := .ok ()
  rollback _ := .ok ()
  isTrustedSequencer := false
  now := 100

theorem processSequenceBatches_rollback_last_agreeingState :
    (∀ j, agreeingState.updateBatchTimestamp j = .ok ()) ∧ Call.rollback ∉ ([] : List Call) ∧
      ((∀ i, (processSequenceBatches agreeingState [sequencedBatch5] 20 100 []).2[i]? = some .rollback →
          i + 1 = (processSequenceBatches agreeingState [sequencedBatch5] 20 100 []).2.length) ∧
        ((processSequenceBatches agreeingState [sequencedBatch5] 20 100 []).1 = .ok ⟨⟩ →
          Call.rollback ∉ (processSequenceBatches agreeingState [sequencedBatch5] 20 100 []).2)) :=
  ⟨fun _ => rfl, List.not_mem_nil,
    processSequenceBatches_rollback_last (fun _ => rfl) [sequencedBatch5] 20 100 List.not_mem_nil⟩

/-- **The rollback that does not return.** When the timestamp update of
the trusted batch 5 fails and the rollback succeeds, the processor goes on
with the executor, the accumulated input hash, the virtual batch and the
sequence on the rolled-back `dbTx`, and returns no error. -/
theorem processSequenceBatches_after_rollback :
    processSequenceBatches { agreeingState with updateBatchTimestamp := fun _ => .error () } [sequencedBatch5] 20 100
        [] =
      (.ok ⟨⟩,
        [.getL1InfoTreeDataFromBatchL2Data [0x0b], .getBatchByNumber 5, .updateBatchTimestamp 5 100, .rollback,
          .executeBatchV2
            { batchNumber := 5, coinbase := 2, batchL2Data := [0x0b], stateRoot := 0, globalExitRoot := 4,
              timestamp := 100, forcedBatchNum := none, wip := false } 3 [] 100 1 none,
          .addAccumulatedInputHash 5 8,
          .addVirtualBatch
            { batchNumber := 5, txHash := 1, coinbase := 2, blockNumber := 20, sequencerAddr := 2,
              timestampBatchEtrog := 100, l1InfoRoot := 3 },
          .addSequence ⟨5, 5⟩]) := by
  rfl

end Discipline

end Etrog

end Synchronizer

end XLayerNode
