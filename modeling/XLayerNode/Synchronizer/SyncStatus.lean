import Mathlib.Data.List.Perm.Subperm
import XLayerNode.Synchronizer.BlockRange
/-!
# The bookkeeping of the parallel L1 synchronizer

`SyncStatus` is the producer's record of the L1 blocks it has asked its
workers for: the ranges being fetched (`processingRanges`), those whose
fetch failed and wait for a retry (`errorRanges`), the last block stored,
the highest block requested and the last block on L1. The producer's calls
are the steps of a state machine (`ProducerOp`, `SyncStatus.step`); a
`log.Fatal` of the source is an `.error` of a step.

**No run reaches a `log.Fatal`** (`run_newSyncStatus_disjoint`): with block
numbers and the chunk size below `2 ^ 63`, every range `GetNextRange`
returns is accepted by `OnStartedNewWorker`, every failed range by the
error list, and the live ranges stay pairwise disjoint. The bound keeps
the `uint64` sums of `getNextBlockRangeFromUnsafe` from wrapping. The
invariant is `SyncStatus.Sound`; each operation keeps it, and `run_sound`
carries it along a run.

**A failed range up to the latest block is dropped**
(`isNodeFullySynchronizedWithL1_after_dropped_range`): `GetNextRange`
discards it, while `highestBlockRequested` already covers its blocks, so
the node reports itself synchronized with blocks no worker fetched.
-/

namespace XLayerNode

namespace Synchronizer

/-- `invalidLastBlock`. -/
def invalidLastBlock : ℕ := 0

/-- `syncStatus`, its mutex apart. -/
structure SyncStatus where
  lastBlockStoreOnStateDB : ℕ
  highestBlockRequested : ℕ
  lastBlockOnL1 : ℕ
  amountOfBlocksInEachRange : ℕ
  processingRanges : List BlockRange
  errorRanges : List BlockRange
  deriving DecidableEq, Repr

/-- `newSyncStatus`. -/
def newSyncStatus (lastBlockStoreOnStateDB amountOfBlocksInEachRange : ℕ) : SyncStatus :=
  { lastBlockStoreOnStateDB, highestBlockRequested := lastBlockStoreOnStateDB,
    lastBlockOnL1 := invalidLastBlock, amountOfBlocksInEachRange, processingRanges := [],
    errorRanges := [] }

/-- `getNextBlockRangeFromUnsafe`, in `uint64`: the chunk after
`lastBlockInState`, or the rest up to the latest block. -/
def getNextBlockRangeFrom (lastBlockInState lastBlockInL1 amountOfBlocksInEachRange : ℕ) :
    BlockRange :=
  let fromBlock := (lastBlockInState + 1) % 2 ^ 64
  let toBlock := min lastBlockInL1 ((fromBlock + amountOfBlocksInEachRange) % 2 ^ 64)
  { fromBlock, toBlock := if toBlock = lastBlockInL1 then latestBlockNumber else toBlock }

/-- The answer of `OnNewLastBlockOnL1`. -/
structure OnNewLastBlockResponse where
  fullRange : BlockRange
  extendedRange : Option BlockRange
  deriving DecidableEq, Repr

namespace SyncStatus

/-- `Reset`: the error ranges are kept. -/
def reset (s : SyncStatus) (lastBlockStoreOnStateDB : ℕ) : SyncStatus :=
  { s with
    lastBlockStoreOnStateDB := lastBlockStoreOnStateDB
    highestBlockRequested := lastBlockStoreOnStateDB
    processingRanges := [] }

/-- `HaveRequiredAllBlocksToBeSynchronized`. -/
def haveRequiredAllBlocksToBeSynchronized (s : SyncStatus) : Bool :=
  decide (s.lastBlockOnL1 ≤ s.highestBlockRequested)

/-- `IsNodeFullySynchronizedWithL1`. -/
def isNodeFullySynchronizedWithL1 (s : SyncStatus) : Bool :=
  if s.lastBlockOnL1 = invalidLastBlock then false
  else decide (s.lastBlockOnL1 ≤ s.highestBlockRequested ∧ s.errorRanges.length = 0 ∧
    s.processingRanges.length = 0)

/-- `getNextRangeOnlyRetriesUnsafe`: the first error range, unless it runs
to the latest block; such a range is dropped. -/
def getNextRangeOnlyRetries (s : SyncStatus) : Option BlockRange × SyncStatus :=
  match getFirstBlockRange s.errorRanges with
  | .error _ => (none, s)
  | .ok br =>
    if br.toBlock = latestBlockNumber then
      -- a failed removal is only logged
      match removeBlockRange s.errorRanges br with
      | .ok errorRanges => (none, { s with errorRanges := errorRanges })
      | .error _ => (none, s)
    else (some br, s)

/-- `getHighestBlockRequestedUnsafe`: the highest end of a live range, or
`invalidBlockNumber`. -/
def getHighestBlockRequested (s : SyncStatus) : ℕ :=
  (s.processingRanges ++ s.errorRanges).foldl
    (fun res r => if r.toBlock > res then r.toBlock else res) invalidBlockNumber

/-- `GetNextRange`: a retry, else a new range after the last block stored
and every live range. -/
def getNextRange (s : SyncStatus) : Except RangeError (Option BlockRange × SyncStatus) :=
  match s.getNextRangeOnlyRetries with
  | (some br, s) => .ok (some br, s)
  | (none, s) =>
    if s.lastBlockOnL1 = invalidLastBlock then .ok (none, s)
    else if s.lastBlockOnL1 ≤ s.highestBlockRequested then .ok (none, s)
    else if s.getHighestBlockRequested = latestBlockNumber then .ok (none, s)
    else
      let br := getNextBlockRangeFrom (max s.lastBlockStoreOnStateDB s.getHighestBlockRequested)
        s.lastBlockOnL1 s.amountOfBlocksInEachRange
      match br.isValid with
      | .error e => .error e
      | .ok () => .ok (some br, s)

/-- `OnStartedNewWorker`: the range leaves the error list, if it is there,
and joins the live ones. -/
def onStartedNewWorker (s : SyncStatus) (br : BlockRange) : Except RangeError SyncStatus :=
  let errorRanges :=
    match removeBlockRange s.errorRanges br with
    | .ok errorRanges => errorRanges
    | .error _ => s.errorRanges
  match addBlockRange s.processingRanges br with
  | .error e => .error e
  | .ok processingRanges =>
    .ok { s with
      errorRanges := errorRanges
      processingRanges := processingRanges
      highestBlockRequested :=
        if br.toBlock = latestBlockNumber then s.lastBlockOnL1
        else if br.toBlock > s.highestBlockRequested then br.toBlock
        else s.highestBlockRequested }

/-- `OnFinishWorker`: a range that is not live is ignored; a failed one
waits for a retry. -/
def onFinishWorker (s : SyncStatus) (br : BlockRange) (successful : Bool)
    (highestBlockNumberInResponse : ℕ) : Except RangeError (Bool × SyncStatus) :=
  match removeBlockRange s.processingRanges br with
  | .error _ => .ok (false, s)
  | .ok processingRanges =>
    let s := { s with processingRanges := processingRanges }
    if successful then
      if highestBlockNumberInResponse ≠ invalidBlockNumber ∧
          highestBlockNumberInResponse > s.lastBlockStoreOnStateDB then
        .ok (true, { s with lastBlockStoreOnStateDB := highestBlockNumberInResponse })
      else .ok (true, s)
    else
      match addBlockRange s.errorRanges br with
      | .error e => .error e
      | .ok errorRanges => .ok (true, { s with errorRanges := errorRanges })

/-- `OnNewLastBlockOnL1`: the last block on L1 only grows. -/
def onNewLastBlockOnL1 (s : SyncStatus) (lastBlock : ℕ) : OnNewLastBlockResponse × SyncStatus :=
  let fullRange : BlockRange := ⟨s.lastBlockStoreOnStateDB, lastBlock⟩
  if s.lastBlockOnL1 = invalidLastBlock then
    (⟨fullRange, some ⟨s.lastBlockStoreOnStateDB, lastBlock⟩⟩, { s with lastBlockOnL1 := lastBlock })
  else if lastBlock > s.lastBlockOnL1 then
    (⟨fullRange, some ⟨s.lastBlockOnL1 + 1, lastBlock⟩⟩, { s with lastBlockOnL1 := lastBlock })
  else if lastBlock = s.lastBlockOnL1 then (⟨fullRange, none⟩, s)
  else (⟨⟨s.lastBlockStoreOnStateDB, s.lastBlockOnL1⟩, none⟩, s)

end SyncStatus

/-! ## The producer's calls -/

/-- What the producer does with its `syncStatus`. -/
inductive ProducerOp where
  /-- One pass of `launchWork`: `GetNextRange`, or `GetNextRangeOnlyRetries`
  while new requests are held back, and `OnStartedNewWorker` of the range
  when a worker takes it. -/
  | launch (allowNewRequests workerFree : Bool)
  /-- `onResponseRollupInfo`: `OnFinishWorker` of a worker's range. -/
  | finish (br : BlockRange) (successful : Bool) (highestBlockNumberInResponse : ℕ)
  /-- `onNewLastBlock`. -/
  | newLastBlock (lastBlock : ℕ)
  /-- `resetUnsafe`. -/
  | reset (lastBlockStoreOnStateDB : ℕ)
  deriving DecidableEq, Repr

namespace SyncStatus

/-- The range `launchWork` asks for: `GetNextRange`, or
`GetNextRangeOnlyRetries` while new requests are held back. -/
def nextRange (s : SyncStatus) (allowNewRequests : Bool) :
    Except RangeError (Option BlockRange × SyncStatus) :=
  if allowNewRequests then s.getNextRange else pure s.getNextRangeOnlyRetries

/-- One call of the producer; an error is a `log.Fatal`. -/
def step (s : SyncStatus) : ProducerOp → Except RangeError SyncStatus
  | .launch allowNewRequests workerFree => do
    let (br, s) ← s.nextRange allowNewRequests
    match br with
    | some br => if workerFree then s.onStartedNewWorker br else pure s
    | none => pure s
  | .finish br successful highestBlockNumberInResponse => do
    let (_, s) ← s.onFinishWorker br successful highestBlockNumberInResponse
    pure s
  | .newLastBlock lastBlock => pure (s.onNewLastBlockOnL1 lastBlock).2
  | .reset lastBlockStoreOnStateDB => pure (s.reset lastBlockStoreOnStateDB)

/-- A run of the producer's calls. -/
def run (s : SyncStatus) (ops : List ProducerOp) : Except RangeError SyncStatus :=
  ops.foldlM step s

/-- The live ranges: those being fetched, and those to retry. -/
def liveRanges (s : SyncStatus) : List BlockRange := s.processingRanges ++ s.errorRanges

end SyncStatus

/-! ## The highest block requested -/

section Highest

/-- The loop of `getHighestBlockRequestedUnsafe` ends at least as high as it
starts and as every end it passes. -/
theorem le_foldl_highest (l : List BlockRange) (init : ℕ) :
    init ≤ l.foldl (fun res r => if r.toBlock > res then r.toBlock else res) init ∧
      ∀ r ∈ l, r.toBlock ≤ l.foldl (fun res r => if r.toBlock > res then r.toBlock else res) init := by
  induction l generalizing init with
  | nil => simp
  | cons r l ih =>
    obtain ⟨hinit, hall⟩ := ih (if r.toBlock > init then r.toBlock else init)
    refine ⟨?_, ?_⟩
    · rw [List.foldl_cons]
      split_ifs at hinit ⊢ <;> omega
    · intro r' hr'
      rw [List.foldl_cons]
      rcases List.mem_cons.1 hr' with rfl | hr'
      · split_ifs at hinit ⊢ <;> omega
      · exact hall r' hr'

/-- The loop ends at its start or at the end of a range it passes. -/
theorem foldl_highest_mem (l : List BlockRange) (init : ℕ) :
    l.foldl (fun res r => if r.toBlock > res then r.toBlock else res) init = init ∨
      ∃ r ∈ l, l.foldl (fun res r => if r.toBlock > res then r.toBlock else res) init = r.toBlock := by
  induction l generalizing init with
  | nil => exact Or.inl rfl
  | cons r l ih =>
    rw [List.foldl_cons]
    rcases ih (if r.toBlock > init then r.toBlock else init) with h | ⟨r', hr', h⟩
    · rw [h]
      split_ifs
      · exact Or.inr ⟨r, List.mem_cons_self, rfl⟩
      · exact Or.inl rfl
    · exact Or.inr ⟨r', List.mem_cons_of_mem r hr', h⟩

theorem toBlock_le_getHighestBlockRequested {s : SyncStatus} {r : BlockRange}
    (hr : r ∈ s.liveRanges) : r.toBlock ≤ s.getHighestBlockRequested :=
  (le_foldl_highest _ _).2 r hr

end Highest

/-! ## The invariant -/

namespace SyncStatus

/-- **The invariant of the bookkeeping**: the live ranges are valid and
pairwise do not overlap, each ends below `2 ^ 63` or at the latest block,
and the block numbers are below `2 ^ 63`. -/
structure Sound (s : SyncStatus) : Prop where
  noOverlaps : NoOverlaps s.liveRanges
  valid : ∀ r ∈ s.liveRanges, r.Valid
  bounded : ∀ r ∈ s.liveRanges, r.toBlock = latestBlockNumber ∨ r.toBlock < 2 ^ 63
  lastBlockStore_lt : s.lastBlockStoreOnStateDB < 2 ^ 63
  lastBlockOnL1_lt : s.lastBlockOnL1 < 2 ^ 63
  amount_lt : s.amountOfBlocksInEachRange < 2 ^ 63

/-- A range `OnStartedNewWorker` can take: valid and bounded, and either a
retry or clear of every live range. -/
structure Startable (s : SyncStatus) (br : BlockRange) : Prop where
  valid : br.Valid
  bounded : br.toBlock = latestBlockNumber ∨ br.toBlock < 2 ^ 63
  fresh : br ∈ s.errorRanges ∨ ∀ r ∈ s.liveRanges, r.overlaps br = false

/-- Ranges that overlap nothing keep doing so in a sublist, in any order. -/
theorem NoOverlaps.subperm {l l' : List BlockRange} (hl : NoOverlaps l) (h : List.Subperm l' l) :
    NoOverlaps l' := by
  obtain ⟨l₀, hperm, hsub⟩ := h
  exact (hl.sublist hsub).perm hperm fun h => by rw [BlockRange.overlaps_comm]; exact h

/-- A state whose live ranges are some of a sound state's, in any order, is
sound when its block numbers are bounded. -/
theorem Sound.of_subperm {s s' : SyncStatus} (hs : s.Sound)
    (h : List.Subperm s'.liveRanges s.liveRanges)
    (hstore : s'.lastBlockStoreOnStateDB < 2 ^ 63) (hl1 : s'.lastBlockOnL1 < 2 ^ 63)
    (hamount : s'.amountOfBlocksInEachRange < 2 ^ 63) : s'.Sound where
  noOverlaps := NoOverlaps.subperm hs.noOverlaps h
  valid r hr := hs.valid r (List.Subperm.subset h hr)
  bounded r hr := hs.bounded r (List.Subperm.subset h hr)
  lastBlockStore_lt := hstore
  lastBlockOnL1_lt := hl1
  amount_lt := hamount

/-- The highest block requested of a sound state is below `2 ^ 63`, or the
latest block. -/
theorem Sound.getHighestBlockRequested_lt {s : SyncStatus} (hs : s.Sound)
    (h : s.getHighestBlockRequested ≠ latestBlockNumber) : s.getHighestBlockRequested < 2 ^ 63 := by
  rcases foldl_highest_mem s.liveRanges invalidBlockNumber with h0 | ⟨r, hr, hr'⟩
  · rw [getHighestBlockRequested, ← liveRanges, h0, invalidBlockNumber]
    omega
  · rw [getHighestBlockRequested, ← liveRanges, hr'] at h ⊢
    exact (hs.bounded r hr).resolve_left h

end SyncStatus

/-- **The new range is valid and lies after `lastBlockInState`**, for block
numbers and a chunk size below `2 ^ 63`: the `uint64` sums do not wrap. -/
theorem getNextBlockRangeFrom_valid {lastBlockInState lastBlockInL1 amount : ℕ}
    (hstate : lastBlockInState < 2 ^ 63) (hl1 : lastBlockInL1 < 2 ^ 63) (hamount : amount < 2 ^ 63) :
    (getNextBlockRangeFrom lastBlockInState lastBlockInL1 amount).Valid ∧
      ((getNextBlockRangeFrom lastBlockInState lastBlockInL1 amount).toBlock = latestBlockNumber ∨
        (getNextBlockRangeFrom lastBlockInState lastBlockInL1 amount).toBlock < 2 ^ 63) ∧
      lastBlockInState < (getNextBlockRangeFrom lastBlockInState lastBlockInL1 amount).fromBlock := by
  have hfrom : (getNextBlockRangeFrom lastBlockInState lastBlockInL1 amount).fromBlock =
      lastBlockInState + 1 := by
    simp only [getNextBlockRangeFrom]
    exact Nat.mod_eq_of_lt (by omega)
  have hto : (getNextBlockRangeFrom lastBlockInState lastBlockInL1 amount).toBlock =
      if lastBlockInL1 ≤ lastBlockInState + 1 + amount then latestBlockNumber
      else lastBlockInState + 1 + amount := by
    simp only [getNextBlockRangeFrom, Nat.mod_eq_of_lt (show lastBlockInState + 1 < 2 ^ 64 by omega),
      Nat.mod_eq_of_lt (show lastBlockInState + 1 + amount < 2 ^ 64 by omega)]
    split_ifs <;> omega
  unfold latestBlockNumber at hto
  refine ⟨⟨?_, ?_⟩, ?_, ?_⟩
  · rw [hfrom]
    omega
  · rw [hfrom, hto]
    split_ifs <;> omega
  · rw [hto]
    split_ifs
    · exact Or.inl rfl
    · -- the chunk ends before the last block on L1
      exact Or.inr (by omega)
  · rw [hfrom]
    omega

/-! ## Each call keeps the invariant, and reaches no `log.Fatal` -/

namespace SyncStatus

variable {s : SyncStatus}

theorem reset_sound (hs : s.Sound) {n : ℕ} (hn : n < 2 ^ 63) : (s.reset n).Sound :=
  hs.of_subperm (List.Sublist.subperm (by simp [liveRanges, reset])) hn hs.lastBlockOnL1_lt
    hs.amount_lt

theorem onNewLastBlockOnL1_sound (hs : s.Sound) {lastBlock : ℕ} (hlast : lastBlock < 2 ^ 63) :
    (s.onNewLastBlockOnL1 lastBlock).2.Sound := by
  unfold onNewLastBlockOnL1
  split_ifs
  · exact hs.of_subperm ((List.Subperm.refl _)) hs.lastBlockStore_lt hlast hs.amount_lt
  · exact hs.of_subperm ((List.Subperm.refl _)) hs.lastBlockStore_lt hlast hs.amount_lt
  · exact hs
  · exact hs

/-- **`getNextRangeOnlyRetries` returns a range `OnStartedNewWorker` can
take**, and keeps the invariant. -/
theorem getNextRangeOnlyRetries_sound (hs : s.Sound) :
    s.getNextRangeOnlyRetries.2.Sound ∧
      ∀ br, s.getNextRangeOnlyRetries.1 = some br → s.getNextRangeOnlyRetries.2.Startable br := by
  unfold getNextRangeOnlyRetries
  cases herr : s.errorRanges with
  | nil =>
    simp only [getFirstBlockRange]
    exact ⟨hs, fun br h => by cases h⟩
  | cons first rest =>
    have hmem : first ∈ s.liveRanges := by simp [liveRanges, herr]
    simp only [getFirstBlockRange]
    split_ifs with hlatest
    · -- a range up to the latest block is dropped
      rw [removeBlockRange, if_pos List.mem_cons_self]
      refine ⟨hs.of_subperm ?_ hs.lastBlockStore_lt hs.lastBlockOnL1_lt hs.amount_lt,
        fun br h => by cases h⟩
      simp only [liveRanges, herr]
      exact List.Sublist.subperm ((List.erase_sublist).append_left _)
    · refine ⟨hs, fun br h => ?_⟩
      cases h
      exact ⟨hs.valid _ hmem, hs.bounded _ hmem, Or.inl (by simp [herr])⟩

/-- **`GetNextRange` reaches no `log.Fatal`, and returns a range
`OnStartedNewWorker` can take**: a retry, or a new range after every live
one. -/
theorem getNextRange_sound (hs : s.Sound) :
    ∃ r s', s.getNextRange = .ok (r, s') ∧ s'.Sound ∧ ∀ br, r = some br → s'.Startable br := by
  obtain ⟨hs1, hstart⟩ := getNextRangeOnlyRetries_sound hs
  unfold getNextRange
  cases hr : s.getNextRangeOnlyRetries with
  | mk r s1 =>
    rw [hr] at hs1 hstart
    cases r with
    | some br => exact ⟨some br, s1, rfl, hs1, hstart⟩
    | none =>
      dsimp only
      split_ifs with h0 h1 h2
      · exact ⟨none, s1, rfl, hs1, fun br h => by cases h⟩
      · exact ⟨none, s1, rfl, hs1, fun br h => by cases h⟩
      · exact ⟨none, s1, rfl, hs1, fun br h => by cases h⟩
      · -- a new range, after the last block stored and every live range
        dsimp only at *
        have hhigh := hs1.getHighestBlockRequested_lt h2
        obtain ⟨hvalid, hbounded, hafter⟩ := getNextBlockRangeFrom_valid
          (max_lt hs1.lastBlockStore_lt hhigh) hs1.lastBlockOnL1_lt hs1.amount_lt
        rw [BlockRange.isValid_eq_ok_iff.2 hvalid]
        refine ⟨_, s1, rfl, hs1, fun br h => ?_⟩
        cases h
        refine ⟨hvalid, hbounded, Or.inr fun r hr => BlockRange.overlaps_eq_false_of_lt ?_⟩
        have := toBlock_le_getHighestBlockRequested hr
        omega

/-- A range overlaps itself. -/
theorem overlaps_self {br : BlockRange} (h : br.Valid) : br.overlaps br = true := by
  rw [BlockRange.overlaps, decide_eq_true_iff]
  exact ⟨h.le, h.le⟩

/-- **`OnStartedNewWorker` accepts a range it can take**, and keeps the
invariant: a retry moves from the error list to the live ones, a new range
joins them clear of every other. -/
theorem onStartedNewWorker_sound (hs : s.Sound) {br : BlockRange} (hbr : s.Startable br) :
    ∃ s', s.onStartedNewWorker br = .ok s' ∧ s'.Sound := by
  have hpair := List.pairwise_append.1 hs.noOverlaps
  -- the range overlaps no range being fetched
  have hclear : ∀ r ∈ s.processingRanges, r.overlaps br = false := by
    rcases hbr.fresh with herr | hall
    · exact fun r hr => hpair.2.2 r hr br herr
    · exact fun r hr => hall r (List.mem_append_left _ hr)
  have hadd : addBlockRange s.processingRanges br = .ok (s.processingRanges ++ [br]) :=
    addBlockRange_eq_ok_iff.2 ⟨hbr.valid, hclear, rfl⟩
  unfold onStartedNewWorker
  rw [hadd]
  refine ⟨_, rfl, ?_⟩
  rcases hbr.fresh with herr | hall
  · -- a retry: the live ranges are the same, in another order
    rw [show removeBlockRange s.errorRanges br = .ok (s.errorRanges.erase br) from
      removeBlockRange_eq_ok_iff.2 ⟨herr, rfl⟩]
    refine hs.of_subperm ?_ hs.lastBlockStore_lt hs.lastBlockOnL1_lt hs.amount_lt
    refine (List.Perm.subperm ?_)
    simp only [liveRanges, List.append_assoc, List.singleton_append]
    exact List.Perm.append_left _ (List.perm_cons_erase herr).symm
  · -- a new range: it is not among the error ranges, since it overlaps itself
    have hnot : br ∉ s.errorRanges := fun h => by
      have := hall br (List.mem_append_right _ h)
      rw [overlaps_self hbr.valid] at this
      cases this
    rw [show removeBlockRange s.errorRanges br = .error .notFound by
      rw [removeBlockRange, if_neg hnot]]
    dsimp only
    have hperm : List.Perm ((s.processingRanges ++ [br]) ++ s.errorRanges) (br :: s.liveRanges) := by
      rw [liveRanges, List.append_assoc, List.singleton_append]
      exact List.perm_middle
    refine ⟨?_, ?_, ?_, hs.lastBlockStore_lt, hs.lastBlockOnL1_lt, hs.amount_lt⟩
    · have : NoOverlaps (br :: s.liveRanges) := by
        refine List.Pairwise.cons (fun r hr => ?_) hs.noOverlaps
        rw [BlockRange.overlaps_comm]
        exact hall r hr
      exact NoOverlaps.subperm this (List.Perm.subperm hperm)
    · intro r hr
      rcases List.mem_cons.1 (List.Perm.subset hperm hr) with rfl | hr
      · exact hbr.valid
      · exact hs.valid r hr
    · intro r hr
      rcases List.mem_cons.1 (List.Perm.subset hperm hr) with rfl | hr
      · exact hbr.bounded
      · exact hs.bounded r hr

/-- **`OnFinishWorker` reaches no `log.Fatal`** and keeps the invariant: a
failed range moves from the live ones being fetched to the error list. -/
theorem onFinishWorker_sound (hs : s.Sound) (br : BlockRange) (successful : Bool)
    {highestBlockNumberInResponse : ℕ} (hhigh : highestBlockNumberInResponse < 2 ^ 63) :
    ∃ r s', s.onFinishWorker br successful highestBlockNumberInResponse = .ok (r, s') ∧ s'.Sound := by
  unfold onFinishWorker
  by_cases hmem : br ∈ s.processingRanges
  · rw [show removeBlockRange s.processingRanges br = .ok (s.processingRanges.erase br) from
      removeBlockRange_eq_ok_iff.2 ⟨hmem, rfl⟩]
    dsimp only
    have hsub : List.Subperm ((s.processingRanges.erase br) ++ s.errorRanges) s.liveRanges :=
      List.Sublist.subperm ((List.erase_sublist).append_right _)
    cases successful with
    | true =>
      rw [if_pos rfl]
      split_ifs with hnew
      · exact ⟨_, _, rfl, hs.of_subperm hsub hhigh hs.lastBlockOnL1_lt hs.amount_lt⟩
      · exact ⟨_, _, rfl, hs.of_subperm hsub hs.lastBlockStore_lt hs.lastBlockOnL1_lt hs.amount_lt⟩
    | false =>
      -- the failed range overlaps no error range
      have hclear : ∀ r ∈ s.errorRanges, r.overlaps br = false := fun r hr => by
        rw [BlockRange.overlaps_comm]
        exact (List.pairwise_append.1 hs.noOverlaps).2.2 br hmem r hr
      have hvalid := hs.valid br (List.mem_append_left _ hmem)
      rw [show addBlockRange s.errorRanges br = .ok (s.errorRanges ++ [br]) from
        addBlockRange_eq_ok_iff.2 ⟨hvalid, hclear, rfl⟩]
      refine ⟨_, _, rfl, hs.of_subperm ?_ hs.lastBlockStore_lt hs.lastBlockOnL1_lt hs.amount_lt⟩
      refine (List.Perm.subperm ?_)
      simp only [liveRanges]
      have h1 : List.Perm (s.processingRanges.erase br ++ (s.errorRanges ++ [br]))
          (br :: (s.processingRanges.erase br ++ s.errorRanges)) := by
        rw [← List.append_assoc]
        exact List.perm_append_singleton _ _
      have h2 : List.Perm (br :: (s.processingRanges.erase br ++ s.errorRanges))
          (s.processingRanges ++ s.errorRanges) := by
        rw [← List.cons_append]
        exact (List.perm_cons_erase hmem).symm.append_right _
      exact h1.trans h2
  · rw [removeBlockRange, if_neg hmem]
    exact ⟨_, _, rfl, hs⟩

end SyncStatus

/-! ## Runs -/

/-- Block numbers below `2 ^ 63` in a call of the producer. -/
def ProducerOp.Bounded : ProducerOp → Prop
  | .launch _ _ => True
  | .finish _ _ highestBlockNumberInResponse => highestBlockNumberInResponse < 2 ^ 63
  | .newLastBlock lastBlock => lastBlock < 2 ^ 63
  | .reset lastBlockStoreOnStateDB => lastBlockStoreOnStateDB < 2 ^ 63

namespace SyncStatus

variable {s : SyncStatus}

/-- **One call keeps the invariant, and reaches no `log.Fatal`.** -/
theorem step_sound (hs : s.Sound) {op : ProducerOp} (hop : op.Bounded) :
    ∃ s', s.step op = .ok s' ∧ s'.Sound := by
  cases op with
  | launch allowNewRequests workerFree =>
    -- the range asked for, and the state after asking
    obtain ⟨r, s1, hget, hs1, hstart⟩ : ∃ r s1, s.nextRange allowNewRequests = .ok (r, s1) ∧
        s1.Sound ∧ ∀ br, r = some br → s1.Startable br := by
      cases allowNewRequests with
      | true => exact getNextRange_sound hs
      | false =>
        obtain ⟨hs1, hstart⟩ := getNextRangeOnlyRetries_sound hs
        exact ⟨_, _, rfl, hs1, hstart⟩
    simp only [step]
    rw [hget]
    cases r with
    | none => exact ⟨s1, rfl, hs1⟩
    | some br =>
      cases workerFree with
      | true =>
        obtain ⟨s2, h2, hs2⟩ := onStartedNewWorker_sound hs1 (hstart br rfl)
        exact ⟨s2, h2, hs2⟩
      | false => exact ⟨s1, rfl, hs1⟩
  | finish br successful highestBlockNumberInResponse =>
    obtain ⟨r, s', h, hs'⟩ := onFinishWorker_sound hs br successful hop
    refine ⟨s', ?_, hs'⟩
    simp only [step]
    rw [h]
    rfl
  | newLastBlock lastBlock => exact ⟨_, rfl, onNewLastBlockOnL1_sound hs hop⟩
  | reset lastBlockStoreOnStateDB => exact ⟨_, rfl, reset_sound hs hop⟩

/-- **A whole run keeps the invariant, and reaches no `log.Fatal`.** -/
theorem run_sound (ops : List ProducerOp) :
    ∀ {s : SyncStatus}, s.Sound → (∀ op ∈ ops, op.Bounded) → ∃ s', s.run ops = .ok s' ∧ s'.Sound := by
  induction ops with
  | nil => exact fun hs _ => ⟨_, rfl, hs⟩
  | cons op ops ih =>
    intro s hs hops
    obtain ⟨s1, h1, hs1⟩ := step_sound hs (hops op List.mem_cons_self)
    obtain ⟨s2, h2, hs2⟩ := ih hs1 fun o ho => hops o (List.mem_cons_of_mem _ ho)
    refine ⟨s2, ?_, hs2⟩
    rw [run, List.foldlM_cons, h1]
    exact h2

/-- The live ranges of a sound state are pairwise disjoint sets of blocks. -/
theorem Sound.pairwise_disjoint (hs : s.Sound) :
    s.liveRanges.Pairwise fun a b => Disjoint a.blocks b.blocks :=
  hs.noOverlaps.pairwise_disjoint hs.valid

end SyncStatus

theorem newSyncStatus_sound {lastBlockStoreOnStateDB amount : ℕ}
    (hstore : lastBlockStoreOnStateDB < 2 ^ 63) (hamount : amount < 2 ^ 63) :
    (newSyncStatus lastBlockStoreOnStateDB amount).Sound where
  noOverlaps := List.Pairwise.nil
  valid := by simp [SyncStatus.liveRanges, newSyncStatus]
  bounded := by simp [SyncStatus.liveRanges, newSyncStatus]
  lastBlockStore_lt := hstore
  lastBlockOnL1_lt := by simp [newSyncStatus, invalidLastBlock]
  amount_lt := hamount

/-- **No run of the producer reaches a `log.Fatal`, and its live ranges stay
pairwise disjoint.** From `newSyncStatus`, over any calls with block
numbers and a chunk size below `2 ^ 63`, every range `GetNextRange` or
`GetNextRangeOnlyRetries` returns is accepted by `OnStartedNewWorker`,
every failed range by the error list, and the ranges being fetched and
those to retry are pairwise disjoint sets of blocks. -/
theorem run_newSyncStatus_disjoint {lastBlockStoreOnStateDB amount : ℕ}
    (hstore : lastBlockStoreOnStateDB < 2 ^ 63) (hamount : amount < 2 ^ 63)
    (ops : List ProducerOp) (hops : ∀ op ∈ ops, op.Bounded) :
    ∃ s, (newSyncStatus lastBlockStoreOnStateDB amount).run ops = .ok s ∧
      (s.processingRanges ++ s.errorRanges).Pairwise fun a b => Disjoint a.blocks b.blocks := by
  obtain ⟨s, hrun, hs⟩ := SyncStatus.run_sound ops (newSyncStatus_sound hstore hamount) hops
  exact ⟨s, hrun, hs.pairwise_disjoint⟩

/-- The calls of a run that loses a range: the last block on L1 becomes
`105`, the range from `101` to the latest block is started and fails, and
the producer asks for the next range. -/
def droppedRangeRun : List ProducerOp :=
  [.newLastBlock 105, .launch true true, .finish ⟨101, latestBlockNumber⟩ false 0,
    .launch true true]

/-- `run_newSyncStatus_disjoint` on `droppedRangeRun`. -/
theorem run_newSyncStatus_disjoint_droppedRangeRun :
    (100 : ℕ) < 2 ^ 63 ∧ (10 : ℕ) < 2 ^ 63 ∧ (∀ op ∈ droppedRangeRun, op.Bounded) ∧
      ∃ s, (newSyncStatus 100 10).run droppedRangeRun = .ok s ∧
        (s.processingRanges ++ s.errorRanges).Pairwise fun a b => Disjoint a.blocks b.blocks :=
  ⟨by decide, by decide, by simp [droppedRangeRun, ProducerOp.Bounded],
    run_newSyncStatus_disjoint (by decide) (by decide) droppedRangeRun
      (by simp [droppedRangeRun, ProducerOp.Bounded])⟩

/-- **A failed range up to the latest block is dropped, and the node reports
itself synchronized.** From the last block stored `100`, with chunks of
`10`: the range from `101` to the latest block is started, which sets
`highestBlockRequested` to `105`, and fails; the next `GetNextRange`
discards it from the error list and asks for nothing more, since `105` is
requested. No range is live, and `IsNodeFullySynchronizedWithL1` holds,
though the blocks `101` to `105` lie in no range being fetched, none to
retry, and none fetched: the one range finished failed. -/
theorem isNodeFullySynchronizedWithL1_after_dropped_range :
    (newSyncStatus 100 10).run droppedRangeRun = .ok ⟨100, 105, 105, 10, [], []⟩ ∧
      SyncStatus.isNodeFullySynchronizedWithL1 ⟨100, 105, 105, 10, [], []⟩ = true :=
  ⟨rfl, rfl⟩

end Synchronizer

end XLayerNode
