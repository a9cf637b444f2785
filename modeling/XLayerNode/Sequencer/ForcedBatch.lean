import Mathlib.Data.List.Perm.Basic
import Mathlib.Data.Nat.Basic
/-!
# Forced batches in the finalizer

`checkForcedBatches` polls the state for the forced batches L1 has made
final, appends each to `nextForcedBatches`, sorts the list by number and
moves `lastForcedBatchNum` on to it. `processForcedBatches` then walks the
list with a cursor of its own, the number the next forced batch must have:
an entry below the cursor was processed already and is skipped; one above
it means a gap, and the missing forced batch is fetched from the state and
processed in the entry's place. Each forced batch is executed in a new L2
batch after the last one, and the list is cleared once the walk is through;
a failed call returns at once and keeps the list.

The walk processes one forced batch per entry, the cursor's
(`processForcedBatchesLoop_run`): on a sorted list above the last trusted
forced batch it processes the next `n` forced batches for `n` entries,
whatever numbers the entries carry. So a gap costs the forced batches at
the top of the list: they are neither processed nor kept
(`processForcedBatches_drops_after_gap`). Each is also executed with the
fork id of the batch before its own.
-/

namespace XLayerNode

namespace Sequencer

/-- `state.ForcedBatch`, the fields the finalizer reads. -/
structure ForcedBatch where
  forcedBatchNumber : ℕ
  blockNumber : ℕ
  globalExitRoot : ℕ
  rawTxsData : List UInt8
  forcedAt : ℕ
  deriving DecidableEq, Repr

/-- `state.ProcessRequest` of a forced batch, the fields `processForcedBatch`
sets from the forced batch and the state. -/
structure ProcessRequest where
  batchNumber : ℕ
  l1InfoRoot : ℕ
  forcedBlockHashL1 : ℕ
  oldStateRoot : ℕ
  transactions : List UInt8
  timestampLimit : ℕ
  forkID : ℕ
  deriving DecidableEq, Repr

/-- What the finalizer reads from the state and the executor while it
processes forced batches. -/
structure ForcedBatchState where
  /-- `GetLastTrustedForcedBatchNumber`, or `none` when it fails. -/
  lastTrustedForcedBatchNumber : Option ℕ
  /-- `GetForcedBatch`. -/
  getForcedBatch : ℕ → Option ForcedBatch
  /-- The parent hash of the L1 block `GetBlockByNumber` returns. -/
  blockParentHash : ℕ → Option ℕ
  getForkIDByBatchNumber : ℕ → ℕ
  /-- The rest of `processForcedBatch`'s db transaction, `OpenBatch`,
  `ProcessBatchV2`, `CloseBatch`, the L2 blocks and the commit: the new
  state root, or `none` when a step fails and it is rolled back. -/
  processBatch : ProcessRequest → Option ℕ

/-- `fb[i], fb[j] = fb[j], fb[i]` when `fb[i]` has the higher number. -/
def sortSwap (i j : ℕ) (fb : List ForcedBatch) : List ForcedBatch :=
  match fb[i]?, fb[j]? with
  | some a, some b => if a.forcedBatchNumber > b.forcedBatchNumber then fb.swap i j else fb
  | _, _ => fb

/-- `sortForcedBatches`: for each `i` below the last index, and each later
`j`, `fb[i]` and `fb[j]` are swapped when out of order. -/
def sortForcedBatches (fb : List ForcedBatch) : List ForcedBatch :=
  if fb.length = 0 then fb
  else
    (List.range (fb.length - 1)).foldl (fun fb' i =>
      (List.range' (i + 1) (fb.length - (i + 1))).foldl (fun fb'' j => sortSwap i j fb'') fb') fb

namespace ForcedBatchState

/-- One pass of `checkForcedBatches`' loop, with the forced batches
`GetForcedBatchesSince` returns above a number (and final on L1), or
`none` when a query fails and the pass ends. While `lastForcedBatchNum` is
`0` it is first set from the last trusted forced batch; then each forced
batch returned is appended, the list sorted, and its number becomes
`lastForcedBatchNum`. -/
def checkForcedBatches (st : ForcedBatchState) (getForcedBatchesSince : ℕ → Option (List ForcedBatch))
    (lastForcedBatchNum : ℕ) (nextForcedBatches : List ForcedBatch) : ℕ × List ForcedBatch :=
  let lastForcedBatchNum? : Option ℕ :=
    if lastForcedBatchNum = 0 then
      st.lastTrustedForcedBatchNumber.map fun n => if n > 0 then n else lastForcedBatchNum
    else some lastForcedBatchNum
  match lastForcedBatchNum? with
  | none => (lastForcedBatchNum, nextForcedBatches)
  | some lastForcedBatchNum =>
    match getForcedBatchesSince lastForcedBatchNum with
    | none => (lastForcedBatchNum, nextForcedBatches)
    | some forcedBatches =>
      forcedBatches.foldl (fun (_, next) forcedBatch =>
          (forcedBatch.forcedBatchNumber, sortForcedBatches (next ++ [forcedBatch])))
        (lastForcedBatchNum, nextForcedBatches)

/-- `processForcedBatch`: the forced batch executed in the batch after
`lastBatchNumber`, on `stateRoot`; the request and the new state root. -/
def processForcedBatch (st : ForcedBatchState) (forcedBatch : ForcedBatch)
    (lastBatchNumber stateRoot : ℕ) : Option (ProcessRequest × ℕ) := do
  let parentHash ← st.blockParentHash forcedBatch.blockNumber
  let newBatchNumber := lastBatchNumber + 1
  let batchRequest : ProcessRequest :=
    { batchNumber := newBatchNumber
      l1InfoRoot := forcedBatch.globalExitRoot
      forcedBlockHashL1 := parentHash
      oldStateRoot := stateRoot
      transactions := forcedBatch.rawTxsData
      timestampLimit := forcedBatch.forcedAt
      forkID := st.getForkIDByBatchNumber lastBatchNumber }
  let newStateRoot ← st.processBatch batchRequest
  pure (batchRequest, newStateRoot)

/-- What `processForcedBatches` leaves: the last batch number and state
root it returns, the forced batches it processed with their requests, in
order, and `nextForcedBatches`. -/
structure Run where
  lastBatchNumber : ℕ
  stateRoot : ℕ
  processed : List (ForcedBatch × ProcessRequest)
  nextForcedBatches : List ForcedBatch
  deriving DecidableEq, Repr

/-- The loop of `processForcedBatches` over `nextForcedBatches`, with the
cursor `nextForcedBatchNumber`. An error returns at once, with
`nextForcedBatches` as it was. -/
def processForcedBatchesLoop (st : ForcedBatchState) (nextForcedBatches : List ForcedBatch) :
    List ForcedBatch → ℕ → ℕ → ℕ → List (ForcedBatch × ProcessRequest) → Run
  | [], _, lastBatchNumber, stateRoot, processed => ⟨lastBatchNumber, stateRoot, processed, []⟩
  | forcedBatch :: rest, nextForcedBatchNumber, lastBatchNumber, stateRoot, processed =>
    -- an entry below the cursor was processed already
    if forcedBatch.forcedBatchNumber < nextForcedBatchNumber then
      processForcedBatchesLoop st nextForcedBatches rest nextForcedBatchNumber lastBatchNumber
        stateRoot processed
    else
      -- a gap: the missing forced batch is processed in the entry's place
      let forcedBatchToProcess :=
        if forcedBatch.forcedBatchNumber > nextForcedBatchNumber then
          st.getForcedBatch nextForcedBatchNumber
        else some forcedBatch
      match forcedBatchToProcess with
      | none => ⟨lastBatchNumber, stateRoot, processed, nextForcedBatches⟩
      | some forcedBatchToProcess =>
        match st.processForcedBatch forcedBatchToProcess lastBatchNumber stateRoot with
        | none => ⟨lastBatchNumber, stateRoot, processed, nextForcedBatches⟩
        | some (request, newStateRoot) =>
          processForcedBatchesLoop st nextForcedBatches rest (nextForcedBatchNumber + 1)
            request.batchNumber newStateRoot (processed ++ [(forcedBatchToProcess, request)])

/-- `processForcedBatches`: the walk from the forced batch after the last
trusted one. -/
def processForcedBatches (st : ForcedBatchState) (nextForcedBatches : List ForcedBatch)
    (lastBatchNumber stateRoot : ℕ) : Run :=
  match st.lastTrustedForcedBatchNumber with
  | none => ⟨lastBatchNumber, stateRoot, [], nextForcedBatches⟩
  | some lastForcedBatchNumber =>
    st.processForcedBatchesLoop nextForcedBatches nextForcedBatches (lastForcedBatchNumber + 1)
      lastBatchNumber stateRoot []

/-! ## What one call does -/

variable {st : ForcedBatchState}

/-- **`processForcedBatch` runs the forced batch in the next batch**, with
the fork id of `lastBatchNumber`. -/
theorem processForcedBatch_eq_some {forcedBatch : ForcedBatch} {lastBatchNumber stateRoot : ℕ}
    {request : ProcessRequest} {newStateRoot : ℕ}
    (h : st.processForcedBatch forcedBatch lastBatchNumber stateRoot = some (request, newStateRoot)) :
    request.batchNumber = lastBatchNumber + 1 ∧ request.oldStateRoot = stateRoot ∧
      request.transactions = forcedBatch.rawTxsData ∧
      request.forkID = st.getForkIDByBatchNumber lastBatchNumber ∧
      st.processBatch request = some newStateRoot := by
  simp only [processForcedBatch, Option.bind_eq_bind, Option.bind_eq_some_iff, Option.pure_def,
    Option.some.injEq, Prod.mk.injEq] at h
  obtain ⟨parentHash, -, newStateRoot', hroot, rfl, rfl⟩ := h
  exact ⟨rfl, rfl, rfl, rfl, hroot⟩

/-! ## The walk -/

/-- **The walk processes one forced batch per entry, the cursor's.** On
entries sorted by number, none below the cursor, with every call
succeeding and the state holding the forced batches from the cursor on,
the walk processes the forced batches `next, next + 1, …`, one per entry,
in the batches after `lastBatchNumber`, and clears the list. -/
theorem processForcedBatchesLoop_run
    (hok : ∀ forcedBatch lastBatchNumber stateRoot,
      (st.processForcedBatch forcedBatch lastBatchNumber stateRoot).isSome)
    (nextForcedBatches : List ForcedBatch) :
    ∀ (entries : List ForcedBatch) (next lastBatchNumber stateRoot : ℕ)
      (processed : List (ForcedBatch × ProcessRequest)),
      entries.Pairwise (fun a b => a.forcedBatchNumber < b.forcedBatchNumber) →
      (∀ e ∈ entries, next ≤ e.forcedBatchNumber) →
      (∀ k, next ≤ k → k < next + entries.length →
        ∃ forcedBatch, st.getForcedBatch k = some forcedBatch ∧ forcedBatch.forcedBatchNumber = k) →
      ∃ done stateRoot', st.processForcedBatchesLoop nextForcedBatches entries next lastBatchNumber
          stateRoot processed = ⟨lastBatchNumber + entries.length, stateRoot', processed ++ done, []⟩ ∧
        done.map (·.1.forcedBatchNumber) = List.range' next entries.length ∧
        done.map (·.2.batchNumber) = List.range' (lastBatchNumber + 1) entries.length ∧
        ∀ q ∈ done, q.2.forkID = st.getForkIDByBatchNumber (q.2.batchNumber - 1)
  | [], next, lastBatchNumber, stateRoot, processed, _, _, _ =>
    ⟨[], stateRoot, by simp [processForcedBatchesLoop], rfl, rfl, by simp⟩
  | e :: rest, next, lastBatchNumber, stateRoot, processed, hsorted, habove, hstate => by
    obtain ⟨hfirst, hrest⟩ := List.pairwise_cons.1 hsorted
    have he : next ≤ e.forcedBatchNumber := habove e List.mem_cons_self
    -- the forced batch processed for this entry is the cursor's
    obtain ⟨toProcess, htoProcess, hnum⟩ : ∃ toProcess,
        (if e.forcedBatchNumber > next then st.getForcedBatch next else some e) = some toProcess ∧
          toProcess.forcedBatchNumber = next := by
      by_cases hgap : e.forcedBatchNumber > next
      · rw [if_pos hgap]
        exact hstate next le_rfl (by simp)
      · rw [if_neg hgap]
        exact ⟨e, rfl, by omega⟩
    obtain ⟨⟨request, newStateRoot⟩, hprocess⟩ := Option.isSome_iff_exists.1
      (hok toProcess lastBatchNumber stateRoot)
    obtain ⟨hbatch, -, -, hfork, -⟩ := processForcedBatch_eq_some hprocess
    obtain ⟨done, stateRoot', hloop, hnums, hbatches, hforks⟩ :=
      processForcedBatchesLoop_run hok nextForcedBatches rest (next + 1) request.batchNumber
        newStateRoot (processed ++ [(toProcess, request)]) hrest
        (fun x hx => Nat.succ_le_of_lt (lt_of_le_of_lt he (hfirst x hx)))
        (fun k hk hk' => hstate k (by omega) (by simp; omega))
    refine ⟨(toProcess, request) :: done, stateRoot', ?_, ?_, ?_, ?_⟩
    · rw [processForcedBatchesLoop, if_neg (by omega)]
      dsimp only
      rw [htoProcess]
      dsimp only
      rw [hprocess]
      dsimp only
      rw [hloop, hbatch]
      simp [Nat.add_assoc, Nat.add_comm 1]
    · simp [hnums, hnum, List.range'_succ]
    · rw [hbatch] at hbatches
      simp [hbatches, hbatch, List.range'_succ]
    · intro q hq
      rcases List.mem_cons.1 hq with rfl | hq
      · simp [hfork, hbatch]
      · exact hforks q hq

/-- **`processForcedBatches` on a sorted list above the last trusted forced
batch** processes the next forced batches after it, one per entry, in the
batches after `lastBatchNumber`, each with the fork id of the batch before
its own, and clears the list, when every call succeeds and the state holds
those forced batches. -/
theorem processForcedBatches_run {L : ℕ} (hL : st.lastTrustedForcedBatchNumber = some L)
    (hok : ∀ forcedBatch lastBatchNumber stateRoot,
      (st.processForcedBatch forcedBatch lastBatchNumber stateRoot).isSome)
    (entries : List ForcedBatch)
    (hsorted : entries.Pairwise fun a b => a.forcedBatchNumber < b.forcedBatchNumber)
    (habove : ∀ e ∈ entries, L < e.forcedBatchNumber)
    (hstate : ∀ k, L < k → k ≤ L + entries.length →
      ∃ forcedBatch, st.getForcedBatch k = some forcedBatch ∧ forcedBatch.forcedBatchNumber = k)
    (lastBatchNumber stateRoot : ℕ) :
    (st.processForcedBatches entries lastBatchNumber stateRoot).nextForcedBatches = [] ∧
      (st.processForcedBatches entries lastBatchNumber stateRoot).processed.map
        (·.1.forcedBatchNumber) = List.range' (L + 1) entries.length ∧
      (st.processForcedBatches entries lastBatchNumber stateRoot).processed.map
        (·.2.batchNumber) = List.range' (lastBatchNumber + 1) entries.length ∧
      ∀ q ∈ (st.processForcedBatches entries lastBatchNumber stateRoot).processed,
        q.2.forkID = st.getForkIDByBatchNumber (q.2.batchNumber - 1) := by
  obtain ⟨done, stateRoot', hloop, hnums, hbatches, hforks⟩ :=
    processForcedBatchesLoop_run hok entries entries (L + 1) lastBatchNumber stateRoot [] hsorted
      habove fun k hk hk' => hstate k hk (by omega)
  rw [processForcedBatches, hL]
  dsimp only
  rw [hloop, List.nil_append]
  exact ⟨rfl, hnums, hbatches, hforks⟩

/-- **A failed call keeps the list**: the walk either goes through and
clears `nextForcedBatches`, or returns with it as it was. -/
theorem processForcedBatchesLoop_nextForcedBatches (nextForcedBatches : List ForcedBatch) :
    ∀ (entries : List ForcedBatch) (next lastBatchNumber stateRoot : ℕ)
      (processed : List (ForcedBatch × ProcessRequest)),
      (st.processForcedBatchesLoop nextForcedBatches entries next lastBatchNumber stateRoot
          processed).nextForcedBatches = [] ∨
        (st.processForcedBatchesLoop nextForcedBatches entries next lastBatchNumber stateRoot
          processed).nextForcedBatches = nextForcedBatches
  | [], _, _, _, _ => .inl rfl
  | e :: rest, next, lastBatchNumber, stateRoot, processed => by
    rw [processForcedBatchesLoop]
    by_cases hskip : e.forcedBatchNumber < next
    · rw [if_pos hskip]
      exact processForcedBatchesLoop_nextForcedBatches nextForcedBatches rest _ _ _ _
    rw [if_neg hskip]
    dsimp only
    -- a failed fetch or call returns with the list as it was
    cases (if e.forcedBatchNumber > next then st.getForcedBatch next else some e) with
    | none => exact .inr rfl
    | some toProcess =>
      dsimp only
      cases st.processForcedBatch toProcess lastBatchNumber stateRoot with
      | none => exact .inr rfl
      | some r => exact processForcedBatchesLoop_nextForcedBatches nextForcedBatches rest _ _ _ _

/-! ## `checkForcedBatches` -/

theorem sortSwap_perm (i j : ℕ) (fb : List ForcedBatch) : (sortSwap i j fb).Perm fb := by
  unfold sortSwap
  split
  · split_ifs
    · exact List.swap_perm fb i j
    · exact List.Perm.refl fb
  · exact List.Perm.refl fb

/-- `sortForcedBatches` only swaps entries. -/
theorem sortForcedBatches_perm (fb : List ForcedBatch) : (sortForcedBatches fb).Perm fb := by
  have hinner : ∀ (i : ℕ) (js : List ℕ) (l : List ForcedBatch),
      (js.foldl (fun l j => sortSwap i j l) l).Perm l := by
    intro i js
    induction js with
    | nil => exact fun l => List.Perm.refl l
    | cons j js ih => exact fun l => (ih _).trans (sortSwap_perm i j l)
  have houter : ∀ (is : List ℕ) (l : List ForcedBatch),
      (is.foldl (fun l i =>
        (List.range' (i + 1) (fb.length - (i + 1))).foldl (fun l j => sortSwap i j l) l) l).Perm l := by
    intro is
    induction is with
    | nil => exact fun l => List.Perm.refl l
    | cons i is ih => exact fun l => (ih _).trans (hinner i _ l)
  unfold sortForcedBatches
  split_ifs
  · exact List.Perm.refl fb
  · exact houter _ fb

section Check

variable {getForcedBatchesSince : ℕ → Option (List ForcedBatch)}
  (hsince : ∀ since forcedBatches, getForcedBatchesSince since = some forcedBatches →
    ∀ fb ∈ forcedBatches, since < fb.forcedBatchNumber)
include hsince

/-- The appending loop of `checkForcedBatches`, from `since`. -/
theorem foldl_checkForcedBatches {since : ℕ} {forcedBatches : List ForcedBatch}
    (hquery : getForcedBatchesSince since = some forcedBatches) :
    ∀ (fbs : List ForcedBatch), (∀ fb ∈ fbs, fb ∈ forcedBatches) → ∀ (last : ℕ) (next : List ForcedBatch),
      since ≤ last →
      since ≤ (fbs.foldl (fun (_, next) forcedBatch =>
        (forcedBatch.forcedBatchNumber, sortForcedBatches (next ++ [forcedBatch]))) (last, next)).1 ∧
      ∀ fb ∈ (fbs.foldl (fun (_, next) forcedBatch =>
        (forcedBatch.forcedBatchNumber, sortForcedBatches (next ++ [forcedBatch]))) (last, next)).2,
        fb ∈ next ∨ since < fb.forcedBatchNumber
  | [], _, _, _, hlast => ⟨hlast, fun fb hfb => .inl hfb⟩
  | fb :: rest, hsub, _, next, _ => by
    have habove := hsince since forcedBatches hquery fb (hsub fb List.mem_cons_self)
    obtain ⟨hlast', hmem⟩ := foldl_checkForcedBatches hquery rest
      (fun x hx => hsub x (List.mem_cons_of_mem fb hx)) fb.forcedBatchNumber
      (sortForcedBatches (next ++ [fb])) (Nat.le_of_lt habove)
    refine ⟨hlast', fun x hx => ?_⟩
    rcases hmem x hx with hx | hx
    · rcases List.mem_append.1 ((sortForcedBatches_perm _).mem_iff.1 hx) with hx | hx
      · exact .inl hx
      · rw [List.mem_singleton.1 hx]
        exact .inr habove
    · exact .inr hx

/-- **`checkForcedBatches` never moves `lastForcedBatchNum` back, and only
appends forced batches above it**, when the query returns forced batches
above the number asked for. So a forced batch at or below
`lastForcedBatchNum` is never fetched again. -/
theorem checkForcedBatches_spec (st : ForcedBatchState) (last : ℕ) (next : List ForcedBatch) :
    last ≤ (st.checkForcedBatches getForcedBatchesSince last next).1 ∧
      ∀ fb ∈ (st.checkForcedBatches getForcedBatchesSince last next).2,
        fb ∈ next ∨ last < fb.forcedBatchNumber := by
  -- the number asked for is at least `last`
  obtain ⟨since, hsince', hlast⟩ : ∃ since,
      (if last = 0 then st.lastTrustedForcedBatchNumber.map fun n => if n > 0 then n else last
        else some last) = since ∧ ∀ s ∈ since, last ≤ s := by
    refine ⟨_, rfl, fun s hs => ?_⟩
    split_ifs at hs with h0
    · omega
    · rw [Option.mem_some_iff] at hs
      omega
  unfold checkForcedBatches
  dsimp only
  rw [hsince']
  cases since with
  | none => exact ⟨le_rfl, fun fb hfb => .inl hfb⟩
  | some since =>
    have hle := hlast since rfl
    dsimp only
    cases hquery : getForcedBatchesSince since with
    | none => exact ⟨hle, fun fb hfb => .inl hfb⟩
    | some forcedBatches =>
      obtain ⟨h1, h2⟩ := foldl_checkForcedBatches hsince hquery forcedBatches (fun _ h => h) since
        next le_rfl
      exact ⟨le_trans hle h1, fun fb hfb => (h2 fb hfb).imp id fun h => lt_of_le_of_lt hle h⟩

end Check

/-- A state with the forced batch `k` in L1 block `k` for every `k`, fork
`7` up to batch `10` and fork `8` from batch `11` on, where every call
succeeds. -/
def forkBoundaryState : ForcedBatchState where
  lastTrustedForcedBatchNumber := some 0
  getForcedBatch k := some ⟨k, k, 0, [], 0⟩
  blockParentHash _ := some 0
  getForkIDByBatchNumber b := if b ≤ 10 then 7 else 8
  processBatch _ := some 0

/-- **`processForcedBatches` drops the forced batch after a gap, and runs
a forced batch with the fork id of the batch before it.** With no forced
batch trusted yet and only forced batch `2` listed, the walk processes the
missing forced batch `1` in the entry's place, in batch `11`, and clears
the list: forced batch `2` is neither processed nor kept. Batch `11` runs
with fork `7`, the fork of batch `10`, though fork `8` starts there. -/
theorem processForcedBatches_drops_after_gap :
    (forkBoundaryState.processForcedBatches [⟨2, 2, 0, [], 0⟩] 10 0).processed.map
        (fun q => (q.1.forcedBatchNumber, q.2.batchNumber, q.2.forkID)) = [(1, 11, 7)] ∧
      (forkBoundaryState.processForcedBatches [⟨2, 2, 0, [], 0⟩] 10 0).nextForcedBatches = [] ∧
      forkBoundaryState.getForkIDByBatchNumber 11 = 8 := by
  decide

end ForcedBatchState

end Sequencer

end XLayerNode
