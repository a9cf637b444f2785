import XLayerNode.Common.Outcome
import XLayerNode.Common.GoSort
import Mathlib
/-!
# Fork-id intervals: the table and the copy in memory

`state.fork_id` holds one row per fork id: the batches the fork applies to
and the L1 block that announced it. `PostgresStorage` keeps a copy of the
rows in `cfg.ForkIDIntervals` and answers from it which fork a batch or an
L1 block belongs to.

`Intervals` is what the copy is meant to be: fork ids increasing, each
interval ending right before the next one starts, the last one open to
the largest uint64. Over such a list the batch lookup returns the fork of
the interval holding the batch (`getForkIDByBatchNumberInMemory_of_mem`).
The block lookup reads the list at the mirror image of its positions
sorted by block number, so it returns the last fork announced at or before
the block when the block numbers increase along the list
(`getForkIDByBlockNumberInMemory_of_lt`). `Coherent` says that the copy is
such a list and holds the rows of the table; `AddForkIDInterval` and
`UpdateForkIDBlockNumber` keep it. `GetForkIDs` orders the rows by their
first batch only, and the database returns rows of one start in an order of
its own (`order`); when no two forks start at one batch, which `Coherent`
also keeps, the copy is what `GetForkIDs` reads whatever that order
(`Coherent.forkIDIntervals_eq`).

`UpdateForkIDBlockNumber` passes its two numbers to its statement the
wrong way round: the fork it is given keeps its block
(`mem_updateForkIDBlockNumber`).
-/

namespace XLayerNode

namespace State

/-- `ForkIDInterval`. -/
structure ForkIDInterval where
  fromBatchNumber : ℕ
  toBatchNumber : ℕ
  forkId : ℕ
  version : String
  blockNumber : ℕ
  deriving DecidableEq, Repr

/-- `UPDATE state.fork_id SET … WHERE fork_id = k`: the rows with fork id
`k` changed by `g`. -/
def updateWhereForkId (rows : List ForkIDInterval) (k : ℕ)
    (g : ForkIDInterval → ForkIDInterval) : List ForkIDInterval :=
  rows.map fun r => if r.forkId = k then g r else r

/-- An update that leaves the fork id, the first batch and the last batch
of a row as they are. -/
def KeepsInterval (g : ForkIDInterval → ForkIDInterval) : Prop :=
  ∀ r, (g r).forkId = r.forkId ∧ (g r).fromBatchNumber = r.fromBatchNumber ∧
    (g r).toBatchNumber = r.toBatchNumber

/-- The fork-id part of `PostgresStorage`: the rows of `state.fork_id`, and
the configuration's `ForkIDIntervals`, `ForkUpgradeBatchNumber` and
`ForkUpgradeNewForkId`. -/
structure PostgresStorage where
  forkIdTable : List ForkIDInterval
  forkIDIntervals : List ForkIDInterval
  forkUpgradeBatchNumber : ℕ
  forkUpgradeNewForkId : ℕ
  deriving DecidableEq, Repr

/-- The errors of `AddForkIDInterval` that the database does not raise. -/
inductive ForkIDStorageError where
  /-- "error checking forkID sequence. Last ForkID stored: %d. New ForkID received: %d" -/
  | forkIDSequence (lastStored received : ℕ)
  deriving DecidableEq, Repr

namespace PostgresStorage

/-- `GetForkIDs`: the rows ordered by `from_batch_num`. The query leaves the
order of rows of one start open: `order` is the one the database returns
them in. -/
def getForkIDs (order : SliceSorter ForkIDInterval) (p : PostgresStorage) : List ForkIDInterval :=
  order.sort (·.fromBatchNumber) p.forkIdTable

/-- `AddForkID`: an insert, which on a `fork_id` already there sets its
`block_num` instead. -/
def addForkID (p : PostgresStorage) (forkID : ForkIDInterval) : PostgresStorage :=
  if p.forkIdTable.any (·.forkId = forkID.forkId) then
    { p with
      forkIdTable := updateWhereForkId p.forkIdTable forkID.forkId
        fun r => { r with blockNumber := forkID.blockNumber } }
  else { p with forkIdTable := p.forkIdTable ++ [forkID] }

/-- `UpdateForkIDToBatchNumber`. -/
def updateForkIDToBatchNumber (p : PostgresStorage) (forkID : ForkIDInterval) : PostgresStorage :=
  { p with
    forkIdTable := updateWhereForkId p.forkIdTable forkID.forkId
      fun r => { r with toBatchNumber := forkID.toBatchNumber } }

/-- `UpdateForkIDIntervalsInMemory`. -/
def updateForkIDIntervalsInMemory (p : PostgresStorage) (intervals : List ForkIDInterval) :
    PostgresStorage :=
  { p with forkIDIntervals := intervals }

/-- `UpdateForkIDBlockNumber`. Its statement is `SET block_num = $1 WHERE
fork_id = $2`, and it passes `forkdID` as `$1` and `newBlockNumber` as
`$2`. -/
def updateForkIDBlockNumber (order : SliceSorter ForkIDInterval) (p : PostgresStorage)
    (forkdID newBlockNumber : ℕ) (updateMemCache : Bool) : PostgresStorage :=
  let p' := { p with
    forkIdTable := updateWhereForkId p.forkIdTable newBlockNumber
      fun r => { r with blockNumber := forkdID } }
  if updateMemCache then p'.updateForkIDIntervalsInMemory (p'.getForkIDs order) else p'

/-- `AddForkIDInterval`: the last interval read ends before the new one,
which is appended, in the table and in memory. -/
def addForkIDInterval (order : SliceSorter ForkIDInterval) (p : PostgresStorage)
    (newForkID : ForkIDInterval) : Except ForkIDStorageError PostgresStorage :=
  let oldForkIDs := p.getForkIDs order
  match oldForkIDs.getLast? with
  | none => .ok ((p.updateForkIDIntervalsInMemory [newForkID]).addForkID newForkID)
  | some last =>
    if last.forkId ≥ newForkID.forkId then .error (.forkIDSequence last.forkId newForkID.forkId)
    else
      -- `newForkID.FromBatchNumber - 1` as a uint64
      let last' := { last with
        toBatchNumber := (newForkID.fromBatchNumber + (2 ^ 64 - 1)) % 2 ^ 64 }
      let p := p.updateForkIDToBatchNumber last'
      let forkIDs := oldForkIDs.dropLast ++ [last'] ++ [newForkID]
      .ok ((p.updateForkIDIntervalsInMemory forkIDs).addForkID newForkID)

/-- `GetForkIDByBatchNumberInMemory`: during a fork upgrade the new fork
past its batch, else the first interval holding the batch, else the last
interval's fork (a panic with no interval). -/
def getForkIDByBatchNumberInMemory (p : PostgresStorage) (batchNumber : ℕ) : Outcome Empty ℕ :=
  let batchNumber := if batchNumber = 0 then 1 else batchNumber
  if p.forkUpgradeBatchNumber ≠ 0 ∧ batchNumber > p.forkUpgradeBatchNumber then
    .ok p.forkUpgradeNewForkId
  else
    match p.forkIDIntervals.find? fun interval =>
        decide (batchNumber ≥ interval.fromBatchNumber ∧ batchNumber ≤ interval.toBatchNumber) with
    | some interval => .ok interval.forkId
    | none => do
      let last ← Outcome.index p.forkIDIntervals (p.forkIDIntervals.length - 1)
      pure last.forkId

/-- `sortIndexForForkdIDSortedByBlockNumber`: the positions of the list,
sorted by the block number there. -/
def sortIndexForForkdIDSortedByBlockNumber (sorter : SliceSorter ℕ)
    (forkIDs : List ForkIDInterval) : List ℕ :=
  sorter.sort (fun i => (forkIDs[i]?.map (·.blockNumber)).getD 0) (List.range forkIDs.length)

/-- The loop of `GetForkIDByBlockNumberInMemory`: each sorted position read
at its mirror image, the first interval announced at or before the block
returned, fork 1 if none is. -/
def blockNumberLoop (intervals : List ForkIDInterval) (blockNumber : ℕ) :
    List ℕ → Outcome Empty ℕ
  | [] => .ok 1
  | index :: rest => do
    let interval ← Outcome.index intervals (intervals.length - 1 - index)
    if blockNumber ≥ interval.blockNumber then pure interval.forkId
    else blockNumberLoop intervals blockNumber rest

/-- `GetForkIDByBlockNumberInMemory`. -/
def getForkIDByBlockNumberInMemory (sorter : SliceSorter ℕ) (p : PostgresStorage)
    (blockNumber : ℕ) : Outcome Empty ℕ :=
  blockNumberLoop p.forkIDIntervals blockNumber
    (sortIndexForForkdIDSortedByBlockNumber sorter p.forkIDIntervals)

end PostgresStorage

/-! ## Fork intervals -/

/-- The fork of an L1 block by a list of intervals: the last one announced
at or before the block, fork 1 before any. -/
def forkIdOfBlock (intervals : List ForkIDInterval) (blockNumber : ℕ) : ℕ :=
  ((intervals.reverse.find? fun iv => decide (iv.blockNumber ≤ blockNumber)).map (·.forkId)).getD 1

/-- Fork intervals: fork ids increasing, each interval ending right before
the next one starts, from batch 1 on, the last one open to the largest
uint64. -/
structure Intervals (l : List ForkIDInterval) : Prop where
  chain : l.IsChain fun a b => a.forkId < b.forkId ∧
    a.fromBatchNumber ≤ b.fromBatchNumber ∧ a.toBatchNumber = b.fromBatchNumber - 1
  fromBatchNumber_pos : ∀ iv ∈ l, 0 < iv.fromBatchNumber
  toBatchNumber_last : ∀ iv ∈ l.getLast?, iv.toBatchNumber = 2 ^ 64 - 1

variable {l : List ForkIDInterval}

/-- From one interval to a later one: the fork id increases and the start
does not decrease. -/
def Ascends (a b : ForkIDInterval) : Prop :=
  a.forkId < b.forkId ∧ a.fromBatchNumber ≤ b.fromBatchNumber

instance : Trans Ascends Ascends Ascends := ⟨fun h₁ h₂ => ⟨h₁.1.trans h₂.1, h₁.2.trans h₂.2⟩⟩

/-- Along fork intervals, fork ids increase and starts do not decrease. -/
theorem Intervals.pairwise (h : Intervals l) : l.Pairwise Ascends :=
  (h.chain.imp fun _ _ hab => ⟨hab.1, hab.2.1⟩).pairwise

/-- **Fork intervals are disjoint**: each one ends before any later one
starts. -/
theorem Intervals.pairwise_toBatchNumber_lt (h : Intervals l) :
    l.Pairwise fun a b => a.toBatchNumber < b.fromBatchNumber := by
  have hpw := h.pairwise
  have hpos := h.fromBatchNumber_pos
  induction l with
  | nil => exact List.Pairwise.nil
  | cons a l ih =>
    cases l with
    | nil => exact List.pairwise_singleton _ a
    | cons b l =>
      obtain ⟨hab, hrest⟩ := List.isChain_cons_cons.mp h.chain
      have hb := hpos b (by simp)
      refine List.Pairwise.cons (fun c hc => ?_) (ih ⟨hrest, fun iv hiv => hpos iv (by simp_all),
        by simpa using h.toBatchNumber_last⟩ (List.pairwise_cons.mp hpw).2
        (fun iv hiv => hpos iv (List.mem_cons_of_mem a hiv)))
      have hbc : b.fromBatchNumber ≤ c.fromBatchNumber := by
        rcases List.mem_cons.mp hc with rfl | hc
        · exact le_rfl
        · exact ((List.pairwise_cons.mp (List.pairwise_cons.mp hpw).2).1 c hc).2
      have := hab.2.2
      omega

/-- **The batch lookup returns the fork of the interval that holds the
batch**, with no fork upgrade under way. -/
theorem getForkIDByBatchNumberInMemory_of_mem {p : PostgresStorage}
    (h : Intervals p.forkIDIntervals) (hup : p.forkUpgradeBatchNumber = 0)
    {iv : ForkIDInterval} (hiv : iv ∈ p.forkIDIntervals) {b : ℕ} (hb : 0 < b)
    (hfrom : iv.fromBatchNumber ≤ b) (hto : b ≤ iv.toBatchNumber) :
    p.getForkIDByBatchNumberInMemory b = .ok iv.forkId := by
  have hfind : p.forkIDIntervals.find? (fun interval =>
      decide (b ≥ interval.fromBatchNumber ∧ b ≤ interval.toBatchNumber)) = some iv := by
    rw [List.find?_eq_some_iff_append]
    refine ⟨by simp [hfrom, hto], ?_⟩
    obtain ⟨as, bs, hsplit⟩ := List.append_of_mem hiv
    refine ⟨as, bs, hsplit, fun a ha => ?_⟩
    -- an earlier interval ends before `iv` starts
    have hlt := h.pairwise_toBatchNumber_lt
    rw [hsplit, List.pairwise_append] at hlt
    have := hlt.2.2 a ha iv List.mem_cons_self
    simp only [ge_iff_le, Bool.not_eq_eq_eq_not, Bool.not_true, decide_eq_false_iff_not, not_and,
      not_le]
    omega
  have hb0 : (if b = 0 then 1 else b) = b := if_neg (Nat.pos_iff_ne_zero.mp hb)
  simp only [PostgresStorage.getForkIDByBatchNumberInMemory, hb0, hup, ne_eq, not_true_eq_false,
    false_and, ↓reduceIte, hfind]

/-- Where block numbers increase along the list, its positions sorted by
block number are the positions in order. -/
theorem sortIndexForForkdIDSortedByBlockNumber_of_lt (sorter : SliceSorter ℕ)
    (hlt : l.Pairwise fun a b => a.blockNumber < b.blockNumber) :
    PostgresStorage.sortIndexForForkdIDSortedByBlockNumber sorter l = List.range l.length := by
  refine sorter.sort_eq_of_pairwise_lt (List.Perm.refl _) ?_
  rw [List.pairwise_iff_getElem]
  intro i j hi hj hij
  simp only [List.length_range] at hi hj
  simp only [List.getElem_range, List.getElem?_eq_getElem hi, List.getElem?_eq_getElem hj,
    Option.map_some, Option.getD_some]
  exact List.pairwise_iff_getElem.mp hlt i j hi hj hij

/-- The loop over positions `i, i + 1, …` reads the reversed list from `i`
on. -/
theorem blockNumberLoop_range' (intervals : List ForkIDInterval) (blockNumber : ℕ) :
    ∀ d i, i + d = intervals.length →
      PostgresStorage.blockNumberLoop intervals blockNumber (List.range' i d) =
        .ok ((((intervals.reverse.drop i).find? fun iv =>
          decide (iv.blockNumber ≤ blockNumber)).map (·.forkId)).getD 1)
  | 0, i, hi => by
    rw [List.range'_zero, List.drop_of_length_le (by simp; omega)]
    rfl
  | d + 1, i, hi => by
    have hlt : i < intervals.reverse.length := by simp; omega
    rw [List.range'_succ, PostgresStorage.blockNumberLoop,
      Outcome.index_of_lt (by omega : intervals.length - 1 - i < intervals.length),
      Outcome.ok_bind, List.drop_eq_getElem_cons hlt, List.find?_cons,
      List.getElem_reverse]
    by_cases hle : intervals[intervals.length - 1 - i].blockNumber ≤ blockNumber
    · simp [hle]
    · simp only [ge_iff_le, hle, ↓reduceIte, decide_false]
      exact blockNumberLoop_range' intervals blockNumber d (i + 1) (by omega)

/-- **Where block numbers increase along the list, the block lookup returns
the last fork announced at or before the block.** -/
theorem getForkIDByBlockNumberInMemory_of_lt (sorter : SliceSorter ℕ) {p : PostgresStorage}
    (hlt : p.forkIDIntervals.Pairwise fun a b => a.blockNumber < b.blockNumber)
    (blockNumber : ℕ) :
    p.getForkIDByBlockNumberInMemory sorter blockNumber =
      .ok (forkIdOfBlock p.forkIDIntervals blockNumber) := by
  rw [PostgresStorage.getForkIDByBlockNumberInMemory,
    sortIndexForForkdIDSortedByBlockNumber_of_lt sorter hlt, List.range_eq_range',
    blockNumberLoop_range' _ _ _ 0 (by simp)]
  rfl

/-! ## The table and the copy in memory -/

/-- The fork id and the first batch of each row: what no update changes. -/
def forkStarts (rows : List ForkIDInterval) : List (ℕ × ℕ) :=
  rows.map fun r => (r.forkId, r.fromBatchNumber)

variable {g : ForkIDInterval → ForkIDInterval} {k : ℕ}

theorem map_forkId_updateWhereForkId (hg : ∀ r, (g r).forkId = r.forkId)
    (rows : List ForkIDInterval) :
    (updateWhereForkId rows k g).map (·.forkId) = rows.map (·.forkId) := by
  simp only [updateWhereForkId, List.map_map]
  congr 1
  funext r
  by_cases hr : r.forkId = k <;> simp [hr, hg]

theorem forkStarts_updateWhereForkId
    (hg : ∀ r, (g r).forkId = r.forkId ∧ (g r).fromBatchNumber = r.fromBatchNumber)
    (rows : List ForkIDInterval) : forkStarts (updateWhereForkId rows k g) = forkStarts rows := by
  simp only [forkStarts, updateWhereForkId, List.map_map]
  congr 1
  funext r
  by_cases hr : r.forkId = k <;> simp [hr, hg]

theorem updateWhereForkId_of_forall_ne {rows : List ForkIDInterval}
    (h : ∀ r ∈ rows, r.forkId ≠ k) : updateWhereForkId rows k g = rows := by
  rw [updateWhereForkId, List.map_congr_left fun r hr => if_neg (h r hr), List.map_id']

theorem updateWhereForkId_append (rows rows' : List ForkIDInterval) :
    updateWhereForkId (rows ++ rows') k g = updateWhereForkId rows k g ++ updateWhereForkId rows' k g :=
  List.map_append

theorem updateWhereForkId_singleton_self (r : ForkIDInterval) :
    updateWhereForkId [r] r.forkId g = [g r] := by
  simp [updateWhereForkId]

theorem perm_updateWhereForkId {rows rows' : List ForkIDInterval} (h : List.Perm rows rows') :
    List.Perm (updateWhereForkId rows k g) (updateWhereForkId rows' k g) :=
  h.map _

/-- An update that keeps the starts keeps them increasing. -/
theorem pairwise_fromBatchNumber_updateWhereForkId (hg : ∀ r, (g r).fromBatchNumber = r.fromBatchNumber)
    (h : l.Pairwise fun a b => a.fromBatchNumber < b.fromBatchNumber) (k : ℕ) :
    (updateWhereForkId l k g).Pairwise fun a b => a.fromBatchNumber < b.fromBatchNumber := by
  have hkeep : ∀ r, (if r.forkId = k then g r else r).fromBatchNumber = r.fromBatchNumber := by
    intro r
    split_ifs
    · exact hg r
    · rfl
  rw [State.updateWhereForkId, List.pairwise_map]
  exact h.imp fun hab => by rwa [hkeep, hkeep]

/-- A new last interval that starts after every interval, the old last one
cut, keeps the starts increasing. -/
theorem pairwise_fromBatchNumber_append_next {l : List ForkIDInterval} {last newForkID : ForkIDInterval}
    (h : (l ++ [last]).Pairwise fun a b => a.fromBatchNumber < b.fromBatchNumber)
    (hlt : ∀ r ∈ l ++ [last], r.fromBatchNumber < newForkID.fromBatchNumber) (toBatchNumber : ℕ) :
    (l ++ [{ last with toBatchNumber := toBatchNumber }, newForkID]).Pairwise
      fun a b => a.fromBatchNumber < b.fromBatchNumber := by
  rw [List.pairwise_append] at h
  obtain ⟨hl, -, hlast⟩ := h
  rw [show l ++ [{ last with toBatchNumber := toBatchNumber }, newForkID] =
    (l ++ [{ last with toBatchNumber := toBatchNumber }]) ++ [newForkID] by simp,
    List.pairwise_append, List.pairwise_append]
  refine ⟨⟨hl, List.pairwise_singleton _ _, fun a ha b hb => ?_⟩, List.pairwise_singleton _ _, fun a ha b hb => ?_⟩
  · -- the cut keeps the start of `last`
    rw [List.mem_singleton.mp hb]
    exact hlast a ha last (List.mem_singleton_self _)
  · rw [List.mem_singleton.mp hb]
    rcases List.mem_append.mp ha with ha | ha
    · exact hlt a (List.mem_append_left _ ha)
    · rw [List.mem_singleton.mp ha]
      exact hlt last (List.mem_append_right _ (List.mem_singleton_self _))

/-- An update that keeps the intervals keeps fork intervals. -/
theorem Intervals.updateWhereForkId (h : Intervals l) (hg : KeepsInterval g) (k : ℕ) :
    Intervals (updateWhereForkId l k g) := by
  have hkeep : ∀ r, (if r.forkId = k then g r else r).forkId = r.forkId ∧
      (if r.forkId = k then g r else r).fromBatchNumber = r.fromBatchNumber ∧
      (if r.forkId = k then g r else r).toBatchNumber = r.toBatchNumber := by
    intro r
    split_ifs
    · exact hg r
    · exact ⟨rfl, rfl, rfl⟩
  refine ⟨?_, ?_, ?_⟩
  · rw [State.updateWhereForkId, List.isChain_map]
    exact h.chain.imp fun a b hab => by simpa only [hkeep] using hab
  · simp only [State.updateWhereForkId, List.mem_map]
    rintro _ ⟨r, hr, rfl⟩
    rw [(hkeep r).2.1]
    exact h.fromBatchNumber_pos r hr
  · simp only [State.updateWhereForkId, List.getLast?_map, Option.mem_def, Option.map_eq_some_iff]
    rintro _ ⟨r, hr, rfl⟩
    rw [(hkeep r).2.2]
    exact h.toBatchNumber_last r hr

/-- A new last interval, after the old last one cut to end right before
it, keeps fork intervals. -/
theorem Intervals.append_next {l : List ForkIDInterval} {last newForkID : ForkIDInterval}
    (h : Intervals (l ++ [last])) (hgt : last.forkId < newForkID.forkId)
    (hfrom : last.fromBatchNumber ≤ newForkID.fromBatchNumber)
    (hpos : 0 < newForkID.fromBatchNumber) (hto : newForkID.toBatchNumber = 2 ^ 64 - 1) :
    Intervals (l ++ [{ last with toBatchNumber := newForkID.fromBatchNumber - 1 }, newForkID]) := by
  obtain ⟨hl, -, hjoin⟩ := List.isChain_append.mp h.chain
  refine ⟨?_, ?_, by simp [hto]⟩
  · rw [show l ++ [{ last with toBatchNumber := newForkID.fromBatchNumber - 1 }, newForkID] =
      (l ++ [{ last with toBatchNumber := newForkID.fromBatchNumber - 1 }]) ++ [newForkID] by simp]
    -- the cut leaves what the link into `last` reads: its fork id and start
    refine List.IsChain.append (List.IsChain.append hl (List.isChain_singleton _)
      fun x hx y hy => ?_) (List.isChain_singleton _) fun x hx y hy => ?_
    · simp only [List.head?_cons, Option.mem_def, Option.some.injEq] at hy
      subst hy
      exact hjoin x hx last rfl
    · simp only [List.getLast?_append, List.getLast?_singleton, Option.some_or, Option.mem_def,
        Option.some.injEq, List.head?_cons] at hx hy
      subst hx hy
      exact ⟨hgt, hfrom, rfl⟩
  · intro iv hiv
    simp only [List.mem_append, List.mem_cons, List.not_mem_nil, or_false] at hiv
    rcases hiv with hiv | rfl | rfl
    · exact h.fromBatchNumber_pos iv (by simp [hiv])
    · exact h.fromBatchNumber_pos last (by simp)
    · exact hpos

variable {p : PostgresStorage}

/-- The copy in memory is a list of fork intervals holding the rows of the
table, whose fork ids are keys, and no two of which start at one batch. -/
structure Coherent (p : PostgresStorage) : Prop where
  keys : (p.forkIdTable.map (·.forkId)).Nodup
  perm : List.Perm p.forkIDIntervals p.forkIdTable
  intervals : Intervals p.forkIDIntervals
  starts : p.forkIDIntervals.Pairwise fun a b => a.fromBatchNumber < b.fromBatchNumber

/-- `AddForkID` of a fork id that no row has appends the row. -/
theorem addForkID_of_forall_ne {forkID : ForkIDInterval}
    (h : ∀ r ∈ p.forkIdTable, r.forkId ≠ forkID.forkId) :
    p.addForkID forkID = { p with forkIdTable := p.forkIdTable ++ [forkID] } := by
  have hany : p.forkIdTable.any (·.forkId = forkID.forkId) = false := by
    simp only [List.any_eq_false, decide_eq_true_eq]
    exact h
  simp only [PostgresStorage.addForkID, hany, Bool.false_eq_true, ↓reduceIte]

/-- `AddForkID` writes the table only. -/
@[simp]
theorem addForkID_forkUpgradeBatchNumber (forkID : ForkIDInterval) :
    (p.addForkID forkID).forkUpgradeBatchNumber = p.forkUpgradeBatchNumber := by
  unfold PostgresStorage.addForkID
  split_ifs <;> rfl

/-- An empty table and an empty copy are coherent. -/
theorem coherent_empty (forkUpgradeBatchNumber forkUpgradeNewForkId : ℕ) :
    Coherent ⟨[], [], forkUpgradeBatchNumber, forkUpgradeNewForkId⟩ :=
  ⟨List.nodup_nil, List.Perm.nil, ⟨List.isChain_nil, by simp, by simp⟩, List.Pairwise.nil⟩

/-- **`GetForkIDs` reads the one permutation of the rows in which starts
increase**, whatever order the database gives rows of one start. -/
theorem getForkIDs_eq_of_perm (order : SliceSorter ForkIDInterval) {M : List ForkIDInterval}
    (hperm : List.Perm M p.forkIdTable) (hsorted : M.Pairwise fun a b => a.fromBatchNumber < b.fromBatchNumber) :
    p.getForkIDs order = M :=
  order.sort_eq_of_pairwise_lt hperm hsorted

/-- **The copy in memory is what `GetForkIDs` reads.** -/
theorem Coherent.forkIDIntervals_eq (h : Coherent p) (order : SliceSorter ForkIDInterval) :
    p.forkIDIntervals = p.getForkIDs order :=
  (getForkIDs_eq_of_perm order h.perm h.starts).symm

/-- **`UpdateForkIDBlockNumber` keeps the table and the copy coherent**,
whichever row its statement reaches, since it rereads the copy. -/
theorem Coherent.updateForkIDBlockNumber (h : Coherent p) (order : SliceSorter ForkIDInterval)
    (forkdID newBlockNumber : ℕ) :
    Coherent (p.updateForkIDBlockNumber order forkdID newBlockNumber true) ∧
      forkStarts (p.updateForkIDBlockNumber order forkdID newBlockNumber true).forkIdTable =
        forkStarts p.forkIdTable := by
  have hg : KeepsInterval fun r => { r with blockNumber := forkdID } := fun _ => ⟨rfl, rfl, rfl⟩
  have hkeys : ((updateWhereForkId p.forkIdTable newBlockNumber
      fun r => { r with blockNumber := forkdID }).map (·.forkId)).Nodup := by
    rw [map_forkId_updateWhereForkId (fun r => (hg r).1)]
    exact h.keys
  have hstarts := pairwise_fromBatchNumber_updateWhereForkId (fun r => (hg r).2.1) h.starts newBlockNumber
  -- the copy reread is the old copy, updated the same way
  have hread : PostgresStorage.getForkIDs order { p with forkIdTable := (updateWhereForkId p.forkIdTable
      newBlockNumber fun r => { r with blockNumber := forkdID }) } =
      updateWhereForkId p.forkIDIntervals newBlockNumber fun r => { r with blockNumber := forkdID } :=
    getForkIDs_eq_of_perm order (perm_updateWhereForkId h.perm) hstarts
  simp only [PostgresStorage.updateForkIDBlockNumber, ↓reduceIte,
    PostgresStorage.updateForkIDIntervalsInMemory, hread]
  exact ⟨⟨hkeys, perm_updateWhereForkId h.perm, h.intervals.updateWhereForkId hg newBlockNumber, hstarts⟩,
    forkStarts_updateWhereForkId (fun r => ⟨(hg r).1, (hg r).2.1⟩) _⟩

/-- **`AddForkIDInterval` of a fork after every stored one keeps the table
and the copy coherent**, and adds its start to the table. -/
theorem Coherent.addForkIDInterval (h : Coherent p) (order : SliceSorter ForkIDInterval)
    (newForkID : ForkIDInterval) (hgt : ∀ r ∈ p.forkIdTable, r.forkId < newForkID.forkId)
    (hfrom : ∀ r ∈ p.forkIdTable, r.fromBatchNumber < newForkID.fromBatchNumber)
    (hpos : 0 < newForkID.fromBatchNumber) (hlt : newForkID.fromBatchNumber < 2 ^ 64)
    (hto : newForkID.toBatchNumber = 2 ^ 64 - 1) :
    ∃ p', p.addForkIDInterval order newForkID = .ok p' ∧ Coherent p' ∧
      forkStarts p'.forkIdTable =
        forkStarts p.forkIdTable ++ [(newForkID.forkId, newForkID.fromBatchNumber)] := by
  unfold PostgresStorage.addForkIDInterval
  rw [← h.forkIDIntervals_eq order]
  dsimp only
  cases hlast : p.forkIDIntervals.getLast? with
  | none =>
    -- no interval yet, and no row
    have hT : p.forkIdTable = [] :=
      List.Perm.eq_nil (h.perm.symm.trans (by rw [List.getLast?_eq_none_iff.mp hlast]))
    refine ⟨_, rfl, ?_, ?_⟩
    · simp only [PostgresStorage.addForkID, PostgresStorage.updateForkIDIntervalsInMemory, hT]
      exact ⟨by simp, List.Perm.refl _,
        ⟨List.isChain_singleton _, by simpa using hpos, by simpa using hto⟩, List.pairwise_singleton _ _⟩
    · simp [PostgresStorage.addForkID, PostgresStorage.updateForkIDIntervalsInMemory, hT,
        forkStarts]
  | some last =>
    obtain ⟨M', hM⟩ := List.getLast?_eq_some_iff.mp hlast
    have hlastT : last ∈ p.forkIdTable := h.perm.subset (by simp [hM])
    have hcut : (newForkID.fromBatchNumber + (2 ^ 64 - 1)) % 2 ^ 64 =
        newForkID.fromBatchNumber - 1 := by omega
    dsimp only
    rw [if_neg (show ¬ last.forkId ≥ newForkID.forkId from Nat.not_le.mpr (hgt last hlastT)), hM,
      List.dropLast_concat, hcut]
    -- the rows of `M'` are not `last`'s
    have hM'ne : ∀ r ∈ M', r.forkId ≠ last.forkId := by
      have hkeysM := (h.perm.map (·.forkId)).nodup_iff.mpr h.keys
      rw [hM, List.map_append, List.nodup_append] at hkeysM
      intro r hr hid
      exact hkeysM.2.2 _ (List.mem_map_of_mem hr) _ (List.mem_singleton_self _) hid
    have hT₁ : List.Perm (M' ++ [{ last with toBatchNumber := newForkID.fromBatchNumber - 1 }])
        (updateWhereForkId p.forkIdTable last.forkId
          fun r => { r with toBatchNumber := newForkID.fromBatchNumber - 1 }) := by
      have hupd : updateWhereForkId (M' ++ [last]) last.forkId
          (fun r => { r with toBatchNumber := newForkID.fromBatchNumber - 1 }) =
          M' ++ [{ last with toBatchNumber := newForkID.fromBatchNumber - 1 }] := by
        rw [updateWhereForkId_append, updateWhereForkId_of_forall_ne hM'ne,
          updateWhereForkId_singleton_self]
      rw [← hupd, ← hM]
      exact perm_updateWhereForkId h.perm
    have hg : ∀ r : ForkIDInterval,
        ({ r with toBatchNumber := newForkID.fromBatchNumber - 1 } : ForkIDInterval).forkId =
          r.forkId ∧
        ({ r with toBatchNumber := newForkID.fromBatchNumber - 1 } :
          ForkIDInterval).fromBatchNumber = r.fromBatchNumber := fun _ => ⟨rfl, rfl⟩
    -- the new fork id is past every row, updated or not
    have hfresh : ∀ r ∈ updateWhereForkId p.forkIdTable last.forkId
        (fun r => { r with toBatchNumber := newForkID.fromBatchNumber - 1 }),
        r.forkId ≠ newForkID.forkId := by
      intro r hr
      obtain ⟨r₀, hr₀, rfl⟩ := List.mem_map.mp hr
      split_ifs <;> exact Nat.ne_of_lt (hgt r₀ hr₀)
    refine ⟨_, rfl, ?_⟩
    rw [addForkID_of_forall_ne hfresh]
    simp only [PostgresStorage.updateForkIDIntervalsInMemory, PostgresStorage.updateForkIDToBatchNumber]
    refine ⟨⟨?_, hT₁.append_right [newForkID], ?_, ?_⟩, ?_⟩
    · -- the old keys stay keys, and the new one is none of them
      rw [List.map_append, List.nodup_append]
      refine ⟨?_, List.nodup_singleton _, ?_⟩
      · rw [map_forkId_updateWhereForkId (fun r => (hg r).1)]
        exact h.keys
      · intro a ha b hb
        obtain ⟨r, hr, rfl⟩ := List.mem_map.mp ha
        rw [List.map_singleton, List.mem_singleton] at hb
        exact hb ▸ hfresh r hr
    · rw [List.append_assoc, List.singleton_append]
      exact (hM ▸ h.intervals).append_next (hgt last hlastT) (Nat.le_of_lt (hfrom last hlastT)) hpos hto
    · -- the new fork starts after every interval of the copy
      rw [List.append_assoc, List.singleton_append]
      exact pairwise_fromBatchNumber_append_next (hM ▸ h.starts)
        (fun r hr => hfrom r (h.perm.subset (hM ▸ hr))) _
    · rw [forkStarts, List.map_append, ← forkStarts, forkStarts_updateWhereForkId hg]
      rfl

/-- What the synchronizer needs of the fork-id storage: the copy in memory
is the table in order and a list of fork intervals, and the lookups agree
with it, the block lookup where block numbers increase along it. -/
structure ForkIDIntervalsAgree (order : SliceSorter ForkIDInterval) (sorter : SliceSorter ℕ)
    (p : PostgresStorage) : Prop where
  inMemory : p.forkIDIntervals = p.getForkIDs order
  intervals : Intervals p.forkIDIntervals
  byBatchNumber : ∀ iv ∈ p.forkIDIntervals, ∀ b, 0 < b → iv.fromBatchNumber ≤ b →
    b ≤ iv.toBatchNumber → p.getForkIDByBatchNumberInMemory b = .ok iv.forkId
  byBlockNumber : p.forkIDIntervals.Pairwise (fun a b => a.blockNumber < b.blockNumber) →
    ∀ blockNumber, p.getForkIDByBlockNumberInMemory sorter blockNumber =
      .ok (forkIdOfBlock p.forkIDIntervals blockNumber)

/-- A coherent storage with no fork upgrade under way answers as its
intervals say. -/
theorem Coherent.agree (h : Coherent p) (hup : p.forkUpgradeBatchNumber = 0)
    (order : SliceSorter ForkIDInterval) (sorter : SliceSorter ℕ) : ForkIDIntervalsAgree order sorter p :=
  ⟨h.forkIDIntervals_eq order, h.intervals,
    fun _ hiv _ hb hfrom hto => getForkIDByBatchNumberInMemory_of_mem h.intervals hup hiv hb hfrom hto,
    fun hlt => getForkIDByBlockNumberInMemory_of_lt sorter hlt⟩

theorem forkUpgradeBatchNumber_of_addForkIDInterval {order : SliceSorter ForkIDInterval}
    {newForkID : ForkIDInterval} {p' : PostgresStorage} (h : p.addForkIDInterval order newForkID = .ok p') :
    p'.forkUpgradeBatchNumber = p.forkUpgradeBatchNumber := by
  unfold PostgresStorage.addForkIDInterval at h
  dsimp only at h
  split at h
  · cases h
    exact addForkID_forkUpgradeBatchNumber _
  · split_ifs at h
    cases h
    exact addForkID_forkUpgradeBatchNumber _

/-- **`UpdateForkIDBlockNumber` leaves the row of the fork it is given as it
was**, unless the new block number is that fork id: its statement reaches
the row whose fork id is the new block number. -/
theorem mem_updateForkIDBlockNumber (order : SliceSorter ForkIDInterval) {r : ForkIDInterval}
    (hr : r ∈ p.forkIdTable) {newBlockNumber : ℕ} (hne : r.forkId ≠ newBlockNumber) (updateMemCache : Bool) :
    r ∈ (p.updateForkIDBlockNumber order r.forkId newBlockNumber updateMemCache).forkIdTable := by
  have hmem : r ∈ updateWhereForkId p.forkIdTable newBlockNumber
      fun r' => { r' with blockNumber := r.forkId } :=
    List.mem_map.mpr ⟨r, hr, if_neg hne⟩
  unfold PostgresStorage.updateForkIDBlockNumber
  cases updateMemCache <;> exact hmem

end State

end XLayerNode
