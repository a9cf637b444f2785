import XLayerNode.State.ForkId
/-!
# Processing fork-id events

`ProcessorForkId.processForkID` handles a `ForkID` event of L1. A fork id
already stored is checked, and when it is the last one and comes with
another block its block number is rewritten; a new fork id must be above
every stored one, and is added with `AddForkIDInterval`. What happens after
that (a reset of the state of a permissionless node, the commit) does not
touch the fork table.

`processForkID_cases` says once what a call can do to the storage. From it,
every call keeps the table and the copy in memory coherent, provided each
fork starts after the forks below it (`coherent_processForkID`): the
reads of the table are then the same whatever order the database gives
rows of one start. So after every run from an empty table the copy is the
table in order, a list of fork intervals, and the lookups agree with it
(`processForkIDs_agree`), the block lookup where the block numbers of the
forks increase with their fork ids. Where they do not, the block lookup
misses, and a repeated last fork keeps its old block, since
`UpdateForkIDBlockNumber` passes its arguments the wrong way round
(`processForkIDs_misreads_blocks`).
-/

namespace XLayerNode

namespace Synchronizer

open State

/-- `etherman.ForkID`. -/
structure EthermanForkID where
  batchNumber : ℕ
  forkID : ℕ
  version : String
  deriving DecidableEq, Repr

/-- The errors of `processForkID`, those of the database apart. -/
inductive ProcessForkIDError where
  /-- "ForkID: %d, already in the state but with different blockNumber and is not last
  ForkID, so can't update BlockNumber. …" -/
  | notLastForkID (forkId : ℕ)
  /-- "ForkID: %d, already in the state but with different starting BatchNumber. …" -/
  | differentFromBatchNumber (forkId : ℕ)
  /-- "ForkID: %d, BlockNumber:%d, received don't fit sequence, last forkid:%d " -/
  | notInSequence (forkId blockNumber lastForkId : ℕ)
  /-- An error of `AddForkIDInterval`. -/
  | addForkIDInterval (e : ForkIDStorageError)
  /-- "new ForkID detected, reseting synchronizarion" -/
  | resetSynchronization
  deriving DecidableEq, Repr

/-- `getForkdFromSlice`: the first interval of the fork id. -/
def getForkdFromSlice (fIds : List ForkIDInterval) (forkId : ℕ) : Option ForkIDInterval :=
  fIds.find? (·.forkId = forkId)

/-- `isForksSameFromBatchNumber`. -/
def isForksSameFromBatchNumber (f1 f2 : ForkIDInterval) : Bool :=
  decide (f1.forkId = f2.forkId ∧ f1.fromBatchNumber = f2.fromBatchNumber)

/-- `lastForkID`: the largest fork id, 0 for none. The code sorts the slice
in place by fork id to find it; no caller reads the slice's order again. -/
def lastForkID (fIds : List ForkIDInterval) : ℕ :=
  fIds.foldr (fun f m => max f.forkId m) 0

/-- `isIncommingForkIdGreatestThanLastOne`. -/
def isIncommingForkIdGreatestThanLastOne (incommingForkID : ForkIDInterval)
    (fIds : List ForkIDInterval) : Bool :=
  fIds.isEmpty || decide (incommingForkID.forkId > lastForkID fIds)

/-- `isForkIdAffectingOnlyFuturesBatches`. -/
def isForkIdAffectingOnlyFuturesBatches (fID : ForkIDInterval) (latestBatchNumber : ℕ) : Bool :=
  decide (latestBatchNumber < fID.fromBatchNumber)

/-- `updateForkIDIfNeeded`: whether the fork id is already stored (and then
checked), and the storage after a rewrite of the last fork's block. -/
def updateForkIDIfNeeded (order : SliceSorter ForkIDInterval) (p : PostgresStorage)
    (forkIDincomming : ForkIDInterval) (forkIDsInState : List ForkIDInterval) :
    PostgresStorage × Except ProcessForkIDError Bool :=
  match getForkdFromSlice forkIDsInState forkIDincomming.forkId with
  | none => (p, .ok false)
  | some dbForkID =>
    if isForksSameFromBatchNumber forkIDincomming dbForkID then
      if forkIDincomming.blockNumber ≠ dbForkID.blockNumber then
        if lastForkID forkIDsInState = forkIDincomming.forkId then
          (p.updateForkIDBlockNumber order forkIDincomming.forkId forkIDincomming.blockNumber true, .ok true)
        else (p, .error (.notLastForkID forkIDincomming.forkId))
      else (p, .ok true)
    else (p, .error (.differentFromBatchNumber forkIDincomming.forkId))

/-- The interval `processForkID` makes of an event: from the batch after the
event's (a uint64 `+ 1`) to the largest uint64. -/
def incomingForkIDInterval (forkID : EthermanForkID) (blockNumber : ℕ) : ForkIDInterval :=
  ⟨(forkID.batchNumber + 1) % 2 ^ 64, 2 ^ 64 - 1, forkID.forkID, forkID.version, blockNumber⟩

/-- `processForkID`, given the last batch number the state reads (0 when
it is not synchronized) and whether the node is the trusted sequencer. The
reset of a permissionless node and its commit do not touch the fork table
and are taken to succeed. -/
def processForkID (order : SliceSorter ForkIDInterval) (p : PostgresStorage) (forkID : EthermanForkID)
    (blockNumber : ℕ) (latestBatchNumber : ℕ) (isTrustedSequencer : Bool) :
    PostgresStorage × Except ProcessForkIDError Unit :=
  let fID := incomingForkIDInterval forkID blockNumber
  let fIds := p.getForkIDs order
  match updateForkIDIfNeeded order p fID fIds with
  | (p, .error e) => (p, .error e)
  | (p, .ok true) => (p, .ok ())
  | (p, .ok false) =>
    if !isIncommingForkIdGreatestThanLastOne fID fIds then
      (p, .error (.notInSequence fID.forkId blockNumber (lastForkID fIds)))
    else
      match p.addForkIDInterval order fID with
      | .error e => (p, .error (.addForkIDInterval e))
      | .ok p =>
        if isForkIdAffectingOnlyFuturesBatches fID latestBatchNumber then (p, .ok ())
        else if isTrustedSequencer then (p, .ok ())
        else (p, .error .resetSynchronization)

/-- A fork-id event of L1, with what the node reads when it processes it:
its last batch number and whether it is the trusted sequencer. -/
structure ForkIDEvent where
  forkID : EthermanForkID
  blockNumber : ℕ
  latestBatchNumber : ℕ
  isTrustedSequencer : Bool
  deriving DecidableEq, Repr

/-- `processForkID` on each event in turn, whatever each call returns. -/
def processForkIDs (order : SliceSorter ForkIDInterval) (p : PostgresStorage) :
    List ForkIDEvent → PostgresStorage
  | [] => p
  | e :: es =>
    processForkIDs order
      (processForkID order p e.forkID e.blockNumber e.latestBatchNumber e.isTrustedSequencer).1 es

theorem le_lastForkID {fIds : List ForkIDInterval} {f : ForkIDInterval} (hf : f ∈ fIds) :
    f.forkId ≤ lastForkID fIds := by
  induction fIds with
  | nil => simp at hf
  | cons g fIds ih =>
    rcases List.mem_cons.mp hf with rfl | hf
    · exact le_max_left _ _
    · exact (ih hf).trans (le_max_right _ _)

/-- `updateForkIDIfNeeded` leaves the storage as it is, or rewrites the
block of the fork it was given. -/
theorem updateForkIDIfNeeded_fst (order : SliceSorter ForkIDInterval) (p : PostgresStorage)
    (f : ForkIDInterval) (fIds : List ForkIDInterval) :
    (updateForkIDIfNeeded order p f fIds).1 = p ∨
      (updateForkIDIfNeeded order p f fIds).1 = p.updateForkIDBlockNumber order f.forkId f.blockNumber true := by
  unfold updateForkIDIfNeeded
  cases getForkdFromSlice fIds f.forkId with
  | none => exact .inl rfl
  | some dbForkID =>
    dsimp only
    split_ifs with hsame hne hlast
    · exact .inr rfl
    · exact .inl rfl
    · exact .inl rfl
    · exact .inl rfl

/-- A fork id that is not stored leaves the storage as it is. -/
theorem updateForkIDIfNeeded_of_ok_false {order : SliceSorter ForkIDInterval} {p q : PostgresStorage}
    {f : ForkIDInterval} {fIds : List ForkIDInterval} (h : updateForkIDIfNeeded order p f fIds = (q, .ok false)) :
    q = p := by
  unfold updateForkIDIfNeeded at h
  split at h
  · exact (Prod.mk.inj h).1.symm
  · -- a stored fork id answers true or an error
    split_ifs at h <;> simp at h

/-- **What a call of `processForkID` can do to the storage**: nothing, a
rewrite of the block of the fork id it was given, or an `AddForkIDInterval`
of a new fork id above every stored one. -/
theorem processForkID_cases (order : SliceSorter ForkIDInterval) (p : PostgresStorage) (forkID : EthermanForkID)
    (blockNumber latestBatchNumber : ℕ) (isTrustedSequencer : Bool) :
    let p' := (processForkID order p forkID blockNumber latestBatchNumber isTrustedSequencer).1
    p' = p ∨ p' = p.updateForkIDBlockNumber order forkID.forkID blockNumber true ∨
      ((∀ f ∈ p.getForkIDs order, f.forkId < forkID.forkID) ∧
        p.addForkIDInterval order (incomingForkIDInterval forkID blockNumber) = .ok p') := by
  intro p'
  unfold p' processForkID
  dsimp only
  have hfst := updateForkIDIfNeeded_fst order p (incomingForkIDInterval forkID blockNumber) (p.getForkIDs order)
  rcases hu : updateForkIDIfNeeded order p (incomingForkIDInterval forkID blockNumber) (p.getForkIDs order)
    with ⟨q, e | b⟩
  · rw [hu] at hfst
    exact hfst.imp_right .inl
  cases b with
  | true =>
    rw [hu] at hfst
    exact hfst.imp_right .inl
  | false =>
    -- a new fork id: checked against the stored ones, then added
    obtain rfl := updateForkIDIfNeeded_of_ok_false hu
    dsimp only
    cases hgt : isIncommingForkIdGreatestThanLastOne (incomingForkIDInterval forkID blockNumber)
        (q.getForkIDs order) with
    | false => exact .inl rfl
    | true =>
      have hbelow : ∀ f ∈ q.getForkIDs order, f.forkId < forkID.forkID := by
        intro f hf
        simp only [isIncommingForkIdGreatestThanLastOne, Bool.or_eq_true, List.isEmpty_iff,
          decide_eq_true_eq] at hgt
        rcases hgt with hnil | hlt
        · simp [hnil] at hf
        · exact (le_lastForkID hf).trans_lt hlt
      simp only [Bool.not_true, Bool.false_eq_true, ↓reduceIte]
      cases hadd : q.addForkIDInterval order (incomingForkIDInterval forkID blockNumber) with
      | error e => exact .inl rfl
      | ok p'' =>
        dsimp only
        refine .inr (.inr ⟨hbelow, ?_⟩)
        split_ifs <;> rfl

variable {p : PostgresStorage}

/-- **A call keeps the table and the copy coherent** when the event's fork
starts after every stored fork below it; the rows' fork ids and starts
stay, and a new fork adds its own. -/
theorem coherent_processForkID (h : Coherent p) (order : SliceSorter ForkIDInterval) {forkID : EthermanForkID}
    (hbatch : forkID.batchNumber + 1 < 2 ^ 64)
    (hfit : ∀ r ∈ p.forkIdTable, r.forkId < forkID.forkID → r.fromBatchNumber ≤ forkID.batchNumber)
    (blockNumber latestBatchNumber : ℕ) (isTrustedSequencer : Bool) :
    let p' := (processForkID order p forkID blockNumber latestBatchNumber isTrustedSequencer).1
    Coherent p' ∧ (forkStarts p'.forkIdTable = forkStarts p.forkIdTable ∨
      forkStarts p'.forkIdTable =
        forkStarts p.forkIdTable ++ [(forkID.forkID, forkID.batchNumber + 1)]) ∧
      p'.forkUpgradeBatchNumber = p.forkUpgradeBatchNumber := by
  dsimp only
  rcases processForkID_cases order p forkID blockNumber latestBatchNumber isTrustedSequencer with
    hp' | hp' | ⟨hbelow, hadd⟩
  · rw [hp']
    exact ⟨h, .inl rfl, rfl⟩
  · rw [hp']
    obtain ⟨hc, hstarts⟩ := h.updateForkIDBlockNumber order forkID.forkID blockNumber
    refine ⟨hc, .inl hstarts, ?_⟩
    unfold PostgresStorage.updateForkIDBlockNumber
    rfl
  · -- a new fork: above every row, and starting after every one
    have hgt : ∀ r ∈ p.forkIdTable, r.forkId < forkID.forkID := fun r hr =>
      hbelow r ((h.forkIDIntervals_eq order ▸ h.perm).symm.subset hr)
    -- the start does not wrap
    have hfrom : (incomingForkIDInterval forkID blockNumber).fromBatchNumber = forkID.batchNumber + 1 :=
      Nat.mod_eq_of_lt hbatch
    obtain ⟨p'', hadd', hc, hstarts⟩ := h.addForkIDInterval order
      (incomingForkIDInterval forkID blockNumber) hgt
      (fun r hr => hfrom ▸ Nat.lt_succ_of_le (hfit r hr (hgt r hr))) (by rw [hfrom]; omega) (by rw [hfrom]; exact hbatch)
      rfl
    rw [hadd] at hadd'
    cases hadd'
    rw [hfrom] at hstarts
    exact ⟨hc, .inr hstarts, forkUpgradeBatchNumber_of_addForkIDInterval hadd⟩

/-- **A run keeps the table and the copy coherent.** Each row comes from an
event already processed; when every fork starts after the forks below it,
each new fork starts after every stored one below it. -/
theorem coherent_processForkIDs (order : SliceSorter ForkIDInterval) :
    ∀ (es E : List ForkIDEvent) (p : PostgresStorage), Coherent p →
    (∀ st ∈ forkStarts p.forkIdTable, ∃ e ∈ E, st = (e.forkID.forkID, e.forkID.batchNumber + 1)) →
    (∀ e ∈ es, e.forkID.batchNumber + 1 < 2 ^ 64) →
    (∀ e₁ ∈ E ++ es, ∀ e₂ ∈ E ++ es, e₁.forkID.forkID < e₂.forkID.forkID →
      e₁.forkID.batchNumber < e₂.forkID.batchNumber) →
    Coherent (processForkIDs order p es) ∧
      (processForkIDs order p es).forkUpgradeBatchNumber = p.forkUpgradeBatchNumber
  | [], _, _, h, _, _, _ => ⟨h, rfl⟩
  | e :: es, E, p, h, hprov, hbatch, hmono => by
    -- the event fits the stored forks: each came from an event before it
    have hfit : ∀ r ∈ p.forkIdTable, r.forkId < e.forkID.forkID →
        r.fromBatchNumber ≤ e.forkID.batchNumber := by
      intro r hr hlt
      obtain ⟨e₀, he₀, hst⟩ := hprov (r.forkId, r.fromBatchNumber)
        (List.mem_map_of_mem (f := fun r => (r.forkId, r.fromBatchNumber)) hr)
      simp only [Prod.mk.injEq] at hst
      have := hmono e₀ (by simp [he₀]) e (by simp) (hst.1 ▸ hlt)
      omega
    obtain ⟨hc, hstarts, hup⟩ := coherent_processForkID h order (hbatch e List.mem_cons_self) hfit
      e.blockNumber e.latestBatchNumber e.isTrustedSequencer
    have hprov' : ∀ st ∈ forkStarts (processForkID order p e.forkID e.blockNumber e.latestBatchNumber
        e.isTrustedSequencer).1.forkIdTable,
        ∃ e' ∈ E ++ [e], st = (e'.forkID.forkID, e'.forkID.batchNumber + 1) := by
      intro st hst
      rcases hstarts with hs | hs <;> rw [hs] at hst
      · obtain ⟨e₀, he₀, rfl⟩ := hprov st hst
        exact ⟨e₀, List.mem_append_left _ he₀, rfl⟩
      · rcases List.mem_append.mp hst with hst | hst
        · obtain ⟨e₀, he₀, rfl⟩ := hprov st hst
          exact ⟨e₀, List.mem_append_left _ he₀, rfl⟩
        · exact ⟨e, by simp, List.mem_singleton.mp hst⟩
    obtain ⟨hc', hup'⟩ := coherent_processForkIDs order es (E ++ [e]) _ hc hprov'
      (fun e' he' => hbatch e' (List.mem_cons_of_mem e he')) (by simpa using hmono)
    exact ⟨hc', hup'.trans hup⟩

/-- **After every run of fork-id events from an empty table, the copy in
memory is the table in order, it is a list of fork intervals, and the
lookups agree with it**, whatever order the database gives rows of one
start, when every fork starts after the forks below it; the block lookup
where the block numbers of the forks increase with their fork ids. -/
theorem processForkIDs_agree (order : SliceSorter ForkIDInterval) (sorter : SliceSorter ℕ)
    (forkUpgradeNewForkId : ℕ) (events : List ForkIDEvent)
    (hbatch : ∀ e ∈ events, e.forkID.batchNumber + 1 < 2 ^ 64)
    (hmono : ∀ e₁ ∈ events, ∀ e₂ ∈ events, e₁.forkID.forkID < e₂.forkID.forkID →
      e₁.forkID.batchNumber < e₂.forkID.batchNumber) :
    ForkIDIntervalsAgree order sorter (processForkIDs order ⟨[], [], 0, forkUpgradeNewForkId⟩ events) := by
  obtain ⟨hc, hup⟩ := coherent_processForkIDs order events [] ⟨[], [], 0, forkUpgradeNewForkId⟩
    (coherent_empty 0 forkUpgradeNewForkId) (by simp [forkStarts]) hbatch (by simpa using hmono)
  exact hc.agree hup order sorter

/-- Forks 1 and 2 announced at blocks 10 and 20, the second repeated at
block 25. -/
def repeatedForkEvents : List ForkIDEvent :=
  [⟨⟨0, 1, "v1"⟩, 10, 0, false⟩, ⟨⟨10, 2, "v2"⟩, 20, 0, false⟩, ⟨⟨10, 2, "v2"⟩, 25, 0, false⟩]

theorem processForkIDs_agree_repeatedForkEvents :
    (∀ e ∈ repeatedForkEvents, e.forkID.batchNumber + 1 < 2 ^ 64) ∧
      (∀ e₁ ∈ repeatedForkEvents, ∀ e₂ ∈ repeatedForkEvents, e₁.forkID.forkID < e₂.forkID.forkID →
        e₁.forkID.batchNumber < e₂.forkID.batchNumber) ∧
      ForkIDIntervalsAgree .insertion .insertion
        (processForkIDs .insertion ⟨[], [], 0, 0⟩ repeatedForkEvents) := by
  have hbatch : ∀ e ∈ repeatedForkEvents, e.forkID.batchNumber + 1 < 2 ^ 64 := by decide
  have hmono : ∀ e₁ ∈ repeatedForkEvents, ∀ e₂ ∈ repeatedForkEvents,
      e₁.forkID.forkID < e₂.forkID.forkID → e₁.forkID.batchNumber < e₂.forkID.batchNumber := by
    decide
  exact ⟨hbatch, hmono, processForkIDs_agree .insertion .insertion 0 repeatedForkEvents hbatch hmono⟩

/-- Forks 1, 2 and 3 announced at blocks 3, 1 and 2. -/
def blocksOutOfOrderEvents : List ForkIDEvent :=
  [⟨⟨0, 1, "v1"⟩, 3, 0, false⟩, ⟨⟨5, 2, "v2"⟩, 1, 0, false⟩, ⟨⟨10, 3, "v3"⟩, 2, 0, false⟩]

/-- Where block numbers do not increase along the intervals, the block
lookup misses: at block 2 it returns fork 2, announced at block 1, and
not fork 3, the last announced at or before block 2; and so for any
`sort.Slice`, since the three block numbers differ. -/
theorem getForkIDByBlockNumberInMemory_blocksOutOfOrder (sorter : SliceSorter ℕ) :
    (processForkIDs .insertion ⟨[], [], 0, 0⟩ blocksOutOfOrderEvents).getForkIDByBlockNumberInMemory
        sorter 2 = .ok 2 ∧
      forkIdOfBlock (processForkIDs .insertion ⟨[], [], 0, 0⟩ blocksOutOfOrderEvents).forkIDIntervals 2 = 3 := by
  have hrun : processForkIDs .insertion ⟨[], [], 0, 0⟩ blocksOutOfOrderEvents =
      ⟨[⟨1, 5, 1, "v1", 3⟩, ⟨6, 10, 2, "v2", 1⟩, ⟨11, 2 ^ 64 - 1, 3, "v3", 2⟩],
        [⟨1, 5, 1, "v1", 3⟩, ⟨6, 10, 2, "v2", 1⟩, ⟨11, 2 ^ 64 - 1, 3, "v3", 2⟩], 0, 0⟩ := by
    decide
  have hsort : PostgresStorage.sortIndexForForkdIDSortedByBlockNumber sorter
      [⟨1, 5, 1, "v1", 3⟩, ⟨6, 10, 2, "v2", 1⟩, ⟨11, 2 ^ 64 - 1, 3, "v3", 2⟩] = [1, 2, 0] :=
    sorter.sort_eq_of_pairwise_lt (by decide) (by decide)
  rw [hrun, PostgresStorage.getForkIDByBlockNumberInMemory]
  dsimp only
  rw [hsort]
  exact ⟨rfl, rfl⟩

/-- **The fork table misreads L1 blocks.** Where forks 1, 2 and 3 are
announced at blocks 3, 1 and 2, the block lookup answers fork 2 for block
2, where the last fork announced at or before it is fork 3. And when the
last fork, 2, stored at block 20, is announced again at block 25, its row
keeps block 20: `UpdateForkIDBlockNumber` sets `block_num` to the fork id
on the row whose fork id is the new block number, and there is none. -/
theorem processForkIDs_misreads_blocks :
    ((processForkIDs .insertion ⟨[], [], 0, 0⟩ blocksOutOfOrderEvents).getForkIDByBlockNumberInMemory
        .insertion 2 = .ok 2 ∧
      forkIdOfBlock (processForkIDs .insertion ⟨[], [], 0, 0⟩ blocksOutOfOrderEvents).forkIDIntervals 2 = 3) ∧
    (processForkIDs .insertion ⟨[], [], 0, 0⟩ repeatedForkEvents).forkIdTable =
      [⟨1, 10, 1, "v1", 10⟩, ⟨11, 2 ^ 64 - 1, 2, "v2", 20⟩] :=
  ⟨getForkIDByBlockNumberInMemory_blocksOutOfOrder .insertion, by decide⟩

end Synchronizer

end XLayerNode
