import XLayerNode.Common.Outcome
/-!
# The batches of an L1 event, and the fork it is processed with

`GetSequenceFromL1EventOrder` reads the batch numbers an event of an L1
block carries, and `getSequence` folds them to the least and the largest,
a `state.Sequence`. `ProcessBlockRange` processes the event with the fork
of the first batch of that sequence, and with the fork of the L1 block
when there is none.

Five of the six events that carry batches give their sequence
(`getSequenceFromL1EventOrder_spans`). The arm of
`SequenceForceBatchesOrder` computes the sequence and drops it: the call
returns nil, and the forced batches are processed with the fork of the
block (`forkIdOfEventOrder_sequenceForceBatches`).
-/

namespace XLayerNode

namespace Synchronizer

/-- `etherman.EventOrder`. -/
inductive EventOrder where
  | globalExitRootsOrder
  | l1InfoTreeOrder
  | sequenceBatchesOrder
  | updateEtrogSequenceOrder
  | forcedBatchesOrder
  | trustedVerifyBatchOrder
  | verifyBatchOrder
  | sequenceForceBatchesOrder
  | forkIDsOrder
  | initialSequenceBatchesOrder
  deriving DecidableEq, Repr

/-- `etherman.Order`: an event of a block and its position in the block's
list of such events. -/
structure Order where
  name : EventOrder
  pos : ℕ
  deriving DecidableEq, Repr

/-- `etherman.SequencedBatch`, its batch number. -/
structure SequencedBatch where
  batchNumber : ℕ
  deriving DecidableEq, Repr

/-- `etherman.SequencedForceBatch`, its batch number. -/
structure SequencedForceBatch where
  batchNumber : ℕ
  deriving DecidableEq, Repr

/-- `etherman.ForcedBatch`, its batch number. -/
structure ForcedBatch where
  forcedBatchNumber : ℕ
  deriving DecidableEq, Repr

/-- `etherman.VerifiedBatch`, its batch number. -/
structure VerifiedBatch where
  batchNumber : ℕ
  deriving DecidableEq, Repr

/-- `etherman.UpdateEtrogSequence`, its batch number. -/
structure UpdateEtrogSequence where
  batchNumber : ℕ
  deriving DecidableEq, Repr

/-- `etherman.Block`, the fields that hold batch numbers. -/
structure EthermanBlock where
  blockNumber : ℕ
  forcedBatches : List ForcedBatch
  sequencedBatches : List (List SequencedBatch)
  updateEtrogSequence : UpdateEtrogSequence
  verifiedBatches : List VerifiedBatch
  sequencedForceBatches : List (List SequencedForceBatch)
  deriving DecidableEq, Repr

/-- `state.Sequence`. -/
structure Sequence where
  fromBatchNumber : ℕ
  toBatchNumber : ℕ
  deriving DecidableEq, Repr

section Code

variable {T : Type}

/-- One turn of the loop of `getSequence`: the batch lowers the start or
raises the end. -/
def getSequenceStep (getBatchNumber : T → ℕ) (res : Sequence) (batch : T) : Sequence :=
  let res := if getBatchNumber batch < res.fromBatchNumber then
    { res with fromBatchNumber := getBatchNumber batch } else res
  if getBatchNumber batch > res.toBatchNumber then
    { res with toBatchNumber := getBatchNumber batch } else res

/-- `getSequence`: nil for no batches, else the loop from the first batch
over all of them. -/
def getSequence (batches : List T) (getBatchNumber : T → ℕ) : Option Sequence :=
  match batches with
  | [] => none
  | b :: _ =>
    some (batches.foldl (getSequenceStep getBatchNumber) ⟨getBatchNumber b, getBatchNumber b⟩)

/-- `GetSequenceFromL1EventOrder`; a position out of the block's list
panics. -/
def getSequenceFromL1EventOrder (event : EventOrder) (l1Block : EthermanBlock) (position : ℕ) :
    Outcome Empty (Option Sequence) :=
  match event with
  | .initialSequenceBatchesOrder => do
    let batches ← Outcome.index l1Block.sequencedBatches position
    pure (getSequence batches (·.batchNumber))
  | .sequenceBatchesOrder => do
    let batches ← Outcome.index l1Block.sequencedBatches position
    pure (getSequence batches (·.batchNumber))
  | .forcedBatchesOrder => do
    let bn := (← Outcome.index l1Block.forcedBatches position).forcedBatchNumber
    pure (some ⟨bn, bn⟩)
  | .updateEtrogSequenceOrder =>
    let bn := l1Block.updateEtrogSequence.batchNumber
    pure (some ⟨bn, bn⟩)
  | .sequenceForceBatchesOrder => do
    -- the sequence is computed, and not returned
    let batches ← Outcome.index l1Block.sequencedForceBatches position
    let _ := getSequence batches (·.batchNumber)
    pure none
  | .trustedVerifyBatchOrder => do
    let bn := (← Outcome.index l1Block.verifiedBatches position).batchNumber
    pure (some ⟨bn, bn⟩)
  | _ => pure none

/-- The fork `ProcessBlockRange` processes an event with, given the
state's `GetForkIDByBatchNumber` and `GetForkIDByBlockNumber`. -/
def forkIdOfEventOrder (getForkIDByBatchNumber getForkIDByBlockNumber : ℕ → ℕ)
    (element : Order) (l1Block : EthermanBlock) : Outcome Empty ℕ := do
  match ← getSequenceFromL1EventOrder element.name l1Block element.pos with
  | some batchSequence => pure (getForkIDByBatchNumber batchSequence.fromBatchNumber)
  | none => pure (getForkIDByBlockNumber l1Block.blockNumber)

end Code

/-! ## The sequence of a list of batches -/

/-- A sequence spans numbers: it starts at the least and ends at the
largest of them. -/
def Sequence.Spans (s : Sequence) (ns : List ℕ) : Prop :=
  s.fromBatchNumber ∈ ns ∧ s.toBatchNumber ∈ ns ∧
    ∀ n ∈ ns, s.fromBatchNumber ≤ n ∧ n ≤ s.toBatchNumber

namespace Sequence

variable {s : Sequence} {ns ns' : List ℕ}

theorem Spans.of_mem_iff (h : s.Spans ns) (hmem : ∀ n, n ∈ ns ↔ n ∈ ns') : s.Spans ns' := by
  obtain ⟨hfrom, hto, hbound⟩ := h
  exact ⟨(hmem _).1 hfrom, (hmem _).1 hto, fun n hn => hbound n ((hmem n).2 hn)⟩

theorem spans_singleton (n : ℕ) : Sequence.Spans ⟨n, n⟩ [n] := by
  simp [Spans]

end Sequence

section Spans

variable {T : Type} (getBatchNumber : T → ℕ)

@[simp] theorem getSequenceStep_fromBatchNumber (res : Sequence) (batch : T) :
    (getSequenceStep getBatchNumber res batch).fromBatchNumber =
      min res.fromBatchNumber (getBatchNumber batch) := by
  simp only [getSequenceStep]
  split_ifs <;> simp_all <;> omega

@[simp] theorem getSequenceStep_toBatchNumber (res : Sequence) (batch : T) :
    (getSequenceStep getBatchNumber res batch).toBatchNumber =
      max res.toBatchNumber (getBatchNumber batch) := by
  simp only [getSequenceStep]
  split_ifs <;> simp_all <;> omega

theorem Sequence.Spans.step {res : Sequence} {ns : List ℕ} (h : res.Spans ns)
    (batch : T) : (getSequenceStep getBatchNumber res batch).Spans (getBatchNumber batch :: ns) := by
  obtain ⟨hfrom, hto, hbound⟩ := h
  simp only [Sequence.Spans, getSequenceStep_fromBatchNumber, getSequenceStep_toBatchNumber,
    List.mem_cons]
  refine ⟨?_, ?_, ?_⟩
  · rcases Nat.le_total res.fromBatchNumber (getBatchNumber batch) with hle | hle
    · exact .inr (by rw [Nat.min_eq_left hle]; exact hfrom)
    · exact .inl (Nat.min_eq_right hle)
  · rcases Nat.le_total res.toBatchNumber (getBatchNumber batch) with hle | hle
    · exact .inl (Nat.max_eq_right hle)
    · exact .inr (by rw [Nat.max_eq_left hle]; exact hto)
  · rintro n (rfl | hn)
    · omega
    · have := hbound n hn
      omega

/-- The loop keeps the sequence of all the numbers read so far. -/
theorem Sequence.Spans.foldl {res : Sequence} {ns : List ℕ} (h : res.Spans ns) (l : List T) :
    (l.foldl (getSequenceStep getBatchNumber) res).Spans (l.map getBatchNumber ++ ns) := by
  induction l generalizing res ns with
  | nil => exact h
  | cons b l ih =>
    refine (ih (h.step getBatchNumber b)).of_mem_iff fun n => ?_
    simp only [List.map_cons, List.cons_append, List.mem_cons, List.mem_append]
    tauto

/-- **`getSequence` of batches is the sequence of their numbers.** -/
theorem getSequence_spans {batches : List T} (hne : batches ≠ []) :
    ∃ s, getSequence batches getBatchNumber = some s ∧ s.Spans (batches.map getBatchNumber) := by
  obtain ⟨b, rest, rfl⟩ := List.exists_cons_of_ne_nil hne
  refine ⟨_, rfl, ?_⟩
  refine ((Sequence.spans_singleton (getBatchNumber b)).foldl getBatchNumber (b :: rest)).of_mem_iff
    fun n => ?_
  simp only [List.map_cons, List.cons_append, List.mem_cons, List.mem_append]
  tauto

end Spans

/-! ## The events -/

/-- The batch numbers an event carries, at a position in range. -/
def batchNumbersOf (event : EventOrder) (l1Block : EthermanBlock) (position : ℕ) : List ℕ :=
  match event with
  | .initialSequenceBatchesOrder | .sequenceBatchesOrder =>
    ((l1Block.sequencedBatches[position]?).getD []).map (·.batchNumber)
  | .forcedBatchesOrder => ((l1Block.forcedBatches[position]?).map (·.forcedBatchNumber)).toList
  | .updateEtrogSequenceOrder => [l1Block.updateEtrogSequence.batchNumber]
  | .sequenceForceBatchesOrder =>
    ((l1Block.sequencedForceBatches[position]?).getD []).map (·.batchNumber)
  | .trustedVerifyBatchOrder => ((l1Block.verifiedBatches[position]?).map (·.batchNumber)).toList
  | _ => []

/-- **The events other than `SequenceForceBatchesOrder` that carry
batches give their sequence**, at a position in range of the block's
list. -/
theorem getSequenceFromL1EventOrder_spans (event : EventOrder) (l1Block : EthermanBlock)
    (position : ℕ) (hevent : event ≠ .sequenceForceBatchesOrder)
    (hne : batchNumbersOf event l1Block position ≠ []) :
    ∃ s, getSequenceFromL1EventOrder event l1Block position = .ok (some s) ∧
      s.Spans (batchNumbersOf event l1Block position) := by
  cases event with
  | initialSequenceBatchesOrder | sequenceBatchesOrder =>
    obtain ⟨batches, hget⟩ : ∃ batches, l1Block.sequencedBatches[position]? = some batches := by
      cases h : l1Block.sequencedBatches[position]? with
      | none => simp [batchNumbersOf, h] at hne
      | some batches => exact ⟨batches, rfl⟩
    simp only [batchNumbersOf, hget, Option.getD_some, ne_eq, List.map_eq_nil_iff] at hne ⊢
    obtain ⟨s, hs, hspans⟩ := getSequence_spans (·.batchNumber) hne
    exact ⟨s, by simp [getSequenceFromL1EventOrder, Outcome.index_of_getElem? hget, hs], hspans⟩
  | forcedBatchesOrder =>
    obtain ⟨batch, hget⟩ : ∃ batch, l1Block.forcedBatches[position]? = some batch := by
      cases h : l1Block.forcedBatches[position]? with
      | none => simp [batchNumbersOf, h] at hne
      | some batch => exact ⟨batch, rfl⟩
    refine ⟨_, by simp [getSequenceFromL1EventOrder, Outcome.index_of_getElem? hget]; rfl, ?_⟩
    simp [batchNumbersOf, hget, Sequence.Spans]
  | trustedVerifyBatchOrder =>
    obtain ⟨batch, hget⟩ : ∃ batch, l1Block.verifiedBatches[position]? = some batch := by
      cases h : l1Block.verifiedBatches[position]? with
      | none => simp [batchNumbersOf, h] at hne
      | some batch => exact ⟨batch, rfl⟩
    refine ⟨_, by simp [getSequenceFromL1EventOrder, Outcome.index_of_getElem? hget]; rfl, ?_⟩
    simp [batchNumbersOf, hget, Sequence.Spans]
  | updateEtrogSequenceOrder => exact ⟨_, rfl, Sequence.spans_singleton _⟩
  | sequenceForceBatchesOrder => exact absurd rfl hevent
  | _ => simp [batchNumbersOf] at hne

/-- **A `SequenceForceBatchesOrder` event is processed with the fork of
its L1 block**: `GetSequenceFromL1EventOrder` returns nil for it, whatever
batches it carries, so `ProcessBlockRange` asks for the fork of the block
number and not of the batch the sequence starts at. -/
theorem forkIdOfEventOrder_sequenceForceBatches (getForkIDByBatchNumber getForkIDByBlockNumber : ℕ → ℕ)
    (l1Block : EthermanBlock) (position : ℕ) (hpos : position < l1Block.sequencedForceBatches.length) :
    getSequenceFromL1EventOrder .sequenceForceBatchesOrder l1Block position = .ok none ∧
      forkIdOfEventOrder getForkIDByBatchNumber getForkIDByBlockNumber
          ⟨.sequenceForceBatchesOrder, position⟩ l1Block =
        .ok (getForkIDByBlockNumber l1Block.blockNumber) := by
  have hnone : getSequenceFromL1EventOrder .sequenceForceBatchesOrder l1Block position = .ok none := by
    simp [getSequenceFromL1EventOrder, Outcome.index_of_lt hpos]
  refine ⟨hnone, ?_⟩
  simp only [forkIdOfEventOrder, hnone, Outcome.ok_bind]
  rfl

/-- A block at an upgrade: its forced batch 10 is of fork 2, the block of
fork 1. -/
def forkUpgradeBlock : EthermanBlock :=
  ⟨100, [], [], ⟨0⟩, [], [[⟨10⟩, ⟨11⟩]]⟩

/-- At `forkUpgradeBlock`, with batches from 10 on in fork 2 and the block
in fork 1, the forced batches 10 and 11 are processed with fork 1. -/
theorem forkIdOfEventOrder_sequenceForceBatches_forkUpgradeBlock :
    (0 < forkUpgradeBlock.sequencedForceBatches.length ∧
      getSequenceFromL1EventOrder .sequenceForceBatchesOrder forkUpgradeBlock 0 = .ok none ∧
      forkIdOfEventOrder (fun b => if 10 ≤ b then 2 else 1) (fun _ => 1)
          ⟨.sequenceForceBatchesOrder, 0⟩ forkUpgradeBlock = .ok 1) ∧
    (fun b => if 10 ≤ b then 2 else 1) 10 = 2 :=
  ⟨⟨by decide, forkIdOfEventOrder_sequenceForceBatches (fun b => if 10 ≤ b then 2 else 1) (fun _ => 1)
    forkUpgradeBlock 0 (by decide)⟩, rfl⟩

end Synchronizer

end XLayerNode
