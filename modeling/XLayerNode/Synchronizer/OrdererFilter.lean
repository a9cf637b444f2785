import XLayerNode.Common.ReleaseBuffer
import XLayerNode.Synchronizer.BlockRange
/-!
# The orderer of rollup info

Workers answer the block ranges of the parallel synchronizer in any order;
`filterToSendOrdererResultsToConsumer` puts their answers back in block
order before they reach the consumer. `filter` appends the arriving message
to `pendingResults`, then sends, one at a time, the first pending data
message whose range starts right after `lastBlockOnSynchronizer`, or a
control message at the front, until there is neither.

One send is a `SendsOne` step: it says once what the loop of
`sendResultIfPossibleUnsafe` can do, and every invariant below is proved
over it. The filter is a release buffer whose control messages leave only
from the front (`reachable_filterAll`), so nothing is lost or sent twice
and a control message never overtakes what arrived before it. Over data
messages whose ranges partition the blocks after the start, every run
sends all of them in block order and ends with nothing pending
(`filterAll_partition`).

`checkValidDataUnsafe` only logs: a data message for blocks already sent
is kept in `pendingResults` like any other.
-/

namespace XLayerNode

namespace Synchronizer

/-- `eventEnum`. -/
inductive EventEnum where
  | eventNone
  | eventStop
  | eventProducerIsFullySynced
  deriving DecidableEq, Repr

/-- `l1ConsumerControl`. -/
structure L1ConsumerControl where
  event : EventEnum
  parameter : ℕ
  deriving DecidableEq, Repr

/-- `rollupInfoByBlockRangeResult`, with each `etherman.Block` as its
`BlockNumber` and `lastBlockOfRange` as its number (`none` for nil). -/
structure RollupInfoByBlockRangeResult where
  blockRange : BlockRange
  blocks : List ℕ
  lastBlockOfRange : Option ℕ
  deriving DecidableEq, Repr

namespace RollupInfoByBlockRangeResult

/-- `getRealHighestBlockNumberInResponse`. -/
def getRealHighestBlockNumberInResponse (r : RollupInfoByBlockRangeResult) : ℕ :=
  let highest := r.blocks.foldl (fun highest n => if n > highest then n else highest)
    invalidBlockNumber
  match r.lastBlockOfRange with
  | some n => if n > highest then n else highest
  | none => highest

/-- `getHighestBlockNumberInResponse`: `toBlock`, unless the range runs to
`latestBlockNumber`; then the highest block received, or `fromBlock - 1`
as a uint64 when there is none. -/
def getHighestBlockNumberInResponse (r : RollupInfoByBlockRangeResult) : ℕ :=
  if r.blockRange.toBlock ≠ latestBlockNumber then r.blockRange.toBlock
  else
    let highestBlock := r.getRealHighestBlockNumberInResponse
    if highestBlock = invalidBlockNumber then (r.blockRange.fromBlock + (2 ^ 64 - 1)) % 2 ^ 64
    else highestBlock

theorem getHighestBlockNumberInResponse_of_ne {r : RollupInfoByBlockRangeResult}
    (h : r.blockRange.toBlock ≠ latestBlockNumber) :
    r.getHighestBlockNumberInResponse = r.blockRange.toBlock := by
  rw [getHighestBlockNumberInResponse, if_pos h]

end RollupInfoByBlockRangeResult

/-- `L1SyncMessage`: data, a control event, or both. -/
structure L1SyncMessage where
  dataIsValid : Bool
  data : RollupInfoByBlockRangeResult
  ctrlIsValid : Bool
  ctrl : L1ConsumerControl
  deriving DecidableEq, Repr

/-- `filterToSendOrdererResultsToConsumer`, its mutex apart. -/
structure FilterToSendOrdererResultsToConsumer where
  lastBlockOnSynchronizer : ℕ
  pendingResults : List L1SyncMessage
  deriving DecidableEq, Repr

/-- `newFilterToSendOrdererResultsToConsumer`. -/
def newFilterToSendOrdererResultsToConsumer (lastBlockOnSynchronizer : ℕ) :
    FilterToSendOrdererResultsToConsumer :=
  ⟨lastBlockOnSynchronizer, []⟩

namespace FilterToSendOrdererResultsToConsumer

/-- `Reset`. -/
def reset (_s : FilterToSendOrdererResultsToConsumer) (lastBlockOnSynchronizer : ℕ) :
    FilterToSendOrdererResultsToConsumer :=
  ⟨lastBlockOnSynchronizer, []⟩

/-- `matchNextBlockUnsafe`: the range starts right after the last block
sent (`lastBlockOnSynchronizer + 1` as a uint64). -/
def matchNextBlockUnsafe (s : FilterToSendOrdererResultsToConsumer)
    (results : RollupInfoByBlockRangeResult) : Bool :=
  decide (results.blockRange.fromBlock = (s.lastBlockOnSynchronizer + 1) % 2 ^ 64)

/-- `setLastBlockOnSynchronizerCorrespondingLatBlockRangeSendUnsafe`. -/
def setLastBlockOnSynchronizerCorrespondingLatBlockRangeSendUnsafe
    (s : FilterToSendOrdererResultsToConsumer) (highestBlockNumber : ℕ) :
    FilterToSendOrdererResultsToConsumer :=
  if highestBlockNumber = invalidBlockNumber then s
  else { s with lastBlockOnSynchronizer := highestBlockNumber }

/-- `addPendingResultUnsafe`. -/
def addPendingResultUnsafe (s : FilterToSendOrdererResultsToConsumer) (results : L1SyncMessage) :
    FilterToSendOrdererResultsToConsumer :=
  { s with pendingResults := s.pendingResults ++ [results] }

/-- `removeIndexFromPendingResultsUnsafe`: keeps the results whose index is
not in `indexToRemove`. -/
def removeIndexFromPendingResultsUnsafe (s : FilterToSendOrdererResultsToConsumer)
    (indexToRemove : List ℕ) : FilterToSendOrdererResultsToConsumer :=
  { s with
    pendingResults := ((s.pendingResults.zipIdx.filter fun p => !indexToRemove.contains p.2).map
      Prod.fst) }

/-- The loop of `sendResultIfPossibleUnsafe`, over the pending results from
index `i` on. It breaks at the first data message that matches, or at a
control message at index 0, and returns the state, the packages, the
indices to remove and `send`. -/
def sendResultLoop (s : FilterToSendOrdererResultsToConsumer)
    (resultListPackages : List L1SyncMessage) :
    List L1SyncMessage → ℕ →
      FilterToSendOrdererResultsToConsumer × List L1SyncMessage × List ℕ × Bool
  | [], _ => (s, resultListPackages, [], false)
  | result :: rest, i =>
    if result.dataIsValid then
      if s.matchNextBlockUnsafe result.data then
        (s.setLastBlockOnSynchronizerCorrespondingLatBlockRangeSendUnsafe
            result.data.getHighestBlockNumberInResponse,
          resultListPackages ++ [result], [i], true)
      else s.sendResultLoop resultListPackages rest (i + 1)
    else if i = 0 then (s, resultListPackages ++ [result], [i], true)
    else s.sendResultLoop resultListPackages rest (i + 1)

variable {s s' : FilterToSendOrdererResultsToConsumer}

@[simp] theorem pendingResults_setLast (h : ℕ) :
    (s.setLastBlockOnSynchronizerCorrespondingLatBlockRangeSendUnsafe h).pendingResults =
      s.pendingResults := by
  unfold setLastBlockOnSynchronizerCorrespondingLatBlockRangeSendUnsafe
  split_ifs <;> rfl

theorem lastBlockOnSynchronizer_setLast {h : ℕ} (hne : h ≠ invalidBlockNumber) :
    (s.setLastBlockOnSynchronizerCorrespondingLatBlockRangeSendUnsafe h).lastBlockOnSynchronizer =
      h := by
  rw [setLastBlockOnSynchronizerCorrespondingLatBlockRangeSendUnsafe, if_neg hne]

theorem removeIndexFromPendingResultsUnsafe_nil : s.removeIndexFromPendingResultsUnsafe [] = s := by
  simp [removeIndexFromPendingResultsUnsafe]

/-- Removing one index from the pending results takes out the result there. -/
theorem removeIndexFromPendingResultsUnsafe_singleton {P₁ P₂ : List L1SyncMessage}
    {x : L1SyncMessage} (h : s.pendingResults = P₁ ++ x :: P₂) :
    s.removeIndexFromPendingResultsUnsafe [P₁.length] = { s with pendingResults := P₁ ++ P₂ } := by
  -- indices below and above the removed one are all kept
  have hkeep : ∀ (l : List L1SyncMessage) (k : ℕ), (P₁.length < k ∨ k + l.length ≤ P₁.length) →
      (l.zipIdx k).filter (fun p => !([P₁.length] : List ℕ).contains p.2) = l.zipIdx k := by
    intro l k hk
    rw [List.filter_eq_self]
    rintro ⟨y, j⟩ hj
    have := List.mem_zipIdx hj
    simp only [List.contains_cons, List.contains_nil, Bool.or_false, Bool.not_eq_eq_eq_not,
      Bool.not_true, beq_eq_false_iff_ne, ne_eq]
    omega
  simp only [removeIndexFromPendingResultsUnsafe, h, List.zipIdx_append]
  rw [List.filter_append, hkeep P₁ 0 (.inr (by simp)), List.zipIdx_cons, List.filter_cons,
    hkeep P₂ _ (.inl (by omega))]
  simp

/-! ## One send -/

/-- One send of `sendResultIfPossibleUnsafe`: the first pending data message
that matches the next block, or a control message at the front. -/
inductive SendsOne : FilterToSendOrdererResultsToConsumer → L1SyncMessage →
    FilterToSendOrdererResultsToConsumer → Prop
  | data {s : FilterToSendOrdererResultsToConsumer} {P₁ P₂ : List L1SyncMessage}
      {x : L1SyncMessage} :
      s.pendingResults = P₁ ++ x :: P₂ →
      (∀ y ∈ P₁, y.dataIsValid = true → s.matchNextBlockUnsafe y.data = false) →
      (∀ y ∈ P₁.head?, y.dataIsValid = true) →
      x.dataIsValid = true → s.matchNextBlockUnsafe x.data = true →
      SendsOne s x { s.setLastBlockOnSynchronizerCorrespondingLatBlockRangeSendUnsafe
        x.data.getHighestBlockNumberInResponse with pendingResults := P₁ ++ P₂ }
  | ctrl {s : FilterToSendOrdererResultsToConsumer} {P₂ : List L1SyncMessage}
      {x : L1SyncMessage} :
      s.pendingResults = x :: P₂ → x.dataIsValid = false →
      SendsOne s x { s with pendingResults := P₂ }

/-- Nothing pending can be sent: no data message matches the next block,
and the first pending result is not a control message. -/
def Quiet (s : FilterToSendOrdererResultsToConsumer) : Prop :=
  (∀ y ∈ s.pendingResults, y.dataIsValid = true → s.matchNextBlockUnsafe y.data = false) ∧
    ∀ y ∈ s.pendingResults.head?, y.dataIsValid = true

instance : DecidablePred Quiet := fun _ => inferInstanceAs (Decidable (_ ∧ _))

/-- **A loop that breaks nowhere sends nothing**, and then nothing
pending could have been sent. -/
theorem sendResultLoop_of_not_send {pkgs pkgs' : List L1SyncMessage} {idx : List ℕ} :
    ∀ (P : List L1SyncMessage) (i : ℕ), s.sendResultLoop pkgs P i = (s', pkgs', idx, false) →
      s' = s ∧ pkgs' = pkgs ∧ idx = [] ∧
        (∀ y ∈ P, y.dataIsValid = true → s.matchNextBlockUnsafe y.data = false) ∧
        (i = 0 → ∀ y ∈ P.head?, y.dataIsValid = true)
  | [], i, h => by
    simp only [sendResultLoop, Prod.mk.injEq] at h
    obtain ⟨rfl, rfl, rfl, -⟩ := h
    simp
  | result :: rest, i, h => by
    unfold sendResultLoop at h
    by_cases hd : result.dataIsValid = true
    · by_cases hm : s.matchNextBlockUnsafe result.data = true
      · simp [hd, hm] at h
      · rw [if_pos hd, if_neg hm] at h
        obtain ⟨rfl, rfl, rfl, hrest, -⟩ := sendResultLoop_of_not_send rest (i + 1) h
        refine ⟨rfl, rfl, rfl, ?_, fun _ => by simpa using hd⟩
        intro y hy hyd
        rcases List.mem_cons.mp hy with rfl | hy
        · simpa using hm
        · exact hrest y hy hyd
    · have hi : i ≠ 0 := by
        intro hi
        simp [hd, hi] at h
      rw [if_neg hd, if_neg hi] at h
      obtain ⟨rfl, rfl, rfl, hrest, -⟩ := sendResultLoop_of_not_send rest (i + 1) h
      refine ⟨rfl, rfl, rfl, ?_, fun hi' => absurd hi' hi⟩
      intro y hy hyd
      rcases List.mem_cons.mp hy with rfl | hy
      · exact absurd hyd hd
      · exact hrest y hy hyd

/-- **A loop that breaks sends one result**: the first data message that
matches, or a control message at index 0. -/
theorem sendResultLoop_of_send {pkgs pkgs' : List L1SyncMessage} {idx : List ℕ} :
    ∀ (P : List L1SyncMessage) (i : ℕ), s.sendResultLoop pkgs P i = (s', pkgs', idx, true) →
      ∃ P₁ x P₂, P = P₁ ++ x :: P₂ ∧ idx = [i + P₁.length] ∧ pkgs' = pkgs ++ [x] ∧
        (∀ y ∈ P₁, y.dataIsValid = true → s.matchNextBlockUnsafe y.data = false) ∧
        (i = 0 → ∀ y ∈ P₁.head?, y.dataIsValid = true) ∧
        ((x.dataIsValid = true ∧ s.matchNextBlockUnsafe x.data = true ∧
            s' = s.setLastBlockOnSynchronizerCorrespondingLatBlockRangeSendUnsafe
              x.data.getHighestBlockNumberInResponse) ∨
          (x.dataIsValid = false ∧ i = 0 ∧ P₁ = [] ∧ s' = s))
  | [], i, h => by simp [sendResultLoop] at h
  | result :: rest, i, h => by
    unfold sendResultLoop at h
    by_cases hd : result.dataIsValid = true
    · by_cases hm : s.matchNextBlockUnsafe result.data = true
      · -- the loop breaks here at a matching data message
        rw [if_pos hd, if_pos hm, Prod.mk.injEq, Prod.mk.injEq] at h
        obtain ⟨rfl, rfl, rfl, -⟩ := h
        exact ⟨[], result, rest, rfl, rfl, rfl, by simp, by simp, .inl ⟨hd, hm, rfl⟩⟩
      · rw [if_pos hd, if_neg hm] at h
        obtain ⟨P₁, x, P₂, rfl, rfl, rfl, hfirst, -, hx⟩ := sendResultLoop_of_send rest (i + 1) h
        refine ⟨result :: P₁, x, P₂, rfl, by simp; omega, rfl, ?_, fun _ => by simpa using hd, ?_⟩
        · intro y hy hyd
          rcases List.mem_cons.mp hy with rfl | hy
          · simpa using hm
          · exact hfirst y hy hyd
        · rcases hx with hx | ⟨-, hi, -⟩
          · exact .inl hx
          · omega
    · by_cases hi : i = 0
      · -- a control message at index 0
        rw [if_neg hd, if_pos hi, Prod.mk.injEq, Prod.mk.injEq] at h
        obtain ⟨rfl, rfl, rfl, -⟩ := h
        exact ⟨[], result, rest, rfl, by simp, rfl, by simp, by simp,
          .inr ⟨by simpa using hd, hi, rfl, rfl⟩⟩
      · rw [if_neg hd, if_neg hi] at h
        obtain ⟨P₁, x, P₂, rfl, rfl, rfl, hfirst, -, hx⟩ := sendResultLoop_of_send rest (i + 1) h
        refine ⟨result :: P₁, x, P₂, rfl, by simp; omega, rfl, ?_, fun hi' => absurd hi' hi, ?_⟩
        · intro y hy hyd
          rcases List.mem_cons.mp hy with rfl | hy
          · exact absurd hyd hd
          · exact hfirst y hy hyd
        · rcases hx with hx | ⟨-, hi', -⟩
          · exact .inl hx
          · omega

/-- A loop that breaks is one `SendsOne` step, once the index is removed. -/
theorem sendsOne_of_sendResultLoop {pkgs pkgs' : List L1SyncMessage} {idx : List ℕ}
    (h : s.sendResultLoop pkgs s.pendingResults 0 = (s', pkgs', idx, true)) :
    ∃ x, pkgs' = pkgs ++ [x] ∧ SendsOne s x (s'.removeIndexFromPendingResultsUnsafe idx) := by
  obtain ⟨P₁, x, P₂, hP, rfl, rfl, hfirst, hhead, hx⟩ := sendResultLoop_of_send _ 0 h
  refine ⟨x, rfl, ?_⟩
  rcases hx with ⟨hd, hm, rfl⟩ | ⟨hd, -, rfl, rfl⟩
  · rw [Nat.zero_add, removeIndexFromPendingResultsUnsafe_singleton (by rw [pendingResults_setLast, hP])]
    exact SendsOne.data hP hfirst (hhead rfl) hd hm
  · rw [Nat.zero_add, removeIndexFromPendingResultsUnsafe_singleton hP]
    exact SendsOne.ctrl hP hd

theorem SendsOne.length_lt {x : L1SyncMessage} (h : SendsOne s x s') :
    s'.pendingResults.length < s.pendingResults.length := by
  cases h with
  | data hP => simp [hP]
  | ctrl hP => simp [hP]

/-- A quiet filter cannot send. -/
theorem Quiet.not_sendsOne {x : L1SyncMessage} (hq : Quiet s) : ¬ SendsOne s x s' := by
  intro h
  cases h with
  | data hP hfirst hhead hd hm =>
    have := hq.1 x (by simp [hP]) hd
    rw [hm] at this
    cases this
  | ctrl hP hd =>
    have := hq.2 x (by simp [hP])
    rw [hd] at this
    cases this

set_option linter.unusedVariables false in
/-- `sendResultIfPossibleUnsafe`: a pass of the loop, the index it broke at
removed, and another pass after every pass that sent. -/
def sendResultIfPossibleUnsafe (s : FilterToSendOrdererResultsToConsumer)
    (previous : List L1SyncMessage) : FilterToSendOrdererResultsToConsumer × List L1SyncMessage :=
  match hloop : s.sendResultLoop previous s.pendingResults 0 with
  | (s', resultListPackages, indexToRemove, send) =>
    let s'' := s'.removeIndexFromPendingResultsUnsafe indexToRemove
    if hsend : send then s''.sendResultIfPossibleUnsafe resultListPackages
    else (s'', resultListPackages)
termination_by s.pendingResults.length
decreasing_by
  subst hsend
  obtain ⟨x, -, hx⟩ := sendsOne_of_sendResultLoop hloop
  exact hx.length_lt

/-- **What a call of `sendResultIfPossibleUnsafe` does**: `SendsOne` steps,
each appending the result it sends, until the filter is quiet. So what
every send keeps holds of the call. -/
theorem sendResultIfPossibleUnsafe_induction
    (I : List L1SyncMessage → FilterToSendOrdererResultsToConsumer → Prop)
    (hsend : ∀ O f x f', SendsOne f x f' → I O f → I (O ++ [x]) f')
    (s : FilterToSendOrdererResultsToConsumer) (previous : List L1SyncMessage)
    (hI : I previous s) :
    I (s.sendResultIfPossibleUnsafe previous).2 (s.sendResultIfPossibleUnsafe previous).1 ∧
      Quiet (s.sendResultIfPossibleUnsafe previous).1 := by
  rw [sendResultIfPossibleUnsafe]
  split
  next s' pkgs idx send hloop =>
    cases send with
    | false =>
      obtain ⟨rfl, rfl, rfl, hq, hhead⟩ := sendResultLoop_of_not_send _ 0 hloop
      simp only [Bool.false_eq_true, ↓reduceDIte, removeIndexFromPendingResultsUnsafe_nil]
      exact ⟨hI, hq, hhead rfl⟩
    | true =>
      obtain ⟨x, rfl, hx⟩ := sendsOne_of_sendResultLoop hloop
      simp only [↓reduceDIte]
      exact sendResultIfPossibleUnsafe_induction I hsend _ _ (hsend _ _ _ _ hx hI)
termination_by s.pendingResults.length
decreasing_by exact hx.length_lt

/-- A quiet filter sends nothing. -/
theorem sendResultIfPossibleUnsafe_of_quiet (hq : Quiet s) (previous : List L1SyncMessage) :
    s.sendResultIfPossibleUnsafe previous = (s, previous) := by
  rw [sendResultIfPossibleUnsafe]
  split
  next s' pkgs idx send hloop =>
    cases send with
    | false =>
      obtain ⟨rfl, rfl, rfl, -⟩ := sendResultLoop_of_not_send _ 0 hloop
      simp [removeIndexFromPendingResultsUnsafe_nil]
    | true =>
      obtain ⟨x, -, hx⟩ := sendsOne_of_sendResultLoop hloop
      exact absurd hx hq.not_sendsOne

/-- `Filter`. `checkValidDataUnsafe` only logs, so the message joins
`pendingResults` whatever its range. -/
def filter (s : FilterToSendOrdererResultsToConsumer) (data : L1SyncMessage) :
    FilterToSendOrdererResultsToConsumer × List L1SyncMessage :=
  (s.addPendingResultUnsafe data).sendResultIfPossibleUnsafe []

/-- Messages handed to `Filter` one after another, and everything the calls
return, in order. -/
def filterAll (s : FilterToSendOrdererResultsToConsumer) :
    List L1SyncMessage → FilterToSendOrdererResultsToConsumer × List L1SyncMessage
  | [] => (s, [])
  | data :: rest =>
    let r := s.filter data
    let r' := r.1.filterAll rest
    (r'.1, r.2 ++ r'.2)

/-- **The run rule.** What holds of the arrivals, the output and the state,
and is kept by an arrival and by each send, holds after every run; and a
run that starts quiet ends quiet. -/
theorem filterAll_induction
    (I : List L1SyncMessage → List L1SyncMessage → FilterToSendOrdererResultsToConsumer → Prop)
    (harrive : ∀ H O f m, I H O f → I (H ++ [m]) O (f.addPendingResultUnsafe m))
    (hsend : ∀ H O f x f', SendsOne f x f' → I H O f → I H (O ++ [x]) f') :
    ∀ (A H O : List L1SyncMessage) (f : FilterToSendOrdererResultsToConsumer), I H O f →
      I (H ++ A) (O ++ (f.filterAll A).2) (f.filterAll A).1 ∧
        (Quiet f → Quiet (f.filterAll A).1)
  | [], H, O, f, hI => by simpa [filterAll] using hI
  | m :: A, H, O, f, hI => by
    -- the call on `m`, then the rest of the run from where it leaves the filter
    obtain ⟨hI₁, hq₁⟩ := sendResultIfPossibleUnsafe_induction
      (fun O' f' => I (H ++ [m]) (O ++ O') f')
      (fun O' f' x f'' hx hI' => by simpa using hsend _ _ _ _ _ hx hI')
      (f.addPendingResultUnsafe m) [] (by simpa using harrive H O f m hI)
    obtain ⟨hI₂, hq₂⟩ := filterAll_induction I harrive hsend A (H ++ [m])
      (O ++ (f.filter m).2) (f.filter m).1 hI₁
    refine ⟨by simpa [filterAll] using hI₂, fun _ => by simpa [filterAll] using hq₂ hq₁⟩

/-! ## The filter is a release buffer -/

/-- A send is a release: a data message from anywhere, a control message
from the front. -/
theorem SendsOne.reachable {x : L1SyncMessage} {H O : List L1SyncMessage} (h : SendsOne s x s')
    (hr : ReleaseBuffer.Reachable (fun m : L1SyncMessage => m.dataIsValid = false) H O
      s.pendingResults) :
    ReleaseBuffer.Reachable (fun m : L1SyncMessage => m.dataIsValid = false) H (O ++ [x])
      s'.pendingResults := by
  cases h with
  | data hP _ _ hd =>
    rw [hP] at hr
    exact hr.release x fun hx => absurd (hd.symm.trans hx) (by decide)
  | ctrl hP =>
    rw [hP] at hr
    exact ReleaseBuffer.Reachable.release x (hr : ReleaseBuffer.Reachable _ H O ([] ++ x :: _))
      fun _ => rfl

/-- **Every run of `Filter` is a run of a release buffer whose control
messages leave only from the front.** -/
theorem reachable_filterAll (lastBlock : ℕ) (A : List L1SyncMessage) :
    ReleaseBuffer.Reachable (fun m : L1SyncMessage => m.dataIsValid = false) A
      ((newFilterToSendOrdererResultsToConsumer lastBlock).filterAll A).2
      ((newFilterToSendOrdererResultsToConsumer lastBlock).filterAll A).1.pendingResults := by
  have := (filterAll_induction
    (fun H O f => ReleaseBuffer.Reachable (fun m : L1SyncMessage => m.dataIsValid = false) H O
      f.pendingResults)
    (fun _ _ _ m hr => hr.arrive m) (fun _ _ _ _ _ hx hr => hx.reachable hr)
    A [] [] (newFilterToSendOrdererResultsToConsumer lastBlock) .nil).1
  simpa using this

/-! ## A partition of the blocks, sent in order -/

/-- Ranges that cover the blocks after `s` up to `t`, each starting right
after the one before it. -/
inductive Partition : ℕ → ℕ → List BlockRange → Prop
  | nil (s : ℕ) : Partition s s []
  | cons {s t : ℕ} {r : BlockRange} {rs : List BlockRange} :
      r.fromBlock = s + 1 → r.fromBlock ≤ r.toBlock → Partition r.toBlock t rs →
        Partition s t (r :: rs)

theorem Partition.le {s t : ℕ} {rs : List BlockRange} (h : Partition s t rs) : s ≤ t := by
  induction h with
  | nil => exact le_rfl
  | cons hfrom hle _ ih => omega

theorem Partition.lt {s t : ℕ} {rs : List BlockRange} (h : Partition s t rs) (hne : rs ≠ []) :
    s < t := by
  cases h with
  | nil => exact absurd rfl hne
  | cons hfrom hle hrest => have := hrest.le; omega

/-- Every range of a partition starts after its start. -/
theorem Partition.lt_fromBlock {s t : ℕ} {rs : List BlockRange} (h : Partition s t rs) :
    ∀ r ∈ rs, s < r.fromBlock := by
  induction h with
  | nil => simp
  | @cons s t r rs hfrom hle _ ih =>
    intro r' hr'
    rcases List.mem_cons.mp hr' with rfl | hr'
    · omega
    · have := ih r' hr'
      omega

/-- **The ranges of a partition start in increasing order.** -/
theorem Partition.pairwise {s t : ℕ} {rs : List BlockRange} (h : Partition s t rs) :
    rs.Pairwise fun a b => a.fromBlock < b.fromBlock := by
  induction h with
  | nil => exact List.Pairwise.nil
  | @cons s t r rs hfrom hle hrest ih =>
    refine List.Pairwise.cons (fun r' hr' => ?_) ih
    have := hrest.lt_fromBlock r' hr'
    omega

variable {s t : ℕ} {ms : List L1SyncMessage}

/-- The one message of a partition that starts right after its start is
its first. -/
theorem Partition.eq_cons_of_mem (h : Partition s t (ms.map (·.data.blockRange)))
    {x : L1SyncMessage} (hx : x ∈ ms) (hfrom : x.data.blockRange.fromBlock = s + 1) :
    ∃ ms', ms = x :: ms' := by
  cases ms with
  | nil => simp at hx
  | cons m ms' =>
    rw [List.map_cons] at h
    cases h with
    | cons hm hle hrest =>
      rcases List.mem_cons.mp hx with rfl | hx'
      · exact ⟨ms', rfl⟩
      · have := hrest.lt_fromBlock _ (List.mem_map_of_mem hx')
        omega

/-- **Each message of a partition of blocks below `2 ^ 64` starts right
after the highest block of the one before it.** Only the last range can run
to `latestBlockNumber`. -/
theorem Partition.isChain (ht : t < 2 ^ 64) (h : Partition s t (ms.map (·.data.blockRange))) :
    List.IsChain (fun a b : L1SyncMessage =>
      b.data.blockRange.fromBlock = a.data.getHighestBlockNumberInResponse + 1) ms := by
  induction ms generalizing s with
  | nil => exact List.IsChain.nil
  | cons m ms ih =>
    rw [List.map_cons] at h
    cases h with
    | cons hm hle hrest =>
      cases ms with
      | nil => exact List.IsChain.singleton m
      | cons m' ms' =>
        have hlt := hrest.lt (by simp)
        refine List.IsChain.cons_cons ?_ (ih hrest)
        rw [RollupInfoByBlockRangeResult.getHighestBlockNumberInResponse_of_ne
          (by unfold latestBlockNumber; omega)]
        rw [List.map_cons] at hrest
        cases hrest with
        | cons hm' _ _ => exact hm'

/-- The data messages sent so far are the first ones of `dms`, and the
others partition the blocks after the last one sent, up to `t`. -/
def SentPrefix (dms : List L1SyncMessage) (t : ℕ) (O : List L1SyncMessage)
    (f : FilterToSendOrdererResultsToConsumer) : Prop :=
  ∃ rest, dms = O.filter (·.dataIsValid) ++ rest ∧
    (rest = [] ∨ Partition f.lastBlockOnSynchronizer t (rest.map (·.data.blockRange)))

/-- A data message that matches the next block of a partition starts right
after the last block sent. -/
theorem fromBlock_of_matchNextBlockUnsafe {f : FilterToSendOrdererResultsToConsumer}
    {x : L1SyncMessage} (ht : t < 2 ^ 64) (hlt : f.lastBlockOnSynchronizer < t) :
    f.matchNextBlockUnsafe x.data = true ↔
      x.data.blockRange.fromBlock = f.lastBlockOnSynchronizer + 1 := by
  rw [matchNextBlockUnsafe, decide_eq_true_iff, Nat.mod_eq_of_lt (by omega)]

/-- **A send keeps the sent data a prefix of the partition.** The message
sent is pending, so one of the rest; it matches, so it is the first of
them; and the last block sent moves to its end. -/
theorem SentPrefix.send {dms O : List L1SyncMessage} {f f' : FilterToSendOrdererResultsToConsumer}
    {x : L1SyncMessage} (ht : t < 2 ^ 64) (hsent : SentPrefix dms t O f) (hx : SendsOne f x f')
    (hsub : List.Subperm ((O ++ f.pendingResults).filter (·.dataIsValid)) dms) :
    SentPrefix dms t (O ++ [x]) f' := by
  obtain ⟨rest, hdms, hrest⟩ := hsent
  cases hx with
  | ctrl hP hd => exact ⟨rest, by simp [hd, hdms], hrest⟩
  | data hP _ _ hd hm =>
    have hxrest : x ∈ rest := by
      rw [hdms, List.filter_append, List.subperm_append_left] at hsub
      exact hsub.subset (by simp [hP, hd])
    rcases hrest with rfl | hpart
    · simp at hxrest
    · have hlt := hpart.lt (by simpa using List.ne_nil_of_mem hxrest)
      obtain ⟨rest', rfl⟩ :=
        hpart.eq_cons_of_mem hxrest ((fromBlock_of_matchNextBlockUnsafe ht hlt).1 hm)
      rw [List.map_cons] at hpart
      refine ⟨rest', by simp [hdms, hd], ?_⟩
      cases hpart with
      | cons hfrom hle hrest' =>
        rcases rest' with _ | ⟨y, rest''⟩
        · exact .inl rfl
        · -- a range followed by another ends below `latestBlockNumber`
          have hto := hrest'.lt (by simp)
          have hhigh := RollupInfoByBlockRangeResult.getHighestBlockNumberInResponse_of_ne
            (r := x.data) (by unfold latestBlockNumber; omega)
          refine .inr ?_
          simp only [hhigh]
          rw [lastBlockOnSynchronizer_setLast (by unfold invalidBlockNumber; omega)]
          exact hrest'

/-- **A run over arrivals whose data messages are among a partition sends
a prefix of it.** The buffer law carries the arrivals; the prefix holds
once they are among `dms`. -/
theorem sentPrefix_filterAll {dms : List L1SyncMessage} (ht : t < 2 ^ 64)
    (hpart : Partition s t (dms.map (·.data.blockRange))) (A : List L1SyncMessage)
    (hA : List.Subperm (A.filter (·.dataIsValid)) dms) :
    SentPrefix dms t ((newFilterToSendOrdererResultsToConsumer s).filterAll A).2
      ((newFilterToSendOrdererResultsToConsumer s).filterAll A).1 := by
  have := (filterAll_induction
    (fun (H O : List L1SyncMessage) (f : FilterToSendOrdererResultsToConsumer) =>
      ReleaseBuffer.Reachable (fun m : L1SyncMessage => m.dataIsValid = false) H O
        f.pendingResults ∧
      (List.Subperm (H.filter fun m : L1SyncMessage => m.dataIsValid) dms → SentPrefix dms t O f))
    (fun H _ _ m hI => ⟨hI.1.arrive m, fun hsub => hI.2
      (((List.sublist_append_left H [m]).filter _).subperm.trans hsub)⟩)
    (fun _ _ _ _ _ hx hI => ⟨hx.reachable hI.1, fun hsub =>
      (hI.2 hsub).send ht hx ((hI.1.perm.filter _).subperm.trans hsub)⟩)
    A [] [] (newFilterToSendOrdererResultsToConsumer s)
    ⟨.nil, fun _ => ⟨dms, by simp, .inr hpart⟩⟩).1
  exact this.2 (by simpa using hA)

theorem quiet_filterAll (A : List L1SyncMessage) :
    Quiet ((newFilterToSendOrdererResultsToConsumer s).filterAll A).1 :=
  (filterAll_induction (fun _ _ _ => True) (fun _ _ _ _ _ => trivial)
    (fun _ _ _ _ _ _ _ => trivial) A [] [] _ trivial).2 ⟨by simp [newFilterToSendOrdererResultsToConsumer],
      by simp [newFilterToSendOrdererResultsToConsumer]⟩

variable {f : FilterToSendOrdererResultsToConsumer}

/-- A quiet filter holds no data message that starts right after the last
block sent. -/
theorem Quiet.fromBlock_ne (hq : Quiet f) {y : L1SyncMessage} (hy : y ∈ f.pendingResults)
    (hd : y.dataIsValid = true) (hlt : f.lastBlockOnSynchronizer + 1 < 2 ^ 64) :
    y.data.blockRange.fromBlock ≠ f.lastBlockOnSynchronizer + 1 := by
  intro hfrom
  have := hq.1 y hy hd
  rw [matchNextBlockUnsafe, Nat.mod_eq_of_lt hlt, hfrom] at this
  simp at this

/-- A quiet filter that holds no data message holds nothing: a control
message at the front would have been sent. -/
theorem Quiet.eq_nil (hq : Quiet f) (h : f.pendingResults.filter (·.dataIsValid) = []) :
    f.pendingResults = [] := by
  cases hP : f.pendingResults with
  | nil => rfl
  | cons y P =>
    have hy := hq.2 y (by simp [hP])
    rw [hP, List.filter_cons_of_pos hy] at h
    cases h

/-- What the orderer promises of a run over the arrivals `A` whose data
messages are `dms`: every message out exactly once, the data in block
order, each starting right after the highest block of the one before it,
no control message ahead of anything that arrived before it, and nothing
left pending. -/
structure DeliversInOrder (A dms : List L1SyncMessage) (f : FilterToSendOrdererResultsToConsumer)
    (O : List L1SyncMessage) : Prop where
  pendingResults_eq_nil : f.pendingResults = []
  perm : List.Perm O A
  data_eq : O.filter (·.dataIsValid) = dms
  pairwise : (O.filter (·.dataIsValid)).Pairwise fun a b =>
    a.data.blockRange.fromBlock < b.data.blockRange.fromBlock
  isChain : List.IsChain (fun a b : L1SyncMessage =>
    b.data.blockRange.fromBlock = a.data.getHighestBlockNumberInResponse + 1)
      (O.filter (·.dataIsValid))
  ctrl_after : ∀ A₁ c A₂, A = A₁ ++ c :: A₂ → c.dataIsValid = false →
    ∃ O₁ O₂, O = O₁ ++ c :: O₂ ∧ List.Subperm A₁ O₁

/-- **The orderer delivers a partition of the blocks in order, whatever
the order the data arrives in and the control messages between them.**
What is pending at the end is the rest of the partition; the filter is
quiet, so the first of the rest would have been sent, and there is none. -/
theorem filterAll_partition (ht : t < 2 ^ 64) {dms : List L1SyncMessage}
    (hpart : Partition s t (dms.map (·.data.blockRange))) {A : List L1SyncMessage}
    (harr : List.Perm (A.filter (·.dataIsValid)) dms) :
    DeliversInOrder A dms ((newFilterToSendOrdererResultsToConsumer s).filterAll A).1
      ((newFilterToSendOrdererResultsToConsumer s).filterAll A).2 := by
  have hreach := reachable_filterAll s A
  have hquiet := quiet_filterAll (s := s) A
  obtain ⟨rest, hdms, hrest⟩ := sentPrefix_filterAll ht hpart A harr.subperm
  generalize (newFilterToSendOrdererResultsToConsumer s).filterAll A = r at hreach hquiet hdms hrest ⊢
  obtain ⟨f, O⟩ := r
  dsimp only at hreach hquiet hdms hrest ⊢
  -- the data still pending are the rest of the partition
  have hpend : List.Perm (f.pendingResults.filter (·.dataIsValid)) rest := by
    have h := (hreach.perm.filter (·.dataIsValid)).trans harr
    rw [List.filter_append, hdms] at h
    exact (List.perm_append_left_iff _).1 h
  -- and there are none: the first would start right after the last block sent
  have hrest_nil : rest = [] := by
    rcases hrest with h | hpart'
    · exact h
    · cases rest with
      | nil => rfl
      | cons y rest' =>
        have hy := List.mem_filter.mp (hpend.symm.subset List.mem_cons_self)
        have hlt := hpart'.lt (by simp)
        rw [List.map_cons] at hpart'
        cases hpart' with
        | cons hfrom _ _ => exact absurd hfrom (hquiet.fromBlock_ne hy.1 hy.2 (by omega))
  subst hrest_nil
  have hP : f.pendingResults = [] := hquiet.eq_nil (List.Perm.eq_nil hpend)
  have hOdata : O.filter (·.dataIsValid) = dms := by rw [hdms, List.append_nil]
  rw [hP] at hreach
  refine ⟨hP, by simpa using hreach.perm, hOdata, ?_, ?_,
    fun A₁ c A₂ hA hc => hreach.released_after hA hc⟩
  · rw [hOdata]
    exact List.Pairwise.of_map (fun m : L1SyncMessage => m.data.blockRange) (fun _ _ h => h)
      hpart.pairwise
  · rw [hOdata]
    exact hpart.isChain ht

/-- Two ranges that partition the blocks after 100 up to 130. -/
def rangeMessage (fromBlock toBlock : ℕ) : L1SyncMessage :=
  ⟨true, ⟨⟨fromBlock, toBlock⟩, [], none⟩, false, ⟨.eventNone, 0⟩⟩

/-- A control message, carrying no data. -/
def fullySyncedMessage : L1SyncMessage :=
  ⟨false, ⟨⟨0, 0⟩, [], none⟩, true, ⟨.eventProducerIsFullySynced, 130⟩⟩

theorem filterAll_partition_reversed :
    Partition 100 130 ([rangeMessage 101 119, rangeMessage 120 130].map (·.data.blockRange)) ∧
      DeliversInOrder [rangeMessage 120 130, fullySyncedMessage, rangeMessage 101 119]
        [rangeMessage 101 119, rangeMessage 120 130]
        ((newFilterToSendOrdererResultsToConsumer 100).filterAll
          [rangeMessage 120 130, fullySyncedMessage, rangeMessage 101 119]).1
        ((newFilterToSendOrdererResultsToConsumer 100).filterAll
          [rangeMessage 120 130, fullySyncedMessage, rangeMessage 101 119]).2 := by
  have hpart : Partition 100 130
      ([rangeMessage 101 119, rangeMessage 120 130].map (·.data.blockRange)) :=
    .cons rfl (by decide) (.cons rfl (by decide) (.nil 130))
  exact ⟨hpart, filterAll_partition (by decide) hpart (by decide)⟩

/-- **A data message for blocks already sent is kept**: a quiet filter
sends nothing on it and holds it. -/
theorem filter_of_stale (hq : Quiet f) {m : L1SyncMessage} (hd : m.dataIsValid = true)
    (hstale : m.data.blockRange.fromBlock ≤ f.lastBlockOnSynchronizer)
    (hlt : f.lastBlockOnSynchronizer + 1 < 2 ^ 64) :
    f.filter m = (f.addPendingResultUnsafe m, []) := by
  refine sendResultIfPossibleUnsafe_of_quiet ⟨fun y hy hyd => ?_, fun y hy => ?_⟩ []
  · simp only [addPendingResultUnsafe, List.mem_append, List.mem_singleton] at hy
    rcases hy with hy | rfl
    · exact hq.1 y hy hyd
    · dsimp only [matchNextBlockUnsafe, addPendingResultUnsafe]
      rw [Nat.mod_eq_of_lt hlt, decide_eq_false_iff_not]
      omega
  · cases hP : f.pendingResults with
    | nil => simp_all [addPendingResultUnsafe]
    | cons z P => exact hq.2 y (by simp_all [addPendingResultUnsafe])

/-- A message for blocks 50 to 60. -/
def staleMessage : L1SyncMessage := rangeMessage 50 60

theorem filterAll_keeps_stale_message :
    (newFilterToSendOrdererResultsToConsumer 100).filterAll [staleMessage, fullySyncedMessage] =
      (⟨100, [staleMessage, fullySyncedMessage]⟩, []) := by
  have h₁ : (newFilterToSendOrdererResultsToConsumer 100).filter staleMessage =
      (⟨100, [staleMessage]⟩, []) :=
    filter_of_stale (by decide) rfl (by decide) (by decide)
  have h₂ : (⟨100, [staleMessage]⟩ : FilterToSendOrdererResultsToConsumer).filter
      fullySyncedMessage = (⟨100, [staleMessage, fullySyncedMessage]⟩, []) :=
    sendResultIfPossibleUnsafe_of_quiet (by decide) []
  simp [filterAll, h₁, h₂]

end FilterToSendOrdererResultsToConsumer

end Synchronizer

end XLayerNode
