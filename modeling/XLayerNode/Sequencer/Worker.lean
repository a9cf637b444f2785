import XLayerNode.Sequencer.AddrQueue
import XLayerNode.Common.GoSort
/-!
# The worker

`Worker` keeps a queue per sender (`pool`) and the ready transactions of
all of them in `txSortedList`, by gas price. Every call that changes a
queue mirrors the change into the sorted list through the pair the queue
returns: it deletes `prevReadyTx` and adds `newReadyTx` (`mirrorReady`).
The calls are taken one at a time, as the worker's mutex makes them; the
window in which `AddTxTracker` creates a queue without the mutex is taken
as part of the call.

`Inv` is what holds between calls: the sorted list is sorted with distinct
hashes, every queue is as the worker needs it (`QueueInv`), and a
transaction is in the sorted list exactly when it is the ready transaction
of the queue of its sender. The sender is a function of the hash, as a
transaction hash commits to its signature. Every call keeps `Inv`
(`Inv.event`), through one lemma for a queue changed at one address
(`Inv.update`), so it holds in every state reached from `NewWorker`
(`txSortedList_eq_ready_set`).
-/

namespace XLayerNode

namespace Sequencer

/-- The reasons `addTxTracker` drops a transaction. -/
inductive DropReason where
  /-- `pool.ErrInvalidIP`. -/
  | invalidIP
  /-- `pool.ErrOutOfCounters`: the reserved counters are over the node-level limits. -/
  | outOfCounters
  /-- An error of the state while creating the queue: the root, the nonce or the balance. -/
  | stateError
  /-- An error of `addTx`; `ErrDuplicatedNonce` also for a transaction of the sender and
  nonce of `wipTx`. -/
  | addTx (e : AddTxError)
  deriving DecidableEq, Repr

/-- The errors of `GetBestFittingTx`. -/
inductive BestFittingError where
  /-- `ErrTransactionsListEmpty`. -/
  | transactionsListEmpty
  /-- `ErrNoFittingTransaction`. -/
  | noFittingTransaction
  deriving DecidableEq, Repr

/-- `state.InfoReadWrite`: the nonce and the balance the executor reports
for a touched address, each possibly nil. -/
structure InfoReadWrite where
  nonce : Option ℕ
  balance : Option ℕ
  deriving DecidableEq, Repr

/-- `Worker`, without its mutex, its state interface and its counters. -/
structure Worker where
  pool : AList fun _ : ℕ => AddrQueue
  txSortedList : TxSortedList
  pendingToStore : List TxTracker
  reorgedTxs : List TxTracker
  wipTx : Option TxTracker

/-- `NewWorker`. -/
def newWorker : Worker := ⟨∅, ⟨[]⟩, [], [], none⟩

/-- What the worker does with the pair a queue returns: delete
`prevReadyTx` from the sorted list, then add `newReadyTx`
(`addTxToSortedList`). -/
def TxSortedList.mirrorReady (l : TxSortedList) (newReadyTx prevReadyTx : Option TxTracker) :
    TxSortedList :=
  match prevReadyTx, newReadyTx with
  | some p, some n => ((l.delete p).1.add n).1
  | some p, none => (l.delete p).1
  | none, some n => (l.add n).1
  | none, none => l

namespace Worker

/-- `resetWipTx`. -/
def resetWipTx (w : Worker) (txHash : ℕ) : Worker :=
  if w.wipTx.any (·.hash = txHash) then { w with wipTx := none } else w

/-- The queue of `tx`'s sender; with none, a new one from the nonce and
balance the state returns, put in the pool; none when the state fails. -/
def queueFor (w : Worker) (tx : TxTracker) (stateInfo : Option (ℕ × ℕ)) : Option (Worker × AddrQueue) :=
  match w.pool.lookup tx.fromStr with
  | some addr => some (w, addr)
  | none =>
    stateInfo.map fun (nonce, balance) =>
      ({ w with pool := w.pool.insert tx.fromStr (newAddrQueue tx.fromStr nonce balance) },
        newAddrQueue tx.fromStr nonce balance)

/-- `addTxTracker`: the replaced transaction and the drop reason.
`precheck` is the outcome of the checks of the IP and of the node-level
counters, in that order; `stateInfo` the nonce and balance the state
returns for a new sender. -/
def addTxTracker (w : Worker) (tx : TxTracker) (precheck : Option DropReason) (stateInfo : Option (ℕ × ℕ)) :
    Worker × Option TxTracker × Option DropReason :=
  match precheck with
  | some e => (w, none, some e)
  | none =>
    if w.wipTx.any fun wipTx => wipTx.fromStr = tx.fromStr ∧ wipTx.nonce = tx.nonce then
      (w, none, some (.addTx .duplicatedNonce))
    else
      match w.queueFor tx stateInfo with
      | none => (w, none, some .stateError)
      | some (w, addr) =>
        match (addr.addTx tx).2.dropReason with
        -- a new queue stays in the pool
        | some e => (w, (addr.addTx tx).2.replacedTx, some (.addTx e))
        | none =>
          ({ w with
              pool := w.pool.insert tx.fromStr (addr.addTx tx).1
              txSortedList :=
                w.txSortedList.mirrorReady (addr.addTx tx).2.newReadyTx (addr.addTx tx).2.prevReadyTx },
            (addr.addTx tx).2.replacedTx, none)

/-- `applyAddressUpdate`: the new and the previous ready transaction, and
the transactions to delete. -/
def applyAddressUpdate (w : Worker) (fromAddr : ℕ) (fromNonce fromBalance : Option ℕ) :
    Worker × Option TxTracker × Option TxTracker × List TxTracker :=
  match w.pool.lookup fromAddr with
  | some addrQueue =>
    ({ w with
        pool := w.pool.insert fromAddr (addrQueue.updateCurrentNonceBalance fromNonce fromBalance).1
        txSortedList := w.txSortedList.mirrorReady (addrQueue.updateCurrentNonceBalance fromNonce fromBalance).2.1
          (addrQueue.updateCurrentNonceBalance fromNonce fromBalance).2.2.1 },
      (addrQueue.updateCurrentNonceBalance fromNonce fromBalance).2)
  | none => (w, none, none, [])

/-- One address of the loop of `UpdateAfterSingleSuccessfulTxExecution`
over the touched addresses other than the sender: its new balance. -/
def touchStep (fromAddr : ℕ) (acc : Worker × List TxTracker) (touched : Σ _ : ℕ, InfoReadWrite) :
    Worker × List TxTracker :=
  if touched.1 ≠ fromAddr then
    ((acc.1.applyAddressUpdate touched.1 none touched.2.balance).1,
      acc.2 ++ (acc.1.applyAddressUpdate touched.1 none touched.2.balance).2.2.2)
  else acc

/-- `UpdateAfterSingleSuccessfulTxExecution`: the sender's nonce and
balance, then the balance of every other touched address, in the order the
map is visited. -/
def updateAfterSingleSuccessfulTxExecution (w : Worker) (fromAddr : ℕ)
    (touchedAddresses : AList fun _ : ℕ => InfoReadWrite) : Worker × List TxTracker :=
  let start := match touchedAddresses.lookup fromAddr with
    | some touchedFrom =>
      ((w.applyAddressUpdate fromAddr touchedFrom.nonce touchedFrom.balance).1,
        (w.applyAddressUpdate fromAddr touchedFrom.nonce touchedFrom.balance).2.2.2)
    | none => (w, [])
  touchedAddresses.entries.foldl (touchStep fromAddr) start

/-- `MoveTxToNotReady`: its sanity check on the ready transaction only
logs. -/
def moveTxToNotReady (w : Worker) (txHash fromAddr : ℕ) (actualNonce actualBalance : Option ℕ) :
    Worker × List TxTracker :=
  (((w.resetWipTx txHash).applyAddressUpdate fromAddr actualNonce actualBalance).1,
    ((w.resetWipTx txHash).applyAddressUpdate fromAddr actualNonce actualBalance).2.2.2)

/-- `deleteTx`: the deleted transaction, which also leaves the sorted list
when it was the ready one. -/
def deleteTx (w : Worker) (txHash addr : ℕ) : Worker × Option TxTracker :=
  match w.pool.lookup addr with
  | some addrQueue =>
    ({ w with
        pool := w.pool.insert addr (addrQueue.deleteTx txHash).1
        txSortedList := w.txSortedList.mirrorReady none
          (if (addrQueue.deleteTx txHash).2.2 then (addrQueue.deleteTx txHash).2.1 else none) },
      (addrQueue.deleteTx txHash).2.1)
  | none => (w, none)

/-- `MoveTxPendingToStore`. -/
def moveTxPendingToStore (w : Worker) (txHash addr : ℕ) : Worker :=
  let w' := match (w.deleteTx txHash addr).2 with
    | some deletedTx =>
      { (w.deleteTx txHash addr).1 with
          pendingToStore := (w.deleteTx txHash addr).1.pendingToStore ++ [deletedTx] }
    | none => (w.deleteTx txHash addr).1
  match w'.pool.lookup addr with
  | some addrQueue => { w' with pool := w'.pool.insert addr (addrQueue.addPendingTxToStore txHash) }
  | none => w'

/-- One sender of `RestoreTxsPendingToStore`: its queue leaves the pool,
its ready transaction the sorted list, and its transactions join the ones
to add again. -/
def takeQueue (acc : Worker × List TxTracker) (addr : ℕ) : Worker × List TxTracker :=
  match acc.1.pool.lookup addr with
  | some addrQueue =>
    ({ acc.1 with
        pool := acc.1.pool.erase addr
        txSortedList := acc.1.txSortedList.mirrorReady none addrQueue.readyTx },
      acc.2 ++ addrQueue.getTransactions)
  | none => acc

/-- One transaction added again by `RestoreTxsPendingToStore`, with the
lists of dropped and replaced ones as the source keeps them: a replaced
transaction sets the dropped list to the replaced list and itself, and the
replaced list stays empty. -/
def restoreStep (precheck : TxTracker → Option DropReason) (stateInfo : TxTracker → Option (ℕ × ℕ))
    (acc : Worker × List TxTracker × List TxTracker) (restoredTx : TxTracker) :
    Worker × List TxTracker × List TxTracker :=
  let r := acc.1.addTxTracker restoredTx (precheck restoredTx) (stateInfo restoredTx)
  let droppedTxs := if r.2.2.isSome then acc.2.1 ++ [restoredTx] else acc.2.1
  (r.1, if r.2.1.isSome then acc.2.2 ++ [restoredTx] else droppedTxs, acc.2.2)

/-- `RestoreTxsPendingToStore`: the dropped and the replaced transactions.
The senders are visited in the order `order` gives the keys of the map
`addrList`. -/
def restoreTxsPendingToStore (w : Worker) (order : MapOrder ℕ) (precheck : TxTracker → Option DropReason)
    (stateInfo : TxTracker → Option (ℕ × ℕ)) : Worker × List TxTracker × List TxTracker :=
  let taken := (order (w.pendingToStore.map (·.fromStr)).dedup).1.foldl takeQueue (w, w.pendingToStore)
  let cleared := { taken.1 with pendingToStore := [], wipTx := none, reorgedTxs := w.pendingToStore }
  taken.2.foldl (restoreStep precheck stateInfo) (cleared, [], [])

/-- One queue of `ExpireTransactions`. -/
def expireStep (maxTime now : ℕ) (acc : Worker × List TxTracker) (addr : ℕ) : Worker × List TxTracker :=
  match acc.1.pool.lookup addr with
  | some addrQueue =>
    ({ acc.1 with
        pool := acc.1.pool.insert addr (addrQueue.expireTransactions maxTime now).1
        txSortedList := acc.1.txSortedList.mirrorReady none (addrQueue.expireTransactions maxTime now).2.2 },
      acc.2 ++ (addrQueue.expireTransactions maxTime now).2.1)
  | none => acc

/-- `ExpireTransactions`: the expired transactions. The queues are visited
in the order `order` gives the keys of the map `pool`. -/
def expireTransactions (w : Worker) (order : MapOrder ℕ) (maxTime now : ℕ) : Worker × List TxTracker :=
  (order w.pool.keys).1.foldl (expireStep maxTime now) (w, [])

/-- The loop of `GetBestFittingTx` over `reorgedTxs`: the first one still
the ready transaction of its sender's queue, and the ones after it. -/
def nextReorgedTx (pool : AList fun _ : ℕ => AddrQueue) : List TxTracker → Option TxTracker × List TxTracker
  | [] => (none, [])
  | reorgedTx :: reorgedTxs =>
    match pool.lookup reorgedTx.fromStr with
    | some addrQueue =>
      if addrQueue.readyTx.any (·.hash = reorgedTx.hash) then (some reorgedTx, reorgedTxs)
      else nextReorgedTx pool reorgedTxs
    | none => nextReorgedTx pool reorgedTxs

/-- `GetBestFittingTx`, given whether each transaction fits in what is
left of the batch. The goroutines split the list by index and keep the
lowest index that fits, the first transaction that fits. -/
def getBestFittingTx (w : Worker) (fits : TxTracker → Bool) (isFistL2BlockAndEmpty : Bool) :
    Worker × Option TxTracker × Option BestFittingError :=
  let w' := { w with wipTx := none, reorgedTxs := (nextReorgedTx w.pool w.reorgedTxs).2 }
  match (nextReorgedTx w.pool w.reorgedTxs).1 with
  | some reorgedTx => (w', some reorgedTx, none)
  | none =>
    if w'.txSortedList.len = 0 then (w', none, some .transactionsListEmpty)
    else
      match w'.txSortedList.sorted.find? fits with
      | some tx => ({ w' with wipTx := some tx }, some tx, none)
      | none =>
        -- nothing fits: every transaction is out of counters when the block is the first and empty
        if isFistL2BlockAndEmpty then (w', none, some .transactionsListEmpty)
        else (w', none, some .noFittingTransaction)

end Worker

/-- The calls of the worker, with what the state and the executor return. -/
inductive Event where
  | addTxTracker (tx : TxTracker) (precheck : Option DropReason) (stateInfo : Option (ℕ × ℕ))
  | updateAfterSingleSuccessfulTxExecution (fromAddr : ℕ) (touchedAddresses : AList fun _ : ℕ => InfoReadWrite)
  | moveTxToNotReady (txHash fromAddr : ℕ) (actualNonce actualBalance : Option ℕ)
  | deleteTx (txHash addr : ℕ)
  | moveTxPendingToStore (txHash addr : ℕ)
  | restoreTxsPendingToStore (order : MapOrder ℕ) (precheck : TxTracker → Option DropReason)
      (stateInfo : TxTracker → Option (ℕ × ℕ))
  | expireTransactions (order : MapOrder ℕ) (maxTime now : ℕ)
  | getBestFittingTx (fits : TxTracker → Bool) (isFistL2BlockAndEmpty : Bool)

/-- The transactions a call brings into the worker. -/
def Event.added : Event → List TxTracker
  | .addTxTracker tx _ _ => [tx]
  | _ => []

namespace Worker

/-- The worker after a call. -/
def event (w : Worker) : Event → Worker
  | .addTxTracker tx precheck stateInfo => (w.addTxTracker tx precheck stateInfo).1
  | .updateAfterSingleSuccessfulTxExecution fromAddr touchedAddresses =>
    (w.updateAfterSingleSuccessfulTxExecution fromAddr touchedAddresses).1
  | .moveTxToNotReady txHash fromAddr actualNonce actualBalance =>
    (w.moveTxToNotReady txHash fromAddr actualNonce actualBalance).1
  | .deleteTx txHash addr => ((w.resetWipTx txHash).deleteTx txHash addr).1
  | .moveTxPendingToStore txHash addr => w.moveTxPendingToStore txHash addr
  | .restoreTxsPendingToStore order precheck stateInfo => (w.restoreTxsPendingToStore order precheck stateInfo).1
  | .expireTransactions order maxTime now => (w.expireTransactions order maxTime now).1
  | .getBestFittingTx fits isFistL2BlockAndEmpty => (w.getBestFittingTx fits isFistL2BlockAndEmpty).1

/-- The worker after a sequence of calls. -/
def runEvents (w : Worker) (es : List Event) : Worker := es.foldl event w

end Worker

/-! ## The sorted list mirrors the ready transactions -/

/-- The ready transaction of the queue at `addr`, if any. -/
def readySlot (pool : AList fun _ : ℕ => AddrQueue) (addr : ℕ) : Option TxTracker :=
  (pool.lookup addr).bind (·.readyTx)

namespace TxSortedList

variable {l : TxSortedList}

theorem WF.mirrorReady (h : l.WF) (newReadyTx prevReadyTx : Option TxTracker) :
    (l.mirrorReady newReadyTx prevReadyTx).WF := by
  cases prevReadyTx <;> cases newReadyTx
  · exact h
  · exact h.add
  · exact h.delete
  · exact h.delete.add

/-- **What the sorted list holds after the worker mirrors a pair**: what it
held and the deleted one does not share the hash of, and the added one if
no such transaction has its hash. -/
theorem WF.mem_mirrorReady (h : l.WF) {newReadyTx prevReadyTx : Option TxTracker} {t : TxTracker} :
    t ∈ (l.mirrorReady newReadyTx prevReadyTx).sorted ↔
      (t ∈ l.sorted ∧ ∀ p, prevReadyTx = some p → t.hash ≠ p.hash) ∨
        (newReadyTx = some t ∧ ∀ y ∈ l.sorted, (∀ p, prevReadyTx = some p → y.hash ≠ p.hash) →
          y.hash ≠ t.hash) := by
  rcases prevReadyTx with _ | p <;> rcases newReadyTx with _ | n
  · simp [TxSortedList.mirrorReady]
  · -- the added transaction is `t` itself or another one
    rcases eq_or_ne n t with rfl | hn
    · simp [TxSortedList.mirrorReady, mem_add, list_eq_none_iff]
    · simp [TxSortedList.mirrorReady, mem_add, hn, hn.symm]
  · simp [TxSortedList.mirrorReady, h.mem_delete]
  · rcases eq_or_ne n t with rfl | hn
    · simp [TxSortedList.mirrorReady, mem_add, h.mem_delete, list_eq_none_iff]
    · simp [TxSortedList.mirrorReady, mem_add, h.mem_delete, hn, hn.symm]

end TxSortedList

/-- What holds of the worker between calls. -/
structure Inv (sender : ℕ → ℕ) (w : Worker) : Prop where
  sorted : w.txSortedList.WF
  queues : ∀ addr q, w.pool.lookup addr = some q → QueueInv sender addr q
  mirror : ∀ t, t ∈ w.txSortedList.sorted ↔ readySlot w.pool (sender t.hash) = some t
  pending : ∀ t ∈ w.pendingToStore, sender t.hash = t.fromStr

variable {sender : ℕ → ℕ} {w : Worker}

theorem inv_newWorker : Inv sender newWorker where
  sorted := ⟨List.Pairwise.nil, List.nodup_nil⟩
  queues _ _ hq := by simp [newWorker] at hq
  mirror _ := by simp [newWorker, readySlot]
  pending _ ht := by simp [newWorker] at ht

theorem Inv.sender_of_readySlot (h : Inv sender w) {addr : ℕ} {t : TxTracker}
    (ht : readySlot w.pool addr = some t) : sender t.hash = addr := by
  obtain ⟨q, hq, hr⟩ := Option.bind_eq_some_iff.mp ht
  exact ((h.queues addr q hq).signed t (.inl hr)).2

/-- **The worker's invariant survives a change of the queue at one
address that the sorted list mirrors**: the pool changes at `addr` only,
what is there is as the worker needs it, and the pair deleted and added,
both of `addr`, describes the change of the ready transaction at `addr`. -/
theorem Inv.update (h : Inv sender w) {addr : ℕ} {pool : AList fun _ : ℕ => AddrQueue}
    (newReadyTx prevReadyTx : Option TxTracker)
    (hother : ∀ k, k ≠ addr → pool.lookup k = w.pool.lookup k)
    (hqueue : ∀ q, pool.lookup addr = some q → QueueInv sender addr q)
    (hreports : ReportsReady (readySlot w.pool addr) (readySlot pool addr) newReadyTx prevReadyTx)
    (hnew : ∀ t, newReadyTx = some t → sender t.hash = addr)
    (hprev : ∀ t, prevReadyTx = some t → sender t.hash = addr) :
    Inv sender { w with pool := pool, txSortedList := w.txSortedList.mirrorReady newReadyTx prevReadyTx } where
  sorted := h.sorted.mirrorReady _ _
  queues k q hq := by
    by_cases hk : k = addr
    · subst hk
      exact hqueue q hq
    · rw [hother k hk] at hq
      exact h.queues k q hq
  mirror t := by
    dsimp only
    rw [h.sorted.mem_mirrorReady]
    by_cases ht : sender t.hash = addr
    · -- of `addr`, the sorted list held its old ready transaction and nothing else
      have hslot : ∀ y, sender y.hash = addr → (y ∈ w.txSortedList.sorted ↔ readySlot w.pool addr = some y) :=
        fun y hy => hy ▸ h.mirror y
      have hall : (∀ y ∈ w.txSortedList.sorted, (∀ p, prevReadyTx = some p → y.hash ≠ p.hash) →
          y.hash ≠ t.hash) ↔
          ∀ y, readySlot w.pool addr = some y → (∀ p, prevReadyTx = some p → y.hash ≠ p.hash) →
            y.hash ≠ t.hash := by
        constructor
        · intro hall y hy
          exact hall y ((hslot y (h.sender_of_readySlot hy)).mpr hy)
        · intro hall y hy hsurv heq
          have hy' : sender y.hash = addr := heq ▸ ht
          exact hall y ((hslot y hy').mp hy) hsurv heq
      rw [ht, hslot t ht, hall, ← mem_reportSlot, hreports, Option.mem_toList]
    · -- of another address, neither the deleted nor the added transaction
      have hsurv : ∀ p, prevReadyTx = some p → t.hash ≠ p.hash := fun p hp heq => ht (heq ▸ hprev p hp)
      have hnot : newReadyTx ≠ some t := fun hn => ht (hnew t hn)
      simp only [hnot, false_and, or_false]
      rw [and_iff_left hsurv, h.mirror t, readySlot, readySlot, hother _ ht]
  pending := h.pending

/-- A queue replaced by what a call on it returned, mirrored in the sorted
list. -/
theorem Inv.replaceQueue (h : Inv sender w) {addr : ℕ} {a a' : AddrQueue}
    {newReadyTx prevReadyTx : Option TxTracker} (ha : w.pool.lookup addr = some a)
    (hm : Mirrors sender addr a a' newReadyTx prevReadyTx) :
    Inv sender { w with
      pool := w.pool.insert addr a'
      txSortedList := w.txSortedList.mirrorReady newReadyTx prevReadyTx } := by
  refine h.update newReadyTx prevReadyTx (fun k hk => AList.lookup_insert_ne hk) (fun q hq => ?_) ?_
    (fun t ht => ((hm.inv).signed t (.inl (hm.new_eq t ht))).2)
    (fun t ht => ((h.queues addr a ha).signed t (.inl (hm.prev_eq t ht))).2)
  · rw [AList.lookup_insert, Option.some.injEq] at hq
    exact hq ▸ hm.inv
  · simpa [readySlot, ha] using hm.reports

/-- A new queue with no ready transaction at an address with none. -/
theorem Inv.insertQueue (h : Inv sender w) {addr : ℕ} {a : AddrQueue} (hnone : w.pool.lookup addr = none)
    (ha : QueueInv sender addr a) (hready : a.readyTx = none) :
    Inv sender { w with pool := w.pool.insert addr a } :=
  h.update none none (fun k hk => AList.lookup_insert_ne hk)
    (fun q hq => by
      rw [AList.lookup_insert, Option.some.injEq] at hq
      exact hq ▸ ha)
    (by simp [readySlot, hnone, hready, reportsReady_none]) (fun _ ht => nomatch ht) fun _ ht => nomatch ht

/-- A queue taken out of the pool, with its ready transaction out of the
sorted list. -/
theorem Inv.eraseQueue (h : Inv sender w) {addr : ℕ} {a : AddrQueue} (ha : w.pool.lookup addr = some a) :
    Inv sender { w with
      pool := w.pool.erase addr
      txSortedList := w.txSortedList.mirrorReady none a.readyTx } :=
  h.update none a.readyTx (fun k hk => AList.lookup_erase_ne hk) (fun q hq => by simp at hq)
    (by simpa [readySlot, ha] using reportsReady_of_prev a.readyTx none) (fun _ ht => nomatch ht)
    fun t ht => ((h.queues addr a ha).signed t (.inl ht)).2

/-! ## Every call keeps the invariant -/

namespace Worker

theorem inv_queueFor (h : Inv sender w) {tx : TxTracker} {stateInfo : Option (ℕ × ℕ)} {w' : Worker}
    {a : AddrQueue} (hq : w.queueFor tx stateInfo = some (w', a)) :
    Inv sender w' ∧ w'.pool.lookup tx.fromStr = some a := by
  unfold queueFor at hq
  cases hlook : w.pool.lookup tx.fromStr with
  | some q =>
    rw [hlook] at hq
    cases hq
    exact ⟨h, hlook⟩
  | none =>
    rw [hlook] at hq
    cases stateInfo with
    | none => cases hq
    | some info =>
      cases hq
      exact ⟨h.insertQueue hlook ⟨⟨fun _ _ hn => by simp [newAddrQueue] at hn,
        fun _ ht => by simp [AddrQueue.Holds, newAddrQueue] at ht⟩, fun _ hr => by simp [newAddrQueue] at hr⟩ rfl,
        AList.lookup_insert _⟩

theorem inv_addTxTracker (h : Inv sender w) (tx : TxTracker) (htx : sender tx.hash = tx.fromStr)
    (precheck : Option DropReason) (stateInfo : Option (ℕ × ℕ)) :
    Inv sender (w.addTxTracker tx precheck stateInfo).1 := by
  unfold addTxTracker
  cases precheck with
  | some e => exact h
  | none =>
    dsimp only
    split_ifs
    · exact h
    · cases hq : w.queueFor tx stateInfo with
      | none => exact h
      | some wa =>
        obtain ⟨w', a⟩ := wa
        obtain ⟨h', ha⟩ := inv_queueFor h hq
        dsimp only
        split
        · exact h'
        · exact h'.replaceQueue ha ((h'.queues _ _ ha).addTx ⟨rfl, htx⟩)

theorem inv_applyAddressUpdate (h : Inv sender w) (fromAddr : ℕ) (fromNonce fromBalance : Option ℕ) :
    Inv sender (w.applyAddressUpdate fromAddr fromNonce fromBalance).1 := by
  unfold applyAddressUpdate
  cases hq : w.pool.lookup fromAddr with
  | none => exact h
  | some a => exact h.replaceQueue hq ((h.queues _ _ hq).toStored.updateCurrentNonceBalance fromNonce fromBalance)

theorem inv_updateAfterSingleSuccessfulTxExecution (h : Inv sender w) (fromAddr : ℕ)
    (touchedAddresses : AList fun _ : ℕ => InfoReadWrite) :
    Inv sender (w.updateAfterSingleSuccessfulTxExecution fromAddr touchedAddresses).1 := by
  unfold updateAfterSingleSuccessfulTxExecution
  have hstart : Inv sender (match touchedAddresses.lookup fromAddr with
      | some touchedFrom =>
        ((w.applyAddressUpdate fromAddr touchedFrom.nonce touchedFrom.balance).1,
          (w.applyAddressUpdate fromAddr touchedFrom.nonce touchedFrom.balance).2.2.2)
      | none => (w, [])).1 := by
    split
    · exact inv_applyAddressUpdate h _ _ _
    · exact h
  -- every other touched address only gets its balance
  refine List.foldlRecOn (motive := fun acc : Worker × List TxTracker => Inv sender acc.1) _ _ hstart fun acc hacc touched _ => ?_
  unfold touchStep
  split_ifs
  · exact inv_applyAddressUpdate hacc _ _ _
  · exact hacc

theorem inv_resetWipTx (h : Inv sender w) (txHash : ℕ) : Inv sender (w.resetWipTx txHash) := by
  unfold resetWipTx
  split_ifs
  · exact ⟨h.sorted, h.queues, h.mirror, h.pending⟩
  · exact h

theorem inv_moveTxToNotReady (h : Inv sender w) (txHash fromAddr : ℕ) (actualNonce actualBalance : Option ℕ) :
    Inv sender (w.moveTxToNotReady txHash fromAddr actualNonce actualBalance).1 :=
  inv_applyAddressUpdate (inv_resetWipTx h txHash) _ _ _

theorem inv_deleteTx (h : Inv sender w) (txHash addr : ℕ) : Inv sender (w.deleteTx txHash addr).1 := by
  unfold deleteTx
  cases hq : w.pool.lookup addr with
  | none => exact h
  | some a => exact h.replaceQueue hq ((h.queues _ _ hq).deleteTx txHash)

/-- The transaction `deleteTx` returns was signed by its sender. -/
theorem sender_of_deleteTx (h : Inv sender w) {txHash addr : ℕ} {t : TxTracker}
    (ht : (w.deleteTx txHash addr).2 = some t) : sender t.hash = t.fromStr := by
  unfold deleteTx at ht
  cases hq : w.pool.lookup addr with
  | none =>
    rw [hq] at ht
    cases ht
  | some a =>
    rw [hq] at ht
    obtain ⟨hfrom, hsender⟩ := (h.queues _ _ hq).signed t (AddrQueue.holds_of_deleteTx ht)
    rw [hsender, hfrom]

theorem inv_moveTxPendingToStore (h : Inv sender w) (txHash addr : ℕ) :
    Inv sender (w.moveTxPendingToStore txHash addr) := by
  have hdel := inv_deleteTx h txHash addr
  -- the deleted transaction joins the ones pending to store
  have hpending : Inv sender (match (w.deleteTx txHash addr).2 with
      | some deletedTx =>
        { (w.deleteTx txHash addr).1 with
            pendingToStore := (w.deleteTx txHash addr).1.pendingToStore ++ [deletedTx] }
      | none => (w.deleteTx txHash addr).1) := by
    split
    · rename_i deletedTx hd
      refine ⟨hdel.sorted, hdel.queues, hdel.mirror, fun t ht => ?_⟩
      rcases List.mem_append.mp ht with ht | ht
      · exact hdel.pending t ht
      · rw [List.mem_singleton.mp ht]
        exact sender_of_deleteTx h hd
    · exact hdel
  unfold moveTxPendingToStore
  dsimp only
  split
  · rename_i a hq
    -- the queue only records the hash
    have hm : Mirrors sender addr a (a.addPendingTxToStore txHash) none none :=
      (hpending.queues _ _ hq).mirrors_of_mono rfl rfl rfl fun _ _ hl => hl
    exact hpending.replaceQueue hq hm
  · exact hpending

theorem inv_takeQueue {acc : Worker × List TxTracker} (h : Inv sender acc.1)
    (hacc : ∀ t ∈ acc.2, sender t.hash = t.fromStr) (addr : ℕ) :
    Inv sender (takeQueue acc addr).1 ∧ ∀ t ∈ (takeQueue acc addr).2, sender t.hash = t.fromStr := by
  unfold takeQueue
  cases hq : acc.1.pool.lookup addr with
  | none => exact ⟨h, hacc⟩
  | some a =>
    refine ⟨h.eraseQueue hq, fun t ht => ?_⟩
    rcases List.mem_append.mp ht with ht | ht
    · exact hacc t ht
    · obtain ⟨hfrom, hsender⟩ := (h.queues _ _ hq).signed t (AddrQueue.holds_of_mem_getTransactions ht)
      rw [hsender, hfrom]

theorem inv_restoreTxsPendingToStore (h : Inv sender w) (order : MapOrder ℕ)
    (precheck : TxTracker → Option DropReason) (stateInfo : TxTracker → Option (ℕ × ℕ)) :
    Inv sender (w.restoreTxsPendingToStore order precheck stateInfo).1 := by
  unfold restoreTxsPendingToStore
  -- the queues of the senders leave, and their transactions are all signed
  have hinit : Inv sender (w, w.pendingToStore).1 ∧ ∀ t ∈ (w, w.pendingToStore).2, sender t.hash = t.fromStr :=
    ⟨h, h.pending⟩
  have htaken := List.foldlRecOn
    (motive := fun acc => Inv sender acc.1 ∧ ∀ t ∈ acc.2, sender t.hash = t.fromStr)
    (order (w.pendingToStore.map (·.fromStr)).dedup).1 takeQueue hinit
    fun acc hacc addr _ => inv_takeQueue hacc.1 hacc.2 addr
  obtain ⟨htaken, hsigned⟩ := htaken
  have hcleared : Inv sender { ((order (w.pendingToStore.map (·.fromStr)).dedup).1.foldl takeQueue
      (w, w.pendingToStore)).1 with
      pendingToStore := [], wipTx := none, reorgedTxs := w.pendingToStore } :=
    ⟨htaken.sorted, htaken.queues, htaken.mirror, fun _ ht => nomatch ht⟩
  -- then each transaction is added again
  exact List.foldlRecOn (motive := fun acc : Worker × List TxTracker × List TxTracker => Inv sender acc.1) _ _
    hcleared
    fun acc hacc restoredTx hmem => inv_addTxTracker hacc restoredTx (hsigned restoredTx hmem) _ _

theorem inv_expireTransactions (h : Inv sender w) (order : MapOrder ℕ) (maxTime now : ℕ) :
    Inv sender (w.expireTransactions order maxTime now).1 := by
  refine List.foldlRecOn (motive := fun acc : Worker × List TxTracker => Inv sender acc.1) _ _ h
    fun acc hacc addr _ => ?_
  unfold expireStep
  cases hq : acc.1.pool.lookup addr with
  | none => exact hacc
  | some a => exact hacc.replaceQueue hq ((hacc.queues _ _ hq).expireTransactions maxTime now)

theorem inv_getBestFittingTx (h : Inv sender w) (fits : TxTracker → Bool) (isFistL2BlockAndEmpty : Bool) :
    Inv sender (w.getBestFittingTx fits isFistL2BlockAndEmpty).1 := by
  -- every branch only sets the transaction in progress and the reorged ones
  unfold getBestFittingTx
  dsimp only
  repeat' split
  all_goals exact ⟨h.sorted, h.queues, h.mirror, h.pending⟩

/-- **Every call keeps the invariant**, when the transactions it brings in
are signed by their senders. -/
theorem inv_event (h : Inv sender w) (e : Event) (he : ∀ tx ∈ e.added, sender tx.hash = tx.fromStr) :
    Inv sender (w.event e) := by
  cases e with
  | addTxTracker tx precheck stateInfo =>
    exact inv_addTxTracker h tx (he tx (List.mem_singleton_self tx)) precheck stateInfo
  | updateAfterSingleSuccessfulTxExecution fromAddr touchedAddresses =>
    exact inv_updateAfterSingleSuccessfulTxExecution h fromAddr touchedAddresses
  | moveTxToNotReady txHash fromAddr actualNonce actualBalance =>
    exact inv_moveTxToNotReady h txHash fromAddr actualNonce actualBalance
  | deleteTx txHash addr => exact inv_deleteTx (inv_resetWipTx h txHash) txHash addr
  | moveTxPendingToStore txHash addr => exact inv_moveTxPendingToStore h txHash addr
  | restoreTxsPendingToStore order precheck stateInfo => exact inv_restoreTxsPendingToStore h order precheck stateInfo
  | expireTransactions order maxTime now => exact inv_expireTransactions h order maxTime now
  | getBestFittingTx fits isFistL2BlockAndEmpty => exact inv_getBestFittingTx h fits isFistL2BlockAndEmpty

theorem inv_runEvents (h : Inv sender w) (es : List Event)
    (hes : ∀ e ∈ es, ∀ tx ∈ e.added, sender tx.hash = tx.fromStr) : Inv sender (w.runEvents es) :=
  List.foldlRecOn (motive := Inv sender) es event h fun _ hw e he => inv_event hw e (hes e he)

end Worker

/-- **The sorted list is exactly the set of ready transactions, and each
is at its queue's nonce and within its balance**, in every state the
worker reaches from `NewWorker` by any sequence of its calls, whatever the
state and the executor return, when the hash of a transaction determines
its sender. -/
theorem txSortedList_eq_ready_set (sender : ℕ → ℕ) (es : List Event)
    (hsigned : ∀ e ∈ es, ∀ tx ∈ e.added, sender tx.hash = tx.fromStr) :
    (∀ t, t ∈ (newWorker.runEvents es).txSortedList.sorted ↔
        ∃ addr q, (newWorker.runEvents es).pool.lookup addr = some q ∧ q.readyTx = some t) ∧
      ∀ addr q r, (newWorker.runEvents es).pool.lookup addr = some q → q.readyTx = some r →
        r.nonce = q.currentNonce ∧ r.cost ≤ q.currentBalance := by
  have h := Worker.inv_runEvents inv_newWorker es hsigned
  refine ⟨fun t => ?_, fun addr q r hq hr => (h.queues addr q hq).ready r hr⟩
  rw [h.mirror t]
  constructor
  · intro ht
    obtain ⟨q, hq, hr⟩ := Option.bind_eq_some_iff.mp ht
    exact ⟨_, q, hq, hr⟩
  · rintro ⟨addr, q, hq, hr⟩
    have hslot : readySlot (newWorker.runEvents es).pool addr = some t := by simp [readySlot, hq, hr]
    rw [h.sender_of_readySlot hslot, hslot]

/-- Two senders: the first sends a transaction it can pay and one at a
later nonce, the second one it cannot pay; the state gives every sender
nonce 0 and balance 100. -/
def twoSendersRun : List Event :=
  [.addTxTracker ⟨10, 1, 0, 5, 20, 0⟩ none (some (0, 100)),
    .addTxTracker ⟨11, 1, 1, 7, 20, 0⟩ none none,
    .addTxTracker ⟨20, 2, 0, 9, 200, 0⟩ none (some (0, 100)),
    .updateAfterSingleSuccessfulTxExecution 1 (AList.insert 1 ⟨some 1, some 80⟩ ∅),
    .getBestFittingTx (fun _ => true) false]

theorem txSortedList_eq_ready_set_twoSendersRun :
    (∀ e ∈ twoSendersRun, ∀ tx ∈ e.added, (fun h => h / 10) tx.hash = tx.fromStr) ∧
      ((∀ t, t ∈ (newWorker.runEvents twoSendersRun).txSortedList.sorted ↔
          ∃ addr q, (newWorker.runEvents twoSendersRun).pool.lookup addr = some q ∧ q.readyTx = some t) ∧
        ∀ addr q r, (newWorker.runEvents twoSendersRun).pool.lookup addr = some q → q.readyTx = some r →
          r.nonce = q.currentNonce ∧ r.cost ≤ q.currentBalance) :=
  have hsigned : ∀ e ∈ twoSendersRun, ∀ tx ∈ e.added, (fun h => h / 10) tx.hash = tx.fromStr := by
    simp [twoSendersRun, Event.added]
  ⟨hsigned, txSortedList_eq_ready_set (fun h => h / 10) _ hsigned⟩

end Sequencer

end XLayerNode
