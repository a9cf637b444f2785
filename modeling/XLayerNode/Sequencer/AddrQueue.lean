import XLayerNode.Sequencer.TxSortedList
import Mathlib.Data.List.AList
/-!
# The queue of one sender

`addrQueue` holds the transactions of one address the worker knows: at
most one ready transaction, at the current nonce and within the balance,
and the not-ready ones in a map by nonce. Every call that changes the
ready transaction returns the new one and the one it replaced, and the
worker mirrors them into its sorted list.

`QueueInv` is what the worker needs of a queue: the ready transaction is
at the current nonce and within the balance, every not-ready one sits at
its own nonce, and all of them were signed by the queue's address. Every
call keeps it, and what it returns describes the change of the ready
transaction (`ReportsReady`).

`addTx` of a transaction at the current nonce that the balance does not
cover writes it into the not-ready map at that nonce without looking at
what is there: a transaction stored there before is dropped and returned
by no one (`addTx_drops_not_ready_at_current_nonce`).
-/

namespace XLayerNode

namespace Sequencer

/-- The errors of `addTx`. -/
inductive AddTxError where
  /-- `ErrDuplicatedNonce`. -/
  | duplicatedNonce
  /-- `runtime.ErrIntrinsicInvalidNonce`. -/
  | intrinsicInvalidNonce
  deriving DecidableEq, Repr

/-- `addrQueue`; `from` is its key in the worker's pool. -/
structure AddrQueue where
  fromStr : ℕ
  currentNonce : ℕ
  currentBalance : ℕ
  readyTx : Option TxTracker
  notReadyTxs : AList fun _ : ℕ => TxTracker
  forcedTxs : List ℕ
  pendingTxsToStore : List ℕ

/-- `newAddrQueue`. -/
def newAddrQueue (addr nonce balance : ℕ) : AddrQueue := ⟨addr, nonce, balance, none, ∅, [], []⟩

/-- What `addTx` returns besides the queue. -/
structure AddTxResult where
  newReadyTx : Option TxTracker
  prevReadyTx : Option TxTracker
  replacedTx : Option TxTracker
  dropReason : Option AddTxError
  deriving DecidableEq, Repr

/-- `delete(m, tx.Nonce)` for each of `txs`, in order. -/
def deleteNonces (m : AList fun _ : ℕ => TxTracker) (txs : List TxTracker) :
    AList fun _ : ℕ => TxTracker :=
  txs.foldl (fun m t => m.erase t.nonce) m

namespace AddrQueue

/-- The values of the not-ready map, as `range` visits them. -/
def notReadyValues (a : AddrQueue) : List TxTracker := a.notReadyTxs.entries.map (·.2)

/-- `addTx`. -/
def addTx (a : AddrQueue) (tx : TxTracker) : AddrQueue × AddTxResult :=
  if a.currentNonce = tx.nonce then
    -- a ready transaction of at most `tx`'s gas price is replaced, and returned if another
    if a.readyTx.all fun readyTx => tx.gasPrice ≥ readyTx.gasPrice then
      if a.currentBalance ≥ tx.cost then
        ({ a with readyTx := some tx },
          ⟨some tx, a.readyTx, a.readyTx.filter fun o => o.hash ≠ tx.hash, none⟩)
      else
        -- stored at the current nonce over whatever is there
        ({ a with readyTx := none, notReadyTxs := a.notReadyTxs.insert tx.nonce tx },
          ⟨none, a.readyTx, a.readyTx.filter fun o => o.hash ≠ tx.hash, none⟩)
    else (a, ⟨none, none, none, some .duplicatedNonce⟩)
  else if a.currentNonce > tx.nonce then (a, ⟨none, none, none, some .intrinsicInvalidNonce⟩)
  else
    match a.notReadyTxs.lookup tx.nonce with
    | none => ({ a with notReadyTxs := a.notReadyTxs.insert tx.nonce tx }, ⟨none, none, none, none⟩)
    | some nrTx =>
      if tx.gasPrice ≥ nrTx.gasPrice then
        ({ a with notReadyTxs := a.notReadyTxs.insert tx.nonce tx },
          ⟨none, none, if nrTx.hash ≠ tx.hash then some nrTx else none, none⟩)
      else (a, ⟨none, none, none, some .duplicatedNonce⟩)

/-- `addPendingTxToStore`. -/
def addPendingTxToStore (a : AddrQueue) (txHash : ℕ) : AddrQueue :=
  { a with pendingTxsToStore := a.pendingTxsToStore.insert txHash }

/-- `ExpireTransactions`: the not-ready transactions received more than
`maxTime` before `now`, then the ready one if it is as old. -/
def expireTransactions (a : AddrQueue) (maxTime now : ℕ) :
    AddrQueue × List TxTracker × Option TxTracker :=
  let txs := a.notReadyValues.filter fun t => t.receivedAt + maxTime < now
  let a := { a with notReadyTxs := deleteNonces a.notReadyTxs txs }
  match a.readyTx with
  | some readyTx =>
    if readyTx.receivedAt + maxTime < now then ({ a with readyTx := none }, txs ++ [readyTx], some readyTx)
    else (a, txs, none)
  | none => (a, txs, none)

/-- `deleteTx`: the deleted transaction and whether it was the ready one. -/
def deleteTx (a : AddrQueue) (txHash : ℕ) : AddrQueue × Option TxTracker × Bool :=
  if a.readyTx.any (·.hash = txHash) then ({ a with readyTx := none }, a.readyTx, true)
  else
    match a.notReadyValues.find? (·.hash = txHash) with
    | some t => ({ a with notReadyTxs := a.notReadyTxs.erase t.nonce }, some t, false)
    | none => (a, none, false)

/-- `getTransactions`. -/
def getTransactions (a : AddrQueue) : List TxTracker := a.readyTx.toList ++ a.notReadyValues

/-- The first step of `updateCurrentNonceBalance`: the new balance, if
any. -/
def setBalance (a : AddrQueue) : Option ℕ → AddrQueue
  | some balance => { a with currentBalance := balance }
  | none => a

/-- Its second step: a new nonce, with the not-ready transactions below it
taken out and returned. -/
def setNonce (a : AddrQueue) : Option ℕ → AddrQueue × List TxTracker
  | some nonce =>
    if a.currentNonce ≠ nonce then
      ({ a with
          currentNonce := nonce
          notReadyTxs := deleteNonces a.notReadyTxs (a.notReadyValues.filter (·.nonce < nonce)) },
        a.notReadyValues.filter (·.nonce < nonce))
    else (a, [])
  | none => (a, [])

/-- The ready transaction leaves when its nonce is not the current one or
the balance does not cover it. -/
def demoteReadyTx (a : AddrQueue) : AddrQueue × Option TxTracker :=
  match a.readyTx with
  | some readyTx =>
    if readyTx.nonce ≠ a.currentNonce ∨ a.currentBalance < readyTx.cost then
      ({ a with readyTx := none }, some readyTx)
    else (a, none)
  | none => (a, none)

/-- With no ready transaction, the not-ready one at the current nonce
becomes ready if the balance covers it. -/
def promoteNotReadyTx (a : AddrQueue) : AddrQueue :=
  match a.readyTx with
  | some _ => a
  | none =>
    match a.notReadyTxs.lookup a.currentNonce with
    | some nrTx =>
      if a.currentBalance ≥ nrTx.cost then
        { a with readyTx := some nrTx, notReadyTxs := a.notReadyTxs.erase a.currentNonce }
      else a
    | none => a

/-- The last step: a demoted ready transaction goes back to the not-ready
map if its nonce is still ahead, stored at its nonce over whatever is there,
and to the transactions to delete otherwise. -/
def requeueOldReadyTx (a : AddrQueue) (oldReadyTx : Option TxTracker) (txsToDelete : List TxTracker) :
    AddrQueue × List TxTracker :=
  match oldReadyTx with
  | some oldReadyTx =>
    if oldReadyTx.nonce > a.currentNonce then
      ({ a with notReadyTxs := a.notReadyTxs.insert oldReadyTx.nonce oldReadyTx }, txsToDelete)
    else (a, txsToDelete ++ [oldReadyTx])
  | none => (a, txsToDelete)

/-- `updateCurrentNonceBalance`: the queue, the new and the previous ready
transaction, and the transactions to delete. -/
def updateCurrentNonceBalance (a : AddrQueue) (nonce balance : Option ℕ) :
    AddrQueue × Option TxTracker × Option TxTracker × List TxTracker :=
  let set := (a.setBalance balance).setNonce nonce
  let demoted := set.1.demoteReadyTx
  let requeued := demoted.1.promoteNotReadyTx.requeueOldReadyTx demoted.2 set.2
  (requeued.1, requeued.1.readyTx, demoted.2, requeued.2)

/-- Every entry of a not-ready map sits at its nonce, read off its
entries. -/
theorem nonce_eq_of_lookup {m : AList fun _ : ℕ => TxTracker} (hm : ∀ p ∈ m.entries, p.2.nonce = p.1)
    {n : ℕ} {t : TxTracker} (h : m.lookup n = some t) : t.nonce = n :=
  hm ⟨n, t⟩ (AList.mem_lookup_iff.mp h)

/-- The queue holds a transaction: as the ready one or in the not-ready
map. -/
def Holds (a : AddrQueue) (t : TxTracker) : Prop :=
  a.readyTx = some t ∨ ∃ n, a.notReadyTxs.lookup n = some t

end AddrQueue

/-! ## What the worker needs of a queue -/

/-- A transaction of the queue at `addr`: sent from `addr`, and signed by
it, the sender being a function of the hash. -/
def Signed (sender : ℕ → ℕ) (addr : ℕ) (t : TxTracker) : Prop :=
  t.fromStr = addr ∧ sender t.hash = addr

/-- What a queue keeps whatever its nonce and balance: every not-ready
transaction at its nonce, all transactions signed by `addr`. -/
structure Stored (sender : ℕ → ℕ) (addr : ℕ) (a : AddrQueue) : Prop where
  keys : ∀ n t, a.notReadyTxs.lookup n = some t → t.nonce = n
  signed : ∀ t, a.Holds t → Signed sender addr t

/-- The queue at `addr` as the worker needs it: stored, and the ready
transaction at the current nonce and within the balance. -/
structure QueueInv (sender : ℕ → ℕ) (addr : ℕ) (a : AddrQueue) : Prop extends Stored sender addr a where
  ready : ∀ r, a.readyTx = some r → r.nonce = a.currentNonce ∧ r.cost ≤ a.currentBalance

/-- The ready transaction as the worker's sorted list sees it after it
deletes `prevReadyTx` and adds `newReadyTx`, both by hash. -/
def reportSlot (old newReadyTx prevReadyTx : Option TxTracker) : List TxTracker :=
  let kept := old.toList.filter fun x => prevReadyTx.all fun p => x.hash ≠ p.hash
  kept ++ newReadyTx.toList.filter fun n => kept.all fun x => x.hash ≠ n.hash

/-- What a call returns describes the change of the ready transaction from
`old` to `new`. -/
def ReportsReady (old new newReadyTx prevReadyTx : Option TxTracker) : Prop :=
  reportSlot old newReadyTx prevReadyTx = new.toList

/-- A call took the queue from `a` to `a'` and returned `newReadyTx` and
`prevReadyTx`: the new queue is as the worker needs it, the pair describes
the change of the ready transaction, and each of the two was that of the
queue after or before. -/
structure Mirrors (sender : ℕ → ℕ) (addr : ℕ) (a a' : AddrQueue) (newReadyTx prevReadyTx : Option TxTracker) :
    Prop where
  inv : QueueInv sender addr a'
  reports : ReportsReady a.readyTx a'.readyTx newReadyTx prevReadyTx
  new_eq : ∀ t, newReadyTx = some t → a'.readyTx = some t
  prev_eq : ∀ t, prevReadyTx = some t → a.readyTx = some t

theorem mem_reportSlot {old newReadyTx prevReadyTx : Option TxTracker} {t : TxTracker} :
    t ∈ reportSlot old newReadyTx prevReadyTx ↔
      (old = some t ∧ ∀ p, prevReadyTx = some p → t.hash ≠ p.hash) ∨
        (newReadyTx = some t ∧ ∀ y, old = some y → (∀ p, prevReadyTx = some p → y.hash ≠ p.hash) →
          y.hash ≠ t.hash) := by
  cases old <;> cases newReadyTx <;> cases prevReadyTx <;> simp [reportSlot, @eq_comm _ t]
  tauto

theorem reportsReady_of_prev (old newReadyTx : Option TxTracker) :
    ReportsReady old newReadyTx newReadyTx old := by
  cases old <;> cases newReadyTx <;> simp [ReportsReady, reportSlot]

theorem reportsReady_none (old : Option TxTracker) : ReportsReady old old none none := by
  cases old <;> simp [ReportsReady, reportSlot]

theorem reportsReady_same (r : TxTracker) : ReportsReady (some r) (some r) (some r) none := by
  simp [ReportsReady, reportSlot]

theorem lookup_deleteNonces (m : AList fun _ : ℕ => TxTracker) (txs : List TxTracker) (n : ℕ) :
    (deleteNonces m txs).lookup n = if n ∈ txs.map (·.nonce) then none else m.lookup n := by
  induction txs generalizing m with
  | nil => simp [deleteNonces]
  | cons t txs ih =>
    simp only [deleteNonces, List.foldl_cons] at ih ⊢
    rw [ih]
    by_cases hn : n = t.nonce
    · subst hn
      simp [AList.lookup_erase]
    · simp [hn, AList.lookup_erase_ne hn]

theorem lookup_of_lookup_deleteNonces {m : AList fun _ : ℕ => TxTracker} {txs : List TxTracker} {n : ℕ}
    {t : TxTracker} (h : (deleteNonces m txs).lookup n = some t) : m.lookup n = some t := by
  rw [lookup_deleteNonces] at h
  split_ifs at h
  exact h

theorem lookup_of_lookup_erase {m : AList fun _ : ℕ => TxTracker} {k n : ℕ} {t : TxTracker}
    (h : (m.erase k).lookup n = some t) : m.lookup n = some t := by
  by_cases hn : n = k
  · subst hn
    simp [AList.lookup_erase] at h
  · rwa [AList.lookup_erase_ne hn] at h

namespace AddrQueue

theorem mem_notReadyValues {a : AddrQueue} {t : TxTracker} :
    t ∈ a.notReadyValues ↔ ∃ n, a.notReadyTxs.lookup n = some t := by
  simp only [notReadyValues, List.mem_map]
  constructor
  · rintro ⟨⟨n, t'⟩, hmem, rfl⟩
    exact ⟨n, AList.mem_lookup_iff.mpr hmem⟩
  · rintro ⟨n, hn⟩
    exact ⟨⟨n, t⟩, AList.mem_lookup_iff.mp hn, rfl⟩

end AddrQueue

variable {sender : ℕ → ℕ} {addr : ℕ} {a a' : AddrQueue}

/-! ### What a queue keeps -/

/-- **A queue that holds no more than a stored one, each at the same place,
is stored.** Every call but the ones that add a transaction only takes
transactions out. -/
theorem Stored.mono (h : Stored sender addr a) (hready : ∀ t, a'.readyTx = some t → a.readyTx = some t)
    (hnotReady : ∀ n t, a'.notReadyTxs.lookup n = some t → a.notReadyTxs.lookup n = some t) :
    Stored sender addr a' := by
  refine ⟨fun n t hn => h.keys n t (hnotReady n t hn), fun t ht => ?_⟩
  rcases ht with hr | ⟨n, hn⟩
  · exact h.signed t (.inl (hready t hr))
  · exact h.signed t (.inr ⟨n, hnotReady n t hn⟩)

theorem Stored.clearReady (h : Stored sender addr a) : Stored sender addr { a with readyTx := none } :=
  h.mono (fun _ hr => by simp at hr) fun _ _ hn => hn

theorem Stored.setReady (h : Stored sender addr a) {tx : TxTracker} (htx : Signed sender addr tx) :
    Stored sender addr { a with readyTx := some tx } := by
  refine ⟨h.keys, fun t ht => ?_⟩
  rcases ht with hr | hn
  · cases hr
    exact htx
  · exact h.signed t (.inr hn)

/-- A transaction written into the not-ready map at its nonce. -/
theorem Stored.insertNotReady (h : Stored sender addr a) {tx : TxTracker} (htx : Signed sender addr tx) :
    Stored sender addr { a with notReadyTxs := a.notReadyTxs.insert tx.nonce tx } := by
  refine ⟨fun n t hn => ?_, fun t ht => ?_⟩
  · by_cases hnt : n = tx.nonce
    · subst hnt
      simp only [AList.lookup_insert, Option.some.injEq] at hn
      rw [← hn]
    · rw [AList.lookup_insert_ne hnt] at hn
      exact h.keys n t hn
  · rcases ht with hr | ⟨n, hn⟩
    · exact h.signed t (.inl hr)
    · by_cases hnt : n = tx.nonce
      · subst hnt
        simp only [AList.lookup_insert, Option.some.injEq] at hn
        rw [← hn]
        exact htx
      · rw [AList.lookup_insert_ne hnt] at hn
        exact h.signed t (.inr ⟨n, hn⟩)

theorem QueueInv.clearReady (h : QueueInv sender addr a) : QueueInv sender addr { a with readyTx := none } :=
  ⟨h.toStored.clearReady, fun _ hr => by simp at hr⟩

theorem QueueInv.setReady (h : QueueInv sender addr a) {tx : TxTracker} (htx : Signed sender addr tx)
    (hnonce : tx.nonce = a.currentNonce) (hcost : tx.cost ≤ a.currentBalance) :
    QueueInv sender addr { a with readyTx := some tx } := by
  refine ⟨h.toStored.setReady htx, fun r hr => ?_⟩
  cases hr
  exact ⟨hnonce, hcost⟩

theorem QueueInv.insertNotReady (h : QueueInv sender addr a) {tx : TxTracker} (htx : Signed sender addr tx) :
    QueueInv sender addr { a with notReadyTxs := a.notReadyTxs.insert tx.nonce tx } :=
  ⟨h.toStored.insertNotReady htx, h.ready⟩

/-- A call that keeps the ready transaction and only takes not-ready ones
out reports nothing. -/
theorem QueueInv.mirrors_of_mono (h : QueueInv sender addr a) (hready : a'.readyTx = a.readyTx)
    (hnonce : a'.currentNonce = a.currentNonce) (hbalance : a'.currentBalance = a.currentBalance)
    (hnotReady : ∀ n t, a'.notReadyTxs.lookup n = some t → a.notReadyTxs.lookup n = some t) :
    Mirrors sender addr a a' none none := by
  refine ⟨⟨h.toStored.mono (fun t ht => hready ▸ ht) hnotReady, fun r hr => ?_⟩, ?_, ?_, ?_⟩
  · rw [hnonce, hbalance]
    exact h.ready r (hready ▸ hr)
  · rw [hready]
    exact reportsReady_none _
  · exact fun _ ht => nomatch ht
  · exact fun _ ht => nomatch ht

/-! ### `addTx` -/

/-- What `addTx` can do: make the transaction ready, store it not ready at
the current nonce in place of the ready one, store it not ready at a later
nonce, or nothing. -/
theorem AddrQueue.addTx_cases (a : AddrQueue) (tx : TxTracker) :
    (tx.nonce = a.currentNonce ∧ tx.cost ≤ a.currentBalance ∧
        (a.addTx tx).1 = { a with readyTx := some tx } ∧
        (a.addTx tx).2.newReadyTx = some tx ∧ (a.addTx tx).2.prevReadyTx = a.readyTx) ∨
      ((a.addTx tx).1 = { a with readyTx := none, notReadyTxs := a.notReadyTxs.insert tx.nonce tx } ∧
        (a.addTx tx).2.newReadyTx = none ∧ (a.addTx tx).2.prevReadyTx = a.readyTx) ∨
      ((a.addTx tx).1 = { a with notReadyTxs := a.notReadyTxs.insert tx.nonce tx } ∧
        (a.addTx tx).2.newReadyTx = none ∧ (a.addTx tx).2.prevReadyTx = none) ∨
      ((a.addTx tx).1 = a ∧ (a.addTx tx).2.newReadyTx = none ∧ (a.addTx tx).2.prevReadyTx = none) := by
  unfold addTx
  by_cases hcur : a.currentNonce = tx.nonce
  · rw [if_pos hcur]
    by_cases hrep : (a.readyTx.all fun readyTx => tx.gasPrice ≥ readyTx.gasPrice) = true
    · rw [if_pos hrep]
      by_cases hbal : a.currentBalance ≥ tx.cost
      · rw [if_pos hbal]
        exact .inl ⟨hcur.symm, hbal, rfl, rfl, rfl⟩
      · rw [if_neg hbal]
        exact .inr (.inl ⟨rfl, rfl, rfl⟩)
    · rw [if_neg hrep]
      exact .inr (.inr (.inr ⟨rfl, rfl, rfl⟩))
  · rw [if_neg hcur]
    by_cases hlt : a.currentNonce > tx.nonce
    · rw [if_pos hlt]
      exact .inr (.inr (.inr ⟨rfl, rfl, rfl⟩))
    · rw [if_neg hlt]
      cases hlook : a.notReadyTxs.lookup tx.nonce with
      | none => exact .inr (.inr (.inl ⟨rfl, rfl, rfl⟩))
      | some nrTx =>
        dsimp only
        by_cases hgp : tx.gasPrice ≥ nrTx.gasPrice
        · rw [if_pos hgp]
          exact .inr (.inr (.inl ⟨rfl, rfl, rfl⟩))
        · rw [if_neg hgp]
          exact .inr (.inr (.inr ⟨rfl, rfl, rfl⟩))

/-- **`addTx` of a transaction signed by the queue's address keeps the
queue, and what it returns mirrors the change of its ready transaction.** -/
theorem QueueInv.addTx (h : QueueInv sender addr a) {tx : TxTracker} (htx : Signed sender addr tx) :
    Mirrors sender addr a (a.addTx tx).1 (a.addTx tx).2.newReadyTx (a.addTx tx).2.prevReadyTx := by
  rcases AddrQueue.addTx_cases a tx with ⟨hnonce, hcost, ha, hnew, hprev⟩ | ⟨ha, hnew, hprev⟩ |
    ⟨ha, hnew, hprev⟩ | ⟨ha, hnew, hprev⟩
  · rw [ha, hnew, hprev]
    exact ⟨h.setReady htx hnonce hcost, reportsReady_of_prev _ _, fun _ ht => ht, fun _ ht => ht⟩
  · rw [ha, hnew, hprev]
    exact ⟨h.clearReady.insertNotReady htx, reportsReady_of_prev _ _, (fun _ ht => nomatch ht),
      fun _ ht => ht⟩
  · rw [ha, hnew, hprev]
    exact ⟨h.insertNotReady htx, reportsReady_none _, (fun _ ht => nomatch ht), fun _ ht => nomatch ht⟩
  · rw [ha, hnew, hprev]
    exact ⟨h, reportsReady_none _, (fun _ ht => nomatch ht), fun _ ht => nomatch ht⟩

/-! ### `updateCurrentNonceBalance` -/

namespace AddrQueue

@[simp] theorem setBalance_readyTx (a : AddrQueue) (balance : Option ℕ) :
    (a.setBalance balance).readyTx = a.readyTx := by
  cases balance <;> rfl

@[simp] theorem setBalance_notReadyTxs (a : AddrQueue) (balance : Option ℕ) :
    (a.setBalance balance).notReadyTxs = a.notReadyTxs := by
  cases balance <;> rfl

@[simp] theorem setNonce_readyTx (a : AddrQueue) (nonce : Option ℕ) : (a.setNonce nonce).1.readyTx = a.readyTx := by
  cases nonce with
  | none => rfl
  | some nonce =>
    simp only [setNonce]
    split_ifs <;> rfl

theorem lookup_of_lookup_setNonce {a : AddrQueue} {nonce : Option ℕ} {n : ℕ} {t : TxTracker}
    (h : (a.setNonce nonce).1.notReadyTxs.lookup n = some t) : a.notReadyTxs.lookup n = some t := by
  cases nonce with
  | none => exact h
  | some nonce =>
    simp only [setNonce] at h
    split_ifs at h
    · exact lookup_of_lookup_deleteNonces h
    · exact h

/-- What `demoteReadyTx` can do: take the ready transaction out, or keep
the queue when its ready transaction is at the current nonce and within the
balance. -/
theorem demoteReadyTx_cases (a : AddrQueue) :
    (a.demoteReadyTx.1 = { a with readyTx := none } ∧ a.demoteReadyTx.2 = a.readyTx) ∨
      (a.demoteReadyTx = (a, none) ∧
        ∀ r, a.readyTx = some r → r.nonce = a.currentNonce ∧ r.cost ≤ a.currentBalance) := by
  unfold demoteReadyTx
  cases hr : a.readyTx with
  | none => exact .inr ⟨rfl, fun _ h => nomatch h⟩
  | some r =>
    dsimp only
    by_cases hdem : r.nonce ≠ a.currentNonce ∨ a.currentBalance < r.cost
    · rw [if_pos hdem]
      exact .inl ⟨rfl, rfl⟩
    · rw [if_neg hdem]
      refine .inr ⟨rfl, fun r' hr' => ?_⟩
      cases hr'
      simpa only [ne_eq, not_or, not_not, Nat.not_lt] using hdem

theorem readyTx_of_demoteReadyTx {a : AddrQueue} {t : TxTracker} (h : a.demoteReadyTx.2 = some t) :
    a.readyTx = some t := by
  rcases demoteReadyTx_cases a with ⟨-, hd⟩ | ⟨hd, -⟩
  · rwa [← hd]
  · rw [hd] at h
    cases h

/-- What `promoteNotReadyTx` can do: nothing, or with no ready transaction
make the one at the current nonce ready when the balance covers it. -/
theorem promoteNotReadyTx_cases (a : AddrQueue) :
    a.promoteNotReadyTx = a ∨
      (a.readyTx = none ∧ ∃ nrTx, a.notReadyTxs.lookup a.currentNonce = some nrTx ∧
        nrTx.cost ≤ a.currentBalance ∧
        a.promoteNotReadyTx = { a with readyTx := some nrTx, notReadyTxs := a.notReadyTxs.erase a.currentNonce }) := by
  unfold promoteNotReadyTx
  cases hr : a.readyTx with
  | some _ => exact .inl rfl
  | none =>
    cases hn : a.notReadyTxs.lookup a.currentNonce with
    | none => exact .inl rfl
    | some nrTx =>
      dsimp only
      by_cases hcost : a.currentBalance ≥ nrTx.cost
      · rw [if_pos hcost]
        exact .inr ⟨rfl, nrTx, rfl, hcost, rfl⟩
      · rw [if_neg hcost]
        exact .inl rfl

theorem promoteNotReadyTx_of_readyTx {a : AddrQueue} {r : TxTracker} (hr : a.readyTx = some r) :
    a.promoteNotReadyTx = a := by
  rcases promoteNotReadyTx_cases a with ha | ⟨hnone, -⟩
  · exact ha
  · rw [hr] at hnone
    cases hnone

@[simp] theorem requeueOldReadyTx_readyTx (a : AddrQueue) (oldReadyTx : Option TxTracker)
    (txsToDelete : List TxTracker) : (a.requeueOldReadyTx oldReadyTx txsToDelete).1.readyTx = a.readyTx := by
  cases oldReadyTx with
  | none => rfl
  | some oldReadyTx =>
    simp only [requeueOldReadyTx]
    split_ifs <;> rfl

end AddrQueue

/-- After `demoteReadyTx` a stored queue is as the worker needs it. -/
theorem Stored.demoteReadyTx (h : Stored sender addr a) : QueueInv sender addr a.demoteReadyTx.1 := by
  rcases AddrQueue.demoteReadyTx_cases a with ⟨ha, -⟩ | ⟨ha, hready⟩
  · rw [ha]
    exact ⟨h.clearReady, fun _ hr => by simp at hr⟩
  · rw [ha]
    exact ⟨h, hready⟩

theorem QueueInv.promoteNotReadyTx (h : QueueInv sender addr a) : QueueInv sender addr a.promoteNotReadyTx := by
  rcases AddrQueue.promoteNotReadyTx_cases a with ha | ⟨-, nrTx, hn, hcost, ha⟩
  · rw [ha]
    exact h
  · rw [ha]
    -- the promoted transaction leaves the map at the current nonce, its own
    have herase : Stored sender addr { a with notReadyTxs := a.notReadyTxs.erase a.currentNonce } :=
      h.toStored.mono (fun _ ht => ht) fun _ _ hl => lookup_of_lookup_erase hl
    refine ⟨herase.setReady (h.signed nrTx (.inr ⟨_, hn⟩)), fun r hr => ?_⟩
    cases hr
    exact ⟨h.keys _ _ hn, hcost⟩

theorem QueueInv.requeueOldReadyTx (h : QueueInv sender addr a) {oldReadyTx : Option TxTracker}
    (hold : ∀ t, oldReadyTx = some t → Signed sender addr t) (txsToDelete : List TxTracker) :
    QueueInv sender addr (a.requeueOldReadyTx oldReadyTx txsToDelete).1 := by
  cases oldReadyTx with
  | none => exact h
  | some oldReadyTx =>
    simp only [AddrQueue.requeueOldReadyTx]
    split_ifs
    · exact h.insertNotReady (hold oldReadyTx rfl)
    · exact h

/-- **`updateCurrentNonceBalance` leaves the queue as the worker needs it,
whatever nonce and balance it is given, and what it returns mirrors the
change of its ready transaction.** It returns the ready transaction as new
even when it stayed, which the sorted list already holds. -/
theorem Stored.updateCurrentNonceBalance (h : Stored sender addr a) (nonce balance : Option ℕ) :
    Mirrors sender addr a (a.updateCurrentNonceBalance nonce balance).1
      (a.updateCurrentNonceBalance nonce balance).2.1 (a.updateCurrentNonceBalance nonce balance).2.2.1 := by
  obtain ⟨a₁, txsToDelete, hset⟩ : ∃ a₁ txs, (a.setBalance balance).setNonce nonce = (a₁, txs) :=
    ⟨_, _, rfl⟩
  have hready₁ : a₁.readyTx = a.readyTx := by
    have hready := AddrQueue.setNonce_readyTx (a.setBalance balance) nonce
    rw [hset, AddrQueue.setBalance_readyTx] at hready
    exact hready
  have h₁ : Stored sender addr a₁ := by
    refine h.mono (fun t ht => hready₁ ▸ ht) fun n t hl => ?_
    have hl' : ((a.setBalance balance).setNonce nonce).1.notReadyTxs.lookup n = some t := by
      rw [hset]
      exact hl
    simpa using AddrQueue.lookup_of_lookup_setNonce hl'
  have hprev : ∀ t, a₁.demoteReadyTx.2 = some t → a.readyTx = some t := fun t ht =>
    hready₁ ▸ AddrQueue.readyTx_of_demoteReadyTx ht
  simp only [AddrQueue.updateCurrentNonceBalance, hset]
  refine ⟨h₁.demoteReadyTx.promoteNotReadyTx.requeueOldReadyTx
    (fun t ht => h.signed t (.inl (hprev t ht))) txsToDelete, ?_, fun _ ht => ht, hprev⟩
  rw [AddrQueue.requeueOldReadyTx_readyTx]
  rcases AddrQueue.demoteReadyTx_cases a₁ with ⟨-, hd⟩ | ⟨hd, -⟩
  · -- the ready transaction left and is reported as the previous one
    rw [hd, hready₁]
    exact reportsReady_of_prev _ _
  · rw [hd]
    cases hr : a.readyTx with
    | none => exact reportsReady_of_prev none _
    | some r =>
      -- it stayed: promotion does nothing, and it is reported again as new
      rw [AddrQueue.promoteNotReadyTx_of_readyTx (hready₁.trans hr), hready₁, hr]
      exact reportsReady_same r

/-! ### `deleteTx` and `ExpireTransactions` -/

/-- What `deleteTx` can do: take the ready transaction out, take a
not-ready one out at its nonce, or nothing. -/
theorem AddrQueue.deleteTx_cases (a : AddrQueue) (txHash : ℕ) :
    a.deleteTx txHash = ({ a with readyTx := none }, a.readyTx, true) ∨
      (∃ t, a.Holds t ∧
        a.deleteTx txHash = ({ a with notReadyTxs := a.notReadyTxs.erase t.nonce }, some t, false)) ∨
      a.deleteTx txHash = (a, none, false) := by
  unfold deleteTx
  split_ifs
  · exact .inl rfl
  · split
    · rename_i t ht
      exact .inr (.inl ⟨t, .inr (mem_notReadyValues.mp (List.mem_of_find?_eq_some ht)), rfl⟩)
    · exact .inr (.inr rfl)

theorem AddrQueue.holds_of_deleteTx {txHash : ℕ} {t : TxTracker} (h : (a.deleteTx txHash).2.1 = some t) :
    a.Holds t := by
  rcases AddrQueue.deleteTx_cases a txHash with hd | ⟨t', ht', hd⟩ | hd <;> rw [hd] at h
  · exact .inl h
  · cases h
    exact ht'
  · cases h

theorem AddrQueue.holds_of_mem_getTransactions {t : TxTracker} (h : t ∈ a.getTransactions) : a.Holds t := by
  rcases List.mem_append.mp h with hr | hn
  · exact .inl (Option.mem_toList.mp hr)
  · exact .inr (AddrQueue.mem_notReadyValues.mp hn)

/-- **`deleteTx` keeps the queue**, and the worker mirrors it by deleting
the deleted transaction when it was the ready one. -/
theorem QueueInv.deleteTx (h : QueueInv sender addr a) (txHash : ℕ) :
    Mirrors sender addr a (a.deleteTx txHash).1 none
      (if (a.deleteTx txHash).2.2 then (a.deleteTx txHash).2.1 else none) := by
  rcases AddrQueue.deleteTx_cases a txHash with hd | ⟨t, -, hd⟩ | hd <;> simp only [hd]
  · exact ⟨h.clearReady, reportsReady_of_prev _ _, (fun _ ht => nomatch ht), fun _ ht => ht⟩
  · exact h.mirrors_of_mono rfl rfl rfl fun _ _ hl => lookup_of_lookup_erase hl
  · exact h.mirrors_of_mono rfl rfl rfl fun _ _ hl => hl

/-- **`ExpireTransactions` keeps the queue**, and the worker mirrors it by
deleting the expired ready transaction. -/
theorem QueueInv.expireTransactions (h : QueueInv sender addr a) (maxTime now : ℕ) :
    Mirrors sender addr a (a.expireTransactions maxTime now).1 none (a.expireTransactions maxTime now).2.2 := by
  -- the old not-ready transactions go first
  have hkept : Mirrors sender addr a
      { a with notReadyTxs := deleteNonces a.notReadyTxs (a.notReadyValues.filter fun t => t.receivedAt + maxTime < now) }
      none none :=
    h.mirrors_of_mono rfl rfl rfl fun _ _ hl => lookup_of_lookup_deleteNonces hl
  unfold AddrQueue.expireTransactions
  dsimp only
  split
  · rename_i r hr
    split_ifs
    · refine ⟨hkept.inv.clearReady, ?_, (fun _ ht => nomatch ht), fun _ ht => ht.symm ▸ hr⟩
      rw [hr]
      exact reportsReady_of_prev _ _
    · exact hkept
  · exact hkept

/-! ## A transaction dropped at the current nonce -/

namespace AddrQueue

/-- **`addTx` drops a not-ready transaction at the current nonce without
reporting it**: with no ready transaction and one stored at the current
nonce, another transaction there whose cost the balance does not cover is
accepted, nothing is returned as replaced, and the stored one is no longer
held — whatever the gas prices. -/
theorem addTx_drops_not_ready_at_current_nonce (a : AddrQueue) (t₁ tx : TxTracker)
    (hready : a.readyTx = none) (hstored : a.notReadyTxs.lookup a.currentNonce = some t₁)
    (hkeys : ∀ n t, a.notReadyTxs.lookup n = some t → t.nonce = n)
    (hnonce : tx.nonce = a.currentNonce) (hhash : tx.hash ≠ t₁.hash) (hcost : a.currentBalance < tx.cost) :
    (a.addTx tx).2 = ⟨none, none, none, none⟩ ∧ ¬ (a.addTx tx).1.Holds t₁ := by
  have hadd : a.addTx tx = ({ a with readyTx := none, notReadyTxs := a.notReadyTxs.insert tx.nonce tx },
      ⟨none, none, none, none⟩) := by
    simp [addTx, hnonce, hready, Nat.not_le.mpr hcost]
  rw [hadd]
  refine ⟨rfl, ?_⟩
  rintro (hr | ⟨n, hn⟩)
  · simp at hr
  · dsimp only at hn
    -- `t₁` could only sit at its own nonce, the current one, where `tx` now is
    have ht₁ : t₁.nonce = a.currentNonce := hkeys _ _ hstored
    by_cases hn' : n = tx.nonce
    · subst hn'
      simp only [AList.lookup_insert, Option.some.injEq] at hn
      exact hhash (congrArg TxTracker.hash hn)
    · rw [AList.lookup_insert_ne hn'] at hn
      exact hn' ((hkeys _ _ hn).symm.trans (ht₁.trans hnonce.symm))

/-- A fresh queue of nonce 0 and balance 10, after a transaction of cost
20 at nonce 0. -/
def coveredQueue : AddrQueue := (newAddrQueue 1 0 10).addTx ⟨100, 1, 0, 5, 20, 0⟩ |>.1

/-- From a fresh queue, two transactions at nonce 0 that the balance does
not cover are both accepted, and the first, of the higher gas price, is
lost. -/
theorem addTx_drops_not_ready_at_current_nonce_coveredQueue :
    (newAddrQueue 1 0 10).addTx ⟨100, 1, 0, 5, 20, 0⟩ =
        (coveredQueue, ⟨none, none, none, none⟩) ∧
      ((coveredQueue.addTx ⟨101, 1, 0, 1, 30, 0⟩).2 = ⟨none, none, none, none⟩ ∧
        ¬ (coveredQueue.addTx ⟨101, 1, 0, 1, 30, 0⟩).1.Holds ⟨100, 1, 0, 5, 20, 0⟩) :=
  ⟨rfl, addTx_drops_not_ready_at_current_nonce coveredQueue ⟨100, 1, 0, 5, 20, 0⟩ ⟨101, 1, 0, 1, 30, 0⟩
    rfl rfl (fun _ _ h => nonce_eq_of_lookup (by decide) h) rfl (by decide) (by decide)⟩

/-- **A ready transaction the new balance does not cover is deleted**, at
the current nonce, which is not stale: a demoted transaction goes back to
the not-ready map only when its nonce is above the current one, and to the
transactions to delete otherwise, its own nonce included. -/
theorem updateCurrentNonceBalance_deletes_uncovered_ready (a : AddrQueue) (readyTx : TxTracker)
    (balance : ℕ) (hready : a.readyTx = some readyTx) (hnonce : readyTx.nonce = a.currentNonce)
    (hcost : balance < readyTx.cost) (hheld : ∀ n, a.notReadyTxs.lookup n ≠ some readyTx) :
    (a.updateCurrentNonceBalance none (some balance)).2.2.2 = [readyTx] ∧
      (a.updateCurrentNonceBalance none (some balance)).1.currentNonce = readyTx.nonce ∧
      ¬ (a.updateCurrentNonceBalance none (some balance)).1.Holds readyTx := by
  -- the balance is set, the nonce kept, and the ready transaction demoted
  have hdemote : ((a.setBalance (some balance)).setNonce none).1.demoteReadyTx =
      ({ a with currentBalance := balance, readyTx := none }, some readyTx) := by
    simp [setBalance, setNonce, demoteReadyTx, hready, hcost]
  -- promoting keeps the nonce, and brings in a not-ready transaction if any
  have hpromote : ({ a with currentBalance := balance, readyTx := none } : AddrQueue).promoteNotReadyTx.currentNonce =
        a.currentNonce ∧
      ¬ ({ a with currentBalance := balance, readyTx := none } : AddrQueue).promoteNotReadyTx.Holds readyTx := by
    rcases promoteNotReadyTx_cases { a with currentBalance := balance, readyTx := none } with
      h | ⟨-, nrTx, hnr, -, h⟩ <;> rw [h] <;> refine ⟨rfl, ?_⟩
    · rintro (hr | ⟨n, hn⟩)
      · simp at hr
      · exact hheld n hn
    · rintro (hr | ⟨n, hn⟩)
      · simp only [Option.some.injEq] at hr
        exact hheld _ (hr ▸ hnr)
      · exact hheld n (lookup_of_lookup_erase hn)
  have hrequeue : ({ a with currentBalance := balance, readyTx := none } : AddrQueue).promoteNotReadyTx.requeueOldReadyTx
      (some readyTx) [] =
      (({ a with currentBalance := balance, readyTx := none } : AddrQueue).promoteNotReadyTx, [readyTx]) := by
    simp [requeueOldReadyTx, hpromote.1, hnonce]
  have hrun : a.updateCurrentNonceBalance none (some balance) =
      (({ a with currentBalance := balance, readyTx := none } : AddrQueue).promoteNotReadyTx,
        ({ a with currentBalance := balance, readyTx := none } : AddrQueue).promoteNotReadyTx.readyTx,
        some readyTx, [readyTx]) := by
    simp only [updateCurrentNonceBalance, hdemote,
      show ((a.setBalance (some balance)).setNonce none).2 = [] from rfl, hrequeue]
  rw [hrun]
  exact ⟨rfl, hpromote.1.trans hnonce.symm, hpromote.2⟩

/-- A fresh queue of nonce 0 and balance 100 with a ready transaction of
cost 100. -/
def readyQueue : AddrQueue := (newAddrQueue 1 0 100).addTx ⟨7, 1, 0, 5, 100, 0⟩ |>.1

/-- When the balance of `readyQueue` drops to 50, its ready transaction at
the current nonce 0 is deleted and no longer held. -/
theorem updateCurrentNonceBalance_deletes_uncovered_ready_readyQueue :
    (readyQueue.updateCurrentNonceBalance none (some 50)).2.2.2 = [⟨7, 1, 0, 5, 100, 0⟩] ∧
      (readyQueue.updateCurrentNonceBalance none (some 50)).1.currentNonce = 0 ∧
      ¬ (readyQueue.updateCurrentNonceBalance none (some 50)).1.Holds ⟨7, 1, 0, 5, 100, 0⟩ :=
  updateCurrentNonceBalance_deletes_uncovered_ready readyQueue ⟨7, 1, 0, 5, 100, 0⟩ 50 rfl rfl (by decide)
    fun n => by simp [readyQueue, addTx, newAddrQueue]

end AddrQueue

end Sequencer

end XLayerNode
