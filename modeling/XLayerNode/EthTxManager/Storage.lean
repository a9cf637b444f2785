import XLayerNode.Common.Journal
import XLayerNode.State.Transaction
/-!
# Monitored transactions and their table

`ethtxmanager` sends the node's L1 transactions (sequences of batches,
proofs) and watches them until they are mined. Each one is a monitored
tx: a row of `state.monitored_txs`, keyed by its owner and id, with the
fields to rebuild the transaction, its status, the L1 block it was mined
in, and the hashes of every signed version of it (its history).

The table is the list of rows in the order they were created. Its calls
are written to the journal of `Common.Journal` together with the calls to
L1, and the rows after a journal are a fold over its writes (`rows`),
each applied unless the database fails it; a read answers from the rows
of the journal so far. So the storage is not an oracle: only its errors
are.

The client's operations on rows are here, from `ethtxmanager.go`: `Add`,
`Reorg` and `setStatusDone`, with `suggestedGasPrice`. What any journal
does to the table is stated once: the keys stay unique
(`rows_keysUnique`), a property every write keeps holds of every row
(`rows_forall`), and every row stays, as a version of itself that every
update relates it to (`rows_keeps`). `Reorg`, when it returns no error,
reorgs exactly the rows mined at or after its block (`reorg_find`).
-/

namespace XLayerNode

namespace EthTxManager

open Journal

/-- `MonitoredTxStatus`. -/
inductive MonitoredTxStatus where
  | created
  | sent
  | failed
  | confirmed
  | reorged
  | done
  deriving DecidableEq, Repr

/-- A `types.Receipt`, with the fields the manager reads. -/
structure Receipt where
  /-- `Status == types.ReceiptStatusSuccessful`. -/
  successful : Bool
  /-- `BlockNumber`, a `*big.Int`. -/
  blockNumber : Option ℕ
  txHash : ℕ
  deriving DecidableEq, Repr

/-- The zero `types.Receipt` that `monitorTx` starts from: failed, with a
nil block number. -/
def zeroReceipt : Receipt := ⟨false, none, 0⟩

/-- `monitoredTx`, without `createdAt` and `updatedAt`: the table keeps
its rows in the order they were created. `history` is the key set of the
Go map, in no particular order. -/
structure MonitoredTx where
  owner : String
  id : String
  /-- `from`, the column `from_addr`. -/
  fromAddr : State.Address
  /-- `to`. -/
  toAddr : Option State.Address
  nonce : UInt64
  value : Option ℕ
  data : List UInt8
  gas : UInt64
  gasOffset : UInt64
  gasPrice : ℕ
  status : MonitoredTxStatus
  blockNumber : Option ℕ
  history : List ℕ
  deriving DecidableEq

namespace MonitoredTx

/-- `Tx`: the legacy transaction to sign. A nil value is a zero one, and
the gas is `gas + gasOffset` in `uint64`. -/
def tx (mTx : MonitoredTx) : State.LegacyTx where
  nonce := mTx.nonce
  gasPrice := mTx.gasPrice
  gas := mTx.gas + mTx.gasOffset
  toAddr := mTx.toAddr
  value := mTx.value.getD 0
  data := mTx.data
  v := 0
  r := 0
  s := 0

/-- `AddHistory`: the hash joins the history, or `ErrAlreadyExists` (as
`none`) when it is there. -/
def addHistory (mTx : MonitoredTx) (txHash : ℕ) : Option MonitoredTx :=
  if txHash ∈ mTx.history then none else some { mTx with history := mTx.history ++ [txHash] }

/-- The row `Add` and `Update` write, and a read gives back: the gas
price, the value and the block number through `Uint64()`, which keeps
their low 64 bits. -/
def stored (mTx : MonitoredTx) : MonitoredTx :=
  { mTx with
    gasPrice := mTx.gasPrice % 2 ^ 64
    value := mTx.value.map (· % 2 ^ 64)
    blockNumber := mTx.blockNumber.map (· % 2 ^ 64) }

@[simp] theorem stored_owner (mTx : MonitoredTx) : mTx.stored.owner = mTx.owner := rfl
@[simp] theorem stored_id (mTx : MonitoredTx) : mTx.stored.id = mTx.id := rfl
@[simp] theorem stored_status (mTx : MonitoredTx) : mTx.stored.status = mTx.status := rfl
@[simp] theorem stored_history (mTx : MonitoredTx) : mTx.stored.history = mTx.history := rfl
@[simp] theorem stored_nonce (mTx : MonitoredTx) : mTx.stored.nonce = mTx.nonce := rfl

@[simp] theorem isSome_stored_blockNumber (mTx : MonitoredTx) :
    mTx.stored.blockNumber.isSome = mTx.blockNumber.isSome := by
  simp [stored]

theorem addHistory_eq_some {mTx mTx' : MonitoredTx} {txHash : ℕ} (h : mTx.addHistory txHash = some mTx') :
    txHash ∉ mTx.history ∧ mTx' = { mTx with history := mTx.history ++ [txHash] } := by
  unfold addHistory at h
  split_ifs at h with hmem
  exact ⟨hmem, (Option.some.inj h).symm⟩

theorem addHistory_eq_none {mTx : MonitoredTx} {txHash : ℕ} : mTx.addHistory txHash = none ↔ txHash ∈ mTx.history := by
  unfold addHistory
  split_ifs with hmem <;> simp [hmem]

@[simp] theorem stored_stored (mTx : MonitoredTx) : mTx.stored.stored = mTx.stored := by
  simp [stored, Option.map_map, Function.comp_def]

/-- A row as the table holds it: what a read gives back. -/
def Fits (mTx : MonitoredTx) : Prop := mTx.stored = mTx

theorem fits_stored (mTx : MonitoredTx) : mTx.stored.Fits := stored_stored mTx

/-- `m'` is a later version of `m`: the same transaction of the same
owner to the same receiver, with a history that only grows and a nonce
and gas that never decrease. -/
structure Grows (m m' : MonitoredTx) : Prop where
  owner : m'.owner = m.owner
  id : m'.id = m.id
  fromAddr : m'.fromAddr = m.fromAddr
  toAddr : m'.toAddr = m.toAddr
  value : m'.value = m.value
  data : m'.data = m.data
  gasOffset : m'.gasOffset = m.gasOffset
  history : m.history ⊆ m'.history
  nonce : m.nonce ≤ m'.nonce
  gas : m.gas ≤ m'.gas

theorem Grows.refl (m : MonitoredTx) : m.Grows m :=
  ⟨rfl, rfl, rfl, rfl, rfl, rfl, rfl, List.Subset.refl _, UInt64.le_refl _, UInt64.le_refl _⟩

theorem Grows.trans {m m' m'' : MonitoredTx} (h : m.Grows m') (h' : m'.Grows m'') : m.Grows m'' where
  owner := h'.owner.trans h.owner
  id := h'.id.trans h.id
  fromAddr := h'.fromAddr.trans h.fromAddr
  toAddr := h'.toAddr.trans h.toAddr
  value := h'.value.trans h.value
  data := h'.data.trans h.data
  gasOffset := h'.gasOffset.trans h.gasOffset
  history := List.Subset.trans h.history h'.history
  nonce := UInt64.le_trans h.nonce h'.nonce
  gas := UInt64.le_trans h.gas h'.gas

/-- A new status or block number makes a later version. -/
theorem Grows.of_status (m : MonitoredTx) (status : MonitoredTxStatus) (blockNumber : Option ℕ) :
    m.Grows { m with status, blockNumber } :=
  ⟨rfl, rfl, rfl, rfl, rfl, rfl, rfl, List.Subset.refl _, UInt64.le_refl _, UInt64.le_refl _⟩

/-- Storing keeps what a later version has of the earlier one. -/
theorem Grows.stored {m m' : MonitoredTx} (h : m.Grows m') : m.stored.Grows m'.stored where
  owner := h.owner
  id := h.id
  fromAddr := h.fromAddr
  toAddr := h.toAddr
  value := by simp only [MonitoredTx.stored, h.value]
  data := h.data
  gasOffset := h.gasOffset
  history := h.history
  nonce := h.nonce
  gas := h.gas

end MonitoredTx

/-! ## The table -/

/-- `state.monitored_txs`, in the order of `created_at`. -/
abbrev Rows := List MonitoredTx

namespace Rows

/-- The row of a key: `WHERE owner = $1 AND id = $2`. -/
def find (rs : Rows) (owner id : String) : Option MonitoredTx :=
  rs.find? fun m => m.owner == owner && m.id == id

/-- `INSERT`: a new row at the end, or `none` for the violated primary key
`monitored_txs_pkey`. -/
def add (rs : Rows) (mTx : MonitoredTx) : Option Rows :=
  match rs.find mTx.owner mTx.id with
  | some _ => none
  | none => some (rs ++ [mTx.stored])

/-- `UPDATE ... WHERE owner = $1 AND id = $2`: the row of the key, if any,
becomes the stored form of `mTx`. -/
def update (rs : Rows) (mTx : MonitoredTx) : Rows :=
  rs.map fun m => if m.owner = mTx.owner ∧ m.id = mTx.id then mTx.stored else m

/-- `GetByStatus`: the rows of the owner (any owner for `nil`) with one of
the statuses (any status for none). -/
def byStatus (rs : Rows) (owner : Option String) (statuses : List MonitoredTxStatus) : Rows :=
  rs.filter fun m => owner.all (· == m.owner) && (statuses.isEmpty || statuses.contains m.status)

/-- `GetByBlock`: the rows mined in the block range, bounds included, nil
bounds open. -/
def byBlock (rs : Rows) (fromBlock toBlock : Option ℕ) : Rows :=
  rs.filter fun m =>
    match m.blockNumber with
    | none => false
    | some b => fromBlock.all (fun f => decide (f ≤ b)) && toBlock.all (fun t => decide (b ≤ t))

theorem mem_byStatus {rs : Rows} {owner : Option String} {statuses : List MonitoredTxStatus} {m : MonitoredTx} :
    m ∈ rs.byStatus owner statuses ↔
      m ∈ rs ∧ owner.all (· == m.owner) = true ∧ (statuses.isEmpty || statuses.contains m.status) = true := by
  simp only [byStatus, List.mem_filter, Bool.and_eq_true]

theorem mem_byBlock {rs : Rows} {fromBlock toBlock : Option ℕ} {m : MonitoredTx} :
    m ∈ rs.byBlock fromBlock toBlock ↔ m ∈ rs ∧ ∃ n, m.blockNumber = some n ∧
      (fromBlock.all fun f => decide (f ≤ n)) = true ∧ (toBlock.all fun t => decide (n ≤ t)) = true := by
  unfold byBlock
  rw [List.mem_filter]
  cases hblock : m.blockNumber with
  | none => simp
  | some n => simp

/-- No two rows share a key. -/
def KeysUnique (rs : Rows) : Prop := (rs.map fun m => (m.owner, m.id)).Nodup

/-- Every row of `rs` has a version in `rs'` that it relates to by `R`. -/
def Keeps (R : MonitoredTx → MonitoredTx → Prop) (rs rs' : Rows) : Prop :=
  ∀ r ∈ rs, ∃ r' ∈ rs', R r r'

section Keeps

variable {R : MonitoredTx → MonitoredTx → Prop}

theorem Keeps.refl (hR : ∀ r, R r r) (rs : Rows) : Keeps R rs rs :=
  fun r hr => ⟨r, hr, hR r⟩

theorem Keeps.trans (htrans : ∀ a b c, R a b → R b c → R a c) {rs rs' rs'' : Rows} (h : Keeps R rs rs')
    (h' : Keeps R rs' rs'') : Keeps R rs rs'' := by
  intro r hr
  obtain ⟨r', hr', hrr'⟩ := h r hr
  obtain ⟨r'', hr'', hr'r''⟩ := h' r' hr'
  exact ⟨r'', hr'', htrans r r' r'' hrr' hr'r''⟩

theorem Keeps.mono {R' : MonitoredTx → MonitoredTx → Prop} (hRR' : ∀ a b, R a b → R' a b) {rs rs' : Rows}
    (h : Keeps R rs rs') : Keeps R' rs rs' := by
  intro r hr
  obtain ⟨r', hr', hrr'⟩ := h r hr
  exact ⟨r', hr', hRR' r r' hrr'⟩

end Keeps

theorem find_eq_some {rs : Rows} {owner id : String} {m : MonitoredTx} (h : rs.find owner id = some m) :
    m ∈ rs ∧ m.owner = owner ∧ m.id = id := by
  have hmem := List.mem_of_find?_eq_some h
  have hkey := List.find?_some h
  simp only [Bool.and_eq_true, beq_iff_eq] at hkey
  exact ⟨hmem, hkey⟩

theorem find_eq_none {rs : Rows} {owner id : String} :
    rs.find owner id = none ↔ ∀ m ∈ rs, ¬ (m.owner = owner ∧ m.id = id) := by
  simp [find, List.find?_eq_none]

theorem add_eq_some {rs rs' : Rows} {mTx : MonitoredTx} (h : rs.add mTx = some rs') :
    rs.find mTx.owner mTx.id = none ∧ rs' = rs ++ [mTx.stored] := by
  unfold add at h
  split at h
  · exact nomatch h
  · rename_i hnone
    exact ⟨hnone, (Option.some.inj h).symm⟩

/-- A new row keeps the keys unique. -/
theorem KeysUnique.add {rs rs' : Rows} {mTx : MonitoredTx} (hu : rs.KeysUnique) (h : rs.add mTx = some rs') :
    rs'.KeysUnique := by
  obtain ⟨hnone, rfl⟩ := add_eq_some h
  unfold KeysUnique
  rw [List.map_append, List.nodup_append]
  refine ⟨hu, List.nodup_singleton _, ?_⟩
  intro k hk k' hk'
  simp only [List.map_cons, List.map_nil, List.mem_singleton] at hk'
  obtain ⟨m, hm, rfl⟩ := List.mem_map.mp hk
  rintro rfl
  exact find_eq_none.mp hnone m hm (by simpa using hk')

theorem keeps_add {R : MonitoredTx → MonitoredTx → Prop} (hR : ∀ r, R r r) {rs rs' : Rows} {mTx : MonitoredTx}
    (h : rs.add mTx = some rs') : Keeps R rs rs' := by
  obtain ⟨-, rfl⟩ := add_eq_some h
  exact fun r hr => ⟨r, List.mem_append_left _ hr, hR r⟩

@[simp] theorem map_key_update (rs : Rows) (mTx : MonitoredTx) :
    (rs.update mTx).map (fun m => (m.owner, m.id)) = rs.map fun m => (m.owner, m.id) := by
  simp only [update, List.map_map]
  congr 1
  funext m
  simp only [Function.comp_apply]
  split_ifs with hkey
  · simp [hkey.1, hkey.2]
  · rfl

theorem KeysUnique.update {rs : Rows} (hu : rs.KeysUnique) (mTx : MonitoredTx) : (rs.update mTx).KeysUnique := by
  unfold KeysUnique
  rw [map_key_update]
  exact hu

/-- The rows of an update: the row of the key is the stored form of the
new one, every other row is as it was. -/
theorem mem_update {rs : Rows} {mTx m : MonitoredTx} (hm : m ∈ rs.update mTx) :
    ∃ r ∈ rs, r.owner = m.owner ∧ r.id = m.id ∧
      ((r.owner = mTx.owner ∧ r.id = mTx.id ∧ m = mTx.stored) ∨ m = r) := by
  obtain ⟨r, hr, rfl⟩ := List.mem_map.mp hm
  by_cases hkey : r.owner = mTx.owner ∧ r.id = mTx.id
  · rw [if_pos hkey]
    exact ⟨r, hr, hkey.1, hkey.2, .inl ⟨hkey.1, hkey.2, rfl⟩⟩
  · rw [if_neg hkey]
    exact ⟨r, hr, rfl, rfl, .inr rfl⟩

/-- An update keeps every row when it relates the row of its key to the
row it writes. -/
theorem keeps_update {R : MonitoredTx → MonitoredTx → Prop} (hR : ∀ r, R r r) {rs : Rows} {mTx : MonitoredTx}
    (h : ∀ r ∈ rs, r.owner = mTx.owner → r.id = mTx.id → R r mTx.stored) : Keeps R rs (rs.update mTx) := by
  intro r hr
  refine ⟨if r.owner = mTx.owner ∧ r.id = mTx.id then mTx.stored else r, List.mem_map_of_mem hr, ?_⟩
  split_ifs with hkey
  · exact h r hr hkey.1 hkey.2
  · exact hR r

/-- In a table with unique keys, the row found under a key is the only
row with that key. -/
theorem KeysUnique.eq_of_find {rs : Rows} (hu : rs.KeysUnique) {owner id : String} {m r : MonitoredTx}
    (hfind : rs.find owner id = some m) (hr : r ∈ rs) (howner : r.owner = owner) (hid : r.id = id) : r = m := by
  obtain ⟨hm, hmowner, hmid⟩ := find_eq_some hfind
  have hkey : (fun m : MonitoredTx => (m.owner, m.id)) r = (fun m : MonitoredTx => (m.owner, m.id)) m := by
    simp [howner, hid, hmowner, hmid]
  exact List.inj_on_of_nodup_map hu hr hm hkey

/-- In a table with unique keys, two rows with one key are one row. -/
theorem KeysUnique.eq_of_mem {rs : Rows} (hu : rs.KeysUnique) {r m : MonitoredTx} (hr : r ∈ rs) (hm : m ∈ rs)
    (howner : r.owner = m.owner) (hid : r.id = m.id) : r = m := by
  have hkey : (fun m : MonitoredTx => (m.owner, m.id)) r = (fun m : MonitoredTx => (m.owner, m.id)) m := by
    simp [howner, hid]
  exact List.inj_on_of_nodup_map hu hr hm hkey

/-- A row of another key is kept by an update. -/
theorem mem_update_of_ne {rs : Rows} {r mTx : MonitoredTx} (hr : r ∈ rs) (hkey : ¬(r.owner = mTx.owner ∧ r.id = mTx.id)) :
    r ∈ rs.update mTx := by
  have h := List.mem_map_of_mem (f := fun m => if m.owner = mTx.owner ∧ m.id = mTx.id then mTx.stored else m) hr
  rwa [if_neg hkey] at h

theorem KeysUnique.find_of_mem {rs : Rows} (hu : rs.KeysUnique) {r : MonitoredTx} (hr : r ∈ rs) :
    rs.find r.owner r.id = some r := by
  cases hfind : rs.find r.owner r.id with
  | none => exact absurd ⟨rfl, rfl⟩ (find_eq_none.mp hfind r hr)
  | some m =>
    obtain ⟨hm, howner, hid⟩ := find_eq_some hfind
    rw [hu.eq_of_mem hm hr howner hid]

/-- An update leaves the row of every other key. -/
theorem find_update_of_ne {rs : Rows} {mTx : MonitoredTx} {owner id : String}
    (hkey : ¬(owner = mTx.owner ∧ id = mTx.id)) : (rs.update mTx).find owner id = rs.find owner id := by
  -- a row of the key looked up is not one the update writes, before or after it
  have hne : ∀ r : MonitoredTx, r.owner = owner ∧ r.id = id → ¬(r.owner = mTx.owner ∧ r.id = mTx.id) :=
    fun r h h' => hkey ⟨h.1.symm.trans h'.1, h.2.symm.trans h'.2⟩
  have hp : ((fun m : MonitoredTx => m.owner == owner && m.id == id) ∘
      fun m => if m.owner = mTx.owner ∧ m.id = mTx.id then mTx.stored else m) =
      fun m => m.owner == owner && m.id == id := by
    funext r
    simp only [Function.comp_apply]
    split_ifs with hr
    · have hstored : ¬(mTx.stored.owner = owner ∧ mTx.stored.id = id) := fun h =>
        hne mTx.stored h ⟨rfl, rfl⟩
      have hr' : ¬(r.owner = owner ∧ r.id = id) := fun h => hne r h hr
      rw [Bool.eq_iff_iff]
      simp only [Bool.and_eq_true, beq_iff_eq]
      exact ⟨fun h => absurd h hstored, fun h => absurd h hr'⟩
    · rfl
  unfold find update
  rw [List.find?_map, hp]
  cases hfind : rs.find? (fun m => m.owner == owner && m.id == id) with
  | none => rfl
  | some r =>
    have hr := List.find?_some hfind
    simp only [Bool.and_eq_true, beq_iff_eq] at hr
    simp only [Option.map_some, if_neg (hne r hr)]

/-- The first row's key is none of the others'. -/
theorem KeysUnique.cons {m : MonitoredTx} {rs : Rows} (hu : KeysUnique (m :: rs)) :
    rs.KeysUnique ∧ ∀ r ∈ rs, ¬(r.owner = m.owner ∧ r.id = m.id) := by
  unfold KeysUnique at hu
  rw [List.map_cons, List.nodup_cons] at hu
  refine ⟨hu.2, fun r hr ⟨howner, hid⟩ => hu.1 (List.mem_map.mpr ⟨r, hr, ?_⟩)⟩
  rw [howner, hid]

theorem KeysUnique.sublist {rs rs' : Rows} (hu : rs.KeysUnique) (h : rs'.Sublist rs) : rs'.KeysUnique :=
  List.Nodup.sublist (h.map _) hu

theorem find_update_self {rs : Rows} {mTx m : MonitoredTx} (hfind : rs.find mTx.owner mTx.id = some m) :
    (rs.update mTx).find mTx.owner mTx.id = some mTx.stored := by
  unfold find update
  rw [List.find?_map]
  have hmap : ∀ r, ((fun r : MonitoredTx => r.owner == mTx.owner && r.id == mTx.id) ∘
      fun r => if r.owner = mTx.owner ∧ r.id = mTx.id then mTx.stored else r) r =
      (r.owner == mTx.owner && r.id == mTx.id) := by
    intro r
    simp only [Function.comp_apply]
    split_ifs with hkey
    · simp [hkey.1, hkey.2]
    · rfl
  rw [funext hmap]
  unfold find at hfind
  rw [hfind]
  obtain ⟨-, hkey⟩ := find_eq_some hfind
  simp [hkey.1, hkey.2]

end Rows

/-! ## Calls and their answers -/

/-- The calls of the manager: to its table, and to L1 through `etherman`. -/
inductive Call where
  | add (mTx : MonitoredTx)
  | get (owner id : String)
  | getByStatus (owner : Option String) (statuses : List MonitoredTxStatus)
  | getByBlock (fromBlock toBlock : Option ℕ)
  | update (mTx : MonitoredTx)
  | currentNonce (account : State.Address)
  | estimateGas (fromAddr : State.Address) (toAddr : Option State.Address) (value : Option ℕ) (data : List UInt8)
  | suggestedGasPrice
  | checkTxWasMined (txHash : ℕ)
  | signTx (sender : State.Address) (tx : State.LegacyTx)
  /-- The signature of the custodial assets service (`signTx` of
  `custodialassets_xlayer.go`). -/
  | custodialSignTx (tx : State.LegacyTx)
  | getTx (txHash : ℕ)
  | sendTx (txHash : ℕ)
  | waitTxToBeMined (txHash : ℕ)
  | getTxReceipt (txHash : ℕ)
  | getRevertMessage (txHash : ℕ)
  deriving DecidableEq

/-- The environment: the rows before the journal and the database's
errors, and every answer of L1, each from the journal that ends with its
call. A signature is the hash of the signed transaction. -/
structure Env (ε : Type) where
  initialRows : Rows
  /-- The error of a call to the table, none when it runs. -/
  storageError : List Call → Option ε
  currentNonce : List Call → Except ε UInt64
  estimateGas : List Call → Except ε UInt64
  suggestedGasPrice : List Call → Except ε ℕ
  /-- `CheckTxWasMined`: the receipt, or none when the transaction is not
  mined. -/
  checkTxWasMined : List Call → Except ε (Option Receipt)
  signTx : List Call → Except ε ℕ
  custodialSignTx : List Call → Except ε ℕ
  /-- `.error none` is `ethereum.NotFound`. -/
  getTx : List Call → Except (Option ε) Unit
  sendTx : List Call → Except ε Unit
  waitTxToBeMined : List Call → Except ε Bool
  getTxReceipt : List Call → Except ε Receipt
  /-- `.error none` is an error with the text of `ErrExecutionReverted`. -/
  getRevertMessage : List Call → Except (Option ε) Unit
  /-- The order in which a `range` over a history, a Go map, visits its
  hashes: any order. -/
  historyOrder : List Call → List ℕ → List ℕ
  historyOrder_perm : ∀ j history, (historyOrder j history).Perm history

variable {ε α : Type}

/-- What a call does to the table: a write the database runs. -/
def storageStep (env : Env ε) (rs : Rows) (j : List Call) : Call → Rows
  | .add mTx => if env.storageError j = none then (rs.add mTx).getD rs else rs
  | .update mTx => if env.storageError j = none then rs.update mTx else rs
  | _ => rs

/-- The rows after the journal. -/
def rows (env : Env ε) (j : List Call) : Rows := foldCalls (storageStep env) env.initialRows j

namespace Env

variable (env : Env ε)

/-- The answer of `Add`: `ErrAlreadyExists` (as `.error none`) for a key
of the table. -/
def addAnswer (mTx : MonitoredTx) (j : List Call) : Except (Option ε) Unit :=
  match env.storageError j with
  | some err => .error (some err)
  | none => if ((rows env j.dropLast).add mTx).isSome then .ok () else .error none

/-- The answer of `Get`: `ErrNotFound` (as `.error none`) for a key that
is not in the table. -/
def getAnswer (owner id : String) (j : List Call) : Except (Option ε) MonitoredTx :=
  match env.storageError j with
  | some err => .error (some err)
  | none =>
    match (rows env j).find owner id with
    | some m => .ok m
    | none => .error none

def getByStatusAnswer (owner : Option String) (statuses : List MonitoredTxStatus) (j : List Call) :
    Except ε Rows :=
  match env.storageError j with
  | some err => .error err
  | none => .ok ((rows env j).byStatus owner statuses)

def getByBlockAnswer (fromBlock toBlock : Option ℕ) (j : List Call) : Except ε Rows :=
  match env.storageError j with
  | some err => .error err
  | none => .ok ((rows env j).byBlock fromBlock toBlock)

def updateAnswer (j : List Call) : Except ε Unit :=
  match env.storageError j with
  | some err => .error err
  | none => .ok ()

end Env

section Rows

variable {env : Env ε} {j : List Call}

@[simp] theorem rows_nil : rows env [] = env.initialRows := rfl

theorem rows_append_singleton (j : List Call) (c : Call) :
    rows env (j ++ [c]) = storageStep env (rows env j) (j ++ [c]) c := by
  rw [rows, foldCalls_append_singleton]
  rfl

/-- A call that writes nothing leaves the rows. -/
theorem rows_append_of_ne (j : List Call) {c : Call} (hadd : ∀ m, c ≠ .add m) (hupdate : ∀ m, c ≠ .update m) :
    rows env (j ++ [c]) = rows env j := by
  rw [rows_append_singleton]
  cases c <;> first | rfl | exact absurd rfl (hadd _) | exact absurd rfl (hupdate _)

/-- An update the database runs replaces the row of its key. -/
theorem rows_append_update_of_ok {mTx : MonitoredTx} (h : env.updateAnswer (j ++ [.update mTx]) = .ok ()) :
    rows env (j ++ [.update mTx]) = (rows env j).update mTx := by
  rw [rows_append_singleton]
  unfold Env.updateAnswer at h
  simp only [storageStep]
  split at h
  · exact nomatch h
  · rename_i hnone
    rw [if_pos hnone]

/-- An update the database fails leaves the rows. -/
theorem rows_append_update_of_error {mTx : MonitoredTx} {e : ε}
    (h : env.updateAnswer (j ++ [.update mTx]) = .error e) : rows env (j ++ [.update mTx]) = rows env j := by
  rw [rows_append_singleton]
  unfold Env.updateAnswer at h
  simp only [storageStep]
  split at h
  · rename_i err hsome
    rw [if_neg (by rw [hsome]; exact Option.some_ne_none err)]
  · exact nomatch h

theorem rows_append_update (mTx : MonitoredTx) :
    rows env (j ++ [.update mTx]) = rows env j ∨ rows env (j ++ [.update mTx]) = (rows env j).update mTx := by
  rw [rows_append_singleton]
  simp only [storageStep]
  split_ifs
  · exact .inr rfl
  · exact .inl rfl

theorem rows_append_add (mTx : MonitoredTx) :
    rows env (j ++ [.add mTx]) = rows env j ∨ (rows env j).add mTx = some (rows env (j ++ [.add mTx])) := by
  rw [rows_append_singleton]
  simp only [storageStep]
  split_ifs
  · cases hadd : (rows env j).add mTx with
    | none => exact .inl rfl
    | some rs => exact .inr rfl
  · exact .inl rfl

/-- A read answers from the rows. -/
theorem getAnswer_eq_ok {owner id : String} {m : MonitoredTx}
    (h : env.getAnswer owner id (j ++ [.get owner id]) = .ok m) : (rows env j).find owner id = some m := by
  unfold Env.getAnswer at h
  rw [rows_append_of_ne j (by simp) (by simp)] at h
  split at h
  · exact nomatch h
  · split at h
    · rename_i m' hfind
      cases h
      exact hfind
    · exact nomatch h

theorem getByBlockAnswer_eq_ok {fromBlock toBlock : Option ℕ} {mTxs : Rows}
    (h : env.getByBlockAnswer fromBlock toBlock (j ++ [.getByBlock fromBlock toBlock]) = .ok mTxs) :
    mTxs = (rows env j).byBlock fromBlock toBlock := by
  unfold Env.getByBlockAnswer at h
  rw [rows_append_of_ne j (by simp) (by simp)] at h
  split at h
  · exact nomatch h
  · exact (Except.ok.inj h).symm

theorem getByStatusAnswer_eq_ok {owner : Option String} {statuses : List MonitoredTxStatus} {mTxs : Rows}
    (h : env.getByStatusAnswer owner statuses (j ++ [.getByStatus owner statuses]) = .ok mTxs) :
    mTxs = (rows env j).byStatus owner statuses := by
  unfold Env.getByStatusAnswer at h
  rw [rows_append_of_ne j (by simp) (by simp)] at h
  split at h
  · exact nomatch h
  · exact (Except.ok.inj h).symm

/-- What a call can do to the table: nothing, insert a row, or update the
row of a key. -/
theorem storageStep_cases (rs : Rows) (j : List Call) (c : Call) :
    storageStep env rs j c = rs ∨
      (∃ mTx, c = .add mTx ∧ rs.add mTx = some (storageStep env rs j c)) ∨
      (∃ mTx, c = .update mTx ∧ storageStep env rs j c = rs.update mTx) := by
  cases c with
  | add mTx =>
    simp only [storageStep]
    split_ifs
    · cases hadd : rs.add mTx with
      | none => exact .inl rfl
      | some rs' => exact .inr (.inl ⟨mTx, rfl, hadd⟩)
    · exact .inl rfl
  | update mTx =>
    simp only [storageStep]
    split_ifs
    · exact .inr (.inr ⟨mTx, rfl, rfl⟩)
    · exact .inl rfl
  | _ => exact .inl rfl

/-- The keys of the table stay unique whatever the journal: an insert of
a key of the table fails, and an update keeps the keys. -/
theorem rows_keysUnique (h : env.initialRows.KeysUnique) (j : List Call) : (rows env j).KeysUnique := by
  induction j using List.reverseRecOn with
  | nil => exact h
  | append_singleton j c ih =>
    rw [rows_append_singleton]
    rcases storageStep_cases (rows env j) (j ++ [c]) c with hsame | ⟨mTx, -, hadd⟩ | ⟨mTx, -, hupdate⟩
    · rw [hsame]
      exact ih
    · exact ih.add hadd
    · rw [hupdate]
      exact ih.update mTx

/-- A write of the journal, made to a table whose rows all have `P`,
writes a row that has `P`. -/
def WritesKeep (env : Env ε) (P : MonitoredTx → Prop) (pre : List Call) (c : Call) : Prop :=
  (∀ r ∈ rows env pre, P r) → (∀ mTx, c = .add mTx → P mTx.stored) ∧
    ∀ mTx, c = .update mTx → ∀ r ∈ rows env pre, r.owner = mTx.owner → r.id = mTx.id → P mTx.stored

/-- **A property every write keeps holds of every row**, from a table whose
rows have it. -/
theorem rows_forall {P : MonitoredTx → Prop} (hinit : ∀ r ∈ env.initialRows, P r) {j : List Call}
    (h : EveryCall (WritesKeep env P) j) : ∀ r ∈ rows env j, P r := by
  induction j using List.reverseRecOn with
  | nil => exact hinit
  | append_singleton j c ih =>
    obtain ⟨hj, hc⟩ := everyCall_append_singleton.mp h
    have hrows := ih hj
    intro r hr
    rw [rows_append_singleton] at hr
    rcases storageStep_cases (rows env j) (j ++ [c]) c with hsame | ⟨mTx, rfl, hadd⟩ | ⟨mTx, rfl, hupdate⟩
    · rw [hsame] at hr
      exact hrows r hr
    · -- the row is an old one or the new one
      rw [(Rows.add_eq_some hadd).2, List.mem_append, List.mem_singleton] at hr
      rcases hr with hr | rfl
      · exact hrows r hr
      · exact (hc hrows).1 mTx rfl
    · rw [hupdate] at hr
      -- a written row replaces one of its key
      obtain ⟨r₀, hr₀, -, -, ⟨howner, hid, hnew⟩ | hold⟩ := Rows.mem_update hr
      · rw [hnew]
        exact (hc hrows).2 mTx rfl r₀ hr₀ howner hid
      · rw [hold]
        exact hrows r₀ hr₀

theorem rows_fits (hinit : ∀ r ∈ env.initialRows, r.Fits) (j : List Call) : ∀ r ∈ rows env j, r.Fits := by
  have h : EveryCall (WritesKeep env MonitoredTx.Fits) j := by
    intro pre c post _ _
    exact ⟨fun mTx _ => mTx.fits_stored, fun mTx _ _ _ _ _ => mTx.fits_stored⟩
  exact rows_forall hinit h

/-- Every update of the journal relates each row of its key to the row
it writes by `R`. -/
def UpdatesRelate (env : Env ε) (R : MonitoredTx → MonitoredTx → Prop) (pre : List Call) (c : Call) : Prop :=
  ∀ mTx, c = .update mTx → ∀ r ∈ rows env pre, r.owner = mTx.owner → r.id = mTx.id → R r mTx.stored

/-- **The table keeps every row it had**, each related to its later
version by `R`, when every update relates by `R` the rows it replaces. -/
theorem rows_keeps {R : MonitoredTx → MonitoredTx → Prop} (hR : ∀ r, R r r)
    (htrans : ∀ a b c, R a b → R b c → R a c) (j : List Call) {new : List Call}
    (h : EveryCall (UpdatesRelate env R) (j ++ new)) : Rows.Keeps R (rows env j) (rows env (j ++ new)) := by
  induction new using List.reverseRecOn with
  | nil =>
    rw [List.append_nil]
    exact Rows.Keeps.refl hR _
  | append_singleton new c ih =>
    rw [← List.append_assoc] at h ⊢
    obtain ⟨hj, hc⟩ := everyCall_append_singleton.mp h
    refine Rows.Keeps.trans htrans (ih hj) ?_
    rw [rows_append_singleton]
    rcases storageStep_cases (rows env (j ++ new)) (j ++ new ++ [c]) c with
      hsame | ⟨mTx, -, hadd⟩ | ⟨mTx, rfl, hupdate⟩
    · rw [hsame]
      exact Rows.Keeps.refl hR _
    · exact Rows.keeps_add hR hadd
    · rw [hupdate]
      exact Rows.keeps_update hR (hc mTx rfl)

end Rows

/-! ## The client's operations on rows -/

/-- How a function of the client stops early: it returns (its error is
logged, or returned to a caller that logs it), or `log.Fatal` stops the
node. -/
inductive Stop where
  | returned
  | fatal
  deriving DecidableEq, Repr

/-- The programs of the client. -/
abbrev Run (α : Type) := Journal Call Stop α

/-- The configuration the client reads. -/
structure Config where
  forcedGas : UInt64
  /-- `GasPriceMarginFactor` as `suggestedGasPrice` applies it: the
  `big.Float` product with the suggested price, truncated to an integer. -/
  applyMarginFactor : ℕ → ℕ
  maxGasPriceLimit : UInt64
  /-- `CustodialAssets.Enable`. -/
  custodialAssetsEnable : Bool

/-- A call whose error the caller logs and returns on. -/
def orReturn (c : Call) (answer : List Call → Except β α) : Run α := do
  match ← call c answer with
  | .error _ => exit .returned
  | .ok a => pure a

/-- `storage.Update`, its error logged and the caller returning. -/
def update (env : Env ε) (mTx : MonitoredTx) : Run Unit :=
  orReturn (.update mTx) env.updateAnswer

theorem orReturn_apply (c : Call) (answer : List Call → Except β α) (j : List Call) :
    orReturn c answer j = ((answer (j ++ [c])).mapError fun _ => Stop.returned, j ++ [c]) := by
  unfold orReturn
  rw [call_bind_apply]
  cases answer (j ++ [c]) <;> rfl

/-- A call that only `S` allows, whatever it answers. -/
theorem orReturn_effects {S : Call → Prop} {c : Call} (hc : S c) (answer : List Call → Except β α) :
    Effects S (fun r => ∀ a, r = .ok a → True) (orReturn c answer) := by
  unfold orReturn
  refine Effects.call_bind hc fun b => ?_
  cases b with
  | error => exact Effects.exit fun _ h => nomatch h
  | ok a => exact Effects.pure fun _ _ => trivial

/-- A call whose error returns, and the rest of the run with the answer
it gave. -/
theorem orReturn_bind_triple {P : List Call → Prop} {c : Call} {answer : List Call → Except β α} {f : α → Run γ}
    {Q : Except Stop γ → List Call → Prop}
    (herror : ∀ j e, P j → answer (j ++ [c]) = .error e → Q (.error .returned) (j ++ [c]))
    (hok : ∀ j a, P j → answer (j ++ [c]) = .ok a → Triple (fun j' => j' = j ++ [c]) (f a) Q) :
    Triple P (orReturn c answer >>= f) Q := by
  intro j hj
  rw [bind_apply, orReturn_apply]
  cases h : answer (j ++ [c]) with
  | error e => exact herror j e hj h
  | ok a => exact hok j a hj h _ rfl

/-- An update stops its caller exactly when the database fails it. -/
theorem update_apply (env : Env ε) (mTx : MonitoredTx) (j : List Call) :
    update env mTx j = ((env.updateAnswer (j ++ [.update mTx])).mapError fun _ => Stop.returned, j ++ [.update mTx]) :=
  orReturn_apply _ _ j

/-- `suggestedGasPrice`: the network's price times the margin factor,
capped at `MaxGasPriceLimit` when there is one. -/
def suggestedGasPrice (env : Env ε) (cfg : Config) : Run ℕ := do
  let gasPrice ← orReturn .suggestedGasPrice env.suggestedGasPrice
  let adjustedGasPrice := cfg.applyMarginFactor gasPrice
  pure (if 0 < cfg.maxGasPriceLimit ∧ cfg.maxGasPriceLimit.toNat < adjustedGasPrice then cfg.maxGasPriceLimit.toNat
    else adjustedGasPrice)

/-- The gas of `Add`: the estimate, or `ForcedGas` when the estimate fails
and it is set. -/
def estimateGasOrForced (env : Env ε) (cfg : Config) (fromAddr : State.Address) (toAddr : Option State.Address)
    (value : Option ℕ) (data : List UInt8) : Run UInt64 := do
  match ← call (.estimateGas fromAddr toAddr value data) env.estimateGas with
  | .ok gas => pure gas
  | .error _ => if 0 < cfg.forcedGas then pure cfg.forcedGas else exit .returned

/-- `Add`: a new monitored tx, created, with the sender's current nonce,
the gas and the suggested gas price. -/
def add (env : Env ε) (cfg : Config) (owner id : String) (fromAddr : State.Address) (toAddr : Option State.Address)
    (value : Option ℕ) (data : List UInt8) (gasOffset : UInt64) : Run Unit := do
  let nonce ← orReturn (.currentNonce fromAddr) env.currentNonce
  let gas ← estimateGasOrForced env cfg fromAddr toAddr value data
  let gasPrice ← suggestedGasPrice env cfg
  let mTx : MonitoredTx :=
    { owner, id, fromAddr, toAddr, nonce, value, data, gas, gasOffset, gasPrice, status := .created,
      blockNumber := none, history := [] }
  orReturn (.add mTx) (env.addAnswer mTx)

/-- `Reorg`: every row mined at or after the block is reorged, with no
block number; the first update that fails stops it. -/
def reorg (env : Env ε) (fromBlockNumber : ℕ) : Run Unit := do
  let mTxs ← orReturn (.getByBlock (some fromBlockNumber) none) (env.getByBlockAnswer (some fromBlockNumber) none)
  mTxs.forM fun mTx => update env { mTx with blockNumber := none, status := .reorged }

/-- **A loop of updates that all run** writes, for each key, the version
of the loop's row of that key, and leaves the rows of other keys. -/
theorem forM_update_find (env : Env ε) (f : MonitoredTx → MonitoredTx)
    (hkey : ∀ m, (f m).owner = m.owner ∧ (f m).id = m.id) (L : Rows) (hu : L.KeysUnique) (j j' : List Call)
    (hpresent : ∀ m ∈ L, ∃ r, (rows env j).find m.owner m.id = some r)
    (hok : (L.forM fun m => update env (f m)) j = (.ok (), j')) (owner id : String) :
    (rows env j').find owner id =
      match L.find owner id with
      | some m => some (f m).stored
      | none => (rows env j).find owner id := by
  induction L generalizing j with
  | nil =>
    rw [forM_nil, pure_apply] at hok
    cases hok
    rfl
  | cons m L ih =>
    obtain ⟨hu', hne⟩ := hu.cons
    rw [forM_cons, bind_apply, update_apply] at hok
    cases hans : env.updateAnswer (j ++ [.update (f m)]) with
    | error e =>
      rw [hans] at hok
      exact nomatch hok
    | ok u =>
      rw [hans] at hok
      have hok' : (L.forM fun m => update env (f m)) (j ++ [.update (f m)]) = (.ok (), j') := hok
      -- after the first update, the table holds its row, and every other key as it was
      have hrows := rows_append_update_of_ok hans
      obtain ⟨r, hr⟩ := hpresent m List.mem_cons_self
      have hfind : (rows env j).find (f m).owner (f m).id = some r := by
        rw [(hkey m).1, (hkey m).2]
        exact hr
      have hother : ∀ {owner' id' : String}, ¬(owner' = m.owner ∧ id' = m.id) →
          (rows env (j ++ [.update (f m)])).find owner' id' = (rows env j).find owner' id' := by
        intro owner' id' hne'
        rw [hrows]
        exact Rows.find_update_of_ne fun h => hne' ⟨h.1.trans (hkey m).1, h.2.trans (hkey m).2⟩
      have ih' := ih hu' (j ++ [.update (f m)]) (fun m' hm' => by
        rw [hother fun h => hne m' hm' h]
        exact hpresent m' (List.mem_cons_of_mem m hm')) hok'
      rw [ih']
      by_cases hm : m.owner = owner ∧ m.id = id
      · -- the key of the first row: no other row of the loop has it
        have hL : Rows.find L owner id = none := Rows.find_eq_none.mpr fun m' hm' h =>
          hne m' hm' ⟨h.1.trans hm.1.symm, h.2.trans hm.2.symm⟩
        have hcons : Rows.find (m :: L) owner id = some m := by
          simp [Rows.find, hm.1, hm.2]
        rw [hL, hcons, hrows, ← hm.1, ← hm.2, ← (hkey m).1, ← (hkey m).2]
        exact Rows.find_update_self hfind
      · have hcons : Rows.find (m :: L) owner id = Rows.find L owner id := by
          have hpm : (m.owner == owner && m.id == id) = false := by
            simpa using hm
          simp only [Rows.find, List.find?_cons, hpm]
        rw [hcons]
        cases Rows.find L owner id with
        | some m' => rfl
        | none => exact hother fun h => hm ⟨h.1.symm, h.2.symm⟩

/-! ## A node that mines what it sends -/

/-- The sequence sender's address. -/
def senderAddr : State.Address := ⟨List.replicate 20 0x11, rfl⟩

/-- A row of the sequence sender, created and not yet sent. -/
def createdTx : MonitoredTx :=
  { owner := "sequencer", id := "batch-2", fromAddr := senderAddr, toAddr := none, nonce := 1, value := none,
    data := [], gas := 21000, gasOffset := 0, gasPrice := 1, status := .created, blockNumber := none, history := [] }

/-- A row of the sequence sender, confirmed in block `100` by the hash `5`. -/
def confirmedTx : MonitoredTx :=
  { createdTx with id := "batch-1", nonce := 0, status := .confirmed, blockNumber := some 100, history := [5] }

/-- A table of `confirmedTx` and `createdTx`, a database that runs every
call, and an L1 that mines every transaction: it signs one as the hash
`7`, does not have it until it is sent, and gives a successful receipt in
block `100`. -/
def miningNode : Env Unit where
  initialRows := [confirmedTx, createdTx]
  storageError _ := none
  currentNonce _ := .ok 1
  estimateGas _ := .ok 21000
  suggestedGasPrice _ := .ok 1
  checkTxWasMined _ := .ok none
  signTx _ := .ok 7
  custodialSignTx _ := .error ()
  getTx _ := .error none
  sendTx _ := .ok ()
  waitTxToBeMined _ := .ok true
  getTxReceipt _ := .ok ⟨true, some 100, 7⟩
  getRevertMessage _ := .error (some ())
  historyOrder _ history := history
  historyOrder_perm _ _ := List.Perm.refl _

/-- No forced gas, no margin on the gas price and no limit on it, and
signatures by `etherman`. -/
def plainConfig : Config := ⟨0, id, 0, false⟩

theorem miningNode_keysUnique : miningNode.initialRows.KeysUnique := by
  unfold Rows.KeysUnique
  decide

theorem miningNode_fits : ∀ r ∈ miningNode.initialRows, r.Fits := by
  unfold MonitoredTx.Fits
  decide

/-! ## What `Reorg` does -/

/-- What `Reorg` is for: a row mined at or after the block is reorged,
with no block number, and every other row is as it was. -/
def MonitoredTx.reorgedFrom (fromBlockNumber : ℕ) (m : MonitoredTx) : MonitoredTx :=
  match m.blockNumber with
  | some b => if fromBlockNumber ≤ b then { m with blockNumber := none, status := .reorged } else m
  | none => m

/-- The reorged form of a row as the table holds it is stored as it is. -/
theorem MonitoredTx.Fits.stored_reorged {m : MonitoredTx} (hm : m.Fits) :
    { m with blockNumber := none, status := .reorged }.stored = { m with blockNumber := none, status := .reorged } := by
  unfold MonitoredTx.Fits MonitoredTx.stored at hm
  cases m
  simp only [MonitoredTx.mk.injEq] at hm
  simp only [MonitoredTx.stored, hm.2.2, Option.map_none]

/-- A row `Reorg` reads, mined at or after its block, is reorged. -/
theorem MonitoredTx.reorgedFrom_of_mem_byBlock {rs : Rows} {fromBlockNumber : ℕ} {m : MonitoredTx}
    (hm : m ∈ rs.byBlock (some fromBlockNumber) none) :
    m.reorgedFrom fromBlockNumber = { m with blockNumber := none, status := .reorged } := by
  obtain ⟨-, n, hn, hfrom, -⟩ := Rows.mem_byBlock.mp hm
  rw [MonitoredTx.reorgedFrom, hn]
  dsimp only
  rw [if_pos (by simpa using hfrom)]

/-- A row of the table that `Reorg` does not read is its own reorged form. -/
theorem MonitoredTx.reorgedFrom_of_not_mem_byBlock {rs : Rows} {fromBlockNumber : ℕ} {r : MonitoredTx}
    (hr : r ∈ rs) (hnot : r ∉ rs.byBlock (some fromBlockNumber) none) : r.reorgedFrom fromBlockNumber = r := by
  unfold MonitoredTx.reorgedFrom
  cases hb : r.blockNumber with
  | none => rfl
  | some n =>
    dsimp only
    rw [if_neg fun hle => hnot (Rows.mem_byBlock.mpr ⟨hr, n, hb, by simpa using hle, rfl⟩)]

/-- **`Reorg` reorgs exactly the rows mined at or after its block**: when
it returns no error, every key of the table holds the `reorgedFrom` form
of the row it held. -/
theorem reorg_find (env : Env ε) (hkeys : env.initialRows.KeysUnique) (hfits : ∀ r ∈ env.initialRows, r.Fits)
    (fromBlockNumber : ℕ) (j : List Call) (hok : (reorg env fromBlockNumber j).1 = .ok ()) (owner id : String) :
    (rows env (reorg env fromBlockNumber j).2).find owner id =
      ((rows env j).find owner id).map (MonitoredTx.reorgedFrom fromBlockNumber) := by
  unfold reorg at hok ⊢
  rw [bind_apply, orReturn_apply] at hok ⊢
  have hrows : rows env (j ++ [.getByBlock (some fromBlockNumber) none]) = rows env j :=
    rows_append_of_ne j (by simp) (by simp)
  cases hans : env.getByBlockAnswer (some fromBlockNumber) none (j ++ [.getByBlock (some fromBlockNumber) none]) with
  | error e =>
    rw [hans] at hok
    exact nomatch hok
  | ok mTxs =>
  rw [hans] at hok
  -- the rows read are the mined rows of the table, one per key
  obtain rfl := getByBlockAnswer_eq_ok hans
  dsimp only [Except.mapError] at hok ⊢
  have hu : ((rows env j).byBlock (some fromBlockNumber) none).KeysUnique :=
    (rows_keysUnique hkeys j).sublist List.filter_sublist
  have hpresent : ∀ m ∈ (rows env j).byBlock (some fromBlockNumber) none,
      ∃ r, (rows env (j ++ [.getByBlock (some fromBlockNumber) none])).find m.owner m.id = some r := by
    intro m hm
    rw [hrows]
    exact ⟨m, (rows_keysUnique hkeys j).find_of_mem (Rows.mem_byBlock.mp hm).1⟩
  cases hloop : ((rows env j).byBlock (some fromBlockNumber) none).forM (fun mTx =>
      update env { mTx with blockNumber := none, status := .reorged }) (j ++ [.getByBlock (some fromBlockNumber) none]) with
  | mk r j' =>
  rw [hloop] at hok
  obtain rfl : r = .ok () := hok
  -- every update of the loop ran: each read row is reorged, every other key kept
  rw [forM_update_find env (fun m => { m with blockNumber := none, status := .reorged }) (fun _ => ⟨rfl, rfl⟩)
    _ hu _ j' hpresent hloop owner id, hrows]
  cases hL : Rows.find ((rows env j).byBlock (some fromBlockNumber) none) owner id with
  | some m =>
    obtain ⟨hmL, rfl, rfl⟩ := Rows.find_eq_some hL
    have hm := (Rows.mem_byBlock.mp hmL).1
    rw [(rows_keysUnique hkeys j).find_of_mem hm, Option.map_some, MonitoredTx.reorgedFrom_of_mem_byBlock hmL]
    dsimp only
    rw [(rows_fits hfits j m hm).stored_reorged]
  | none =>
    cases hr : (rows env j).find owner id with
    | none => rfl
    | some r =>
      -- a row the loop did not read was not mined at or after the block
      obtain ⟨hrmem, rfl, rfl⟩ := Rows.find_eq_some hr
      rw [Option.map_some, MonitoredTx.reorgedFrom_of_not_mem_byBlock hrmem
        fun h => Rows.find_eq_none.mp hL r h ⟨rfl, rfl⟩]

/-- `Reorg` from block `50` on `miningNode` reorgs the confirmed row. -/
theorem reorg_find_miningNode :
    miningNode.initialRows.KeysUnique ∧ (∀ r ∈ miningNode.initialRows, r.Fits) ∧
      (reorg miningNode 50 []).1 = .ok () ∧
      (rows miningNode (reorg miningNode 50 []).2).find "sequencer" "batch-1" =
        ((rows miningNode []).find "sequencer" "batch-1").map (MonitoredTx.reorgedFrom 50) ∧
      ((rows miningNode []).find "sequencer" "batch-1").map (MonitoredTx.reorgedFrom 50) =
        some { confirmedTx with blockNumber := none, status := .reorged } :=
  ⟨miningNode_keysUnique, miningNode_fits, by decide,
    reorg_find miningNode miningNode_keysUnique miningNode_fits 50 [] (by decide) "sequencer" "batch-1", by decide⟩

/-- `setStatusDone`: the row, read again, is done. -/
def setStatusDone (env : Env ε) (owner id : String) : Run Unit := do
  let mTx ← orReturn (.get owner id) (env.getAnswer owner id)
  update env { mTx with status := .done }

end EthTxManager

end XLayerNode
