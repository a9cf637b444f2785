import XLayerNode.EthTxManager.Monitor
/-!
# The manager over whole runs

Four operations of the client write the table of monitored txs, each
called by another part of the node whenever it needs to: `Add` (by the
sequence sender and the aggregator), `monitorTxs` (by the loop of
`Start`), `Reorg` (by the synchronizer) and `setStatusDone` (by
`ProcessPendingMonitoredTxs`). A run of the node is any sequence of them
(`runOps`), each one whole: an error goes back to its caller, which goes
on, and a fatal log ends the run. The goroutines of one monitoring cycle
touch one row each and are taken in the order of the table.

What a call of a run can be is said once (`Guard`): an insert of a new
created row without a block, a send of a hash that a row of the table
holds in its history, or an update of a row to a version a monitoring run
steps to, to the reorged form of a mined row, or to its done form
(`Write`). Every operation makes only such calls (`Op.run_triple`), so
every run does (`runOps_guard`), and the laws follow from that:

* every hash the node has sent to L1 is in the history of a row of the
  table (`runOps_sentRecorded`);
* every row of the table stays, as a later version of itself: the same
  transaction, a history that only grows, nonce and gas that never go
  down (`runOps_keeps`);
* status and block number agree in every row, when L1 gives receipts with
  blocks (`runOps_wellFormed`);
* a monitoring cycle leaves every row that is not pending as it is
  (`monitorTxs_keeps`).
-/

namespace XLayerNode

namespace EthTxManager

open Journal

variable {ε : Type}

/-! ## Runs of the node -/

/-- The operations of the client that write its table. -/
inductive Op where
  | add (owner id : String) (fromAddr : State.Address) (toAddr : Option State.Address) (value : Option ℕ)
      (data : List UInt8) (gasOffset : UInt64)
  | monitorTxs
  | reorg (fromBlockNumber : ℕ)
  | setStatusDone (owner id : String)

def Op.run (env : Env ε) (cfg : Config) : Op → Run Unit
  | .add owner id fromAddr toAddr value data gasOffset =>
    EthTxManager.add env cfg owner id fromAddr toAddr value data gasOffset
  | .monitorTxs => EthTxManager.monitorTxs env cfg
  | .reorg fromBlockNumber => EthTxManager.reorg env fromBlockNumber
  | .setStatusDone owner id => EthTxManager.setStatusDone env owner id

/-- A run of the node: the operations one after the other. -/
def runOps (env : Env ε) (cfg : Config) (ops : List Op) : Run Unit :=
  ops.forM fun op => catchReturned (op.run env cfg)

/-! ## What a call can be -/

/-- The updates of the client, from the row `r` of the table to the row
`r'` it writes: a version a monitoring run steps to, the reorged form of a
mined row, or the done form of a row. -/
def Write (env : Env ε) (r r' : MonitoredTx) : Prop :=
  (∃ m m', r = m.stored ∧ MonitorStep env m m' ∧ r' = m'.stored) ∨
    (r.blockNumber.isSome = true ∧ r' = { r with blockNumber := none, status := .reorged }.stored) ∨
    r' = { r with status := .done }.stored

/-- What a call of the client is, given the journal before it. -/
def Guard (env : Env ε) (pre : List Call) : Call → Prop
  | .add mTx => mTx.status = .created ∧ mTx.blockNumber = none
  | .update mTx => ∀ r ∈ rows env pre, r.owner = mTx.owner → r.id = mTx.id → Write env r mTx.stored
  | .sendTx txHash => ∃ r ∈ rows env pre, txHash ∈ r.history
  | _ => True

/-- A call that asks nothing of the table: a read, or a call to L1 other
than a send. -/
def Call.IsRead : Call → Prop
  | .add _ | .update _ | .sendTx _ => False
  | _ => True

theorem guard_of_isRead {env : Env ε} {pre : List Call} {c : Call} (hc : c.IsRead) : Guard env pre c := by
  cases c <;> trivial

/-- Status and block number agree: a pending row has no block, a
confirmed or failed one has one. -/
def MonitoredTx.WellFormed (m : MonitoredTx) : Prop :=
  (m.status ∈ statusesFilter → m.blockNumber = none) ∧
    (m.status = .confirmed ∨ m.status = .failed → m.blockNumber.isSome = true)

@[simp] theorem MonitoredTx.wellFormed_stored (m : MonitoredTx) : m.stored.WellFormed ↔ m.WellFormed := by
  simp [MonitoredTx.WellFormed, MonitoredTx.stored]

/-- L1 gives receipts of mined transactions, which name their block. -/
def ReceiptsMined (env : Env ε) : Prop :=
  ∀ receipt, Answered env receipt → receipt.blockNumber.isSome = true

theorem miningNode_receiptsMined : ReceiptsMined miningNode := by
  rintro receipt (⟨j, h⟩ | ⟨j, h⟩)
  · cases h
  · cases h
    rfl

section Writes

variable {env : Env ε} {r r' : MonitoredTx}

/-- Every write makes a later version of the row of the table. -/
theorem Write.grows (hr : r.Fits) (h : Write env r r') : r.Grows r' := by
  rcases h with ⟨m, m', rfl, hstep, rfl⟩ | ⟨-, rfl⟩ | rfl
  · exact hstep.grows.stored
  · have h := (MonitoredTx.Grows.of_status r .reorged none).stored
    rwa [hr] at h
  · have h := (MonitoredTx.Grows.of_status r .done r.blockNumber).stored
    rwa [hr] at h

/-- Every write keeps status and block number in agreement, when L1 gives
receipts with blocks. -/
theorem Write.wellFormed (hmined : ReceiptsMined env) (hr : r.WellFormed) (h : Write env r r') :
    r'.WellFormed := by
  rcases h with ⟨m, m', rfl, hstep, rfl⟩ | ⟨-, rfl⟩ | rfl
  · rw [MonitoredTx.wellFormed_stored] at hr ⊢
    rcases hstep.mined with ⟨hblock, hstatus | hsent⟩ | ⟨-, receipt, hans, hblock, hst⟩
    · -- the status is kept, and so is the block
      rw [MonitoredTx.WellFormed, hblock, hstatus]
      exact hr
    · -- a created or sent row becomes sent, still without a block
      have hpending : m.status ∈ statusesFilter := by
        have h := hstep.status
        rw [hsent] at h
        exact mem_statusesFilter_of_monitorStep_sent h
      refine ⟨fun _ => hblock.trans (hr.1 hpending), fun h => ?_⟩
      rw [hsent] at h
      simp at h
    · -- a mined row has the block of its receipt
      have hfinal : m'.status = .confirmed ∨ m'.status = .failed := by
        rcases hst with ⟨h1, -⟩ | ⟨h1, -⟩
        · exact .inl h1
        · exact .inr h1
      refine ⟨fun h => ?_, fun _ => by rw [hblock]; exact hmined receipt hans⟩
      rcases hfinal with h1 | h1 <;> rw [h1] at h <;> simp [statusesFilter] at h
  · rw [MonitoredTx.wellFormed_stored]
    exact ⟨fun _ => rfl, fun h => by simp at h⟩
  · rw [MonitoredTx.wellFormed_stored]
    exact ⟨fun h => by simp [statusesFilter] at h, fun h => by simp at h⟩

end Writes

/-! ## Every operation calls as `Guard` says -/

section Ops

variable {env : Env ε} {cfg : Config} (hkeys : env.initialRows.KeysUnique) (hfits : ∀ r ∈ env.initialRows, r.Fits)
variable {I : List Call → Prop} (hI : ∀ j c, Guard env j c → I j → I (j ++ [c]))

include hI

/-- `Add` reads, and inserts a created row without a block. -/
theorem add_triple (owner id : String) (fromAddr : State.Address) (toAddr : Option State.Address)
    (value : Option ℕ) (data : List UInt8) (gasOffset : UInt64) :
    Triple I (add env cfg owner id fromAddr toAddr value data gasOffset) (fun _ => I) := by
  let S : Call → Prop := fun c => c.IsRead ∨ ∃ mTx, c = .add mTx ∧ mTx.status = .created ∧ mTx.blockNumber = none
  have hS : ∀ j c, S c → I j → I (j ++ [c]) := by
    rintro j c (hc | ⟨mTx, rfl, hcreated⟩) hj
    · exact hI j c (guard_of_isRead hc) hj
    · exact hI j _ hcreated hj
  have heffects : Effects S (fun _ => True) (add env cfg owner id fromAddr toAddr value data gasOffset) := by
    unfold add
    refine Effects.bind (orReturn_effects (.inl (by exact trivial)) _) (fun _ _ => ?_) fun _ _ => trivial
    -- the gas: the estimate, or the forced gas
    have hgas : Effects S (fun _ => True) (estimateGasOrForced env cfg fromAddr toAddr value data) := by
      unfold estimateGasOrForced
      refine Effects.call_bind (.inl (by exact trivial)) fun b => ?_
      cases b with
      | ok gas => exact Effects.pure trivial
      | error =>
        split_ifs
        · exact Effects.pure trivial
        · exact Effects.exit trivial
    have hprice : Effects S (fun _ => True) (suggestedGasPrice env cfg) := by
      unfold suggestedGasPrice
      exact Effects.bind (orReturn_effects (.inl (by exact trivial)) _) (fun _ _ => Effects.pure trivial)
        fun _ _ => trivial
    refine Effects.bind hgas (fun _ _ => ?_) fun _ _ => trivial
    refine Effects.bind hprice (fun _ _ => ?_) fun _ _ => trivial
    exact (orReturn_effects (.inr ⟨_, rfl, rfl, rfl⟩) _).mono (fun _ h => h) fun _ _ => trivial
  exact (heffects.triple hS).conseq (fun _ h => h) fun _ _ h => h.1

include hkeys

/-- `setStatusDone` writes the done form of the row it read. -/
theorem setStatusDone_triple (owner id : String) : Triple I (setStatusDone env owner id) (fun _ => I) := by
  unfold setStatusDone
  refine orReturn_bind_triple (fun j _ hj _ => hI j _ trivial hj) fun j r hj hget => ?_
  rintro _ rfl
  obtain ⟨hr, -, -⟩ := Rows.find_eq_some (getAnswer_eq_ok hget)
  rw [update_apply]
  refine hI _ _ ?_ (hI j _ trivial hj)
  intro r' hr' howner hid
  rw [rows_append_of_ne j (by simp) (by simp)] at hr'
  rw [(rows_keysUnique hkeys j).eq_of_mem hr' hr howner hid]
  exact .inr (.inr rfl)

omit hI hkeys in
/-- **A loop over rows of the table whose body writes only its own row**
keeps every row of a key the loop does not visit. -/
theorem forM_keep {P : MonitoredTx → Prop} {f : MonitoredTx → Run Unit}
    (hf : ∀ m j₀, P m → Triple (fun j => j = j₀ ∧ I j ∧ m ∈ rows env j) (f m)
      (fun _ j => I j ∧ ∀ r ∈ rows env j₀, ¬(r.owner = m.owner ∧ r.id = m.id) → r ∈ rows env j))
    (L : Rows) (hu : L.KeysUnique) (hP : ∀ m ∈ L, P m) (j₀ : List Call) :
    Triple (fun j => j = j₀ ∧ I j ∧ ∀ m ∈ L, m ∈ rows env j) (L.forM f)
      (fun _ j => I j ∧ ∀ r ∈ rows env j₀, (∀ m ∈ L, ¬(r.owner = m.owner ∧ r.id = m.id)) → r ∈ rows env j) := by
  induction L generalizing j₀ with
  | nil =>
    rw [forM_nil]
    rintro j ⟨rfl, hj, -⟩
    exact ⟨hj, fun r hr _ => hr⟩
  | cons m L ih =>
    obtain ⟨hu', hne⟩ := hu.cons
    rw [forM_cons]
    rintro j ⟨rfl, hj, hmem⟩
    -- the body on the first row, then the loop on the others, which it kept
    refine Triple.bind (R := fun _ j' => I j' ∧ ∀ r ∈ rows env j, ¬(r.owner = m.owner ∧ r.id = m.id) → r ∈ rows env j')
      (Q := fun _ j' => I j' ∧ ∀ r ∈ rows env j, (∀ m' ∈ m :: L, ¬(r.owner = m'.owner ∧ r.id = m'.id)) →
        r ∈ rows env j')
      (hf m j (hP m List.mem_cons_self)) (fun _ => ?_) ?_ j ⟨rfl, hj, hmem m List.mem_cons_self⟩
    · rintro j₁ ⟨hj₁, hkeep⟩
      have hrest := ih hu' (fun m' hm' => hP m' (List.mem_cons_of_mem m hm')) j₁ j₁
        ⟨rfl, hj₁, fun m' hm' => hkeep m' (hmem m' (List.mem_cons_of_mem m hm')) (hne m' hm')⟩
      refine ⟨hrest.1, fun r hr hL => hrest.2 r (hkeep r hr (hL m List.mem_cons_self)) fun m' hm' => ?_⟩
      exact hL m' (List.mem_cons_of_mem m hm')
    · exact fun _ j h => ⟨h.1, fun r hr hL => h.2 r hr (hL m List.mem_cons_self)⟩

/-- An update of `Reorg`: the reorged form of a mined row of the table. -/
theorem reorgUpdate_triple (m : MonitoredTx) (j₀ : List Call) (hmined : m.blockNumber.isSome = true) :
    Triple (fun j => j = j₀ ∧ I j ∧ m ∈ rows env j) (update env { m with blockNumber := none, status := .reorged })
      (fun _ j => I j ∧ ∀ r ∈ rows env j₀, ¬(r.owner = m.owner ∧ r.id = m.id) → r ∈ rows env j) := by
  rintro j ⟨rfl, hj, hm⟩
  rw [update_apply]
  refine ⟨hI j _ ?_ hj, fun r hr hne => ?_⟩
  · intro r hr howner hid
    rw [(rows_keysUnique hkeys j).eq_of_mem hr hm howner hid]
    exact .inr (.inl ⟨hmined, rfl⟩)
  · -- a row of another key is kept whether the update runs or not
    rcases (rows_append_update _ : rows env (j ++ [.update _]) = _ ∨ _) with h | h <;> rw [h]
    · exact hr
    · exact Rows.mem_update_of_ne hr hne

include hfits in
/-- The body of `monitorTxs` on a pending row of the table: its calls
are guarded, and it writes no row of another key. -/
theorem monitorTx_keep (m : MonitoredTx) (j₀ : List Call) (hpending : m.status ∈ statusesFilter) :
    Triple (fun j => j = j₀ ∧ I j ∧ m ∈ rows env j) (catchReturned (monitorTx env cfg m))
      (fun _ j => I j ∧ ∀ r ∈ rows env j₀, ¬(r.owner = m.owner ∧ r.id = m.id) → r ∈ rows env j) := by
  rintro j ⟨rfl, hj, hm⟩
  -- the run keeps `I` and the rows of other keys, call by call
  let J : List Call → Prop := fun j' =>
    I j' ∧ ∀ r ∈ rows env j, ¬(r.owner = m.owner ∧ r.id = m.id) → r ∈ rows env j'
  have hJ : ∀ m₁ j' c, Live env J m m₁ j' → MonitorCall env m₁ c → J (j' ++ [c]) := by
    rintro m₁ j' c ⟨hsync, hstep, hj', hkeep⟩ hc
    obtain ⟨hmem₁, -, -⟩ := Rows.find_eq_some hsync
    cases c with
    | add mTx => exact False.elim hc
    | update m' =>
      refine ⟨hI j' _ ?_ hj', fun r hr hne => ?_⟩
      · -- the row of the key is the version the run last wrote
        intro r hr' howner hid
        have hr₁ := (rows_keysUnique hkeys j').eq_of_mem hr' hmem₁ (howner.trans hc.grows.owner)
          (hid.trans hc.grows.id)
        exact .inl ⟨m₁, m', hr₁, hc, rfl⟩
      · have hne' : ¬(r.owner = m'.owner ∧ r.id = m'.id) := by
          rw [hc.grows.owner, hc.grows.id, hstep.grows.owner, hstep.grows.id]
          exact hne
        rcases (rows_append_update _ : rows env (j' ++ [.update _]) = _ ∨ _) with h | h <;> rw [h]
        · exact hkeep r hr hne
        · exact Rows.mem_update_of_ne (hkeep r hr hne) hne'
    | sendTx txHash =>
      refine ⟨hI j' _ ⟨m₁.stored, hmem₁, hc⟩ hj', fun r hr hne => ?_⟩
      rw [rows_append_of_ne j' (by simp) (by simp)]
      exact hkeep r hr hne
    | _ =>
      refine ⟨hI j' _ trivial hj', fun r hr hne => ?_⟩
      rw [rows_append_of_ne j' (by simp) (by simp)]
      exact hkeep r hr hne
  have hlive : Live env J m m j := by
    refine ⟨?_, .refl env m, hj, fun r hr _ => hr⟩
    unfold Synced
    rw [rows_fits hfits j m hm]
    exact (rows_keysUnique hkeys j).find_of_mem hm
  have hstop : Stopped env J m (monitorTx env cfg m j).2 := monitorTx_stopped hJ hpending hlive
  obtain ⟨_, -, -, hJ'⟩ := hstop
  show J (catchReturned (monitorTx env cfg m) j).2
  rw [catchReturned_snd]
  exact hJ'

/-- `Reorg` writes the reorged form of every row it read as mined at or
after its block. -/
theorem reorg_triple (fromBlockNumber : ℕ) : Triple I (reorg env fromBlockNumber) (fun _ => I) := by
  unfold reorg
  refine orReturn_bind_triple (fun j _ hj _ => hI j _ trivial hj) fun j mTxs hj hans => ?_
  rintro _ rfl
  have hrows : rows env (j ++ [.getByBlock (some fromBlockNumber) none]) = rows env j :=
    rows_append_of_ne j (by simp) (by simp)
  rw [getByBlockAnswer_eq_ok hans]
  -- the rows read are rows of the table, with unique keys and a block each
  have hu : ((rows env j).byBlock (some fromBlockNumber) none).KeysUnique :=
    (rows_keysUnique hkeys j).sublist List.filter_sublist
  have hread : ∀ m ∈ (rows env j).byBlock (some fromBlockNumber) none, m ∈ rows env j ∧ m.blockNumber.isSome = true := by
    intro m hm
    obtain ⟨hm', n, hn, -⟩ := Rows.mem_byBlock.mp hm
    exact ⟨hm', by rw [hn]; rfl⟩
  have hloop := forM_keep (P := fun m => m.blockNumber.isSome = true)
    (fun m j₀ hm => reorgUpdate_triple hkeys hI m j₀ hm) _ hu (fun m hm => (hread m hm).2) _
    (j ++ [.getByBlock (some fromBlockNumber) none])
    ⟨rfl, hI j _ (by exact trivial) hj, fun m hm => by rw [hrows]; exact (hread m hm).1⟩
  exact hloop.1

include hfits in
/-- `monitorTxs` runs `monitorTx` on every pending row it read, and leaves
every other row as it is. -/
theorem monitorTxs_triple (j₀ : List Call) :
    Triple (fun j => j = j₀ ∧ I j) (monitorTxs env cfg)
      (fun _ j => I j ∧ ∀ r ∈ rows env j₀, r.status ∉ statusesFilter → r ∈ rows env j) := by
  unfold monitorTxs
  refine orReturn_bind_triple ?_ fun j mTxs hj hans => ?_
  · rintro j _ ⟨rfl, hj⟩ -
    refine ⟨hI j _ trivial hj, fun r hr _ => ?_⟩
    rw [rows_append_of_ne j (by simp) (by simp)]
    exact hr
  obtain ⟨rfl, hj⟩ := hj
  rintro _ rfl
  have hrows : rows env (j ++ [.getByStatus none statusesFilter]) = rows env j :=
    rows_append_of_ne j (by simp) (by simp)
  rw [getByStatusAnswer_eq_ok hans]
  -- the rows read are the pending rows of the table
  have hread : ∀ m ∈ (rows env j).byStatus none statusesFilter, m ∈ rows env j ∧ m.status ∈ statusesFilter := by
    intro m hm
    obtain ⟨hm', -, hstatus⟩ := Rows.mem_byStatus.mp hm
    refine ⟨hm', ?_⟩
    simpa [statusesFilter] using hstatus
  have hu : ((rows env j).byStatus none statusesFilter).KeysUnique :=
    (rows_keysUnique hkeys j).sublist List.filter_sublist
  have hloop := forM_keep (P := fun m => m.status ∈ statusesFilter)
    (f := fun mTx => catchReturned (monitorTx env cfg mTx)) (fun m j₀ hm => monitorTx_keep hkeys hfits hI m j₀ hm) _ hu (fun m hm => (hread m hm).2) _
    (j ++ [.getByStatus none statusesFilter])
    ⟨rfl, hI j _ (by exact trivial) hj, fun m hm => by rw [hrows]; exact (hread m hm).1⟩
  refine ⟨hloop.1, fun r hr hfinal => hloop.2 r (by rw [hrows]; exact hr) fun m hm hkey => ?_⟩
  -- a row that is not pending has the key of no pending row
  obtain ⟨hm', hpending⟩ := hread m hm
  rw [(rows_keysUnique hkeys j).eq_of_mem hr hm' hkey.1 hkey.2] at hfinal
  exact hfinal hpending

include hfits in
theorem Op.run_triple (op : Op) : Triple I (op.run env cfg) (fun _ => I) := by
  cases op with
  | add owner id fromAddr toAddr value data gasOffset => exact add_triple hI owner id fromAddr toAddr value data gasOffset
  | monitorTxs => exact fun j hj => (monitorTxs_triple hkeys hfits hI j j ⟨rfl, hj⟩).1
  | reorg fromBlockNumber => exact reorg_triple hkeys hI fromBlockNumber
  | setStatusDone owner id => exact setStatusDone_triple hkeys hI owner id

include hfits in
/-- **Every run keeps what every guarded call keeps.** -/
theorem runOps_triple (ops : List Op) : Triple I (runOps env cfg ops) (fun _ => I) := by
  have hbody : ∀ op ∈ ops, Triple I (catchReturned (op.run env cfg)) (Ends I fun _ => I) := by
    intro op _ j hj
    have h : I (op.run env cfg j).2 := Op.run_triple hkeys hfits hI op j hj
    rw [← catchReturned_snd] at h
    cases (catchReturned (op.run env cfg) j).1 <;> exact h
  exact (Triple.forM ops hbody).conseq (fun _ h => h) fun r _ h => by cases r <;> exact h

end Ops

/-! ## The laws of every run -/

/-- Every hash the journal sends to L1 is in the history of a row of the
table after it. -/
def SentRecorded (env : Env ε) (j : List Call) : Prop :=
  ∀ txHash, Call.sendTx txHash ∈ j → ∃ r ∈ rows env j, txHash ∈ r.history

section Laws

variable (env : Env ε) (cfg : Config) (hkeys : env.initialRows.KeysUnique) (hfits : ∀ r ∈ env.initialRows, r.Fits)

include hkeys hfits

theorem runOps_guard (ops : List Op) : EveryCall (Guard env) (runOps env cfg ops []).2 :=
  runOps_triple hkeys hfits (fun _ _ hc hj => everyCall_append_singleton.mpr ⟨hj, hc⟩) ops [] (everyCall_nil _)

omit hkeys in
/-- Under guarded calls, every update writes a later version of the row
it replaces. -/
theorem updatesRelate_of_guard {j : List Call} (h : EveryCall (Guard env) j) :
    EveryCall (UpdatesRelate env MonitoredTx.Grows) j :=
  h.mono fun pre c hc mTx hmTx r hr howner hid => by
    subst hmTx
    exact (hc r hr howner hid).grows (rows_fits hfits pre r hr)

/-- The run of more operations goes on from where the run of the first
stopped, with guarded calls. -/
theorem runOps_append (ops more : List Op) :
    ∃ new, (runOps env cfg (ops ++ more) []).2 = (runOps env cfg ops []).2 ++ new ∧
      EveryCall (Guard env) ((runOps env cfg ops []).2 ++ new) := by
  have hguard := runOps_guard env cfg hkeys hfits ops
  unfold runOps at hguard ⊢
  rw [forM_append, bind_apply]
  cases h : ops.forM (fun op => catchReturned (op.run env cfg)) [] with
  | mk r j₁ =>
    rw [h] at hguard
    cases r with
    | error => exact ⟨[], (List.append_nil j₁).symm, by rwa [List.append_nil]⟩
    | ok =>
      -- the second run keeps the guard and the journal of the first
      have hI : ∀ j c, Guard env j c → (EveryCall (Guard env) j ∧ j₁ <+: j) →
          EveryCall (Guard env) (j ++ [c]) ∧ j₁ <+: j ++ [c] :=
        fun j c hc hj => ⟨everyCall_append_singleton.mpr ⟨hj.1, hc⟩, hj.2.trans (List.prefix_append j [c])⟩
      obtain ⟨hj, new, hnew⟩ := runOps_triple hkeys hfits hI more j₁ ⟨hguard, List.prefix_refl j₁⟩
      refine ⟨new, hnew.symm, ?_⟩
      rw [hnew]
      exact hj

/-- **Every row of the table stays, as a later version of itself**: from
any point of a run to any later one, each row is still there under its
key, with the same transaction to the same receiver, a history that only
grows, and a nonce and gas that never go down. -/
theorem runOps_keeps (ops more : List Op) :
    Rows.Keeps MonitoredTx.Grows (rows env (runOps env cfg ops []).2) (rows env (runOps env cfg (ops ++ more) []).2) := by
  obtain ⟨new, hnew, hguard⟩ := runOps_append env cfg hkeys hfits ops more
  rw [hnew]
  exact rows_keeps MonitoredTx.Grows.refl (fun _ _ _ => MonitoredTx.Grows.trans) _
    (updatesRelate_of_guard env hfits hguard)

omit hkeys hfits in
/-- Monitoring `miningNode`'s table, then reorging from block `50`: the
confirmed row is reorged, and the created one is sent, confirmed and
reorged. -/
theorem runOps_keeps_miningNode :
    miningNode.initialRows.KeysUnique ∧ (∀ r ∈ miningNode.initialRows, r.Fits) ∧
      (rows miningNode (runOps miningNode plainConfig ([.monitorTxs] ++ [.reorg 50]) []).2).map
          (fun r => (r.status, r.history)) = [(.reorged, [5]), (.reorged, [7])] ∧
      Rows.Keeps MonitoredTx.Grows (rows miningNode (runOps miningNode plainConfig [.monitorTxs] []).2)
        (rows miningNode (runOps miningNode plainConfig ([.monitorTxs] ++ [.reorg 50]) []).2) :=
  ⟨miningNode_keysUnique, miningNode_fits, by decide,
    runOps_keeps miningNode plainConfig miningNode_keysUnique miningNode_fits [.monitorTxs] [.reorg 50]⟩

/-- **Every hash the node sends to L1 is in the history of a row of the
table**, whatever L1 and the database answer: a transaction is sent only
once its hash is stored, and no write loses a hash. -/
theorem runOps_sentRecorded (ops : List Op) : SentRecorded env (runOps env cfg ops []).2 := by
  intro txHash hsent
  have hguard := runOps_guard env cfg hkeys hfits ops
  obtain ⟨pre, post, hj⟩ := List.append_of_mem hsent
  -- the send was guarded: its hash was in a row of the table then
  obtain ⟨r, hr, hmem⟩ := hguard pre _ post hj
  -- and that row stays, with its history
  have hrel : EveryCall (UpdatesRelate env MonitoredTx.Grows) (pre ++ Call.sendTx txHash :: post) := by
    rw [← hj]
    exact updatesRelate_of_guard env hfits hguard
  obtain ⟨r', hr', hgrows⟩ := rows_keeps MonitoredTx.Grows.refl (fun _ _ _ => MonitoredTx.Grows.trans) pre hrel r hr
  rw [← hj] at hr'
  exact ⟨r', hr', hgrows.history hmem⟩

omit hkeys hfits in
/-- The run of `miningNode` sends the hash `7`. -/
theorem runOps_sentRecorded_miningNode :
    miningNode.initialRows.KeysUnique ∧ (∀ r ∈ miningNode.initialRows, r.Fits) ∧
      Call.sendTx 7 ∈ (runOps miningNode plainConfig [.monitorTxs, .reorg 50] []).2 ∧
      SentRecorded miningNode (runOps miningNode plainConfig [.monitorTxs, .reorg 50] []).2 :=
  ⟨miningNode_keysUnique, miningNode_fits, by decide,
    runOps_sentRecorded miningNode plainConfig miningNode_keysUnique miningNode_fits _⟩

/-- **Status and block number agree in every row of a run**: a created,
sent or reorged row has no block, a confirmed or failed one has one, when
the table starts so and L1 gives receipts with blocks. -/
theorem runOps_wellFormed (hmined : ReceiptsMined env) (hwf : ∀ r ∈ env.initialRows, r.WellFormed)
    (ops : List Op) : ∀ r ∈ rows env (runOps env cfg ops []).2, r.WellFormed := by
  refine rows_forall hwf ((runOps_guard env cfg hkeys hfits ops).mono fun pre c hc hall => ⟨?_, ?_⟩)
  · -- an insert is of a created row without a block
    rintro mTx rfl
    rw [MonitoredTx.wellFormed_stored]
    exact ⟨fun _ => hc.2, fun h => by rw [hc.1] at h; simp at h⟩
  · rintro mTx rfl r hr howner hid
    exact (hc r hr howner hid).wellFormed hmined (hall r hr)

omit hkeys hfits in
theorem runOps_wellFormed_miningNode :
    miningNode.initialRows.KeysUnique ∧ (∀ r ∈ miningNode.initialRows, r.Fits) ∧ ReceiptsMined miningNode ∧
      (∀ r ∈ miningNode.initialRows, r.WellFormed) ∧
      ∀ r ∈ rows miningNode (runOps miningNode plainConfig [.monitorTxs, .reorg 50] []).2, r.WellFormed :=
  have hwf : ∀ r ∈ miningNode.initialRows, r.WellFormed := by
    unfold MonitoredTx.WellFormed
    decide
  ⟨miningNode_keysUnique, miningNode_fits, miningNode_receiptsMined, hwf,
    runOps_wellFormed miningNode plainConfig miningNode_keysUnique miningNode_fits miningNode_receiptsMined hwf _⟩

/-- **A monitoring cycle leaves every row that is not pending as it is**:
it writes no confirmed, failed or done row. -/
theorem monitorTxs_keeps (j : List Call) :
    ∀ r ∈ rows env j, r.status ∉ statusesFilter → r ∈ rows env (monitorTxs env cfg j).2 :=
  (monitorTxs_triple hkeys hfits (I := fun _ => True) (fun _ _ _ _ => trivial) j j ⟨rfl, trivial⟩).2

omit hkeys hfits in
/-- A monitoring cycle of `miningNode` keeps the confirmed row. -/
theorem monitorTxs_keeps_miningNode :
    miningNode.initialRows.KeysUnique ∧ (∀ r ∈ miningNode.initialRows, r.Fits) ∧
      confirmedTx ∈ rows miningNode (monitorTxs miningNode plainConfig []).2 ∧
      ∀ r ∈ rows miningNode [], r.status ∉ statusesFilter → r ∈ rows miningNode (monitorTxs miningNode plainConfig []).2 :=
  ⟨miningNode_keysUnique, miningNode_fits, by decide,
    monitorTxs_keeps miningNode plainConfig miningNode_keysUnique miningNode_fits []⟩

end Laws

end EthTxManager

end XLayerNode
