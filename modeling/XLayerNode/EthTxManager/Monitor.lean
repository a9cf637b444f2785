import XLayerNode.EthTxManager.Storage
/-!
# Monitoring a transaction until it is mined

`monitorTx` of `ethtxmanager.go` takes one row of the table, as
`monitorTxs` read it, one step towards being mined: it checks whether a
transaction of its history was mined, reviews the nonce when every one
was mined and failed, then (unless one succeeded) reviews the gas and gas
price, signs the transaction again, records the signed hash in the
history, sends it when L1 does not have it, waits for it and reads its
receipt; the receipt decides whether the row is confirmed or failed.
Every return of the Go function is an exit of the model; `log.Fatal`
after a custodial signature fails is the one exit that stops the node.

The function is cut, for the proofs, at the blocks of its body
(`checkHistory`, `reviewMonitoredTxNonce`, `resendMonitoredTx`,
`finish`), and each block has one lemma that says what its run does to
the row (`*_triple`). Those lemmas are stated for an arbitrary property
`J` of the journal that the calls of the run keep, given what they are
(`MonitorCall`): a write of a version of the row the last one steps to,
or a send of a hash of the stored history. `monitorTx_triple` puts them
together; the laws are then instances of `J`:

* the row only moves along `monitorStep`: created to sent, a pending
  status to confirmed, created or sent to failed
  (`monitorTx_status`);
* a row is confirmed only with a successful receipt of L1 and failed
  only with a failed one, and takes the block of that receipt
  (`monitorTx_minedBy`);
* a reorged row is never signed or sent again: its run only checks its
  history, reviews its nonce and may confirm it (`monitorTx_reorged`).
-/

namespace XLayerNode

namespace EthTxManager

open Journal

variable {ε : Type}

/-! ## The model -/

/-- `statusesFilter` of `monitorTxs`: the statuses of the rows it
monitors. -/
def statusesFilter : List MonitoredTxStatus := [.created, .sent, .reorged]

/-- The variables the loop over the history sets. -/
structure HistoryCheck where
  lastReceiptChecked : Receipt
  confirmed : Bool
  hasFailedReceipts : Bool
  allHistoryTxsWereMined : Bool

/-- Before the loop: no receipt, not confirmed, no failed receipt, and
every transaction taken as mined. -/
def HistoryCheck.init : HistoryCheck := ⟨zeroReceipt, false, false, true⟩

/-- The loop over the history of `monitorTx`: a check that fails is
logged and skipped, a transaction not mined clears
`allHistoryTxsWereMined`, and the first successful receipt ends the
loop. -/
def checkHistory (env : Env ε) : List ℕ → HistoryCheck → Run HistoryCheck
  | [], acc => pure acc
  | txHash :: history, acc => do
    match ← call (.checkTxWasMined txHash) env.checkTxWasMined with
    | .error _ => checkHistory env history acc
    | .ok none => checkHistory env history { acc with allHistoryTxsWereMined := false }
    | .ok (some receipt) =>
      if receipt.successful then pure { acc with lastReceiptChecked := receipt, confirmed := true }
      else
        checkHistory env history
          { acc with lastReceiptChecked := receipt, confirmed := false, hasFailedReceipts := true }

/-- `reviewMonitoredTxNonce`: the nonce rises to the sender's current one
when that is larger. -/
def reviewMonitoredTxNonce (env : Env ε) (mTx : MonitoredTx) : Run MonitoredTx := do
  let nonce ← orReturn (.currentNonce mTx.fromAddr) env.currentNonce
  pure (if nonce > mTx.nonce then { mTx with nonce } else mTx)

/-- `reviewMonitoredTx`: gas and gas price rise to the estimate and the
suggested price when those are larger. -/
def reviewMonitoredTx (env : Env ε) (cfg : Config) (mTx : MonitoredTx) : Run MonitoredTx := do
  let gas ← orReturn (.estimateGas mTx.fromAddr mTx.toAddr mTx.value mTx.data) env.estimateGas
  let mTx := if gas > mTx.gas then { mTx with gas } else mTx
  let gasPrice ← suggestedGasPrice env cfg
  pure (if gasPrice > mTx.gasPrice then { mTx with gasPrice } else mTx)

/-- `storage.Update` of the row, which the run then goes on with. -/
def store (env : Env ε) (mTx : MonitoredTx) : Run MonitoredTx := do
  update env mTx
  pure mTx

/-- The signature of `monitorTx`: by the custodial assets service, whose
error is fatal, or by `etherman`. The answer is the signed hash. -/
def sign (env : Env ε) (cfg : Config) (mTx : MonitoredTx) : Run ℕ :=
  if cfg.custodialAssetsEnable then do
    match ← call (.custodialSignTx mTx.tx) env.custodialSignTx with
    | .error _ => exit .fatal
    | .ok signedTx => pure signedTx
  else orReturn (.signTx mTx.fromAddr mTx.tx) env.signTx

/-- `AddHistory` and the update that records it; a hash already in the
history is only logged. -/
def addToHistory (env : Env ε) (mTx : MonitoredTx) (signedTx : ℕ) : Run MonitoredTx :=
  match mTx.addHistory signedTx with
  | none => pure mTx
  | some mTx' => store env mTx'

/-- The signed transaction is sent when `GetTx` answers `NotFound`, and a
created row becomes sent; any other answer is taken as found. -/
def sendIfNotFound (env : Env ε) (mTx : MonitoredTx) (signedTx : ℕ) : Run MonitoredTx := do
  match ← call (.getTx signedTx) env.getTx with
  | .error none =>
    orReturn (.sendTx signedTx) env.sendTx
    if mTx.status = .created then store env { mTx with status := .sent } else pure mTx
  | _ => pure mTx

/-- `WaitTxToBeMined`, then the receipt; a timeout returns. -/
def waitReceipt (env : Env ε) (signedTx : ℕ) : Run Receipt := do
  let confirmed ← orReturn (.waitTxToBeMined signedTx) env.waitTxToBeMined
  if confirmed then orReturn (.getTxReceipt signedTx) env.getTxReceipt else exit .returned

/-- The block `if !confirmed` of `monitorTx`: a reorged row returns; a
sent one is reviewed; then the transaction is signed, recorded, sent if
L1 does not have it, and waited for. -/
def resendMonitoredTx (env : Env ε) (cfg : Config) (mTx : MonitoredTx) : Run (MonitoredTx × Receipt) := do
  if mTx.status = .reorged then exit .returned
  else do
    let mTx ← (if mTx.status = .sent then reviewMonitoredTx env cfg mTx >>= store env else pure mTx)
    let signedTx ← sign env cfg mTx
    let mTx ← addToHistory env mTx signedTx
    let mTx ← sendIfNotFound env mTx signedTx
    let receipt ← waitReceipt env signedTx
    pure (mTx, receipt)

/-- `shouldContinueToMonitorThisTx`: a failed receipt whose revert
message L1 cannot give yet (`ErrExecutionReverted`) is looked at again in
the next cycle. -/
def shouldContinueToMonitorThisTx (env : Env ε) (receipt : Receipt) : Run Bool :=
  if receipt.successful then pure false
  else do
    match ← call (.getTx receipt.txHash) env.getTx with
    | .error _ => pure false
    | .ok () =>
      match ← call (.getRevertMessage receipt.txHash) env.getRevertMessage with
      | .error none => pure true
      | _ => pure false

/-- The end of `monitorTx`: the receipt decides confirmed or failed, with
its block number. -/
def finish (env : Env ε) (mTx : MonitoredTx) (receipt : Receipt) : Run Unit :=
  if receipt.successful then update env { mTx with status := .confirmed, blockNumber := receipt.blockNumber }
  else do
    if ← shouldContinueToMonitorThisTx env receipt then pure ()
    else update env { mTx with status := .failed, blockNumber := receipt.blockNumber }

/-- `monitorTx`. -/
def monitorTx (env : Env ε) (cfg : Config) (mTx : MonitoredTx) : Run Unit := do
  let history ← read fun j => env.historyOrder j mTx.history
  let check ← checkHistory env history HistoryCheck.init
  let mTx ← (if !check.confirmed && check.hasFailedReceipts && check.allHistoryTxsWereMined then
      reviewMonitoredTxNonce env mTx >>= store env
    else pure mTx)
  let (mTx, receipt) ←
    (if check.confirmed then pure (mTx, check.lastReceiptChecked) else resendMonitoredTx env cfg mTx)
  finish env mTx receipt

/-- A goroutine of `monitorTxs`: a return ends only its own monitoring,
a fatal log ends the node. -/
def catchReturned (m : Run Unit) : Run Unit :=
  tryCatch m fun
    | .returned => pure ()
    | .fatal => exit .fatal

/-- A caught return leaves the journal the run wrote. -/
theorem catchReturned_snd (m : Run Unit) (j : List Call) : (catchReturned m j).2 = (m j).2 := by
  unfold catchReturned
  rw [tryCatch_apply]
  cases h : m j with
  | mk r j' =>
    cases r with
    | ok => rfl
    | error e => cases e <;> rfl

/-- `monitorTxs`: every row with a status of `statusesFilter`, in the
order of the table, one after the other. -/
def monitorTxs (env : Env ε) (cfg : Config) : Run Unit := do
  let mTxs ← orReturn (.getByStatus none statusesFilter) (env.getByStatusAnswer none statusesFilter)
  mTxs.forM fun mTx => catchReturned (monitorTx env cfg mTx)

/-! ## What a run may write -/

/-- The status changes of a monitoring run: created to sent, a pending
status to confirmed, and created or sent to failed. -/
def monitorStep : MonitoredTxStatus → MonitoredTxStatus → Bool
  | .created, .sent | .created, .confirmed | .created, .failed
  | .sent, .confirmed | .sent, .failed | .reorged, .confirmed => true
  | s, s' => s == s'

theorem monitorStep_refl (s : MonitoredTxStatus) : monitorStep s s = true := by
  cases s <;> rfl

theorem monitorStep_trans {s s' s'' : MonitoredTxStatus} (h : monitorStep s s' = true)
    (h' : monitorStep s' s'' = true) : monitorStep s s'' = true := by
  revert h h'
  cases s <;> cases s' <;> cases s'' <;> decide

/-- Only a pending status steps to sent. -/
theorem mem_statusesFilter_of_monitorStep_sent {s : MonitoredTxStatus} (h : monitorStep s .sent = true) :
    s ∈ statusesFilter := by
  cases s <;> simp_all [monitorStep, statusesFilter]

theorem mem_statusesFilter_of {s : MonitoredTxStatus} (h : s = .created ∨ s = .sent) : s ∈ statusesFilter := by
  rcases h with rfl | rfl <;> simp [statusesFilter]

/-- Confirmed and failed are final for a monitoring run. -/
theorem monitorStep_final {s s' : MonitoredTxStatus} (hs : s = .confirmed ∨ s = .failed)
    (h : monitorStep s s' = true) : s' = s := by
  rcases hs with rfl | rfl <;> cases s' <;> simp_all [monitorStep]

/-- A receipt L1 gives: of a mined transaction in `CheckTxWasMined`, or
in `GetTxReceipt`. -/
def Answered (env : Env ε) (receipt : Receipt) : Prop :=
  (∃ j, env.checkTxWasMined j = .ok (some receipt)) ∨ ∃ j, env.getTxReceipt j = .ok receipt

/-- The row is mined by a receipt of L1: confirmed by a successful one or
failed by a failed one, in the block of the receipt. -/
def MinedBy (env : Env ε) (m : MonitoredTx) : Prop :=
  ∃ receipt, Answered env receipt ∧ m.blockNumber = receipt.blockNumber ∧
    (m.status = .confirmed ∧ receipt.successful = true ∨ m.status = .failed ∧ receipt.successful = false)

/-- `m'` is a version of the row `m` that a monitoring run can write: a
later version, at a gas price no lower, with a status `monitorStep`
allows, and a new block number only when a receipt mines it. -/
structure MonitorStep (env : Env ε) (m m' : MonitoredTx) : Prop where
  grows : m.Grows m'
  gasPrice : m.gasPrice ≤ m'.gasPrice
  status : monitorStep m.status m'.status = true
  mined : m'.blockNumber = m.blockNumber ∧ (m'.status = m.status ∨ m'.status = .sent) ∨
    m.status ∈ statusesFilter ∧ MinedBy env m'

theorem MonitorStep.refl (env : Env ε) (m : MonitoredTx) : MonitorStep env m m :=
  ⟨.refl m, le_refl _, monitorStep_refl _, .inl ⟨rfl, .inl rfl⟩⟩

theorem MonitorStep.trans {env : Env ε} {m m' m'' : MonitoredTx} (h : MonitorStep env m m')
    (h' : MonitorStep env m' m'') : MonitorStep env m m'' where
  grows := h.grows.trans h'.grows
  gasPrice := le_trans h.gasPrice h'.gasPrice
  status := monitorStep_trans h.status h'.status
  mined := by
    rcases h.mined with ⟨hblock, hstatus⟩ | ⟨hpending, hmined⟩
    · rcases h'.mined with ⟨hblock', hstatus'⟩ | ⟨hpending', hmined'⟩
      · refine .inl ⟨hblock'.trans hblock, ?_⟩
        rcases hstatus' with h1 | h1
        · rwa [h1]
        · exact .inr h1
      · -- the first write kept the status, or made it sent
        refine .inr ⟨?_, hmined'⟩
        rcases hstatus with h1 | h1
        · rwa [← h1]
        · have hsent := h.status
          rw [h1] at hsent
          exact mem_statusesFilter_of_monitorStep_sent hsent
    · rcases h'.mined with ⟨hblock', -⟩ | ⟨-, hmined'⟩
      · -- a mined row keeps its status, and so its receipt
        obtain ⟨receipt, hans, hblock, hst⟩ := hmined
        have hfinal : m'.status = .confirmed ∨ m'.status = .failed := by
          rcases hst with ⟨h1, -⟩ | ⟨h1, -⟩
          · exact .inl h1
          · exact .inr h1
        have hsame := monitorStep_final hfinal h'.status
        exact .inr ⟨hpending, receipt, hans, hblock'.trans hblock, by rwa [hsame]⟩
      · exact .inr ⟨hpending, hmined'⟩

/-- A later version at a gas price no lower, with the status and block of
the row, is one a run may write. -/
theorem MonitorStep.of_grows {env : Env ε} {m m' : MonitoredTx} (hgrows : m.Grows m')
    (hprice : m.gasPrice ≤ m'.gasPrice) (hstatus : m'.status = m.status) (hblock : m'.blockNumber = m.blockNumber) :
    MonitorStep env m m' :=
  ⟨hgrows, hprice, by rw [hstatus]; exact monitorStep_refl _, .inl ⟨hblock, .inl hstatus⟩⟩

/-- The nonce review writes a version the row steps to, in its status. -/
theorem MonitorStep.raiseNonce (env : Env ε) (m : MonitoredTx) (nonce : UInt64) :
    MonitorStep env m (if nonce > m.nonce then { m with nonce } else m) ∧
      (if nonce > m.nonce then { m with nonce } else m).status = m.status := by
  split_ifs with hgt
  · exact ⟨.of_grows ⟨rfl, rfl, rfl, rfl, rfl, rfl, rfl, List.Subset.refl _, UInt64.le_of_lt hgt,
      UInt64.le_refl _⟩ (le_refl _) rfl rfl, rfl⟩
  · exact ⟨.refl env m, rfl⟩

theorem MonitorStep.raiseGas (env : Env ε) (m : MonitoredTx) (gas : UInt64) :
    MonitorStep env m (if gas > m.gas then { m with gas } else m) ∧
      (if gas > m.gas then { m with gas } else m).status = m.status := by
  split_ifs with hgt
  · exact ⟨.of_grows ⟨rfl, rfl, rfl, rfl, rfl, rfl, rfl, List.Subset.refl _, UInt64.le_refl _,
      UInt64.le_of_lt hgt⟩ (le_refl _) rfl rfl, rfl⟩
  · exact ⟨.refl env m, rfl⟩

theorem MonitorStep.raiseGasPrice (env : Env ε) (m : MonitoredTx) (gasPrice : ℕ) :
    MonitorStep env m (if gasPrice > m.gasPrice then { m with gasPrice } else m) ∧
      (if gasPrice > m.gasPrice then { m with gasPrice } else m).status = m.status := by
  split_ifs with hgt
  · exact ⟨.of_grows ⟨rfl, rfl, rfl, rfl, rfl, rfl, rfl, List.Subset.refl _, UInt64.le_refl _,
      UInt64.le_refl _⟩ (Nat.le_of_lt hgt) rfl rfl, rfl⟩
  · exact ⟨.refl env m, rfl⟩

/-- The table holds `m` as the row of its key. -/
def Synced (env : Env ε) (m : MonitoredTx) (j : List Call) : Prop :=
  (rows env j).find m.owner m.id = some m.stored

/-- The calls a monitoring run makes, given the version `m` of the row it
last wrote: no insert, an update only of a version `m` steps to, and a
send only of a hash of the history of `m`. -/
def MonitorCall (env : Env ε) (m : MonitoredTx) : Call → Prop
  | .add _ => False
  | .update m' => MonitorStep env m m'
  | .sendTx txHash => txHash ∈ m.history
  | _ => True

/-- The run of `monitorTx` on the row `m₀` so far: the table holds the
version `m` it last wrote, one `m₀` steps to, and `J` holds. -/
def Live (env : Env ε) (J : List Call → Prop) (m₀ m : MonitoredTx) (j : List Call) : Prop :=
  Synced env m j ∧ MonitorStep env m₀ m ∧ J j

/-- Where a run of `monitorTx` on `m₀` can stop. -/
def Stopped (env : Env ε) (J : List Call → Prop) (m₀ : MonitoredTx) (j : List Call) : Prop :=
  ∃ m, Live env J m₀ m j

/-- A result with `Q`, or a stop. -/
def Settles (env : Env ε) (J : List Call → Prop) (m₀ : MonitoredTx) (Q : α → List Call → Prop) :
    Except Stop α → List Call → Prop
  | .ok a, j => Q a j
  | .error _, j => Stopped env J m₀ j

/-- What the loop over the history knows when it says confirmed: its
last receipt is a successful one of L1. -/
def HistoryCheck.Sound (env : Env ε) (acc : HistoryCheck) : Prop :=
  acc.confirmed = true → acc.lastReceiptChecked.successful = true ∧ Answered env acc.lastReceiptChecked

/-! ## The run of each block -/

section Run

variable {env : Env ε} {cfg : Config} {J : List Call → Prop} {m₀ : MonitoredTx}
variable (hJ : ∀ m j c, Live env J m₀ m j → MonitorCall env m c → J (j ++ [c]))

/-- Sequencing for runs that stop anywhere. -/
theorem settles_bind {P : List Call → Prop} {x : Run α} {f : α → Run β} {Q : α → List Call → Prop}
    {Q' : β → List Call → Prop} (hx : Triple P x (Settles env J m₀ Q))
    (hf : ∀ a, Triple (Q a) (f a) (Settles env J m₀ Q')) : Triple P (x >>= f) (Settles env J m₀ Q') :=
  Triple.bind hx hf fun _ _ h => h

theorem live_exit {m : MonitoredTx} (e : Stop) {Q : α → List Call → Prop} :
    Triple (Live env J m₀ m) (exit e) (Settles env J m₀ Q) :=
  fun _ hj => ⟨m, hj⟩

theorem live_pure {P : List Call → Prop} (a : α) {Q : α → List Call → Prop} (h : ∀ j, P j → Q a j) :
    Triple P (pure a : Run α) (Settles env J m₀ Q) :=
  fun j hj => h j hj

include hJ

/-- A call that writes nothing keeps the run live. -/
theorem Live.call {m : MonitoredTx} {j : List Call} {c : Call} (h : Live env J m₀ m j) (hc : MonitorCall env m c)
    (hadd : ∀ m', c ≠ .add m') (hupdate : ∀ m', c ≠ .update m') : Live env J m₀ m (j ++ [c]) := by
  refine ⟨?_, h.2.1, hJ m j c h hc⟩
  unfold Synced
  rw [rows_append_of_ne j hadd hupdate]
  exact h.1

/-- A call that writes nothing, and what follows it with the answer it
gets. -/
theorem live_call_bind {m : MonitoredTx} {c : Call} {answer : List Call → β} {f : β → Run α}
    {Q : Except Stop α → List Call → Prop} (hc : MonitorCall env m c) (hadd : ∀ m', c ≠ .add m')
    (hupdate : ∀ m', c ≠ .update m') (hf : ∀ b, (∃ j, answer j = b) → Triple (Live env J m₀ m) (f b) Q) :
    Triple (Live env J m₀ m) (call c answer >>= f) Q :=
  Triple.call_bind fun j hj => (hf _ ⟨_, rfl⟩).conseq
    (fun j' hj' => by rw [hj']; exact Live.call hJ hj hc hadd hupdate) (fun _ _ h => h)

theorem live_orReturn {m : MonitoredTx} {c : Call} {answer : List Call → Except β α} (hc : MonitorCall env m c)
    (hadd : ∀ m', c ≠ .add m') (hupdate : ∀ m', c ≠ .update m') :
    Triple (Live env J m₀ m) (orReturn c answer)
      (Settles env J m₀ fun a j => Live env J m₀ m j ∧ ∃ j', answer j' = .ok a) := by
  unfold orReturn
  refine live_call_bind hJ hc hadd hupdate fun b hb => ?_
  cases b with
  | error => exact live_exit _
  | ok a => exact live_pure a fun j hj => ⟨hj, hb⟩

/-- An update of a version the row steps to: the table then holds it. -/
theorem live_update {m m' : MonitoredTx} (hstep : MonitorStep env m m') :
    Triple (Live env J m₀ m) (update env m') (Settles env J m₀ fun _ => Live env J m₀ m') := by
  intro j hj
  have hJ' := hJ m j (.update m') hj hstep
  have hfind : (rows env j).find m'.owner m'.id = some m.stored := by
    rw [hstep.grows.owner, hstep.grows.id]
    exact hj.1
  rw [update_apply]
  cases hans : env.updateAnswer (j ++ [.update m']) with
  | error e =>
    -- the database failed the update: the table still holds `m`
    refine ⟨m, ?_, hj.2.1, hJ'⟩
    unfold Synced
    rw [rows_append_update_of_error hans]
    exact hj.1
  | ok u =>
    refine ⟨?_, hj.2.1.trans hstep, hJ'⟩
    unfold Synced
    rw [rows_append_update_of_ok hans]
    exact Rows.find_update_self hfind

theorem live_store {m m' : MonitoredTx} (hstep : MonitorStep env m m') :
    Triple (Live env J m₀ m) (store env m') (Settles env J m₀ fun x j => x = m' ∧ Live env J m₀ m' j) :=
  settles_bind (live_update hJ hstep) fun _ => live_pure m' fun _ hj => ⟨rfl, hj⟩

omit hJ in
theorem Settles.mono {Q Q' : α → List Call → Prop} (h : ∀ a j, Q a j → Q' a j) :
    ∀ r j, Settles env J m₀ Q r j → Settles env J m₀ Q' r j
  | .ok a, j, hq => h a j hq
  | .error _, _, hs => hs

/-- The loop over the history writes nothing, and says confirmed only
with a successful receipt of L1. -/
theorem checkHistory_triple {m : MonitoredTx} (history : List ℕ) :
    ∀ acc : HistoryCheck, acc.Sound env →
      Triple (Live env J m₀ m) (checkHistory env history acc)
        (Settles env J m₀ fun acc' j => Live env J m₀ m j ∧ acc'.Sound env) := by
  induction history with
  | nil => exact fun acc hacc => live_pure acc fun _ hj => ⟨hj, hacc⟩
  | cons txHash history ih =>
    intro acc hacc
    unfold checkHistory
    refine live_call_bind hJ (by exact trivial) (by simp) (by simp) fun b hb => ?_
    rcases b with _ | _ | receipt
    · exact ih acc hacc
    · exact ih _ hacc
    · by_cases hsucc : receipt.successful = true
      · -- the first successful receipt ends the loop
        simp only [hsucc, if_true]
        exact live_pure _ fun _ hj => ⟨hj, fun _ => ⟨hsucc, .inl hb⟩⟩
      · simp only [hsucc]
        exact ih _ fun h => nomatch h

theorem reviewMonitoredTxNonce_triple {m : MonitoredTx} :
    Triple (Live env J m₀ m) (reviewMonitoredTxNonce env m)
      (Settles env J m₀ fun m' j => Live env J m₀ m j ∧ MonitorStep env m m' ∧ m'.status = m.status) := by
  unfold reviewMonitoredTxNonce
  refine settles_bind (live_orReturn hJ (by exact trivial) (by simp) (by simp)) fun nonce => ?_
  exact live_pure _ fun j hj => ⟨hj.1, MonitorStep.raiseNonce env m nonce⟩

/-- The suggested price, at most `MaxGasPriceLimit` when that is set. -/
theorem suggestedGasPrice_triple {m : MonitoredTx} :
    Triple (Live env J m₀ m) (suggestedGasPrice env cfg)
      (Settles env J m₀ fun gasPrice j => Live env J m₀ m j ∧
        (0 < cfg.maxGasPriceLimit → gasPrice ≤ cfg.maxGasPriceLimit.toNat)) := by
  unfold suggestedGasPrice
  refine settles_bind (live_orReturn hJ (by exact trivial) (by simp) (by simp)) fun gasPrice => ?_
  refine live_pure _ fun j hj => ⟨hj.1, fun hlimit => ?_⟩
  split_ifs with hcap
  · exact le_refl _
  · -- under the limit, or the limit is not set
    exact Nat.le_of_not_lt fun hlt => hcap ⟨hlimit, hlt⟩

theorem reviewMonitoredTx_triple {m : MonitoredTx} :
    Triple (Live env J m₀ m) (reviewMonitoredTx env cfg m)
      (Settles env J m₀ fun m' j => Live env J m₀ m j ∧ MonitorStep env m m' ∧ m'.status = m.status) := by
  unfold reviewMonitoredTx
  refine settles_bind (live_orReturn hJ (by exact trivial) (by simp) (by simp)) fun gas j hj => ?_
  -- the gas is raised first, then the price of that version
  obtain ⟨hgas, hgasStatus⟩ := MonitorStep.raiseGas env m gas
  refine (settles_bind (suggestedGasPrice_triple hJ) fun gasPrice => ?_) j hj.1
  obtain ⟨hprice, hpriceStatus⟩ := MonitorStep.raiseGasPrice env (if gas > m.gas then { m with gas } else m) gasPrice
  exact live_pure _ fun j' hj' => ⟨hj'.1, hgas.trans hprice, hpriceStatus.trans hgasStatus⟩

theorem sign_triple {m : MonitoredTx} :
    Triple (Live env J m₀ m) (sign env cfg m) (Settles env J m₀ fun _ => Live env J m₀ m) := by
  unfold sign
  split
  · refine live_call_bind hJ (by exact trivial) (by simp) (by simp) fun b _ => ?_
    cases b with
    | error => exact live_exit _
    | ok signedTx => exact live_pure signedTx fun _ hj => hj
  · exact (live_orReturn hJ (by exact trivial) (by simp) (by simp)).conseq (fun _ h => h) (Settles.mono fun _ _ h => h.1)

/-- The signed hash is in the history of the row the run goes on with,
and, when it is new, in the table too. -/
theorem addToHistory_triple {m : MonitoredTx} {signedTx : ℕ} :
    Triple (Live env J m₀ m) (addToHistory env m signedTx)
      (Settles env J m₀ fun m' j => Live env J m₀ m' j ∧ signedTx ∈ m'.history ∧ m'.status = m.status) := by
  unfold addToHistory
  split
  · rename_i hnone
    exact live_pure m fun _ hj => ⟨hj, MonitoredTx.addHistory_eq_none.mp hnone, rfl⟩
  · rename_i m' hsome
    obtain ⟨-, rfl⟩ := MonitoredTx.addHistory_eq_some hsome
    have hstep : MonitorStep env m { m with history := m.history ++ [signedTx] } :=
      .of_grows ⟨rfl, rfl, rfl, rfl, rfl, rfl, rfl, List.subset_append_left _ _, UInt64.le_refl _,
        UInt64.le_refl _⟩ (le_refl _) rfl rfl
    refine (live_store hJ hstep).conseq (fun _ h => h) (Settles.mono ?_)
    rintro _ _ ⟨rfl, hj⟩
    exact ⟨hj, List.mem_append_right _ (List.mem_singleton_self _), rfl⟩

/-- **Write-ahead**: the hash sent is one of the history the table
holds. -/
theorem sendIfNotFound_triple {m : MonitoredTx} {signedTx : ℕ} (hmem : signedTx ∈ m.history)
    (hstatus : m.status = .created ∨ m.status = .sent) :
    Triple (Live env J m₀ m) (sendIfNotFound env m signedTx)
      (Settles env J m₀ fun m' j => Live env J m₀ m' j ∧ (m'.status = .created ∨ m'.status = .sent)) := by
  unfold sendIfNotFound
  refine live_call_bind hJ (by exact trivial) (by simp) (by simp) fun b _ => ?_
  rcases b with (_ | _) | _
  · -- `NotFound`: the transaction is sent
    refine settles_bind (live_orReturn hJ hmem (by simp) (by simp)) fun _ => ?_
    split_ifs with hcreated
    · have hstep : MonitorStep env m { m with status := .sent } :=
        ⟨⟨rfl, rfl, rfl, rfl, rfl, rfl, rfl, List.Subset.refl _, UInt64.le_refl _, UInt64.le_refl _⟩,
          le_refl _, by rw [hcreated]; rfl, .inl ⟨rfl, .inr rfl⟩⟩
      refine (live_store hJ hstep).conseq (fun _ h => h.1) (Settles.mono ?_)
      rintro _ _ ⟨rfl, hj'⟩
      exact ⟨hj', .inr rfl⟩
    · exact live_pure m fun _ h => ⟨h.1, hstatus⟩
  · exact live_pure m fun _ hj => ⟨hj, hstatus⟩
  · exact live_pure m fun _ hj => ⟨hj, hstatus⟩

theorem waitReceipt_triple {m : MonitoredTx} {signedTx : ℕ} :
    Triple (Live env J m₀ m) (waitReceipt env signedTx)
      (Settles env J m₀ fun receipt j => Live env J m₀ m j ∧ Answered env receipt) := by
  unfold waitReceipt
  refine settles_bind (live_orReturn hJ (by exact trivial) (by simp) (by simp)) fun confirmed j hj => ?_
  split_ifs
  · refine (live_orReturn hJ (by exact trivial) (by simp) (by simp)).conseq (fun _ h => h) (Settles.mono ?_) j hj.1
    exact fun _ _ h => ⟨h.1, .inr h.2⟩
  · exact live_exit _ j hj.1

theorem shouldContinueToMonitorThisTx_triple {m : MonitoredTx} {receipt : Receipt} :
    Triple (Live env J m₀ m) (shouldContinueToMonitorThisTx env receipt)
      (Settles env J m₀ fun _ => Live env J m₀ m) := by
  unfold shouldContinueToMonitorThisTx
  split_ifs
  · exact live_pure _ fun _ hj => hj
  · refine live_call_bind hJ (by exact trivial) (by simp) (by simp) fun b _ => ?_
    cases b with
    | error => exact live_pure _ fun _ hj => hj
    | ok =>
      refine live_call_bind hJ (by exact trivial) (by simp) (by simp) fun b' _ => ?_
      rcases b' with (_ | _) | _ <;> exact live_pure _ fun _ hj => hj

/-- The last write of a run: confirmed by a successful receipt, failed by
a failed one unless it is looked at again. -/
theorem finish_triple {m : MonitoredTx} {receipt : Receipt} (hpending : m.status ∈ statusesFilter)
    (hans : Answered env receipt) (hfailed : receipt.successful = false → m.status = .created ∨ m.status = .sent) :
    Triple (Live env J m₀ m) (finish env m receipt) (Settles env J m₀ fun _ => Stopped env J m₀) := by
  have hgrows (status : MonitoredTxStatus) :
      m.Grows { m with status, blockNumber := receipt.blockNumber } :=
    ⟨rfl, rfl, rfl, rfl, rfl, rfl, rfl, List.Subset.refl _, UInt64.le_refl _, UInt64.le_refl _⟩
  unfold finish
  split_ifs with hsucc
  · have hstep : MonitorStep env m { m with status := .confirmed, blockNumber := receipt.blockNumber } := by
      refine ⟨hgrows _, le_refl _, ?_, .inr ⟨hpending, receipt, hans, rfl, .inl ⟨rfl, hsucc⟩⟩⟩
      simp only [statusesFilter, List.mem_cons, List.not_mem_nil, or_false] at hpending
      rcases hpending with h | h | h <;> rw [h] <;> rfl
    exact (live_update hJ hstep).conseq (fun _ h => h) (Settles.mono fun _ j hj => ⟨_, hj⟩)
  · have hfail : receipt.successful = false := by simpa using hsucc
    refine settles_bind (shouldContinueToMonitorThisTx_triple hJ) fun b => ?_
    split_ifs
    · exact live_pure () fun j hj => ⟨m, hj⟩
    · have hstep : MonitorStep env m { m with status := .failed, blockNumber := receipt.blockNumber } := by
        refine ⟨hgrows _, le_refl _, ?_, .inr ⟨hpending, receipt, hans, rfl, .inr ⟨rfl, hfail⟩⟩⟩
        rcases hfailed hfail with h | h <;> rw [h] <;> rfl
      exact (live_update hJ hstep).conseq (fun _ h => h) (Settles.mono fun _ j hj => ⟨_, hj⟩)

/-- The block `if !confirmed`: a reorged row returns at once; otherwise the
row the run goes on with is created or sent, and the receipt is one of
L1. -/
theorem resendMonitoredTx_triple {m : MonitoredTx} (hpending : m.status ∈ statusesFilter) :
    Triple (Live env J m₀ m) (resendMonitoredTx env cfg m)
      (Settles env J m₀ fun p j => Live env J m₀ p.1 j ∧ (p.1.status = .created ∨ p.1.status = .sent) ∧
        Answered env p.2) := by
  unfold resendMonitoredTx
  by_cases hreorged : m.status = .reorged
  · rw [if_pos hreorged]
    exact live_exit _
  · rw [if_neg hreorged]
    have hcs : m.status = .created ∨ m.status = .sent := by
      simp only [statusesFilter, List.mem_cons, List.not_mem_nil, or_false] at hpending
      rcases hpending with h | h | h
      · exact .inl h
      · exact .inr h
      · exact absurd h hreorged
    -- the version the run signs: a sent row is reviewed first
    have hreview : Triple (Live env J m₀ m)
        (if m.status = .sent then reviewMonitoredTx env cfg m >>= store env else pure m)
        (Settles env J m₀ fun m' j => Live env J m₀ m' j ∧ (m'.status = .created ∨ m'.status = .sent)) := by
      split_ifs with hsent
      · refine settles_bind (reviewMonitoredTx_triple hJ) fun m' => ?_
        rintro j ⟨hj, hstep, hstatus⟩
        refine (live_store hJ hstep).conseq (fun _ h => h) (Settles.mono ?_) j hj
        rintro _ _ ⟨rfl, hj'⟩
        exact ⟨hj', .inr (hstatus.trans hsent)⟩
      · exact live_pure m fun _ hj => ⟨hj, hcs⟩
    refine settles_bind hreview fun m₁ => ?_
    rintro j ⟨hj, hcs₁⟩
    refine (settles_bind (sign_triple hJ) fun signedTx => ?_) j hj
    refine settles_bind (addToHistory_triple hJ) fun m₂ => ?_
    rintro j' ⟨hj', hmem, hstatus₂⟩
    rw [← hstatus₂] at hcs₁
    refine (settles_bind (sendIfNotFound_triple hJ hmem hcs₁) fun m₃ => ?_) j' hj'
    rintro j'' ⟨hj'', hcs₃⟩
    refine (settles_bind (waitReceipt_triple hJ) fun receipt => ?_) j'' hj''
    exact live_pure _ fun _ h => ⟨h.1, hcs₃, h.2⟩

/-- **The run of `monitorTx`** on a pending row the table holds: whatever
L1 and the database answer, it stops with the table holding a version the
row steps to, every call of the run having kept `J`. -/
theorem monitorTx_triple (hpending : m₀.status ∈ statusesFilter) :
    Triple (Live env J m₀ m₀) (monitorTx env cfg m₀) (Settles env J m₀ fun _ => Stopped env J m₀) := by
  unfold monitorTx
  refine Triple.read_bind fun history => ?_
  refine settles_bind (checkHistory_triple hJ history HistoryCheck.init fun h => nomatch h) fun check => ?_
  rintro j ⟨hj, hsound⟩
  -- the nonce review keeps the status
  have hnonce : Triple (Live env J m₀ m₀)
      (if (!check.confirmed && check.hasFailedReceipts && check.allHistoryTxsWereMined) = true then
        reviewMonitoredTxNonce env m₀ >>= store env else pure m₀)
      (Settles env J m₀ fun m j => Live env J m₀ m j ∧ m.status = m₀.status) := by
    split_ifs
    · refine settles_bind (reviewMonitoredTxNonce_triple hJ) fun m => ?_
      rintro j ⟨hj, hstep, hstatus⟩
      refine (live_store hJ hstep).conseq (fun _ h => h) (Settles.mono ?_) j hj
      rintro _ _ ⟨rfl, hj'⟩
      exact ⟨hj', hstatus⟩
    · exact live_pure m₀ fun _ hj => ⟨hj, rfl⟩
  refine (settles_bind hnonce fun m₁ => ?_) j hj
  rintro j' ⟨hj', hstatus₁⟩
  rw [← hstatus₁] at hpending
  -- the receipt that decides: the loop's successful one, or the one of the new transaction
  have hreceipt : Triple (Live env J m₀ m₁)
      (if check.confirmed = true then pure (m₁, check.lastReceiptChecked) else resendMonitoredTx env cfg m₁)
      (Settles env J m₀ fun p j => Live env J m₀ p.1 j ∧ p.1.status ∈ statusesFilter ∧ Answered env p.2 ∧
        (p.2.successful = false → p.1.status = .created ∨ p.1.status = .sent)) := by
    split_ifs with hconfirmed
    · obtain ⟨hsucc, hans⟩ := hsound hconfirmed
      exact live_pure _ fun _ h => ⟨h, hpending, hans, fun hfail => absurd (hsucc.symm.trans hfail) (by simp)⟩
    · refine (resendMonitoredTx_triple hJ hpending).conseq (fun _ h => h) (Settles.mono ?_)
      rintro ⟨m₂, receipt⟩ _ ⟨h, hcs, hans⟩
      exact ⟨h, mem_statusesFilter_of hcs, hans, fun _ => hcs⟩
  refine (settles_bind hreceipt fun p => ?_) j' hj'
  rintro j'' ⟨hj'', hpending₂, hans, hfailed⟩
  exact finish_triple hJ hpending₂ hans hfailed j'' hj''

omit hJ in
theorem Settles.stopped {r : Except Stop Unit} {j : List Call}
    (h : Settles env J m₀ (fun _ => Stopped env J m₀) r j) : Stopped env J m₀ j := by
  cases r with
  | ok => exact h
  | error => exact h

/-- Wherever a run of `monitorTx` on a pending row the table holds stops,
the table holds a version the row steps to. -/
theorem monitorTx_stopped (hpending : m₀.status ∈ statusesFilter) {j : List Call} (hlive : Live env J m₀ m₀ j) :
    Stopped env J m₀ (monitorTx env cfg m₀ j).2 :=
  Settles.stopped (monitorTx_triple hJ hpending j hlive)

end Run

/-! ## The laws of one run -/

section Laws

variable (env : Env ε) (cfg : Config)

/-- **A monitoring run moves its row only along `monitorStep`**: created
to sent, a pending status to confirmed, created or sent to failed; a
reorged row stays reorged or is confirmed. -/
theorem monitorTx_status (mTx : MonitoredTx) (hpending : mTx.status ∈ statusesFilter) (j : List Call)
    (hrow : (rows env j).find mTx.owner mTx.id = some mTx.stored) :
    ∃ r, (rows env (monitorTx env cfg mTx j).2).find mTx.owner mTx.id = some r ∧
      monitorStep mTx.status r.status = true := by
  have hstop : Stopped env (fun _ => True) mTx (monitorTx env cfg mTx j).2 :=
    monitorTx_stopped (fun _ _ _ _ _ => trivial) hpending ⟨hrow, .refl env mTx, trivial⟩
  obtain ⟨m, hsynced, hstep, -⟩ := hstop
  refine ⟨m.stored, ?_, hstep.status⟩
  rw [← hstep.grows.owner, ← hstep.grows.id]
  exact hsynced

/-- A monitoring run of `createdTx` on `miningNode` confirms it. -/
theorem monitorTx_status_miningNode :
    createdTx.status ∈ statusesFilter ∧
      (rows miningNode []).find createdTx.owner createdTx.id = some createdTx.stored ∧
      ((rows miningNode (monitorTx miningNode plainConfig createdTx []).2).find createdTx.owner createdTx.id).map
          MonitoredTx.status = some .confirmed ∧
      ∃ r, (rows miningNode (monitorTx miningNode plainConfig createdTx []).2).find createdTx.owner createdTx.id =
          some r ∧ monitorStep createdTx.status r.status = true :=
  ⟨by decide, by decide, by decide, monitorTx_status miningNode plainConfig createdTx (by decide) [] (by decide)⟩

/-- **A row is confirmed only by a successful receipt of L1, and failed
only by a failed one**, and the row keeps the block of that receipt. -/
theorem monitorTx_minedBy (mTx : MonitoredTx) (hpending : mTx.status ∈ statusesFilter) (j : List Call)
    (hrow : (rows env j).find mTx.owner mTx.id = some mTx.stored) :
    ∃ r, (rows env (monitorTx env cfg mTx j).2).find mTx.owner mTx.id = some r ∧
      (r.status = .confirmed ∨ r.status = .failed →
        ∃ receipt, Answered env receipt ∧ (receipt.successful = true ↔ r.status = .confirmed) ∧
          r.blockNumber = receipt.blockNumber.map (· % 2 ^ 64)) := by
  have hstop : Stopped env (fun _ => True) mTx (monitorTx env cfg mTx j).2 :=
    monitorTx_stopped (fun _ _ _ _ _ => trivial) hpending ⟨hrow, .refl env mTx, trivial⟩
  obtain ⟨m, hsynced, hstep, -⟩ := hstop
  refine ⟨m.stored, by rw [← hstep.grows.owner, ← hstep.grows.id]; exact hsynced, fun hfinal => ?_⟩
  rw [MonitoredTx.stored_status] at hfinal
  rcases hstep.mined with ⟨-, hstatus⟩ | ⟨-, receipt, hans, hblock, hst⟩
  · -- a version that kept its status, or became sent, is still pending
    have hmem : m.status ∈ statusesFilter := by
      rcases hstatus with h | h
      · rw [h]
        exact hpending
      · exact mem_statusesFilter_of (.inr h)
    rcases hfinal with h | h <;> simp [h, statusesFilter] at hmem
  · refine ⟨receipt, hans, ?_, by simp [MonitoredTx.stored, hblock]⟩
    rw [MonitoredTx.stored_status]
    rcases hst with ⟨h1, h2⟩ | ⟨h1, h2⟩ <;> simp [h1, h2]

/-- The run of `createdTx` on `miningNode` confirms it in the block of
the receipt of its hash `7`. -/
theorem monitorTx_minedBy_miningNode :
    createdTx.status ∈ statusesFilter ∧
      (rows miningNode []).find createdTx.owner createdTx.id = some createdTx.stored ∧
      ((rows miningNode (monitorTx miningNode plainConfig createdTx []).2).find createdTx.owner createdTx.id).map
          (fun r => (r.status, r.blockNumber, r.history)) = some (.confirmed, some 100, [7]) ∧
      ∃ r, (rows miningNode (monitorTx miningNode plainConfig createdTx []).2).find createdTx.owner createdTx.id =
          some r ∧
        (r.status = .confirmed ∨ r.status = .failed →
          ∃ receipt, Answered miningNode receipt ∧ (receipt.successful = true ↔ r.status = .confirmed) ∧
            r.blockNumber = receipt.blockNumber.map (· % 2 ^ 64)) :=
  ⟨by decide, by decide, by decide, monitorTx_minedBy miningNode plainConfig createdTx (by decide) [] (by decide)⟩

end Laws

/-! ## A reorged row -/

/-- The calls of a run on a reorged row: checks of its history, the
sender's nonce, and updates of the row. -/
def ReorgedCall : Call → Prop
  | .checkTxWasMined _ | .currentNonce _ | .update _ => True
  | _ => False

section Reorged

variable (env : Env ε) (cfg : Config)

/-- The loop over the history only checks, and says confirmed only with
a successful receipt. -/
theorem checkHistory_reorgedCall (history : List ℕ) :
    ∀ acc : HistoryCheck, (acc.confirmed = true → acc.lastReceiptChecked.successful = true) →
      Effects ReorgedCall (fun r => ∀ acc', r = .ok acc' → acc'.confirmed = true →
        acc'.lastReceiptChecked.successful = true) (checkHistory env history acc) := by
  induction history with
  | nil =>
    intro acc hacc
    exact Effects.pure fun acc' h => by cases h; exact hacc
  | cons txHash history ih =>
    intro acc hacc
    unfold checkHistory
    refine Effects.call_bind trivial fun b => ?_
    rcases b with _ | _ | receipt
    · exact ih acc hacc
    · exact ih _ hacc
    · by_cases hsucc : receipt.successful = true
      · simp only [hsucc, if_true]
        exact Effects.pure fun acc' h _ => by cases h; exact hsucc
      · simp only [hsucc]
        exact ih _ fun h => nomatch h

theorem store_reorgedCall (mTx : MonitoredTx) :
    Effects ReorgedCall (fun r => ∀ m, r = .ok m → m = mTx) (store env mTx) := by
  unfold store update
  exact Effects.bind (orReturn_effects (S := ReorgedCall) (by exact trivial) _) (fun _ _ => Effects.pure fun _ h => by cases h; rfl)
    fun _ _ _ h => nomatch h

/-- **A reorged row is never signed or sent again**: a run of `monitorTx`
on it only checks its history, reviews the sender's nonce and writes the
row. -/
theorem monitorTx_reorged (mTx : MonitoredTx) (hreorged : mTx.status = .reorged) (j : List Call) :
    ∃ new, (monitorTx env cfg mTx j).2 = j ++ new ∧ ∀ c ∈ new, ReorgedCall c := by
  -- the row after the nonce review is still reorged
  have hnonce : ∀ b : Bool, Effects ReorgedCall (fun r => ∀ m, r = .ok m → m.status = .reorged)
      (if b = true then reviewMonitoredTxNonce env mTx >>= store env else pure mTx) := by
    intro b
    split_ifs
    · have hreview : Effects ReorgedCall (fun r => ∀ m, r = .ok m → m.status = .reorged)
          (reviewMonitoredTxNonce env mTx) := by
        unfold reviewMonitoredTxNonce
        refine Effects.bind (orReturn_effects (S := ReorgedCall) (by exact trivial) _) (fun nonce _ => Effects.pure ?_)
          fun _ _ _ h => nomatch h
        rintro m h
        cases h
        rw [(MonitorStep.raiseNonce env mTx nonce).2, hreorged]
      refine Effects.bind hreview (fun m hm => (store_reorgedCall env m).mono (fun _ h => h) ?_)
        fun _ _ _ h => nomatch h
      intro r hr m' hm'
      rw [hr m' hm']
      exact hm m rfl
    · exact Effects.pure fun m h => by cases h; exact hreorged
  -- a confirmed check ends with the successful receipt; otherwise the reorged row returns
  have hresend : ∀ (check : HistoryCheck) (m : MonitoredTx), m.status = .reorged →
      (check.confirmed = true → check.lastReceiptChecked.successful = true) →
      Effects ReorgedCall (fun r => ∀ p, r = .ok p → p.2.successful = true)
        (if check.confirmed = true then pure (m, check.lastReceiptChecked) else resendMonitoredTx env cfg m) := by
    intro check m hm hsound
    split_ifs with hconfirmed
    · exact Effects.pure fun p h => by cases h; exact hsound hconfirmed
    · unfold resendMonitoredTx
      rw [if_pos hm]
      exact Effects.exit fun _ h => nomatch h
  have hfinish : ∀ (m : MonitoredTx) (receipt : Receipt), receipt.successful = true →
      Effects ReorgedCall (fun _ => True) (finish env m receipt) := by
    intro m receipt hsucc
    unfold finish update
    rw [if_pos hsucc]
    exact (orReturn_effects (S := ReorgedCall) (by exact trivial) _).mono (fun _ h => h) fun _ _ => trivial
  have hrun : Effects ReorgedCall (fun _ => True) (monitorTx env cfg mTx) := by
    unfold monitorTx
    refine Effects.read_bind fun history => ?_
    refine Effects.bind (checkHistory_reorgedCall env history HistoryCheck.init fun h => nomatch h)
      (fun check hcheck => ?_) fun _ _ => trivial
    refine Effects.bind (hnonce _) (fun m hm => ?_) fun _ _ => trivial
    refine Effects.bind (hresend check m (hm m rfl) (hcheck check rfl)) (fun p hp => ?_) fun _ _ => trivial
    obtain ⟨m', receipt⟩ := p
    exact hfinish m' receipt (hp _ rfl)
  obtain ⟨new, hj, hnew, -⟩ := hrun j
  exact ⟨new, hj, hnew⟩

/-- The reorged form of `confirmedTx` is only checked: its hash `5` is
not mined any more, and the run returns. -/
theorem monitorTx_reorged_miningNode :
    (MonitoredTx.reorgedFrom 50 confirmedTx).status = .reorged ∧
      (monitorTx miningNode plainConfig (MonitoredTx.reorgedFrom 50 confirmedTx) []).2 = [.checkTxWasMined 5] ∧
      ∃ new, (monitorTx miningNode plainConfig (MonitoredTx.reorgedFrom 50 confirmedTx) []).2 = [] ++ new ∧
        ∀ c ∈ new, ReorgedCall c :=
  ⟨by decide, by decide, monitorTx_reorged miningNode plainConfig _ (by decide) []⟩

end Reorged

end EthTxManager

end XLayerNode
