import XLayerNode.Common.TtlCache
import XLayerNode.Synchronizer.TrustedProcessor
/-!
# The trusted sync loop

`TrustedBatchesRetrieve` syncs a permissionless node from the trusted
sequencer. `SyncTrustedState` asks the trusted node for its last batch and
runs `syncTrustedBatchesToFrom`: for each batch from the next one to sync,
it asks for the batch, opens a database transaction, takes the current and
previous batch from the cache of the `TrustedStateManager` (or the state),
processes the batch (`ProcessTrustedBatch`), checks the flush id and
commits; the cache then takes the batches the processing returned. It
stops after a batch that is not closed, since the state holds at most one
open batch. The selector in front of it picks the executor of the next
batch's fork and caps the sync at the fork's last batch.

The programs run over the journal of `Synchronizer.TrustedProcessor`. The
laws here are over whole runs, whatever the trusted node, the state and
the executor answer:

* **transactions** (`syncTrustedState_txState`): every call on `dbTx` is
  made inside a transaction, and a run that does not panic leaves none
  open;
* **no virtual batch deleted** (`syncTrustedState_resetsGuarded`): every
  reset of the trusted state comes right after the state said the last
  virtual batch is at most the reset point;
* **the batches synced** (`syncTrustedState_requested`): the batches
  asked for are consecutive from the first to sync, never past the last,
  and each but the last was closed; a run that returns no error asked for
  all of them, or stopped at an open one. Behind the selector, none is
  past the last batch of the next batch's fork
  (`SyncTrustedStateExecutorSelector.syncTrustedState_within_fork`);
* **the cache** (`syncTrustedState_coherent`): the cache holds under a
  number only the batch of that number, when the state answers
  `GetBatchByNumber` so.

Each law is one instance of the round lemma `syncTrustedBatch_round`,
stated once for every property of the journal (`RoundInvariant`) and of
the cache (`CacheInvariant`) that the calls of a round keep, and of the
loop lemma `syncTrustedBatchesLoop_triple` built from it.
-/

namespace XLayerNode

namespace Synchronizer

namespace L2Sync

open Journal

variable {ε α : Type}

/-- `firstTrustedBatchNumber`. -/
def firstTrustedBatchNumber : ℕ := 2

/-- `TrustedStateManager`: the cache of batches by number. A cached `nil`
is a batch the state did not have. -/
structure TrustedStateManager where
  cache : TtlCache ℕ (Option Batch)

namespace TrustedStateManager

/-- `Clear`. -/
def clear (ts : TrustedStateManager) : TrustedStateManager := ⟨ts.cache.clear⟩

/-- `Set`: a batch under its own number, at the time `now`; nil is not
cached. -/
def set (ts : TrustedStateManager) (resultBatch : Option Batch) (now : ℕ) : TrustedStateManager :=
  match resultBatch with
  | none => ts
  | some resultBatch => ⟨ts.cache.set resultBatch.batchNumber (some resultBatch) now⟩

/-- One half of `GetStateForWorkingBatch`: a batch the cache did not give
is read from the state and cached, as nil when the state does not have
it. -/
def loadBatch (env : Env ε) (ts : TrustedStateManager) (cached : Option Batch) (batchNumber : ℕ) :
    Run ε (Except (SyncError ε) (Option Batch) × TrustedStateManager) := do
  match cached with
  | some batch => pure (.ok (some batch), ts)
  | none =>
    match ← call (.getBatchByNumber batchNumber) env.getBatchByNumber with
    | .error (some err) => pure (.error (.call err), ts)
    | .error none =>
      let now ← read env.now
      pure (.ok none, ⟨ts.cache.set batchNumber none now⟩)
    | .ok batch =>
      let now ← read env.now
      pure (.ok (some batch), ⟨ts.cache.set batchNumber (some batch) now⟩)

/-- `GetStateForWorkingBatch`: the current and previous batch of
`batchNumber`, from the cache once its outdated entries are gone, or else
from the state. -/
def getStateForWorkingBatch (env : Env ε) (ts : TrustedStateManager) (batchNumber : ℕ) :
    Run ε (Except (SyncError ε) TrustedState × TrustedStateManager) := do
  let now ← read env.now
  let cache := ts.cache.deleteOutdated now
  let now ← read env.now
  let (currentBatch, cache) := cache.getOrDefault batchNumber none now
  let now ← read env.now
  let (previousBatch, cache) := cache.getOrDefault (batchNumber - 1) none now
  let (currentBatch, ts) ← loadBatch env ⟨cache⟩ currentBatch batchNumber
  match currentBatch with
  | .error err => pure (.error err, ts)
  | .ok currentBatch =>
    let (previousBatch, ts) ← loadBatch env ts previousBatch (batchNumber - 1)
    match previousBatch with
    | .error err => pure (.error err, ts)
    | .ok previousBatch => pure (.ok ⟨[currentBatch, previousBatch]⟩, ts)

end TrustedStateManager

/-- The error a function returns, as a value, as `x, err := f()` reads it;
a panic goes on. -/
def catchError (m : Run ε α) : Run ε (Except (SyncError ε) α) :=
  tryCatch (m >>= fun a => pure (.ok a)) fun
    | .error err => pure (.error err)
    | .panic => exit .panic

/-- `rollback`: roll `dbTx` back and return its error when it fails, `err`
otherwise. -/
def rollback (env : Env ε) (err : SyncError ε) : Run ε (SyncError ε) := do
  match ← call .rollback env.rollback with
  | .error rollbackErr => pure (.call rollbackErr)
  | .ok () => pure err

/-- `sanityCheckBatchReturnedByTrusted`: the batch, when it is there and
is the one asked for. -/
def sanityCheckBatchReturnedByTrusted (batch : Option RpcBatch) (expectedBatchNumber : ℕ) :
    Except (SyncError ε) RpcBatch :=
  match batch with
  | none => .error (.batchNil expectedBatchNumber)
  | some batch =>
    if batch.number ≠ expectedBatchNumber then .error (.batchNotExpected batch.number expectedBatchNumber)
    else .ok batch

/-- The body of the loop of `syncTrustedBatchesToFrom` for one batch: ask
the trusted node for it, process it on a transaction of its own, commit,
and cache what the processing returned. The result says whether the batch
was closed. -/
def syncTrustedBatch (env : Env ε) (cfg : Config) (ts : TrustedStateManager) (batchNumberToSync : ℕ) :
    Run ε (Except (SyncError ε) Bool × TrustedStateManager) := do
  match ← call (.batchByNumber batchNumberToSync) env.batchByNumber with
  | .error err => pure (.error (.call err), ts)
  | .ok batchToSync =>
    match sanityCheckBatchReturnedByTrusted batchToSync batchNumberToSync with
    | .error err => pure (.error err, ts)
    | .ok batchToSync =>
      match ← call .beginStateTransaction env.beginStateTransaction with
      | .error err => pure (.error (.call err), ts)
      | .ok () =>
        let (previousStatus, ts) ← ts.getStateForWorkingBatch env batchNumberToSync
        match previousStatus with
        | .error err =>
          let err ← rollback env err
          pure (.error err, ts)
        | .ok previousStatus =>
          match ← catchError (processTrustedBatch env cfg (some batchToSync) previousStatus) with
          | .error err =>
            let err ← rollback env err
            pure (.error err, ts.clear)
          | .ok newTrustedState =>
            match ← call .checkFlushID env.checkFlushID with
            | .error err =>
              let err ← rollback env (.call err)
              pure (.error err, ts.clear)
            | .ok () =>
              match ← call .commit env.commit with
              | .error err => pure (.error (.call err), ts.clear)
              | .ok () =>
                -- the cache takes `LastTrustedBatches[0]` and `[1]`
                match newTrustedState.lastTrustedBatches[0]?, newTrustedState.lastTrustedBatches[1]? with
                | some current, some previous =>
                  let now ← read env.now
                  let ts := ts.set current now
                  let now ← read env.now
                  pure (.ok batchToSync.closed, ts.set previous now)
                | _, _ => exit .panic

/-- The loop of `syncTrustedBatchesToFrom` from `batchNumberToSync`, while
it is at most `lastTrustedStateBatchNumber`, with `fuel` rounds left. -/
def syncTrustedBatchesLoop (env : Env ε) (cfg : Config) (lastTrustedStateBatchNumber : ℕ) :
    ℕ → ℕ → TrustedStateManager → Run ε (Except (SyncError ε) Unit × TrustedStateManager)
  | 0, _, ts => pure (.ok (), ts)
  | fuel + 1, batchNumberToSync, ts =>
    if batchNumberToSync ≤ lastTrustedStateBatchNumber then do
      let (r, ts) ← syncTrustedBatch env cfg ts batchNumberToSync
      match r with
      | .error err => pure (.error err, ts)
      | .ok closed =>
        -- the state holds at most one open batch
        if !closed && batchNumberToSync + 1 ≤ lastTrustedStateBatchNumber then pure (.ok (), ts)
        else syncTrustedBatchesLoop env cfg lastTrustedStateBatchNumber fuel (batchNumberToSync + 1) ts
    else pure (.ok (), ts)

/-- `syncTrustedBatchesToFrom`: the loop from the first batch to sync, with
a round for each batch up to the last. -/
def syncTrustedBatchesToFrom (env : Env ε) (cfg : Config) (ts : TrustedStateManager)
    (latestSyncedBatch lastTrustedStateBatchNumber : ℕ) :
    Run ε (Except (SyncError ε) Unit × TrustedStateManager) :=
  let batchNumberToSync := max latestSyncedBatch firstTrustedBatchNumber
  syncTrustedBatchesLoop env cfg lastTrustedStateBatchNumber
    (lastTrustedStateBatchNumber + 1 - batchNumberToSync) batchNumberToSync ts

/-- `isSyncrhonizedTrustedState`. -/
def isSyncrhonizedTrustedState (lastTrustedStateBatchNumber latestSyncedBatch firstBatchNumberToSync : ℕ) :
    Bool :=
  if lastTrustedStateBatchNumber < firstBatchNumberToSync then true
  else decide (lastTrustedStateBatchNumber < latestSyncedBatch)

/-- `SyncTrustedState`: sync up to the trusted node's last batch, or
`maximumBatchNumberToProcess` when it is lower. -/
def syncTrustedState (env : Env ε) (cfg : Config) (ts : TrustedStateManager)
    (latestSyncedBatch maximumBatchNumberToProcess : ℕ) :
    Run ε (Except (SyncError ε) Unit × TrustedStateManager) := do
  let latestSyncedBatch := if latestSyncedBatch = 0 then 1 else latestSyncedBatch
  match ← call .batchNumber env.batchNumber with
  | .error err => pure (.error (.call err), ts)
  | .ok lastTrustedStateBatchNumberSeen =>
    let lastTrustedStateBatchNumber := min lastTrustedStateBatchNumberSeen maximumBatchNumberToProcess
    if isSyncrhonizedTrustedState lastTrustedStateBatchNumber latestSyncedBatch firstTrustedBatchNumber then
      pure (.ok (), ts)
    else syncTrustedBatchesToFrom env cfg ts latestSyncedBatch lastTrustedStateBatchNumber

/-- `GetCachedBatch`: the cached batch, at the time `now`. -/
def getCachedBatch (ts : TrustedStateManager) (batchNumber now : ℕ) : Option Batch × TrustedStateManager :=
  let (batch, cache) := ts.cache.getOrDefault batchNumber none now
  (batch, ⟨cache⟩)

/-! ## The selector -/

/-- The forks the synchronizer syncs from the trusted node, all with the
etrog executor: `FORKID_ETROG`, `FORKID_ELDERBERRY` and `FORKID_9`. -/
def supportedForks : List ℕ := [State.forkIdEtrog, State.forkIdElderberry, 9]

namespace SyncTrustedStateExecutorSelector

/-- `GetExecutor`: whether the fork of the next batch has an executor, and
the batch to sync up to, capped at the fork's last batch. -/
def getExecutor (env : Env ε) (latestSyncedBatch maximumBatchNumberToProcess : ℕ) : Option ℕ :=
  let forkIDForNextBatch := env.getForkIDByBatchNumber (latestSyncedBatch + 1)
  if forkIDForNextBatch ∉ supportedForks then none
  else
    match env.getForkIDInMemory forkIDForNextBatch with
    | none => none
    | some fork => some (min maximumBatchNumberToProcess fork.toBatchNumber)

/-- `SyncTrustedState` of the selector: the executor's, up to the capped
batch, or `ErrCantSyncFromL2` without an executor. -/
def syncTrustedState (env : Env ε) (cfg : Config) (ts : TrustedStateManager)
    (latestSyncedBatch maximumBatchNumberToProcess : ℕ) :
    Run ε (Except (SyncError ε) Unit × TrustedStateManager) :=
  match getExecutor env latestSyncedBatch maximumBatchNumberToProcess with
  | none => pure (.error .cantSyncFromL2, ts)
  | some maxBatchNumber => L2Sync.syncTrustedState env cfg ts latestSyncedBatch maxBatchNumber

end SyncTrustedStateExecutorSelector

/-! ## The pieces of a round -/

section Pieces

variable {env : Env ε}

/-- A call of the state for a batch. -/
def Call.IsGetBatch (c : Call) : Prop := ∃ k, c = .getBatchByNumber k

theorem loadBatch_effects (ts : TrustedStateManager) (cached : Option Batch) (batchNumber : ℕ) :
    Effects Call.IsGetBatch (ExitsIn fun _ => False) (TrustedStateManager.loadBatch env ts cached batchNumber) := by
  unfold TrustedStateManager.loadBatch
  rcases cached with _ | batch
  · refine Effects.call_bind ⟨batchNumber, rfl⟩ fun r => ?_
    rcases r with (_ | err) | batch
    · exact Effects.read_bind fun _ => Effects.pure trivial
    · exact Effects.pure trivial
    · exact Effects.read_bind fun _ => Effects.pure trivial
  · exact Effects.pure trivial

theorem getStateForWorkingBatch_effects (ts : TrustedStateManager) (batchNumber : ℕ) :
    Effects Call.IsGetBatch (ExitsIn fun _ => False)
      (TrustedStateManager.getStateForWorkingBatch env ts batchNumber) := by
  unfold TrustedStateManager.getStateForWorkingBatch
  refine Effects.read_bind fun _ => Effects.read_bind fun _ => Effects.read_bind fun _ => ?_
  refine Effects.bind (loadBatch_effects _ _ _) (fun r _ => ?_) fun _ h => h
  obtain ⟨currentBatch, ts⟩ := r
  rcases currentBatch with err | currentBatch
  · exact Effects.pure trivial
  · refine Effects.bind (loadBatch_effects _ _ _) (fun r _ => ?_) fun _ h => h
    obtain ⟨previousBatch, ts⟩ := r
    rcases previousBatch with err | previousBatch
    · exact Effects.pure trivial
    · exact Effects.pure trivial

theorem rollback_effects (err : SyncError ε) :
    Effects (· = Call.rollback) (ExitsIn fun _ => False) (rollback env err) := by
  refine Effects.call_bind (by rfl) fun r => ?_
  rcases r with rollbackErr | _
  · exact Effects.pure trivial
  · exact Effects.pure trivial

/-- An error returned as a value keeps what the function keeps; only a
panic goes on. -/
theorem catchError_triple {P O : List Call → Prop} {m : Run ε α} (h : Triple P m (fun _ j => O j)) :
    Triple P (catchError m) (fun r j => O j ∧ ExitsIn (fun e => e = Exit.panic) r) := by
  intro j hj
  have hm := h j hj
  unfold catchError
  rw [tryCatch_apply, bind_apply]
  revert hm
  rcases m j with ⟨(err | _) | a, j'⟩
  · exact fun hm => ⟨hm, trivial⟩
  · exact fun hm => ⟨hm, rfl⟩
  · exact fun hm => ⟨hm, trivial⟩

theorem sanityCheckBatchReturnedByTrusted_eq_ok {batch : Option RpcBatch} {expectedBatchNumber : ℕ}
    {b : RpcBatch} :
    (sanityCheckBatchReturnedByTrusted batch expectedBatchNumber : Except (SyncError ε) RpcBatch) = .ok b ↔
      batch = some b ∧ b.number = expectedBatchNumber := by
  unfold sanityCheckBatchReturnedByTrusted
  rcases batch with _ | batch
  · simp
  · by_cases hn : batch.number = expectedBatchNumber
    · simp only [hn, ne_eq, not_true_eq_false, if_false, Except.ok.injEq, Option.some.injEq]
      constructor
      · rintro rfl
        exact ⟨rfl, hn⟩
      · rintro ⟨rfl, -⟩
        rfl
    · simp only [hn, ne_eq, not_false_eq_true, if_true, reduceCtorEq, Option.some.injEq, false_iff, not_and]
      rintro rfl
      exact hn

/-- A rollback adds its call, and the round goes on with the error to
return. -/
theorem rollback_bind (err : SyncError ε) (j : List Call) :
    ∃ err', ∀ {β : Type} (f : SyncError ε → Run ε β), (rollback env err >>= f) j = f err' (j ++ [.rollback]) := by
  unfold rollback
  cases hr : env.rollback (j ++ [.rollback]) with
  | error rollbackErr => exact ⟨.call rollbackErr, fun f => by rw [bind_bind, call_bind_apply, hr]; rfl⟩
  | ok _ => exact ⟨err, fun f => by rw [bind_bind, call_bind_apply, hr]; rfl⟩

end Pieces

/-! ## One round of the loop -/

section Round

variable {env : Env ε} {cfg : Config} {n : ℕ}

/-- What a journal property needs to hold over the round of the batch `n`:
`I₀` before it, `I` outside a transaction once the trusted node was asked
for the batch, and `O` inside the transaction. -/
structure RoundInvariant (env : Env ε) (cfg : Config) (n : ℕ) (I₀ I O : List Call → Prop) : Prop where
  batchByNumber : ∀ j, I₀ j → I (j ++ [.batchByNumber n])
  begin_ok : ∀ j, I j → env.beginStateTransaction (j ++ [.beginStateTransaction]) = .ok () →
    O (j ++ [.beginStateTransaction])
  begin_error : ∀ j e, I j → env.beginStateTransaction (j ++ [.beginStateTransaction]) = .error e →
    I (j ++ [.beginStateTransaction])
  getBatchByNumber : ∀ j k, O j → O (j ++ [.getBatchByNumber k])
  checkFlushID : ∀ j, O j → O (j ++ [.checkFlushID])
  process : ∀ trustedBatch status, Triple O (processTrustedBatch env cfg (some trustedBatch) status) (fun _ j => O j)
  close : ∀ j c, O j → c = .commit ∨ c = .rollback → I (j ++ [c])

/-- What a property of the cache needs to hold over the round of the
batch `n`: the cache taken from `GetStateForWorkingBatch`, its clearing,
and the batches set after a commit keep it. -/
structure CacheInvariant (env : Env ε) (n : ℕ) (C : TrustedStateManager → Prop) : Prop where
  getStateForWorkingBatch : ∀ ts j r ts', C ts → (ts.getStateForWorkingBatch env n j).1 = .ok (r, ts') → C ts'
  clear : ∀ ts, C ts → C ts.clear
  set : ∀ ts batch now, C ts → C (ts.set batch now)

theorem cacheInvariant_true : CacheInvariant env n fun _ => True :=
  ⟨fun _ _ _ _ _ _ => trivial, fun _ _ => trivial, fun _ _ _ _ => trivial⟩

theorem roundInvariant_true : RoundInvariant env cfg n (fun _ => True) (fun _ => True) (fun _ => True) :=
  ⟨fun _ _ => trivial, fun _ _ _ => trivial, fun _ _ _ _ => trivial, fun _ _ _ => trivial, fun _ _ => trivial,
    fun _ _ _ _ => trivial, fun _ _ _ _ => trivial⟩

/-- How a round from the journal `j₀` ends: with `I`, or in a panic inside
the transaction with `O`. It returns that the batch was closed only when
the trusted node gave the batch asked for, with that flag, and returns a
cache with `C`. -/
def RoundEnds (env : Env ε) (n : ℕ) (I O : List Call → Prop) (C : TrustedStateManager → Prop)
    (j₀ : List Call) (r : Except (Exit ε) (Except (SyncError ε) Bool × TrustedStateManager)) (j : List Call) :
    Prop :=
  (I j ∨ r = .error .panic ∧ O j) ∧
    (∀ closed ts, r = .ok (.ok closed, ts) →
      ∃ b : RpcBatch, env.batchByNumber (j₀ ++ [.batchByNumber n]) = .ok (some b) ∧ b.number = n ∧
        b.closed = closed) ∧
    ∀ x ts, r = .ok (x, ts) → C ts

variable {I O : List Call → Prop} {C : TrustedStateManager → Prop} {j₀ j : List Call}

theorem roundEnds_error {err : SyncError ε} {ts : TrustedStateManager} (h : I j) (hts : C ts) :
    RoundEnds env n I O C j₀ (.ok (.error err, ts)) j :=
  ⟨.inl h, fun _ _ hr => (nomatch hr), fun _ _ hr => by cases hr; exact hts⟩

theorem roundEnds_panic (h : I j ∨ O j) : RoundEnds env n I O C j₀ (.error .panic) j :=
  ⟨h.imp id fun h => ⟨rfl, h⟩, fun _ _ hr => (nomatch hr), fun _ _ hr => (nomatch hr)⟩

/-- A round that rolls its transaction back and returns the error ends
outside the transaction. -/
theorem roundEnds_rollback {I₀ : List Call → Prop} (h : RoundInvariant env cfg n I₀ I O) {err : SyncError ε}
    {ts : TrustedStateManager} (hO : O j) (hts : C ts) :
    RoundEnds env n I O C j₀ ((rollback env err >>= fun err => pure (.error err, ts) : Run ε (Except _ Bool × _)) j).1
      ((rollback env err >>= fun err => pure (.error err, ts) : Run ε (Except _ Bool × _)) j).2 := by
  obtain ⟨err', hr⟩ := rollback_bind err j
  rw [hr]
  exact roundEnds_error (h.close _ _ hO (.inr rfl)) hts

/-- **One round of the loop**, for every property of the journal that its
calls keep and every property of the cache that its updates keep: the
trusted node's batch, then a transaction that the round always closes
unless the processing panics. -/
theorem syncTrustedBatch_round {I₀ : List Call → Prop} (h : RoundInvariant env cfg n I₀ I O)
    (hC : CacheInvariant env n C) (ts : TrustedStateManager) (hts : C ts) (hj₀ : I₀ j₀) :
    RoundEnds env n I O C j₀ (syncTrustedBatch env cfg ts n j₀).1 (syncTrustedBatch env cfg ts n j₀).2 := by
  unfold syncTrustedBatch
  rw [call_bind_apply]
  have hI₁ := h.batchByNumber j₀ hj₀
  cases hb : env.batchByNumber (j₀ ++ [.batchByNumber n]) with
  | error err => exact roundEnds_error hI₁ hts
  | ok batchToSync =>
  dsimp only
  cases hs : (sanityCheckBatchReturnedByTrusted batchToSync n : Except (SyncError ε) RpcBatch) with
  | error err => exact roundEnds_error hI₁ hts
  | ok b =>
  -- the batch asked for: a transaction
  obtain ⟨rfl, hnumber⟩ := sanityCheckBatchReturnedByTrusted_eq_ok.mp hs
  dsimp only
  rw [call_bind_apply]
  cases hbegin : env.beginStateTransaction (j₀ ++ [.batchByNumber n] ++ [.beginStateTransaction]) with
  | error err => exact roundEnds_error (h.begin_error _ _ hI₁ hbegin) hts
  | ok _ =>
  have hO₂ := h.begin_ok _ hI₁ hbegin
  dsimp only
  -- the current and previous batch, from the cache or the state
  obtain ⟨new, hj₃, hnew, hq⟩ :=
    getStateForWorkingBatch_effects ts n (j₀ ++ [.batchByNumber n] ++ [.beginStateTransaction])
  have hO₃ := Effects.append (fun j c ⟨k, hk⟩ hj => hk ▸ h.getBatchByNumber j k hj) new _ hnew hO₂
  have hC₃ := hC.getStateForWorkingBatch ts (j₀ ++ [.batchByNumber n] ++ [.beginStateTransaction])
  rw [bind_apply]
  revert hj₃ hq hC₃
  cases ts.getStateForWorkingBatch env n (j₀ ++ [.batchByNumber n] ++ [.beginStateTransaction]) with
  | mk r j₃ =>
  rintro (rfl : j₃ = _) hq hC₃
  cases r with
  | error e => exact hq.elim
  | ok r =>
  obtain ⟨previousStatus, ts⟩ := r
  have hts₃ := hC₃ _ _ hts rfl
  dsimp only
  cases previousStatus with
  | error err => exact roundEnds_rollback h hO₃ hts₃
  | ok previousStatus =>
  -- the processing, inside the transaction
  have hp := catchError_triple (h.process b previousStatus) _ hO₃
  dsimp only
  rw [bind_apply]
  revert hp
  cases catchError (processTrustedBatch env cfg (some b) previousStatus)
      (j₀ ++ [.batchByNumber n] ++ [.beginStateTransaction] ++ new) with
  | mk r j₄ =>
  rintro ⟨hO₄, hexit⟩
  cases r with
  | error e =>
    cases (hexit : e = .panic)
    exact roundEnds_panic (.inr hO₄)
  | ok r =>
  cases r with
  | error err => exact roundEnds_rollback h hO₄ (hC.clear _ hts₃)
  | ok newTrustedState =>
  -- the flush id, then the commit
  dsimp only
  rw [call_bind_apply]
  have hO₅ := h.checkFlushID _ hO₄
  cases env.checkFlushID (j₄ ++ [.checkFlushID]) with
  | error err => exact roundEnds_rollback h hO₅ (hC.clear _ hts₃)
  | ok _ =>
  dsimp only
  rw [call_bind_apply]
  have hI₆ := h.close _ _ hO₅ (.inl rfl)
  cases env.commit (j₄ ++ [.checkFlushID] ++ [.commit]) with
  | error err => exact roundEnds_error hI₆ (hC.clear _ hts₃)
  | ok _ =>
  dsimp only
  -- the processing returns the current and previous batch for the cache
  cases newTrustedState.lastTrustedBatches[0]? with
  | none => exact roundEnds_panic (.inl hI₆)
  | some current =>
  cases newTrustedState.lastTrustedBatches[1]? with
  | none => exact roundEnds_panic (.inl hI₆)
  | some previous =>
  dsimp only
  rw [read_bind_apply, read_bind_apply]
  refine ⟨.inl hI₆, fun closed _ hr => ⟨b, hb, hnumber, by cases hr; rfl⟩, fun _ _ hr => ?_⟩
  cases hr
  exact hC.set _ _ _ (hC.set _ _ _ hts₃)

/-- How a sync ends: with `I`, or in a panic inside a transaction with
`O`; and with a cache with `C` when it returns. -/
def SyncEnds (I O : List Call → Prop) (C : TrustedStateManager → Prop)
    (r : Except (Exit ε) (Except (SyncError ε) Unit × TrustedStateManager)) (j : List Call) : Prop :=
  (I j ∨ r = .error .panic ∧ O j) ∧ ∀ x ts, r = .ok (x, ts) → C ts

theorem syncEnds_ok {x : Except (SyncError ε) Unit} {ts : TrustedStateManager} (h : I j) (hts : C ts) :
    SyncEnds I O C (.ok (x, ts)) j :=
  ⟨.inl h, fun _ _ hr => by cases hr; exact hts⟩

/-- **The loop**, for a property of the journal and one of the cache that
every round keeps: they hold after the run, unless a round panics inside
its transaction. -/
theorem syncTrustedBatchesLoop_triple (h : ∀ n, RoundInvariant env cfg n I I O) (hC : ∀ n, CacheInvariant env n C)
    (lastTrustedStateBatchNumber fuel batchNumberToSync : ℕ) (ts : TrustedStateManager) (hts : C ts) :
    Triple I (syncTrustedBatchesLoop env cfg lastTrustedStateBatchNumber fuel batchNumberToSync ts)
      (SyncEnds I O C) := by
  -- on the fuel; every round starts from `I` and a cache with `C`
  induction fuel generalizing batchNumberToSync ts with
  | zero => exact fun _ hj => syncEnds_ok hj hts
  | succ fuel ih =>
    intro j hj
    unfold syncTrustedBatchesLoop
    by_cases hn : batchNumberToSync ≤ lastTrustedStateBatchNumber
    · rw [if_pos hn, bind_apply]
      have hround := syncTrustedBatch_round (h batchNumberToSync) (hC batchNumberToSync) ts hts hj
      revert hround
      cases syncTrustedBatch env cfg ts batchNumberToSync j with
      | mk r j' =>
      cases r with
      | error e =>
        -- the round's exit is the loop's
        rintro ⟨hI | ⟨he, hO⟩, -, -⟩
        · exact ⟨.inl hI, fun _ _ hr => (nomatch hr)⟩
        · cases he
          exact ⟨.inr ⟨rfl, hO⟩, fun _ _ hr => (nomatch hr)⟩
      | ok r =>
      rintro ⟨hround, -, hcache⟩
      have hI : I j' := hround.resolve_right fun ⟨he, _⟩ => nomatch he
      obtain ⟨r, ts'⟩ := r
      have hts' := hcache r ts' rfl
      cases r with
      | error err => exact syncEnds_ok hI hts'
      | ok closed =>
      dsimp only
      by_cases hstop : (!closed && batchNumberToSync + 1 ≤ lastTrustedStateBatchNumber) = true
      · rw [if_pos hstop]
        exact syncEnds_ok hI hts'
      · rw [if_neg hstop]
        exact ih (batchNumberToSync + 1) ts' hts' j' hI
    · rw [if_neg hn]
      exact syncEnds_ok hj hts

/-- **The sync**, for a property of the journal that every round and the
call for the trusted node's last batch keep, and one of the cache that
every round keeps. -/
theorem syncTrustedState_triple (h : ∀ n, RoundInvariant env cfg n I I O) (hC : ∀ n, CacheInvariant env n C)
    (hbatchNumber : ∀ j, I j → I (j ++ [.batchNumber])) (ts : TrustedStateManager) (hts : C ts)
    (latestSyncedBatch maximumBatchNumberToProcess : ℕ) :
    Triple I (syncTrustedState env cfg ts latestSyncedBatch maximumBatchNumberToProcess) (SyncEnds I O C) := by
  unfold syncTrustedState
  refine Triple.call_bind fun j hj => ?_
  rintro _ rfl
  have hI := hbatchNumber j hj
  cases env.batchNumber (j ++ [.batchNumber]) with
  | error err => exact syncEnds_ok hI hts
  | ok lastTrustedStateBatchNumberSeen =>
  dsimp only
  generalize (if latestSyncedBatch = 0 then 1 else latestSyncedBatch) = latestSyncedBatch
  split
  · exact syncEnds_ok hI hts
  · exact syncTrustedBatchesLoop_triple h hC _ _ _ ts hts _ hI

end Round

/-! ## Database transactions -/

/-- The calls made on the round's database transaction `dbTx`, its commit
and rollback included; the trusted node, the executor and `PendingFlushID`
take none. -/
def Call.OnDbTx : Call → Prop
  | .batchNumber | .batchByNumber _ | .exitRootsByGER _ | .beginStateTransaction | .processBatchV2 _
  | .pendingFlushID _ _ => False
  | _ => True

section Tx

variable (env : Env ε)

/-- Whether a transaction is open after the call `c`, answered at the end
of `j`: `BeginStateTransaction` opens one when it returns no error; a
commit or a rollback ends it, whatever it returns. -/
def txStep (txOpen : Bool) (j : List Call) : Call → Bool
  | .beginStateTransaction =>
    match env.beginStateTransaction j with
    | .ok () => true
    | .error _ => txOpen
  | .commit | .rollback => false
  | _ => txOpen

/-- Whether a transaction is open after the journal. -/
def txOpen (j : List Call) : Bool := foldCalls (txStep env) false j

/-- The journal `j` used its transactions right, and leaves one open when
`txOpen`: every call on `dbTx` was made inside a transaction, and every
begin outside one. -/
def TxState (txOpen : Bool) (j : List Call) : Prop :=
  EveryCall (fun pre c => (c.OnDbTx → L2Sync.txOpen env pre = true) ∧
    (c = .beginStateTransaction → L2Sync.txOpen env pre = false)) j ∧
    L2Sync.txOpen env j = txOpen

variable {env} {j : List Call} {c : Call}

theorem txState_nil : TxState env false [] := ⟨everyCall_nil _, rfl⟩

/-- A call that neither begins nor ends a transaction keeps its state,
given that it is made inside one when it is on `dbTx`. -/
theorem TxState.append {b : Bool} (h : TxState env b j) (hdb : c.OnDbTx → b = true)
    (hbegin : c ≠ .beginStateTransaction) (hcommit : c ≠ .commit) (hrollback : c ≠ .rollback) :
    TxState env b (j ++ [c]) := by
  obtain ⟨hevery, hopen⟩ := h
  have hstep : txStep env b (j ++ [c]) c = b := by
    cases c <;> first | rfl | exact absurd rfl ‹_›
  refine ⟨everyCall_append_singleton.mpr ⟨hevery, fun hc => hopen ▸ hdb hc, fun hc => absurd hc hbegin⟩, ?_⟩
  rw [txOpen, foldCalls_append_singleton, ← txOpen, hopen, hstep]

/-- A commit or a rollback inside a transaction ends it. -/
theorem TxState.close (h : TxState env true j) (hc : c = .commit ∨ c = .rollback) :
    TxState env false (j ++ [c]) := by
  obtain ⟨hevery, hopen⟩ := h
  refine ⟨everyCall_append_singleton.mpr ⟨hevery, fun _ => hopen, ?_⟩, ?_⟩
  · rintro rfl
    simp at hc
  · rw [txOpen, foldCalls_append_singleton]
    rcases hc with rfl | rfl <;> rfl

/-- A begin outside a transaction opens one when it returns no error. -/
theorem TxState.begin (h : TxState env false j) :
    TxState env (env.beginStateTransaction (j ++ [.beginStateTransaction])).isOk (j ++ [.beginStateTransaction]) := by
  obtain ⟨hevery, hopen⟩ := h
  refine ⟨everyCall_append_singleton.mpr ⟨hevery, fun hc => hc.elim, fun _ => hopen⟩, ?_⟩
  rw [txOpen, foldCalls_append_singleton, ← txOpen, hopen]
  simp only [txStep]
  cases env.beginStateTransaction (j ++ [.beginStateTransaction]) <;> rfl

theorem Call.Processing.ne_begin (h : c.Processing) : c ≠ .beginStateTransaction := by
  rintro rfl
  exact h

theorem Call.Processing.ne_commit (h : c.Processing) : c ≠ .commit := by
  rintro rfl
  exact h

theorem Call.Processing.ne_rollback (h : c.Processing) : c ≠ .rollback := by
  rintro rfl
  exact h

/-- Every round keeps the transactions: it begins one outside a
transaction, makes its calls on `dbTx` inside it, and ends it. -/
theorem txState_roundInvariant (cfg : Config) (n : ℕ) :
    RoundInvariant env cfg n (TxState env false) (TxState env false) (TxState env true) where
  batchByNumber _ h := h.append (fun h => h.elim) (by simp) (by simp) (by simp)
  begin_ok j h hok := by
    have := h.begin
    rwa [hok] at this
  begin_error j e h herr := by
    have := h.begin
    rwa [herr] at this
  getBatchByNumber _ _ h := h.append (fun _ => rfl) (by simp) (by simp) (by simp)
  checkFlushID _ h := h.append (fun _ => rfl) (by simp) (by simp) (by simp)
  process trustedBatch status := fun j hj =>
    ((processTrustedBatch_effects cfg trustedBatch status).triple
      (fun _ _ hc h => h.append (fun _ => rfl) hc.ne_begin hc.ne_commit hc.ne_rollback) j hj).1
  close _ _ h hc := h.close hc

end Tx

/-! ## The batches asked for -/

section Requests

variable (env : Env ε)

/-- The request of a call: the batch the trusted node was asked for, with
its answer. -/
def requestStep (rs : List (ℕ × Except ε (Option RpcBatch))) (j : List Call) :
    Call → List (ℕ × Except ε (Option RpcBatch))
  | .batchByNumber n => rs ++ [(n, env.batchByNumber j)]
  | _ => rs

/-- The batches asked of the trusted node in the journal, in order, each
with its answer. -/
def requested (j : List Call) : List (ℕ × Except ε (Option RpcBatch)) :=
  foldCalls (requestStep env) [] j

/-- The trusted node answered the request with its batch, closed or
open. -/
def Answered (closed : Bool) (p : ℕ × Except ε (Option RpcBatch)) : Prop :=
  ∃ b : RpcBatch, p.2 = .ok (some b) ∧ b.number = p.1 ∧ b.closed = closed

variable {env}

@[simp] theorem requested_append_batchByNumber (j : List Call) (n : ℕ) :
    requested env (j ++ [.batchByNumber n]) =
      requested env j ++ [(n, env.batchByNumber (j ++ [.batchByNumber n]))] := by
  rw [requested, foldCalls_append_singleton]
  rfl

theorem requested_append (j : List Call) {c : Call} (hc : ∀ n, c ≠ .batchByNumber n) :
    requested env (j ++ [c]) = requested env j := by
  rw [requested, foldCalls_append_singleton]
  cases c <;> first | rfl | exact absurd rfl (hc _)

theorem Call.Processing.ne_batchByNumber {c : Call} (h : c.Processing) (n : ℕ) : c ≠ .batchByNumber n := by
  rintro rfl
  exact h

/-- The round of the batch `n` from the journal `j₀` asks for that batch
and no other. -/
theorem requested_roundInvariant (cfg : Config) (n : ℕ) (j₀ : List Call) :
    RoundInvariant env cfg n (· = j₀)
      (fun j => requested env j = requested env j₀ ++ [(n, env.batchByNumber (j₀ ++ [.batchByNumber n]))])
      (fun j => requested env j = requested env j₀ ++ [(n, env.batchByNumber (j₀ ++ [.batchByNumber n]))]) where
  batchByNumber := by
    rintro _ rfl
    exact requested_append_batchByNumber _ _
  begin_ok j h _ := (requested_append j (by simp)).trans h
  begin_error j _ h _ := (requested_append j (by simp)).trans h
  getBatchByNumber j _ h := (requested_append j (by simp)).trans h
  checkFlushID j h := (requested_append j (by simp)).trans h
  process trustedBatch status := fun j hj =>
    ((processTrustedBatch_effects cfg trustedBatch status).triple
      (fun j _ hc h => (requested_append j hc.ne_batchByNumber).trans h) j hj).1
  close j _ h hc := (requested_append j (by rcases hc with rfl | rfl <;> simp)).trans h

/-- What a sync from the batch `start` asked the trusted node for, with
`last` the batch to sync up to: consecutive batches from `start`, none
past `last`, each but the last one closed; and, when the run returns no
error, every batch up to `last` or up to one still open. -/
structure Requests (last start : ℕ) (rs : List (ℕ × Except ε (Option RpcBatch)))
    (r : Except (Exit ε) (Except (SyncError ε) Unit × TrustedStateManager)) : Prop where
  consecutive : rs.map Prod.fst = List.range' start rs.length
  le_last : ∀ p ∈ rs, p.1 ≤ last
  closed : ∀ p ∈ rs.dropLast, Answered true p
  complete : ∀ ts, r = .ok (.ok (), ts) → last + 1 ≤ start + rs.length ∨ ∃ p ∈ rs.getLast?, Answered false p

variable {last start : ℕ} {r : Except (Exit ε) (Except (SyncError ε) Unit × TrustedStateManager)}

/-- Nothing asked: the first batch is past the last. -/
theorem Requests.nil (h : last < start) : Requests last start ([] : List (ℕ × Except ε (Option RpcBatch))) r :=
  ⟨rfl, fun _ h => (nomatch h), fun _ h => (nomatch h), fun _ _ => .inl (by simpa using h)⟩

/-- One batch asked, and the run ends: with no error only at an open
batch. -/
theorem Requests.single {p : ℕ × Except ε (Option RpcBatch)} (hp : p.1 = start) (hle : start ≤ last)
    (hcomplete : ∀ ts, r = .ok (.ok (), ts) → Answered false p) : Requests last start [p] r where
  consecutive := by simp [hp]
  le_last _ hq := by
    rw [List.mem_singleton.mp hq, hp]
    exact hle
  closed _ hq := nomatch hq
  complete ts hr := .inr ⟨p, rfl, hcomplete ts hr⟩

/-- One batch asked, then the rest from the next one: the batch was
closed when the loop could have stopped at it. -/
theorem Requests.cons {p : ℕ × Except ε (Option RpcBatch)} {rs : List (ℕ × Except ε (Option RpcBatch))}
    (hp : p.1 = start) (hle : start ≤ last) (hclosed : start + 1 ≤ last → Answered true p)
    (h : Requests last (start + 1) rs r) : Requests last start (p :: rs) r where
  consecutive := by rw [List.map_cons, h.consecutive, hp, List.length_cons, List.range'_succ]
  le_last q hq := by
    rcases List.mem_cons.mp hq with rfl | hq
    · exact hp ▸ hle
    · exact h.le_last q hq
  closed q hq := by
    rcases rs with _ | ⟨p', rs⟩
    · exact nomatch hq
    rw [List.dropLast_cons_of_ne_nil (List.cons_ne_nil _ _)] at hq
    rcases List.mem_cons.mp hq with rfl | hq
    · -- the next batch was asked for, so it is at most the last
      have hnext := h.le_last p' List.mem_cons_self
      have hfirst : p'.1 = start + 1 := by
        have hcons := h.consecutive
        rw [List.map_cons, List.length_cons, List.range'_succ] at hcons
        exact (List.cons.inj hcons).1
      exact hclosed (hfirst ▸ hnext)
    · exact h.closed q hq
  complete ts hr := by
    rcases h.complete ts hr with hlen | ⟨q, hq, hopen⟩
    · exact .inl (by simp only [List.length_cons]; omega)
    · rcases rs with _ | ⟨p', rs⟩
      · exact nomatch hq
      exact .inr ⟨q, by rwa [List.getLast?_cons_cons], hopen⟩

/-- **The loop's requests**, with enough rounds to reach the last batch. -/
theorem syncTrustedBatchesLoop_requested (cfg : Config) (last fuel n : ℕ) (ts : TrustedStateManager)
    (j : List Call) (hfuel : last + 1 ≤ n + fuel) :
    ∃ rs, requested env (syncTrustedBatchesLoop env cfg last fuel n ts j).2 = requested env j ++ rs ∧
      Requests last n rs (syncTrustedBatchesLoop env cfg last fuel n ts j).1 := by
  -- on the fuel; each round adds the request of its batch
  induction fuel generalizing n ts j with
  | zero => exact ⟨[], (List.append_nil _).symm, .nil (by omega)⟩
  | succ fuel ih =>
    unfold syncTrustedBatchesLoop
    by_cases hn : n ≤ last
    · rw [if_pos hn, bind_apply]
      have hround := syncTrustedBatch_round (requested_roundInvariant cfg n j : RoundInvariant env _ _ _ _ _)
        cacheInvariant_true ts trivial rfl
      revert hround
      cases syncTrustedBatch env cfg ts n j with
      | mk r j' =>
      rintro ⟨hreq, hanswer, -⟩
      have hreq' := hreq.elim id And.right
      cases r with
      | error e => exact ⟨_, hreq', .single rfl hn fun _ h => nomatch h⟩
      | ok r =>
      obtain ⟨r, ts'⟩ := r
      cases r with
      | error err => exact ⟨_, hreq', .single rfl hn fun _ h => nomatch h⟩
      | ok closed =>
      have hp := hanswer closed ts' rfl
      dsimp only
      by_cases hstop : (!closed && n + 1 ≤ last) = true
      · -- stopped at an open batch
        rw [if_pos hstop]
        have hopen : closed = false := by
          simp only [Bool.and_eq_true, Bool.not_eq_true', decide_eq_true_eq] at hstop
          exact hstop.1
        exact ⟨_, hreq', .single rfl hn fun _ _ => hopen ▸ hp⟩
      · rw [if_neg hstop]
        obtain ⟨rs, hrs, hreqs⟩ := ih (n + 1) ts' j' (by omega)
        refine ⟨_ :: rs, by rw [hrs, hreq', List.append_assoc, List.singleton_append], .cons rfl hn ?_ hreqs⟩
        intro hnext
        have hclosed : closed = true := by simpa [hnext] using hstop
        exact hclosed ▸ hp
    · rw [if_neg hn]
      exact ⟨[], (List.append_nil _).symm, .nil (by omega)⟩

end Requests

/-! ## Whole syncs -/

section Sync

variable {env : Env ε} (cfg : Config) (ts : TrustedStateManager)

theorem isSyncrhonizedTrustedState_eq_true {lastTrustedStateBatchNumber latestSyncedBatch firstBatchNumberToSync : ℕ} :
    isSyncrhonizedTrustedState lastTrustedStateBatchNumber latestSyncedBatch firstBatchNumberToSync = true ↔
      lastTrustedStateBatchNumber < max latestSyncedBatch firstBatchNumberToSync := by
  unfold isSyncrhonizedTrustedState
  split <;> simp_all

/-- The latest synced batch `0` is read as `1`, which starts the sync at
the same batch. -/
theorem max_latestSyncedBatch (latestSyncedBatch : ℕ) :
    max (if latestSyncedBatch = 0 then 1 else latestSyncedBatch) firstTrustedBatchNumber =
      max latestSyncedBatch firstTrustedBatchNumber := by
  split <;> simp_all [firstTrustedBatchNumber]

/-- **The batches synced.** A sync asks the trusted node for its last
batch, and then, when that answer is `last`, for consecutive batches from
the latest synced one (never before `firstTrustedBatchNumber`), none past
`last` or the maximum to process, each but the last one closed. When it
returns no error, it asked for every batch up to that bound, or stopped at
a batch the trusted node still had open. -/
theorem syncTrustedState_requested (latestSyncedBatch maximumBatchNumberToProcess : ℕ) (j : List Call) :
    ∃ rs, requested env (syncTrustedState env cfg ts latestSyncedBatch maximumBatchNumberToProcess j).2 =
        requested env j ++ rs ∧
      (∀ e, env.batchNumber (j ++ [.batchNumber]) = .error e → rs = []) ∧
      ∀ last, env.batchNumber (j ++ [.batchNumber]) = .ok last →
        Requests (min last maximumBatchNumberToProcess) (max latestSyncedBatch firstTrustedBatchNumber) rs
          (syncTrustedState env cfg ts latestSyncedBatch maximumBatchNumberToProcess j).1 := by
  unfold syncTrustedState
  rw [call_bind_apply]
  have hreq : requested env (j ++ [.batchNumber]) = requested env j := requested_append j (by simp)
  have hstart := max_latestSyncedBatch latestSyncedBatch
  cases hlast : env.batchNumber (j ++ [.batchNumber]) with
  | error err => exact ⟨[], by simpa using hreq, fun _ _ => rfl, fun _ h => nomatch h⟩
  | ok last =>
  suffices ∃ rs, _ = requested env j ++ rs ∧ Requests (min last maximumBatchNumberToProcess)
      (max latestSyncedBatch firstTrustedBatchNumber) rs _ by
    obtain ⟨rs, hrs, hreqs⟩ := this
    refine ⟨rs, hrs, fun _ h => (nomatch h), ?_⟩
    intro _ h
    cases h
    exact hreqs
  dsimp only
  generalize (if latestSyncedBatch = 0 then 1 else latestSyncedBatch) = latestSyncedBatch' at hstart ⊢
  by_cases hsync : isSyncrhonizedTrustedState (min last maximumBatchNumberToProcess) latestSyncedBatch'
    firstTrustedBatchNumber = true
  · -- nothing to sync: the last batch is before the first to sync
    rw [if_pos hsync]
    exact ⟨[], by simpa using hreq, .nil (hstart ▸ isSyncrhonizedTrustedState_eq_true.mp hsync)⟩
  · rw [if_neg hsync]
    unfold syncTrustedBatchesToFrom
    -- the loop has a round for each batch up to the last
    obtain ⟨rs, hrs, hreqs⟩ := syncTrustedBatchesLoop_requested cfg (min last maximumBatchNumberToProcess)
      (min last maximumBatchNumberToProcess + 1 - max latestSyncedBatch' firstTrustedBatchNumber)
      (max latestSyncedBatch' firstTrustedBatchNumber) ts (j ++ [.batchNumber]) (by omega)
    exact ⟨rs, hrs.trans (by rw [hreq]), hstart ▸ hreqs⟩

/-- **Transactions.** From a journal that used its transactions right and
left none open, a sync makes every call on `dbTx` inside a transaction and
begins each one outside a transaction; it leaves none open unless the
processing of a batch panics. -/
theorem syncTrustedState_txState (latestSyncedBatch maximumBatchNumberToProcess : ℕ) {j : List Call}
    (hj : TxState env false j) :
    TxState env false (syncTrustedState env cfg ts latestSyncedBatch maximumBatchNumberToProcess j).2 ∨
      (syncTrustedState env cfg ts latestSyncedBatch maximumBatchNumberToProcess j).1 = .error .panic ∧
        TxState env true (syncTrustedState env cfg ts latestSyncedBatch maximumBatchNumberToProcess j).2 :=
  (syncTrustedState_triple (fun n => txState_roundInvariant cfg n) (fun _ => cacheInvariant_true)
    (fun _ h => h.append (fun h => h.elim) (by simp) (by simp) (by simp)) ts trivial _ _ j hj).1

/-- The trusted batch `2`, open and empty, with the state root `5`. -/
def openTrustedBatch : RpcBatch :=
  { number := 2, forcedBatchNumber := none, coinbase := 0, stateRoot := 5, globalExitRoot := 0,
    localExitRoot := 0, accInputHash := 0, timestamp := 0, closed := false, blocks := [], batchL2Data := [],
    batchL2Data_length_lt := Nat.two_pow_pos 63 }

/-- The state's batch `k`, open and empty, with the state root `k`. -/
def wipStateBatch (k : ℕ) : Batch :=
  { batchNumber := k, coinbase := 0, batchL2Data := [], stateRoot := k, localExitRoot := 0, accInputHash := 0,
    timestamp := 0, globalExitRoot := 0, forcedBatchNum := none, wip := true, batchL2Data_length_lt := Nat.two_pow_pos 63 }

/-- A trusted node whose last batch is `openTrustedBatch`, and a state
that holds every batch `k` as `wipStateBatch k`, with another state root
than the trusted one. Every call but the executor's succeeds, so a sync
resets the state from batch `1` on and reprocesses batch `2` as an empty
batch. -/
def resyncingNode : Env Unit where
  batchNumber _ := .ok 2
  batchByNumber _ := .ok (some openTrustedBatch)
  exitRootsByGER _ := .ok none
  beginStateTransaction _ := .ok ()
  getBatchByNumber j :=
    match j.getLast? with
    | some (.getBatchByNumber k) => .ok (wipStateBatch k)
    | _ => .error none
  getExitRootByGlobalExitRoot _ := .ok ()
  getLastBlock _ := .ok 0
  openBatch _ := .ok ()
  getL1InfoTreeDataFromBatchL2Data _ := .ok ([], 0)
  processBatchV2 _ := .error ()
  storeL2Block _ := .ok ()
  updateWIPBatch _ := .ok ()
  closeBatch _ := .ok ()
  getLastVirtualBatchNum _ := .ok 0
  resetTrustedState _ := .ok ()
  getLastL2BlockByBatchNumber _ := .ok none
  checkFlushID _ := .ok ()
  commit _ := .ok ()
  rollback _ := .ok ()
  getForkIDByBatchNumber _ := State.forkIdElderberry
  getForkIDInMemory _ := none
  now _ := 0
  hashByteArray _ := 0
  decodeBytes _ := none

/-- The configuration of `config/default.go`. -/
def defaultConfig : Config :=
  { acceptEmptyClosedBatches := false, reprocessFullBatchOnClose := false, checkLastL2BlockHashOnCloseBatch := true }

/-- A cache that holds the state's batch `1`. -/
def cachedBatchOne : TrustedStateManager := ⟨(TtlCache.new 3600).set 1 (some (wipStateBatch 1)) 0⟩

/-- The sync of `resyncingNode` from the latest synced batch `0` syncs
batch `2` in one transaction, which it begins and commits. -/
theorem syncTrustedState_txState_resyncingNode :
    TxState resyncingNode false [] ∧
      (syncTrustedState resyncingNode defaultConfig cachedBatchOne 0 2 []).2 =
        [.batchNumber, .batchByNumber 2, .beginStateTransaction, .getBatchByNumber 2, .getLastVirtualBatchNum,
          .resetTrustedState 1, .openBatch ⟨2, 0, 0, 0, [], none⟩, .updateWIPBatch ⟨2, 5, 0, [], 0, 0⟩,
          .checkFlushID, .commit] ∧
      (TxState resyncingNode false (syncTrustedState resyncingNode defaultConfig cachedBatchOne 0 2 []).2 ∨
        (syncTrustedState resyncingNode defaultConfig cachedBatchOne 0 2 []).1 = .error .panic ∧
          TxState resyncingNode true (syncTrustedState resyncingNode defaultConfig cachedBatchOne 0 2 []).2) :=
  ⟨txState_nil, by decide, syncTrustedState_txState defaultConfig cachedBatchOne 0 2 txState_nil⟩

/-- Every round keeps the resets guarded: its own calls are no resets,
and the processing keeps them guarded. -/
theorem resetsGuarded_roundInvariant (n : ℕ) :
    RoundInvariant env cfg n (ResetsGuarded env) (ResetsGuarded env) (ResetsGuarded env) where
  batchByNumber _ h := h.append (by simp)
  begin_ok _ h _ := h.append (by simp)
  begin_error _ _ h _ := h.append (by simp)
  getBatchByNumber _ _ h := h.append (by simp)
  checkFlushID _ h := h.append (by simp)
  process trustedBatch status := processTrustedBatch_resetsGuarded cfg (some trustedBatch) status
  close _ _ h hc := h.append (by rcases hc with rfl | rfl <;> simp)

/-- **No virtual batch deleted.** Over a whole sync, every reset of the
trusted state comes right after the state answered
`GetLastVirtualBatchNum` with a batch at most the reset point, whatever
the trusted node, the state and the executor answer. -/
theorem syncTrustedState_resetsGuarded (latestSyncedBatch maximumBatchNumberToProcess : ℕ) {j : List Call}
    (hj : ResetsGuarded env j) :
    ResetsGuarded env (syncTrustedState env cfg ts latestSyncedBatch maximumBatchNumberToProcess j).2 := by
  have hrun := syncTrustedState_triple (fun n => resetsGuarded_roundInvariant cfg n) (fun _ => cacheInvariant_true)
    (fun _ h => h.append (by simp)) ts trivial latestSyncedBatch maximumBatchNumberToProcess j hj
  exact hrun.1.elim id And.right

/-- The sync of `resyncingNode` resets the state from batch `1` on. -/
theorem syncTrustedState_resetsGuarded_resyncingNode :
    ResetsGuarded resyncingNode [] ∧
      .resetTrustedState 1 ∈ (syncTrustedState resyncingNode defaultConfig cachedBatchOne 0 2 []).2 ∧
      ResetsGuarded resyncingNode (syncTrustedState resyncingNode defaultConfig cachedBatchOne 0 2 []).2 :=
  ⟨everyCall_nil _, by decide, syncTrustedState_resetsGuarded defaultConfig cachedBatchOne 0 2 (everyCall_nil _)⟩

end Sync

/-! ## The cache -/

section Cache

variable {env : Env ε}

/-- The state answers `GetBatchByNumber` with the batch of the number
asked. -/
def Env.BatchesByNumber (env : Env ε) : Prop :=
  ∀ j k b, env.getBatchByNumber (j ++ [.getBatchByNumber k]) = .ok b → b.batchNumber = k

/-- The cache holds under a number only the batch of that number. -/
def TrustedStateManager.Coherent (ts : TrustedStateManager) : Prop :=
  ts.cache.AllValues fun k v => ∀ b, v = some b → b.batchNumber = k

theorem TrustedStateManager.Coherent.set {ts : TrustedStateManager} (h : ts.Coherent) (resultBatch : Option Batch)
    (now : ℕ) : (ts.set resultBatch now).Coherent := by
  cases resultBatch with
  | none => exact h
  | some resultBatch =>
    refine TtlCache.AllValues.set h ?_ now
    rintro b ⟨⟩
    rfl

theorem TrustedStateManager.coherent_clear (ts : TrustedStateManager) : ts.clear.Coherent :=
  TtlCache.allValues_clear _

variable (hstate : env.BatchesByNumber)
include hstate

/-- A batch that the cache does not give comes from the state, under its
number. -/
theorem loadBatch_coherent {ts : TrustedStateManager} (hts : ts.Coherent) {cached : Option Batch} {n : ℕ}
    (hcached : ∀ b, cached = some b → b.batchNumber = n) :
    Effects Call.IsGetBatch (fun res => ∀ r ts', res = .ok (r, ts') → ts'.Coherent ∧
        ∀ b, r = .ok (some b) → b.batchNumber = n)
      (ts.loadBatch env cached n) := by
  unfold TrustedStateManager.loadBatch
  cases cached with
  | some batch =>
    refine Effects.pure fun _ _ h => ?_
    cases h
    exact ⟨hts, fun b hb => hcached b (by cases hb; rfl)⟩
  | none =>
    refine Effects.call_bind_answer ⟨n, rfl⟩ fun j => ?_
    cases hb : env.getBatchByNumber (j ++ [.getBatchByNumber n]) with
    | error err =>
      cases err with
      | none =>
        -- not found: nil is cached
        refine Effects.read_bind fun now => Effects.pure fun _ _ h => ?_
        cases h
        exact ⟨TtlCache.AllValues.set hts (fun _ h => by cases h) now, fun _ h => by cases h⟩
      | some err =>
        refine Effects.pure fun _ _ h => ?_
        cases h
        exact ⟨hts, fun _ h => nomatch h⟩
    | ok batch =>
      have hbatch := hstate j n batch hb
      refine Effects.read_bind fun now => Effects.pure fun _ _ h => ?_
      cases h
      refine ⟨TtlCache.AllValues.set hts (fun b h => by cases h; exact hbatch) now, fun b h => ?_⟩
      cases h
      exact hbatch

/-- `GetStateForWorkingBatch` from a coherent cache keeps it coherent, and
returns the batch `n` and the one before it. -/
theorem getStateForWorkingBatch_coherent {ts : TrustedStateManager} (hts : ts.Coherent) (n : ℕ) :
    Effects Call.IsGetBatch (fun res => ∀ r ts', res = .ok (r, ts') → ts'.Coherent ∧
        ∀ status : TrustedState, r = .ok status →
          (∀ b, status.getCurrentBatch = some b → b.batchNumber = n) ∧
            ∀ b, status.getPreviousBatch = some b → b.batchNumber = n - 1)
      (ts.getStateForWorkingBatch env n) := by
  unfold TrustedStateManager.getStateForWorkingBatch
  refine Effects.read_bind fun now₁ => Effects.read_bind fun now₂ => Effects.read_bind fun now₃ => ?_
  -- the cache without its outdated entries, and the two batches read from it
  have hc₁ := TtlCache.AllValues.deleteOutdated hts now₁
  have hc₂ := hc₁.getOrDefault n none now₂
  have hcurrent : ∀ b, ((ts.cache.deleteOutdated now₁).getOrDefault n none now₂).1 = some b → b.batchNumber = n :=
    hc₁.getOrDefault_fst (fun _ h => by cases h) now₂
  have hprevious : ∀ b, (((ts.cache.deleteOutdated now₁).getOrDefault n none now₂).2.getOrDefault (n - 1) none
      now₃).1 = some b → b.batchNumber = n - 1 :=
    hc₂.getOrDefault_fst (fun _ h => by cases h) now₃
  refine Effects.bind (loadBatch_coherent hstate (hc₂.getOrDefault (n - 1) none now₃) hcurrent)
    (fun r hr => ?_) fun _ _ _ _ h => nomatch h
  obtain ⟨currentBatch, ts₁⟩ := r
  obtain ⟨hts₁, hcurrentBatch⟩ := hr _ _ rfl
  cases currentBatch with
  | error err =>
    refine Effects.pure fun _ _ h => ?_
    cases h
    exact ⟨hts₁, fun _ h => nomatch h⟩
  | ok currentBatch =>
  refine Effects.bind (loadBatch_coherent hstate hts₁ hprevious) (fun r hr => ?_) fun _ _ _ _ h => nomatch h
  obtain ⟨previousBatch, ts₂⟩ := r
  obtain ⟨hts₂, hpreviousBatch⟩ := hr _ _ rfl
  cases previousBatch with
  | error err =>
    refine Effects.pure fun _ _ h => ?_
    cases h
    exact ⟨hts₂, fun _ h => nomatch h⟩
  | ok previousBatch =>
    refine Effects.pure fun _ _ h => ?_
    cases h
    refine ⟨hts₂, fun status h => ?_⟩
    cases h
    exact ⟨fun b hb => hcurrentBatch b (congrArg Except.ok hb), fun b hb => hpreviousBatch b (congrArg Except.ok hb)⟩

/-- Every round keeps the cache coherent. -/
theorem coherent_cacheInvariant (n : ℕ) : CacheInvariant env n TrustedStateManager.Coherent where
  getStateForWorkingBatch ts j r ts' hts h := by
    obtain ⟨_, _, _, hq⟩ := getStateForWorkingBatch_coherent hstate hts n j
    exact (hq r ts' h).1
  clear ts _ := ts.coherent_clear
  set _ batch now h := h.set batch now

/-- **The cache.** When the state answers `GetBatchByNumber` with the batch
of the number asked, a sync from a cache that holds only batches under
their own numbers returns such a cache; so every round of a later sync is
handed the batch it syncs and the one before it
(`getStateForWorkingBatch_coherent`). -/
theorem syncTrustedState_coherent (cfg : Config) {ts : TrustedStateManager} (hts : ts.Coherent)
    (latestSyncedBatch maximumBatchNumberToProcess : ℕ) (j : List Call) :
    ∀ r ts', (syncTrustedState env cfg ts latestSyncedBatch maximumBatchNumberToProcess j).1 = .ok (r, ts') →
      ts'.Coherent :=
  (syncTrustedState_triple (fun _ => roundInvariant_true) (coherent_cacheInvariant hstate) (fun _ _ => trivial) ts
    hts latestSyncedBatch maximumBatchNumberToProcess j trivial).2

end Cache

/-- The state of `resyncingNode` answers `GetBatchByNumber` with the batch
asked. -/
theorem resyncingNode_batchesByNumber : resyncingNode.BatchesByNumber := by
  intro j k b h
  simp only [resyncingNode, List.getLast?_append, List.getLast?_singleton, Option.some_or] at h
  cases h
  rfl

theorem cachedBatchOne_coherent : cachedBatchOne.Coherent :=
  TtlCache.AllValues.set (TtlCache.allValues_new 3600) (fun _ h => by cases h; rfl) 0

/-- The sync of `resyncingNode` ends with the batches `1` and `2` in the
cache, each under its number. -/
theorem syncTrustedState_coherent_resyncingNode :
    resyncingNode.BatchesByNumber ∧ cachedBatchOne.Coherent ∧
      (syncTrustedState resyncingNode defaultConfig cachedBatchOne 0 2 []).1.map
          (fun r => [1, 2].map fun k => (r.2.cache.data k).map fun item => item.value.map Batch.batchNumber) =
        .ok [some (some 1), some (some 2)] ∧
      ∀ r ts', (syncTrustedState resyncingNode defaultConfig cachedBatchOne 0 2 []).1 = .ok (r, ts') →
        ts'.Coherent :=
  ⟨resyncingNode_batchesByNumber, cachedBatchOne_coherent, rfl,
    syncTrustedState_coherent resyncingNode_batchesByNumber defaultConfig cachedBatchOne_coherent 0 2 []⟩

namespace SyncTrustedStateExecutorSelector

variable {env : Env ε}

theorem getExecutor_eq_some {latestSyncedBatch maximumBatchNumberToProcess maxBatchNumber : ℕ} :
    getExecutor env latestSyncedBatch maximumBatchNumberToProcess = some maxBatchNumber ↔
      env.getForkIDByBatchNumber (latestSyncedBatch + 1) ∈ supportedForks ∧
        ∃ fork, env.getForkIDInMemory (env.getForkIDByBatchNumber (latestSyncedBatch + 1)) = some fork ∧
          maxBatchNumber = min maximumBatchNumberToProcess fork.toBatchNumber := by
  unfold getExecutor
  by_cases hfork : env.getForkIDByBatchNumber (latestSyncedBatch + 1) ∈ supportedForks
  · rw [if_neg (not_not.mpr hfork)]
    cases env.getForkIDInMemory (env.getForkIDByBatchNumber (latestSyncedBatch + 1)) with
    | none => simp
    | some fork => simp [hfork, eq_comm]
  · rw [if_pos hfork]
    simp [hfork]

/-- **The fork's last batch.** Behind the selector, a sync asks the
trusted node only for batches up to the maximum to process and the last
batch of the fork of the batch after the latest synced one, and only when
that fork is one the synchronizer has the executor for. -/
theorem syncTrustedState_within_fork (cfg : Config) (ts : TrustedStateManager)
    (latestSyncedBatch maximumBatchNumberToProcess : ℕ) (j : List Call) :
    ∃ rs, requested env (syncTrustedState env cfg ts latestSyncedBatch maximumBatchNumberToProcess j).2 =
        requested env j ++ rs ∧
      ∀ p ∈ rs, env.getForkIDByBatchNumber (latestSyncedBatch + 1) ∈ supportedForks ∧
        ∃ fork, env.getForkIDInMemory (env.getForkIDByBatchNumber (latestSyncedBatch + 1)) = some fork ∧
          p.1 ≤ maximumBatchNumberToProcess ∧ p.1 ≤ fork.toBatchNumber := by
  unfold syncTrustedState
  cases hexec : getExecutor env latestSyncedBatch maximumBatchNumberToProcess with
  | none => exact ⟨[], (List.append_nil _).symm, fun _ h => nomatch h⟩
  | some maxBatchNumber =>
  obtain ⟨hsupported, fork, hfork, rfl⟩ := getExecutor_eq_some.mp hexec
  obtain ⟨rs, hrs, herror, hok⟩ := L2Sync.syncTrustedState_requested cfg ts latestSyncedBatch
    (min maximumBatchNumberToProcess fork.toBatchNumber) j
  refine ⟨rs, hrs, fun p hp => ⟨hsupported, fork, hfork, ?_⟩⟩
  -- the requests are bounded by the capped maximum once the last batch is known
  cases hlast : env.batchNumber (j ++ [.batchNumber]) with
  | error e => exact absurd hp (by simp [herror e hlast])
  | ok last =>
    have hle := (hok last hlast).le_last p hp
    omega

end SyncTrustedStateExecutorSelector

end L2Sync

end Synchronizer

end XLayerNode
