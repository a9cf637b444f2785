import XLayerNode.State.RoundTrip
/-!
# The records of a forced batch, as both decoders read them

An Etrog forced batch is a run of transaction records, and a batch V2 block
the same run behind a block header. `recordsFrom` reads such a run from a
position to the end of the data: the transactions with their percentages,
or nothing once a record is cut short, malformed, or does not decode.

Both loops refine it. `DecodeForcedBatchV2` returns exactly its
transactions when it is defined (`decodeForcedBatchV2_of_recordsFrom`) and
otherwise fails, or succeeds with no transactions at all: a last record
whose length bytes run past the data ends `DecodeTxs` with its still-nil
error (`recordsFrom_of_decodeForcedBatchV2`). `DecodeBatchV2`, inside a
block, adds them to it and closes it at the end of the data
(`decodeBatchV2Loop_of_recordsFrom`), and ends with that one block only
then (`recordsFrom_of_decodeBatchV2Loop`). Hence
`decodeForcedBatchV2_iff_decodeBatchV2`: the two decoders agree on a
forced batch and on the one block that carries it, save for that early
return.
-/

namespace XLayerNode

namespace State

open Outcome

section Decode

variable (decodeBytes : List UInt8 → Option (List (List UInt8)))

/-- What a record stands for: its transaction with its percentage, when
the rlp decoder reads its list and the fields make a transaction. -/
def TxRecord.decode (rec : TxRecord) : Option L2TxRaw := do
  let efficiencyPercentage ← rec.efficiencyPercentage
  let rlpFields ← decodeBytes rec.txInfo
  match rlpFieldsToLegacyTx rlpFields rec.vData rec.rData rec.sData with
  | .ok legacyTx => pure ⟨legacyTx, efficiencyPercentage⟩
  | .error _ => none

/-- **The records of a forced batch** from `pos` to the end of the data. -/
def recordsFrom (txsData : List UInt8) (pos : ℕ) : Option (List L2TxRaw) :=
  if pos < txsData.length then
    match _hrec : recordAt true txsData pos with
    | .record length rec => do
      let tx ← rec.decode decodeBytes
      let rest ← recordsFrom txsData (pos + length)
      pure (tx :: rest)
    | .truncated => none
    | .malformed => none
  else some []
termination_by txsData.length - pos
decreasing_by
  have := bounds_of_recordAt _hrec
  omega

end Decode

/-! ## What each decoder makes of one record -/

section Record

variable {decodeBytes : List UInt8 → Option (List (List UInt8))} {rec : TxRecord}

theorem decode_eq_some_iff {tx : L2TxRaw} :
    rec.decode decodeBytes = some tx ↔
      rec.efficiencyPercentage = some tx.efficiencyPercentage ∧ ∃ rlpFields,
        decodeBytes rec.txInfo = some rlpFields ∧
        rlpFieldsToLegacyTx rlpFields rec.vData rec.rData rec.sData = .ok tx.tx := by
  obtain ⟨t, p⟩ := tx
  unfold TxRecord.decode
  cases hep : rec.efficiencyPercentage with
  | none => simp
  | some e =>
    cases hb : decodeBytes rec.txInfo with
    | none => simp
    | some rlpFields =>
      cases hl : rlpFieldsToLegacyTx rlpFields rec.vData rec.rData rec.sData with
      | error e' => simp [hl]
      | ok legacyTx =>
        simp only [Option.bind_eq_bind, Option.bind_some, hl, Option.pure_def, Option.some.injEq,
          L2TxRaw.mk.injEq, Except.ok.injEq, exists_eq_left']
        exact and_comm

/-- A record that decodes is a record `DecodeTxs` accepts. -/
theorem txsStep_of_decode {tx : L2TxRaw} (h : rec.decode decodeBytes = some tx) (endPos : ℕ) :
    rec.txsStep decodeBytes endPos = .ok (.record endPos tx.tx (some tx.efficiencyPercentage)) := by
  obtain ⟨hep, rlpFields, hb, hl⟩ := decode_eq_some_iff.1 h
  simp only [TxRecord.txsStep, hb, hl, ofExcept_ok, ok_bind, pure_def, hep]

/-- A record with a percentage that does not decode is one `DecodeTxs`
rejects. -/
theorem txsStep_ne_ok_of_decode (hep : rec.efficiencyPercentage.isSome)
    (h : rec.decode decodeBytes = none) (endPos : ℕ) (step : TxsStep) :
    rec.txsStep decodeBytes endPos ≠ .ok step := by
  obtain ⟨e, he⟩ := Option.isSome_iff_exists.1 hep
  unfold TxRecord.txsStep
  cases hb : decodeBytes rec.txInfo with
  | none => simp [throw_def]
  | some rlpFields =>
    dsimp only
    cases hl : rlpFieldsToLegacyTx rlpFields rec.vData rec.rData rec.sData with
    | error e' => simp [ofExcept_error]
    | ok legacyTx =>
      -- the fields make a transaction, so the record decodes after all
      have : rec.decode decodeBytes = some ⟨legacyTx, e⟩ :=
        decode_eq_some_iff.2 ⟨he, rlpFields, hb, hl⟩
      rw [h] at this
      cases this

/-- A record that decodes is a record `decodeTxRLP` accepts. -/
theorem l2TxRaw_of_decode {tx : L2TxRaw} (h : rec.decode decodeBytes = some tx) (endPos : ℕ) :
    rec.l2TxRaw decodeBytes endPos = .ok (endPos, tx) := by
  obtain ⟨hep, rlpFields, hb, hl⟩ := decode_eq_some_iff.1 h
  unfold TxRecord.l2TxRaw
  rw [hep, Option.toList_some, index_of_lt (by simp), ok_bind, hb]
  dsimp only
  rw [hl, ofExcept_ok, ok_bind]
  rfl

/-- A record that does not decode is one `decodeTxRLP` rejects. -/
theorem l2TxRaw_ne_ok_of_decode (h : rec.decode decodeBytes = none) (endPos : ℕ)
    (r : ℕ × L2TxRaw) : rec.l2TxRaw decodeBytes endPos ≠ .ok r := by
  unfold TxRecord.l2TxRaw
  cases hep : rec.efficiencyPercentage with
  | none =>
    -- no percentage byte: the index panics
    rw [Option.toList_none, index_eq_panic.2 (Nat.le_refl 0), panic_bind]
    nofun
  | some e =>
    rw [Option.toList_some, index_of_lt (by simp), ok_bind]
    cases hb : decodeBytes rec.txInfo with
    | none => simp [throw_def]
    | some rlpFields =>
      dsimp only
      cases hl : rlpFieldsToLegacyTx rlpFields rec.vData rec.rData rec.sData with
      | error e' => simp [ofExcept_error]
      | ok legacyTx =>
        have : rec.decode decodeBytes = some ⟨legacyTx, e⟩ :=
          decode_eq_some_iff.2 ⟨hep, rlpFields, hb, hl⟩
        rw [h] at this
        cases this

end Record

/-! ## The run of records -/

section Run

variable {decodeBytes : List UInt8 → Option (List (List UInt8))} {txsData : List UInt8}

theorem recordsFrom_of_le {pos : ℕ} (hpos : txsData.length ≤ pos) :
    recordsFrom decodeBytes txsData pos = some [] := by
  rw [recordsFrom, if_neg (by omega)]

theorem recordsFrom_of_record {pos length : ℕ} {rec : TxRecord}
    (h : recordAt true txsData pos = .record length rec) :
    recordsFrom decodeBytes txsData pos =
      (rec.decode decodeBytes).bind fun tx =>
        (recordsFrom decodeBytes txsData (pos + length)).bind fun rest => some (tx :: rest) := by
  have hpos : pos < txsData.length := by
    have := bounds_of_recordAt h
    omega
  rw [recordsFrom, if_pos hpos]
  split <;> rename_i h' <;> rw [h] at h' <;> cases h'
  rfl

theorem recordsFrom_eq_none {pos : ℕ} (hpos : pos < txsData.length)
    (h : ∀ length rec, recordAt true txsData pos ≠ .record length rec) :
    recordsFrom decodeBytes txsData pos = none := by
  rw [recordsFrom, if_pos hpos]
  split
  · rename_i length rec h'
    exact absurd h' (h length rec)
  · rfl
  · rfl

/-- The run from a record: its transaction, then the run after it. -/
theorem recordsFrom_eq_some_iff {pos length : ℕ} {rec : TxRecord}
    (h : recordAt true txsData pos = .record length rec) {txs : List L2TxRaw} :
    recordsFrom decodeBytes txsData pos = some txs ↔
      ∃ tx rest, rec.decode decodeBytes = some tx ∧
        recordsFrom decodeBytes txsData (pos + length) = some rest ∧ txs = tx :: rest := by
  rw [recordsFrom_of_record h]
  simp only [Option.bind_eq_some_iff, Option.some.injEq]
  constructor
  · rintro ⟨tx, htx, rest, hrest, rfl⟩
    exact ⟨tx, rest, htx, hrest, rfl⟩
  · rintro ⟨tx, rest, htx, hrest, rfl⟩
    exact ⟨tx, htx, rest, hrest, rfl⟩

/-- A run that starts inside the data starts with a record. -/
theorem exists_record_of_recordsFrom {pos : ℕ} (hpos : pos < txsData.length) {txs : List L2TxRaw}
    (h : recordsFrom decodeBytes txsData pos = some txs) :
    ∃ length rec, recordAt true txsData pos = .record length rec := by
  cases hr : recordAt true txsData pos with
  | record length rec => exact ⟨length, rec, rfl⟩
  | truncated =>
    rw [recordsFrom_eq_none hpos (by simp [hr])] at h
    cases h
  | malformed =>
    rw [recordsFrom_eq_none hpos (by simp [hr])] at h
    cases h

/-- A run that starts inside the data holds a record. -/
theorem ne_nil_of_recordsFrom {pos : ℕ} (hpos : pos < txsData.length) {txs : List L2TxRaw}
    (h : recordsFrom decodeBytes txsData pos = some txs) : txs ≠ [] := by
  obtain ⟨length, rec, hr⟩ := exists_record_of_recordsFrom hpos h
  obtain ⟨tx, rest, -, -, rfl⟩ := (recordsFrom_eq_some_iff hr).1 h
  exact List.cons_ne_nil tx rest

end Run

/-! ## `DecodeTxs` refines the run -/

section Txs

variable {decodeBytes : List UInt8 → Option (List (List UInt8))} {txsData : List UInt8}
  {forkID : ℕ}

/-- **`DecodeTxs`' loop over a run of records**: from Dragonfruit on, it
collects the run's transactions and percentages. -/
theorem decodeTxsLoop_of_recordsFrom (hlen : txsData.length < 2 ^ 64)
    (hf : forkIdDragonfruit ≤ forkID) (pos : ℕ) (txs : List LegacyTx)
    (efficiencyPercentages : List UInt8) {run : List L2TxRaw}
    (h : recordsFrom decodeBytes txsData pos = some run) :
    decodeTxsLoop decodeBytes txsData forkID pos txs efficiencyPercentages =
      .ok (txs ++ run.map (·.tx), txsData,
        efficiencyPercentages ++ run.map (·.efficiencyPercentage)) := by
  by_cases hpos : pos < txsData.length
  · obtain ⟨length, rec, hr⟩ := exists_record_of_recordsFrom hpos h
    obtain ⟨tx, rest, htx, hrest, rfl⟩ := (recordsFrom_eq_some_iff hr).1 h
    have hlt := (bounds_of_recordAt hr).1
    rw [decodeTxsLoop_of_recordAt hlen (by rw [decide_eq_true hf]; exact hr)
      (txsStep_of_decode htx _),
      decodeTxsLoop_of_recordsFrom hlen hf (pos + length) _ _ hrest]
    simp
  · rw [recordsFrom_of_le (by omega), Option.some.injEq] at h
    subst h
    rw [decodeTxsLoop_of_le (by omega)]
    simp
termination_by txsData.length - pos
decreasing_by omega

/-- **What `DecodeTxs`' loop returns is the run of records**, from
Dragonfruit on, or no transactions at all: the early return on a truncated
header drops what was collected. -/
theorem recordsFrom_of_decodeTxsLoop (hlen : txsData.length < 2 ^ 64)
    (hf : forkIdDragonfruit ≤ forkID) (pos : ℕ) (txs : List LegacyTx)
    (efficiencyPercentages : List UInt8) {txs' : List LegacyTx} {rest eps' : List UInt8}
    (h : decodeTxsLoop decodeBytes txsData forkID pos txs efficiencyPercentages =
      .ok (txs', rest, eps')) :
    txs' = [] ∨ ∃ run, recordsFrom decodeBytes txsData pos = some run ∧
      txs' = txs ++ run.map (·.tx) ∧ eps' = efficiencyPercentages ++ run.map (·.efficiencyPercentage) := by
  by_cases hpos : pos < txsData.length
  · rw [decodeTxsLoop_of_lt hpos, decodeTxsStep_eq hlen hpos, decide_eq_true hf] at h
    cases hr : recordAt true txsData pos with
    | record length rec =>
      rw [hr] at h
      dsimp only at h
      cases hd : rec.decode decodeBytes with
      | some tx =>
        have hlt := (bounds_of_recordAt hr).1
        rw [txsStep_of_decode hd] at h
        dsimp only at h
        rcases recordsFrom_of_decodeTxsLoop hlen hf (pos + length) _ _ h with hnil | ⟨run, hrun, htxs, heps⟩
        · exact Or.inl hnil
        · refine Or.inr ⟨tx :: run, (recordsFrom_eq_some_iff hr).2 ⟨tx, run, hd, hrun, rfl⟩, ?_, ?_⟩
          · rw [htxs]
            simp
          · rw [heps]
            simp
      | none =>
        -- a record that does not decode ends the loop with an error
        cases hs : rec.txsStep decodeBytes (pos + length) with
        | ok step =>
          exact absurd hs (txsStep_ne_ok_of_decode (isSome_efficiencyPercentage_of_recordAt hr) hd _ step)
        | err e => rw [hs] at h; cases h
        | panic => rw [hs] at h; cases h
    | truncated =>
      rw [hr] at h
      dsimp only at h
      rw [ok.injEq, Prod.mk.injEq] at h
      exact Or.inl h.1.symm
    | malformed =>
      rw [hr] at h
      cases h
  · rw [decodeTxsLoop_of_le (by omega), ok.injEq, Prod.mk.injEq, Prod.mk.injEq] at h
    obtain ⟨htxs, -, heps⟩ := h
    exact Or.inr ⟨[], recordsFrom_of_le (by omega), by simp [htxs], by simp [heps]⟩
termination_by txsData.length - pos
decreasing_by omega

/-- `DecodeForcedBatchV2`'s pairing of transactions with percentages. -/
theorem mapM_zipIdx_index {f : LegacyTx × ℕ → Outcome CodecError L2TxRaw} {eps : List UInt8}
    (hf : ∀ tx i, f (tx, i) = do let p ← index eps i; pure ⟨tx, p⟩) :
    ∀ (txs : List LegacyTx) (k : ℕ), k + txs.length = eps.length →
      (txs.zipIdx k).mapM f = .ok (List.zipWith L2TxRaw.mk txs (eps.drop k))
  | [], k, _ => rfl
  | tx :: txs, k, h => by
    have hk : k < eps.length := by
      simp only [List.length_cons] at h
      omega
    rw [List.zipIdx_cons, List.mapM_cons, hf, index_of_lt hk, ok_bind, pure_def, ok_bind,
      mapM_zipIdx_index hf txs (k + 1) (by simp only [List.length_cons] at h; omega),
      List.drop_eq_getElem_cons hk, List.zipWith_cons_cons]
    rfl

/-- `DecodeForcedBatchV2` pairs what `DecodeTxs` returns. -/
theorem decodeForcedBatchV2_eq_ok_iff {batch : ForcedBatchRawV2} :
    decodeForcedBatchV2 decodeBytes txsData = .ok batch ↔
      ∃ txs rest eps, decodeTxs decodeBytes txsData forkIdEtrog = .ok (txs, rest, eps) ∧
        eps.length = txs.length ∧ batch = ⟨List.zipWith L2TxRaw.mk txs eps⟩ := by
  unfold decodeForcedBatchV2
  cases hd : decodeTxs decodeBytes txsData forkIdEtrog with
  | ok r =>
    obtain ⟨txs, rest, eps⟩ := r
    rw [ok_bind]
    dsimp only
    by_cases heq : eps.length = txs.length
    · rw [if_neg (not_not.2 heq), mapM_zipIdx_index (fun _ _ => rfl) txs 0 (by omega), ok_bind,
        List.drop_zero, pure_def, ok.injEq]
      constructor
      · rintro rfl
        exact ⟨txs, rest, eps, rfl, heq, rfl⟩
      · rintro ⟨txs', rest', eps', h', -, rfl⟩
        rw [ok.injEq, Prod.mk.injEq, Prod.mk.injEq] at h'
        rw [h'.1, h'.2.2]
    · rw [if_pos heq, throw_def]
      constructor
      · intro h
        cases h
      · rintro ⟨txs', rest', eps', h', heq', -⟩
        rw [ok.injEq, Prod.mk.injEq, Prod.mk.injEq] at h'
        rw [← h'.1, ← h'.2.2] at heq'
        exact absurd heq' heq
  | err e => simp
  | panic => simp

/-- Pairing a run's transactions with its percentages gives the run. -/
theorem zipWith_map_tx_efficiencyPercentage (run : List L2TxRaw) :
    List.zipWith L2TxRaw.mk (run.map (·.tx)) (run.map (·.efficiencyPercentage)) = run := by
  rw [List.zipWith_map, List.zipWith_self]
  simp

/-- **`DecodeForcedBatchV2` returns the run of records** when it is
defined. -/
theorem decodeForcedBatchV2_of_recordsFrom (hlen : txsData.length < 2 ^ 64)
    {run : List L2TxRaw} (h : recordsFrom decodeBytes txsData 0 = some run) :
    decodeForcedBatchV2 decodeBytes txsData = .ok ⟨run⟩ := by
  have hdecode : decodeTxs decodeBytes txsData forkIdEtrog =
      .ok (run.map (·.tx), txsData, run.map (·.efficiencyPercentage)) := by
    unfold decodeTxs
    by_cases hempty : txsData.length = 0
    · rw [if_pos hempty]
      rw [recordsFrom_of_le (by omega), Option.some.injEq] at h
      subst h
      rfl
    · rw [if_neg hempty, decodeTxsLoop_of_recordsFrom hlen (by decide) 0 [] [] h]
      simp
  refine decodeForcedBatchV2_eq_ok_iff.2 ⟨_, _, _, hdecode, by simp, ?_⟩
  rw [zipWith_map_tx_efficiencyPercentage]

/-- **A forced batch `DecodeForcedBatchV2` returns with a transaction is
the run of records.** With none, the data may hold a cut-off record. -/
theorem recordsFrom_of_decodeForcedBatchV2 (hlen : txsData.length < 2 ^ 64)
    {txs : List L2TxRaw} (h : decodeForcedBatchV2 decodeBytes txsData = .ok ⟨txs⟩)
    (hne : txs ≠ []) : recordsFrom decodeBytes txsData 0 = some txs := by
  obtain ⟨txs', rest, eps, hdecode, heps, hbatch⟩ := decodeForcedBatchV2_eq_ok_iff.1 h
  rw [ForcedBatchRawV2.mk.injEq] at hbatch
  subst hbatch
  have hne' : txs' ≠ [] := by
    rintro rfl
    exact hne List.zipWith_nil_left
  unfold decodeTxs at hdecode
  by_cases hempty : txsData.length = 0
  · rw [if_pos hempty, ok.injEq, Prod.mk.injEq] at hdecode
    exact absurd hdecode.1.symm hne'
  rw [if_neg hempty] at hdecode
  rcases recordsFrom_of_decodeTxsLoop hlen (by decide) 0 [] [] hdecode with
    hnil | ⟨run, hrun, htxs, heps'⟩
  · exact absurd hnil hne'
  · rw [htxs, heps', List.nil_append, List.nil_append, zipWith_map_tx_efficiencyPercentage]
    exact hrun

end Txs

/-! ## `DecodeBatchV2` refines the run -/

section Batch

variable {decodeBytes : List UInt8 → Option (List (List UInt8))} {pre txsData : List UInt8}
  {hlen : (pre ++ txsData).length < 2 ^ 63}

/-- **`DecodeBatchV2`'s loop over a run of records**, inside a block after
any prefix: it adds the run's transactions to the block and closes it at
the end of the data. -/
theorem decodeBatchV2Loop_of_recordsFrom (pos : ℕ) (blocks : List L2BlockRaw) (b : L2BlockRaw)
    {run : List L2TxRaw} (h : recordsFrom decodeBytes txsData pos = some run) :
    decodeBatchV2Loop decodeBytes (pre ++ txsData) hlen (pre.length + pos) blocks (some b) =
      .ok ⟨blocks ++ [{ b with transactions := b.transactions ++ run }]⟩ := by
  by_cases hpos : pos < txsData.length
  · obtain ⟨length, rec, hr⟩ := exists_record_of_recordsFrom hpos h
    obtain ⟨tx, rest, htx, hrest, rfl⟩ := (recordsFrom_eq_some_iff hr).1 h
    have hlt := (bounds_of_recordAt hr).1
    have hr' : recordAt true (pre ++ txsData) (pre.length + pos) = .record length rec := by
      rw [recordAt_append_left, hr]
    rw [decodeBatchV2Loop_of_recordAt hlen hr' (l2TxRaw_of_decode htx _), Nat.add_assoc,
      decodeBatchV2Loop_of_recordsFrom (pos + length) blocks _ hrest]
    simp
  · rw [recordsFrom_of_le (by omega), Option.some.injEq] at h
    subst h
    rw [decodeBatchV2Loop_of_le (by simp only [List.length_append]; omega)]
    simp
termination_by txsData.length - pos
decreasing_by omega

/-- **A run `DecodeBatchV2`'s loop ends with one more block is a run of
records**, inside a block after any prefix, for an rlp decoder that
rejects empty input: a block tag would open a second block, and a record
`recordAt` rejects, or one that does not decode, ends the loop. -/
theorem recordsFrom_of_decodeBatchV2Loop (hempty : decodeBytes [] = none) (pos : ℕ)
    (blocks : List L2BlockRaw) (b b' : L2BlockRaw)
    (h : decodeBatchV2Loop decodeBytes (pre ++ txsData) hlen (pre.length + pos) blocks (some b) =
      .ok ⟨blocks ++ [b']⟩) :
    ∃ run, recordsFrom decodeBytes txsData pos = some run ∧
      b' = { b with transactions := b.transactions ++ run } := by
  by_cases hpos : pos < txsData.length
  · have hpos' : pre.length + pos < (pre ++ txsData).length := by
      simp only [List.length_append]
      omega
    by_cases htag : (pre ++ txsData)[pre.length + pos] = changeL2Block
    · -- a block header: the loop closes this block and opens another
      exfalso
      rw [decodeBatchV2Loop_of_tag hpos' htag] at h
      cases hh : decodeBlockHeader (pre ++ txsData) (pre.length + pos + 1) with
      | ok r =>
        rw [hh] at h
        have := length_le_of_decodeBatchV2Loop_eq_ok h
        simp only [List.length_append, Option.toList_some, List.length_singleton] at this
        omega
      | err e => rw [hh] at h; cases h
      | panic => rw [hh] at h; cases h
    -- otherwise the loop reads a record, which must decode
    have hstuck : (∀ r, decodeTxRLP decodeBytes (pre ++ txsData) (pre.length + pos) ≠ .ok r) →
        False := fun hd => decodeBatchV2Loop_ne_ok_of_decodeTxRLP hpos' htag b hd _ h
    have hr' := recordAt_append_left true pre txsData pos
    cases hr : recordAt true txsData pos with
    | record length rec =>
      rw [hr] at hr'
      cases hd : rec.decode decodeBytes with
      | some tx =>
        have hlt := (bounds_of_recordAt hr).1
        rw [decodeBatchV2Loop_of_recordAt hlen hr' (l2TxRaw_of_decode hd _), Nat.add_assoc] at h
        obtain ⟨run, hrun, rfl⟩ := recordsFrom_of_decodeBatchV2Loop hempty (pos + length) blocks _ b' h
        exact ⟨tx :: run, (recordsFrom_eq_some_iff hr).2 ⟨tx, run, hd, hrun, rfl⟩, by simp⟩
      | none =>
        refine (hstuck fun r hok => l2TxRaw_ne_ok_of_decode hd (pre.length + pos + length) r ?_).elim
        rw [← decodeTxRLP_of_recordAt hlen hpos' hr']
        exact hok
    | truncated =>
      rw [hr] at hr'
      refine (hstuck fun r hok => ?_).elim
      rw [decodeTxRLP_of_truncated hpos' hr'] at hok
      cases hok
    | malformed =>
      rw [hr] at hr'
      exact (hstuck (decodeTxRLP_ne_ok_of_malformed hlen hempty hpos' hr')).elim
  · rw [decodeBatchV2Loop_of_le (by simp only [List.length_append]; omega), ok.injEq,
      BatchRawV2.mk.injEq, List.append_cancel_left_eq, Option.toList_some, List.singleton_inj] at h
    exact ⟨[], recordsFrom_of_le (by omega), by rw [← h]; simp⟩
termination_by txsData.length - pos
decreasing_by omega

end Batch

/-! ## The two decoders of an Etrog record

A forced batch `txsData`, and the batch of one block that carries it behind
the header of `dt` and `idx`. -/

section Agreement

variable {decodeBytes : List UInt8 → Option (List (List UInt8))}

/-- `DecodeBatchV2` of a block header and what follows: its loop inside the
header's block. -/
theorem decodeBatchV2_header_append (dt idx : UInt32) (txsData : List UInt8)
    (hlen : (encodeBlockHeaderV2 [] ⟨dt, idx, []⟩ ++ txsData).length < 2 ^ 63) :
    decodeBatchV2 decodeBytes (encodeBlockHeaderV2 [] ⟨dt, idx, []⟩ ++ txsData) hlen =
      decodeBatchV2Loop decodeBytes (encodeBlockHeaderV2 [] ⟨dt, idx, []⟩ ++ txsData) hlen
        ((encodeBlockHeaderV2 [] ⟨dt, idx, []⟩).length + 0) [] (some ⟨dt, idx, []⟩) := by
  rw [decodeBatchV2]
  exact decodeBatchV2Loop_encodeBlockHeaderV2 ⟨dt, idx, []⟩ hlen rfl [] none

/-- **`DecodeBatchV2` returns the run of records** behind a block header,
as one block, when the run is defined. -/
theorem decodeBatchV2_of_recordsFrom (dt idx : UInt32) (txsData : List UInt8)
    (hlen : (encodeBlockHeaderV2 [] ⟨dt, idx, []⟩ ++ txsData).length < 2 ^ 63)
    {run : List L2TxRaw} (h : recordsFrom decodeBytes txsData 0 = some run) :
    decodeBatchV2 decodeBytes (encodeBlockHeaderV2 [] ⟨dt, idx, []⟩ ++ txsData) hlen =
      .ok ⟨[⟨dt, idx, run⟩]⟩ := by
  rw [decodeBatchV2_header_append, decodeBatchV2Loop_of_recordsFrom 0 [] _ h]
  rfl

/-- **One block behind a header is the run of records**, for an rlp
decoder that rejects empty input. -/
theorem recordsFrom_of_decodeBatchV2 (hempty : decodeBytes [] = none) {dt idx : UInt32}
    {txsData : List UInt8}
    {hlen : (encodeBlockHeaderV2 [] ⟨dt, idx, []⟩ ++ txsData).length < 2 ^ 63}
    {txs : List L2TxRaw}
    (h : decodeBatchV2 decodeBytes (encodeBlockHeaderV2 [] ⟨dt, idx, []⟩ ++ txsData) hlen =
      .ok ⟨[⟨dt, idx, txs⟩]⟩) :
    recordsFrom decodeBytes txsData 0 = some txs := by
  rw [decodeBatchV2_header_append] at h
  obtain ⟨run, hrun, hblock⟩ := recordsFrom_of_decodeBatchV2Loop hempty 0 [] _ _ h
  rw [L2BlockRaw.mk.injEq, List.nil_append] at hblock
  rw [hblock.2.2]
  exact hrun

variable (decodeBytes) in
/-- **`DecodeForcedBatchV2` accepts a cut-off record that `DecodeBatchV2`
rejects.** The byte `0xf8` starts a list whose length takes one more byte,
which is missing: `DecodeTxs` returns early with its still-nil error and no
transactions, while after a block header `decodeTxRLP` returns
`ErrInvalidRLP`. -/
theorem decodeForcedBatchV2_truncated_header (dt idx : UInt32) :
    decodeForcedBatchV2 decodeBytes [0xf8] = .ok ⟨[]⟩ ∧
      ∀ hlen batch,
        decodeBatchV2 decodeBytes (encodeBlockHeaderV2 [] ⟨dt, idx, []⟩ ++ [0xf8]) hlen ≠ .ok batch := by
  have htrunc : recordAt true [0xf8] 0 = .truncated := by decide
  refine ⟨?_, fun hlen batch => ?_⟩
  · -- `DecodeTxs` stops at the header
    have hdecode : decodeTxs decodeBytes [0xf8] forkIdEtrog = .ok ([], [0xf8], []) := by
      unfold decodeTxs
      rw [if_neg (by decide), decodeTxsLoop_of_lt (by decide), decodeTxsStep_eq (by decide) (by decide),
        show decide (forkIdDragonfruit ≤ forkIdEtrog) = true from rfl, htrunc]
    exact decodeForcedBatchV2_eq_ok_iff.2 ⟨[], [0xf8], [], hdecode, rfl, rfl⟩
  · -- `DecodeBatchV2` reads the header, then fails on the record
    have hpos : (encodeBlockHeaderV2 [] ⟨dt, idx, []⟩).length + 0 <
        (encodeBlockHeaderV2 [] ⟨dt, idx, []⟩ ++ [0xf8]).length := by
      simp
    have hr : recordAt true (encodeBlockHeaderV2 [] ⟨dt, idx, []⟩ ++ [0xf8])
        ((encodeBlockHeaderV2 [] ⟨dt, idx, []⟩).length + 0) = .truncated := by
      rw [recordAt_append_left]
      exact htrunc
    have htag : (encodeBlockHeaderV2 [] ⟨dt, idx, []⟩ ++ [0xf8])[
        (encodeBlockHeaderV2 [] ⟨dt, idx, []⟩).length + 0] ≠ changeL2Block := by
      simp [changeL2Block]
    rw [decodeBatchV2_header_append]
    refine decodeBatchV2Loop_ne_ok_of_decodeTxRLP hpos htag _ (fun r hok => ?_) batch
    rw [decodeTxRLP_of_truncated hpos hr] at hok
    cases hok

/-- The cut-off record behind the header of block `(3, 1)`, with the rlp
list decoder. -/
theorem decodeForcedBatchV2_truncated_after_header :
    decodeForcedBatchV2 Rlp.decodeList [0xf8] = .ok ⟨[]⟩ ∧
      ∀ hlen batch, decodeBatchV2 Rlp.decodeList (encodeBlockHeaderV2 [] ⟨3, 1, []⟩ ++ [0xf8]) hlen ≠ .ok batch :=
  decodeForcedBatchV2_truncated_header Rlp.decodeList 3 1

variable (decodeBytes) in
/-- **The two decoders of an Etrog record agree** on forced batches with
a transaction, and on empty ones, for an rlp decoder that rejects empty
input: `DecodeForcedBatchV2` returns them exactly when `DecodeBatchV2`
returns them as the one block behind a block header. -/
theorem decodeForcedBatchV2_iff_decodeBatchV2 (hempty : decodeBytes [] = none) (dt idx : UInt32)
    (txsData : List UInt8)
    (hlen : (encodeBlockHeaderV2 [] ⟨dt, idx, []⟩ ++ txsData).length < 2 ^ 63)
    (txs : List L2TxRaw) :
    (decodeForcedBatchV2 decodeBytes txsData = .ok ⟨txs⟩ ∧ (txs ≠ [] ∨ txsData = [])) ↔
      decodeBatchV2 decodeBytes (encodeBlockHeaderV2 [] ⟨dt, idx, []⟩ ++ txsData) hlen =
        .ok ⟨[⟨dt, idx, txs⟩]⟩ := by
  have h64 : txsData.length < 2 ^ 64 := by
    simp only [List.length_append] at hlen
    omega
  constructor
  · rintro ⟨h, hne | rfl⟩
    · exact decodeBatchV2_of_recordsFrom dt idx txsData hlen
        (recordsFrom_of_decodeForcedBatchV2 h64 h hne)
    · -- empty data: no records on either side
      have hforced : decodeForcedBatchV2 decodeBytes [] = .ok ⟨[]⟩ :=
        decodeForcedBatchV2_of_recordsFrom h64 (recordsFrom_of_le (Nat.zero_le 0))
      rw [hforced, ok.injEq, ForcedBatchRawV2.mk.injEq] at h
      subst h
      exact decodeBatchV2_of_recordsFrom dt idx [] hlen (recordsFrom_of_le (Nat.zero_le 0))
  · intro h
    have hrun := recordsFrom_of_decodeBatchV2 hempty h
    refine ⟨decodeForcedBatchV2_of_recordsFrom h64 hrun, ?_⟩
    by_cases hnil : txsData = []
    · exact Or.inr hnil
    · exact Or.inl (ne_nil_of_recordsFrom (List.length_pos_of_ne_nil hnil) hrun)

/-- `decodeForcedBatchV2_iff_decodeBatchV2` for the empty forced batch, with
go-ethereum's decoder played by the library's. -/
theorem decodeForcedBatchV2_iff_decodeBatchV2_empty :
    Rlp.decodeList [] = none ∧
      ((decodeForcedBatchV2 Rlp.decodeList [] = .ok ⟨[]⟩ ∧ ([] ≠ ([] : List L2TxRaw) ∨ ([] : List UInt8) = [])) ↔
        decodeBatchV2 Rlp.decodeList (encodeBlockHeaderV2 [] ⟨3, 1, []⟩ ++ [])
          (by simp [length_encodeBlockHeaderV2]) = .ok ⟨[⟨3, 1, []⟩]⟩) :=
  ⟨Rlp.decodeList_nil,
    decodeForcedBatchV2_iff_decodeBatchV2 Rlp.decodeList Rlp.decodeList_nil 3 1 []
      (by simp [length_encodeBlockHeaderV2]) []⟩

end Agreement

end State

end XLayerNode
