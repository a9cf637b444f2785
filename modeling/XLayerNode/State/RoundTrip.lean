import XLayerNode.State.TxRecord
/-!
# Round trips of batch data

`DecodeTxs` reads back what `EncodeTransactions` writes, and `DecodeBatchV2`
what `EncodeBatchV2` writes, for transactions whose signature is in normal
form. The rlp decoder is assumed to read back every list of byte strings
whose encoding fits a Go slice (`DecodesLists`); the library's
`Rlp.decodeList` is such a decoder.

Each round trip goes record by record. `recordAt_encodeList` reads one
record back; with the decoder's refinement lemma that is one pass of its
loop (`decodeTxsLoop_recordBytes`), and an induction over the
transactions, and over the blocks for a batch, carries the passes through
the loop. The encoded data is taken shorter than `2 ^ 63`, as a Go slice
is: the decoders compute in `uint64`.
-/

namespace XLayerNode

namespace State

open GoHex Outcome

/-- The rlp decoder reads back every list of byte strings whose encoding
fits a Go slice. -/
def DecodesLists (decodeBytes : List UInt8 → Option (List (List UInt8))) : Prop :=
  ∀ items, (Rlp.encodeList items).length < 2 ^ 63 →
    decodeBytes (Rlp.encodeList items) = some items

/-- The library's decoder is one. -/
theorem decodesLists_decodeList : DecodesLists Rlp.decodeList := by
  intro items h
  apply Rlp.decodeList_encodeList
  have := Rlp.length_encodeList items
  omega

/-- A transaction whose record reads back: `V` in normal form, and `r`,
`s` that fit 32 bytes. -/
structure LegacyTx.Encodable (tx : LegacyTx) : Prop where
  vNormal : tx.VNormal
  r_lt : tx.r < 2 ^ 256
  s_lt : tx.s < 2 ^ 256

/-- The bytes of a record: the RLP list of the fields, `r`, `s`, the `v`
byte, and the percentage bytes. -/
def recordBytes (tx : LegacyTx) (rb sb ep : List UInt8) : List UInt8 :=
  Rlp.encodeList (rlpFieldsToEncode tx) ++ rb ++ sb ++ [tx.vByte] ++ ep

theorem length_recordBytes (tx : LegacyTx) (rb sb ep : List UInt8) :
    (recordBytes tx rb sb ep).length =
      (Rlp.encodeList (rlpFieldsToEncode tx)).length + rb.length + sb.length + 1 + ep.length := by
  simp only [recordBytes, List.length_append, List.length_singleton]

section Decode

variable {decodeBytes : List UInt8 → Option (List (List UInt8))}
variable {tx : LegacyTx} {rb sb ep : List UInt8}

/-- **A written record reads back whole**, after any prefix: the reading
`recordAt` gives of the bytes of a record. -/
theorem recordAt_recordBytes (w : Bool) (hrl : rb.length = 32) (hsl : sb.length = 32)
    (hep : ep.length = w.toNat) (pre post : List UInt8)
    (hlen : (pre ++ recordBytes tx rb sb ep ++ post).length < 2 ^ 63) :
    recordAt w (pre ++ recordBytes tx rb sb ep ++ post) pre.length =
      .record (recordBytes tx rb sb ep).length
        ⟨Rlp.encodeList (rlpFieldsToEncode tx), rb, sb, [tx.vByte], ep.head?⟩ := by
  have hpayload : (Rlp.payload (rlpFieldsToEncode tx)).length + 255 < 2 ^ 64 := by
    have h1 := Rlp.length_encodeList (rlpFieldsToEncode tx)
    have h2 := length_recordBytes tx rb sb ep
    simp only [List.length_append] at hlen
    omega
  rw [List.append_assoc, recordAt_append_length, recordBytes,
    recordAt_encodeList w _ _ post hrl hsl hep hpayload]
  simp only [List.length_append, List.length_singleton, hrl, hsl, hep]

/-- What `DecodeTxs` makes of a written record: the transaction itself. -/
theorem txsStep_of_encodable (hdec : DecodesLists decodeBytes) (htx : tx.Encodable)
    (hrv : beValue rb = tx.r) (hsv : beValue sb = tx.s)
    (hfit : (Rlp.encodeList (rlpFieldsToEncode tx)).length < 2 ^ 63) (ep : Option UInt8)
    (endPos : ℕ) :
    TxRecord.txsStep decodeBytes ⟨Rlp.encodeList (rlpFieldsToEncode tx), rb, sb, [tx.vByte], ep⟩
      endPos = .ok (.record endPos tx ep) := by
  simp only [TxRecord.txsStep, hdec _ hfit, rlpFieldsToLegacyTx_rlpFieldsToEncode htx.vNormal hrv hsv,
    ofExcept_ok, ok_bind, pure_def]

/-- **One pass of `DecodeTxs` over a written record**: the loop moves past
it, with its transaction and its percentage. -/
theorem decodeTxsLoop_recordBytes (hdec : DecodesLists decodeBytes) (htx : tx.Encodable)
    {forkID : ℕ} (hrl : rb.length = 32) (hrv : beValue rb = tx.r) (hsl : sb.length = 32)
    (hsv : beValue sb = tx.s) (hep : ep.length = (decide (forkIdDragonfruit ≤ forkID)).toNat)
    (pre post : List UInt8) (T : List LegacyTx) (E : List UInt8)
    (hlen : (pre ++ recordBytes tx rb sb ep ++ post).length < 2 ^ 63) :
    decodeTxsLoop decodeBytes (pre ++ recordBytes tx rb sb ep ++ post) forkID pre.length T E =
      decodeTxsLoop decodeBytes (pre ++ recordBytes tx rb sb ep ++ post) forkID
        (pre ++ recordBytes tx rb sb ep).length (T ++ [tx]) (E ++ ep) := by
  have hfit : (Rlp.encodeList (rlpFieldsToEncode tx)).length < 2 ^ 63 := by
    have := length_recordBytes tx rb sb ep
    simp only [List.length_append] at hlen
    omega
  -- a percentage of at most one byte is its `head?`
  have hep' : ep.head?.toList = ep := by
    match ep, hep with
    | [], _ => rfl
    | [_], _ => rfl
    | _ :: _ :: _, h =>
      have := Bool.toNat_le (decide (forkIdDragonfruit ≤ forkID))
      simp at h
      omega
  rw [decodeTxsLoop_of_recordAt (by omega) (recordAt_recordBytes _ hrl hsl hep pre post hlen)
    (txsStep_of_encodable hdec htx hrv hsv hfit _ _), hep', List.length_append]

/-! ## `EncodeTransactions`, then `DecodeTxs` -/

/-- The percentage bytes `EncodeTransactions` writes after the record of
transaction `i`: from Dragonfruit on, `DecodeHex` of its `%x`, one byte. -/
def percentageBytes (eps : List UInt8) (forkID i : ℕ) : List UInt8 :=
  if forkIdDragonfruit ≤ forkID then (eps.drop i).take 1 else []

/-- **`EncodeTransactions`' loop, read back by `DecodeTxs`' loop.** From
index `i`, after the data `pre`, the encoder appends the records `out` of
`txs`. Reading `pre ++ out ++ post` from where `pre` ends, the decoder
passes over `out` and collects `txs`, and their percentages from
Dragonfruit on. -/
theorem decodeTxsLoop_encodeTransactions_go (hdec : DecodesLists decodeBytes)
    (eps : List UInt8) (forkID : ℕ) :
    ∀ (txs : List LegacyTx) (i : ℕ) (pre : List UInt8), (∀ tx ∈ txs, tx.Encodable) →
      i + txs.length ≤ eps.length →
      ∃ out, encodeTransactions.go eps forkID txs i pre = .ok (pre ++ out) ∧
        ∀ (post : List UInt8) (T : List LegacyTx) (E : List UInt8),
          (pre ++ out ++ post).length < 2 ^ 63 →
          decodeTxsLoop decodeBytes (pre ++ out ++ post) forkID pre.length T E =
            decodeTxsLoop decodeBytes (pre ++ out ++ post) forkID (pre ++ out).length (T ++ txs)
              (E ++ if forkIdDragonfruit ≤ forkID then (eps.drop i).take txs.length else [])
  | [], i, pre, _, _ => ⟨[], by simp [encodeTransactions.go], fun post T E _ => by simp⟩
  | tx :: rest, i, pre, htxs, heps => by
    have htx := htxs tx List.mem_cons_self
    have hi : i < eps.length := by simp only [List.length_cons] at heps; omega
    obtain ⟨rb, sb, hrl, hrv, hsl, hsv, hprep⟩ := prepareRPLTxData_eq htx.r_lt htx.s_lt
    have hep : (percentageBytes eps forkID i).length =
        (decide (forkIdDragonfruit ≤ forkID)).toNat := by
      unfold percentageBytes
      by_cases hf : forkIdDragonfruit ≤ forkID
      · rw [if_pos hf, decide_eq_true hf]
        simp only [List.length_take, List.length_drop, Bool.toNat_true]
        omega
      · rw [if_neg hf, decide_eq_false hf]
        rfl
    -- the rest of the transactions, after this record
    obtain ⟨out, hgo, hloop⟩ := decodeTxsLoop_encodeTransactions_go hdec eps forkID rest (i + 1)
      (pre ++ recordBytes tx rb sb (percentageBytes eps forkID i))
      (fun t ht => htxs t (List.mem_cons_of_mem _ ht))
      (by simp only [List.length_cons] at heps; omega)
    refine ⟨recordBytes tx rb sb (percentageBytes eps forkID i) ++ out, ?_, ?_⟩
    · -- the encoder writes the record, then the percentage as one byte
      have hstep : encodeTransactions.go eps forkID (tx :: rest) i pre =
          encodeTransactions.go eps forkID rest (i + 1)
            (pre ++ recordBytes tx rb sb (percentageBytes eps forkID i)) := by
        simp only [encodeTransactions.go, hprep, ofExcept_ok, ok_bind]
        by_cases hf : forkIdDragonfruit ≤ forkID
        · have hpb : percentageBytes eps forkID i = [eps[i]] := by
            rw [percentageBytes, if_pos hf, List.drop_eq_getElem_cons hi]
            rfl
          rw [if_pos hf, index_of_lt hi, ok_bind, Hex.decodeHex_formatHex, hpb]
          simp only [Except.mapError, ofExcept_ok, ok_bind, recordBytes, List.append_assoc]
        · have hpb : percentageBytes eps forkID i = [] := by
            rw [percentageBytes, if_neg hf]
          rw [if_neg hf, hpb]
          simp only [recordBytes, List.append_assoc, List.append_nil]
      rw [hstep, hgo, List.append_assoc]
    · intro post T E hlen
      have hdata : pre ++ (recordBytes tx rb sb (percentageBytes eps forkID i) ++ out) ++ post =
          pre ++ recordBytes tx rb sb (percentageBytes eps forkID i) ++ (out ++ post) := by
        simp only [List.append_assoc]
      have hdata' : pre ++ recordBytes tx rb sb (percentageBytes eps forkID i) ++ (out ++ post) =
          pre ++ recordBytes tx rb sb (percentageBytes eps forkID i) ++ out ++ post := by
        simp only [List.append_assoc]
      rw [hdata, decodeTxsLoop_recordBytes hdec htx hrl hrv hsl hsv hep pre (out ++ post) T E
        (by rw [← hdata]; exact hlen), hdata', hloop post _ _ (by rw [← hdata', ← hdata]; exact hlen)]
      -- the transactions and percentages collected, in order
      have heps' : percentageBytes eps forkID i ++
          (if forkIdDragonfruit ≤ forkID then (eps.drop (i + 1)).take rest.length else []) =
          if forkIdDragonfruit ≤ forkID then (eps.drop i).take (rest.length + 1) else [] := by
        unfold percentageBytes
        by_cases hf : forkIdDragonfruit ≤ forkID
        · rw [if_pos hf, if_pos hf, if_pos hf, List.drop_eq_getElem_cons hi]
          rfl
        · rw [if_neg hf, if_neg hf, if_neg hf]
          rfl
      simp only [List.append_assoc, List.singleton_append, heps', List.length_cons]

variable (decodeBytes) in
/-- **`DecodeTxs` reads back what `EncodeTransactions` writes**: the same
transactions in the same order and, from Dragonfruit on, the same
percentages, one byte each. The data is taken shorter than `2 ^ 63`, as a
Go slice is. -/
theorem decodeTxs_encodeTransactions (hdec : DecodesLists decodeBytes) {txs : List LegacyTx}
    {eps : List UInt8} (forkID : ℕ) (htxs : ∀ tx ∈ txs, tx.Encodable)
    (heps : eps.length = txs.length) :
    ∃ data, encodeTransactions txs eps forkID = .ok data ∧
      (data.length < 2 ^ 63 → decodeTxs decodeBytes data forkID =
        .ok (txs, data, if forkIdDragonfruit ≤ forkID then eps else [])) := by
  obtain ⟨out, hgo, hloop⟩ :=
    decodeTxsLoop_encodeTransactions_go hdec eps forkID txs 0 [] htxs (by omega)
  refine ⟨out, by rw [encodeTransactions, hgo, List.nil_append], fun hlen => ?_⟩
  have hrun := hloop [] [] [] (by simpa using hlen)
  simp only [List.nil_append, List.append_nil, List.length_nil, List.drop_zero] at hrun
  rw [← heps, List.take_length] at hrun
  unfold decodeTxs
  by_cases hempty : out.length = 0
  · -- nothing was written: the loop reads nothing, so there were no transactions
    rw [if_pos hempty]
    rw [decodeTxsLoop_of_le (by omega), decodeTxsLoop_of_le (by omega)] at hrun
    simp only [ok.injEq, Prod.mk.injEq, true_and] at hrun
    have htx0 : txs = [] := hrun.1.symm
    have heps0 : eps = [] := List.length_eq_zero_iff.1 (by rw [heps, htx0]; rfl)
    subst htx0 heps0
    split_ifs <;> rfl
  · rw [if_neg hempty, hrun, decodeTxsLoop_of_le le_rfl]

/-- A transaction of chain `1`, signed with recovery id `1`. -/
def chainOneTx : LegacyTx :=
  { nonce := 9, gasPrice := 20000000000, gas := 21000, toAddr := none, value := 1000,
    data := [0xde, 0xad], v := 38, r := 7, s := 11 }

theorem chainOneTx_encodable : chainOneTx.Encodable :=
  ⟨Or.inr ⟨1, by decide, by decide⟩, by norm_num [chainOneTx], by norm_num [chainOneTx]⟩

/-- `decodeTxs_encodeTransactions` at Etrog, for one transaction of chain
`1` with percentage `255`, and go-ethereum's decoder played by the
library's. -/
theorem decodeTxs_encodeTransactions_chainOne :
    DecodesLists Rlp.decodeList ∧ (∀ tx ∈ [chainOneTx], tx.Encodable) ∧
      [(255 : UInt8)].length = [chainOneTx].length ∧
      ∃ data, encodeTransactions [chainOneTx] [255] forkIdEtrog = .ok data ∧
        (data.length < 2 ^ 63 → decodeTxs Rlp.decodeList data forkIdEtrog =
          .ok ([chainOneTx], data, if forkIdDragonfruit ≤ forkIdEtrog then [255] else [])) :=
  ⟨decodesLists_decodeList, by simp [chainOneTx_encodable], rfl,
    decodeTxs_encodeTransactions Rlp.decodeList decodesLists_decodeList forkIdEtrog
      (by simp [chainOneTx_encodable]) rfl⟩

/-! ## `EncodeBatchV2`, then `DecodeBatchV2` -/

/-- What `decodeTxRLP` makes of a written record: the transaction and its
percentage. -/
theorem l2TxRaw_of_encodable (hdec : DecodesLists decodeBytes) (htx : tx.Encodable)
    (hrv : beValue rb = tx.r) (hsv : beValue sb = tx.s)
    (hfit : (Rlp.encodeList (rlpFieldsToEncode tx)).length < 2 ^ 63) (p : UInt8) (endPos : ℕ) :
    TxRecord.l2TxRaw decodeBytes
      ⟨Rlp.encodeList (rlpFieldsToEncode tx), rb, sb, [tx.vByte], some p⟩ endPos =
      .ok (endPos, ⟨tx, p⟩) := by
  simp only [TxRecord.l2TxRaw, Option.toList_some, index_of_lt (show 0 < [p].length by simp),
    ok_bind, hdec _ hfit, rlpFieldsToLegacyTx_rlpFieldsToEncode htx.vNormal hrv hsv, ofExcept_ok,
    pure_def]
  rfl

/-- **One pass of `DecodeBatchV2` over a written record**: inside a block,
the loop moves past it and adds its transaction to the block. -/
theorem decodeBatchV2Loop_recordBytes (hdec : DecodesLists decodeBytes) (htx : tx.Encodable)
    (hrl : rb.length = 32) (hrv : beValue rb = tx.r) (hsl : sb.length = 32)
    (hsv : beValue sb = tx.s) (p : UInt8) {pre post data : List UInt8}
    (hlen : data.length < 2 ^ 63) (hdata : data = pre ++ recordBytes tx rb sb [p] ++ post)
    (blocks : List L2BlockRaw) (b : L2BlockRaw) :
    decodeBatchV2Loop decodeBytes data hlen pre.length blocks (some b) =
      decodeBatchV2Loop decodeBytes data hlen (pre ++ recordBytes tx rb sb [p]).length blocks
        (some { b with transactions := b.transactions ++ [⟨tx, p⟩] }) := by
  subst hdata
  have hfit : (Rlp.encodeList (rlpFieldsToEncode tx)).length < 2 ^ 63 := by
    have := length_recordBytes tx rb sb [p]
    simp only [List.length_append] at hlen
    omega
  have hrec := recordAt_recordBytes true hrl hsl (rfl : [p].length = true.toNat) pre post hlen
  rw [List.head?_cons] at hrec
  rw [decodeBatchV2Loop_of_recordAt hlen hrec (l2TxRaw_of_encodable hdec htx hrv hsv hfit p _),
    List.length_append]

/-- A block header is appended to what is already written. -/
theorem encodeBlockHeaderV2_eq (batchData : List UInt8) (block : L2BlockRaw) :
    encodeBlockHeaderV2 batchData block = batchData ++ encodeBlockHeaderV2 [] block := by
  simp [encodeBlockHeaderV2]

theorem length_encodeBlockHeaderV2 (batchData : List UInt8) (block : L2BlockRaw) :
    (encodeBlockHeaderV2 batchData block).length = batchData.length + 9 := by
  simp [encodeBlockHeaderV2, serializeUint32]

/-- **One pass of `DecodeBatchV2` over a written block header**: the
current block is closed, and an empty one with the header's fields is
opened. -/
theorem decodeBatchV2Loop_encodeBlockHeaderV2 (block : L2BlockRaw) {pre post data : List UInt8}
    (hlen : data.length < 2 ^ 63) (hdata : data = encodeBlockHeaderV2 pre block ++ post)
    (blocks : List L2BlockRaw) (currentBlock : Option L2BlockRaw) :
    decodeBatchV2Loop decodeBytes data hlen pre.length blocks currentBlock =
      decodeBatchV2Loop decodeBytes data hlen (encodeBlockHeaderV2 pre block).length
        (blocks ++ currentBlock.toList) (some ⟨block.deltaTimestamp, block.indexL1InfoTree, []⟩) := by
  subst hdata
  have hpos : pre.length < (encodeBlockHeaderV2 pre block ++ post).length := by
    simp [encodeBlockHeaderV2]
  have htag : (encodeBlockHeaderV2 pre block ++ post)[pre.length] = changeL2Block := by
    simp [encodeBlockHeaderV2]
  have hheader : decodeBlockHeader (encodeBlockHeaderV2 pre block ++ post) (pre.length + 1) =
      .ok (pre.length + 9, ⟨block.deltaTimestamp, block.indexL1InfoTree, []⟩) := by
    have h := decodeBlockHeader_encode (pre ++ [changeL2Block]) post block.deltaTimestamp
      block.indexL1InfoTree
    simp only [List.length_append, List.length_singleton] at h
    rw [show encodeBlockHeaderV2 pre block ++ post = pre ++ [changeL2Block] ++
      serializeUint32 block.deltaTimestamp ++ serializeUint32 block.indexL1InfoTree ++ post by
      simp [encodeBlockHeaderV2], h]
  rw [decodeBatchV2Loop_of_lt hpos]
  unfold decodeBatchV2Step
  rw [index_of_lt hpos, ok_bind, if_pos htag]
  dsimp only
  rw [hheader, ok_bind, pure_def, length_encodeBlockHeaderV2]

/-- **`EncodeBatchV2`'s inner loop, read back by `DecodeBatchV2`'s loop.**
After the data `pre`, the encoder appends the records `out` of `txs`, each
with its percentage byte. Reading data that holds `out` after `pre` from
where `pre` ends, inside a block, the decoder passes over `out` and adds
`txs` to the block. -/
theorem decodeBatchV2Loop_encodeTxRLP (hdec : DecodesLists decodeBytes) :
    ∀ (txs : List L2TxRaw) (pre : List UInt8), (∀ t ∈ txs, t.tx.Encodable) →
      ∃ out, txs.foldlM encodeTxRLP pre = .ok (pre ++ out) ∧
        ∀ (post data : List UInt8) (hlen : data.length < 2 ^ 63), data = pre ++ out ++ post →
          ∀ (blocks : List L2BlockRaw) (b : L2BlockRaw),
            decodeBatchV2Loop decodeBytes data hlen pre.length blocks (some b) =
              decodeBatchV2Loop decodeBytes data hlen (pre ++ out).length blocks
                (some { b with transactions := b.transactions ++ txs })
  | [], pre, _ => ⟨[], by rw [List.foldlM_nil, List.append_nil]; rfl,
      fun post data hlen hdata blocks b => by simp⟩
  | ⟨tx, p⟩ :: rest, pre, htxs => by
    have htx : tx.Encodable := htxs ⟨tx, p⟩ List.mem_cons_self
    obtain ⟨rb, sb, hrl, hrv, hsl, hsv, hprep⟩ := prepareRPLTxData_eq htx.r_lt htx.s_lt
    obtain ⟨out, hfold, hloop⟩ := decodeBatchV2Loop_encodeTxRLP hdec rest
      (pre ++ recordBytes tx rb sb [p]) (fun t ht => htxs t (List.mem_cons_of_mem _ ht))
    refine ⟨recordBytes tx rb sb [p] ++ out, ?_, ?_⟩
    · -- the encoder writes the record, then the percentage byte
      have hstep : encodeTxRLP pre ⟨tx, p⟩ = .ok (pre ++ recordBytes tx rb sb [p]) := by
        rw [encodeTxRLP, hprep]
        show Except.ok (pre ++ _ ++ [p]) = _
        simp only [recordBytes, List.append_assoc]
      rw [List.foldlM_cons, hstep, ← List.append_assoc]
      exact hfold
    · intro post data hlen hdata blocks b
      rw [decodeBatchV2Loop_recordBytes hdec htx hrl hrv hsl hsv p hlen
          (show data = pre ++ recordBytes tx rb sb [p] ++ (out ++ post) by
            rw [hdata]; simp only [List.append_assoc]),
        hloop post data hlen (by rw [hdata]; simp only [List.append_assoc])]
      simp only [List.append_assoc, List.singleton_append]

/-- **`EncodeBatchV2`'s outer loop, read back by `DecodeBatchV2`'s loop to
its end.** After the data `pre`, the encoder appends `out`: each block's
header, then its records. Reading `pre ++ out` from where `pre` ends, the
decoder closes the block it is in and collects `blocks`. -/
theorem decodeBatchV2Loop_encodeBlocks (hdec : DecodesLists decodeBytes) :
    ∀ (blocks : List L2BlockRaw) (pre : List UInt8),
      (∀ block ∈ blocks, ∀ t ∈ block.transactions, t.tx.Encodable) →
      ∃ out, blocks.foldlM (fun batchData block =>
          block.transactions.foldlM encodeTxRLP (encodeBlockHeaderV2 batchData block)) pre =
          .ok (pre ++ out) ∧
        ∀ (data : List UInt8) (hlen : data.length < 2 ^ 63), data = pre ++ out →
          ∀ (done : List L2BlockRaw) (currentBlock : Option L2BlockRaw),
            decodeBatchV2Loop decodeBytes data hlen pre.length done currentBlock =
              .ok ⟨done ++ currentBlock.toList ++ blocks⟩
  | [], pre, _ => ⟨[], by rw [List.foldlM_nil, List.append_nil]; rfl,
      fun data hlen hdata done currentBlock => by
      subst hdata
      rw [decodeBatchV2Loop_of_le (by simp), List.append_nil]⟩
  | ⟨dt, idx, txs⟩ :: rest, pre, hblocks => by
    have hheader := encodeBlockHeaderV2_eq pre ⟨dt, idx, txs⟩
    obtain ⟨outT, hT, hTloop⟩ := decodeBatchV2Loop_encodeTxRLP hdec txs
      (encodeBlockHeaderV2 pre ⟨dt, idx, txs⟩) (hblocks _ List.mem_cons_self)
    obtain ⟨outR, hR, hRloop⟩ := decodeBatchV2Loop_encodeBlocks hdec rest
      (encodeBlockHeaderV2 pre ⟨dt, idx, txs⟩ ++ outT)
      (fun b hb => hblocks b (List.mem_cons_of_mem _ hb))
    refine ⟨encodeBlockHeaderV2 [] ⟨dt, idx, txs⟩ ++ outT ++ outR, ?_, ?_⟩
    · -- the block's header and records, then the other blocks
      rw [List.foldlM_cons]
      dsimp only
      rw [hT]
      refine hR.trans ?_
      rw [hheader]
      simp only [List.append_assoc]
    · intro data hlen hdata done currentBlock
      have hdata' : data = encodeBlockHeaderV2 pre ⟨dt, idx, txs⟩ ++ outT ++ outR := by
        rw [hdata, hheader]
        simp only [List.append_assoc]
      rw [decodeBatchV2Loop_encodeBlockHeaderV2 _ hlen
          (show data = encodeBlockHeaderV2 pre ⟨dt, idx, txs⟩ ++ (outT ++ outR) by
            rw [hdata', List.append_assoc]),
        hTloop outR data hlen hdata', hRloop data hlen hdata']
      simp only [List.nil_append, Option.toList_some, List.append_assoc, List.singleton_append]

variable (decodeBytes) in
/-- **`DecodeBatchV2` reads back what `EncodeBatchV2` writes**: the same
blocks, with the same headers and the same transactions and percentages
in the same order, for a batch of at least one block. The data is taken
shorter than `2 ^ 63`, as a Go slice is. -/
theorem decodeBatchV2_encodeBatchV2 (hdec : DecodesLists decodeBytes) {batch : BatchRawV2}
    (hne : batch.blocks ≠ [])
    (htxs : ∀ block ∈ batch.blocks, ∀ t ∈ block.transactions, t.tx.Encodable) :
    ∃ data, encodeBatchV2 (some batch) = .ok data ∧
      ∀ hlen : data.length < 2 ^ 63, decodeBatchV2 decodeBytes data hlen = .ok batch := by
  obtain ⟨out, hfold, hloop⟩ := decodeBatchV2Loop_encodeBlocks hdec batch.blocks [] htxs
  refine ⟨out, ?_, fun hlen => ?_⟩
  · rw [encodeBatchV2, if_neg (by simpa using hne), hfold, List.nil_append]
  · have hrun := hloop out hlen (List.nil_append out).symm [] none
    rw [List.length_nil] at hrun
    rw [decodeBatchV2, hrun]
    rfl

/-- A batch of one block holding `chainOneTx` with percentage `255`. -/
def chainOneBatch : BatchRawV2 :=
  ⟨[⟨3, 1, [⟨chainOneTx, 255⟩]⟩]⟩

/-- `decodeBatchV2_encodeBatchV2` for `chainOneBatch`, with go-ethereum's
decoder played by the library's. -/
theorem decodeBatchV2_encodeBatchV2_chainOne :
    DecodesLists Rlp.decodeList ∧ chainOneBatch.blocks ≠ [] ∧
      (∀ block ∈ chainOneBatch.blocks, ∀ t ∈ block.transactions, t.tx.Encodable) ∧
      ∃ data, encodeBatchV2 (some chainOneBatch) = .ok data ∧
        ∀ hlen : data.length < 2 ^ 63, decodeBatchV2 Rlp.decodeList data hlen = .ok chainOneBatch :=
  ⟨decodesLists_decodeList, by simp [chainOneBatch],
    by simp [chainOneBatch, chainOneTx_encodable],
    decodeBatchV2_encodeBatchV2 Rlp.decodeList decodesLists_decodeList (by simp [chainOneBatch])
      (by simp [chainOneBatch, chainOneTx_encodable])⟩

end Decode

end State

end XLayerNode
