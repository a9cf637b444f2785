import XLayerNode.State.Helper
/-!
# Etrog batch data: `EncodeBatchV2`, `DecodeBatchV2`, `DecodeForcedBatchV2`

From Etrog on, batch data is a run of L2 blocks. A block starts with the
tag `changeL2Block` and two big-endian `uint32`s (the delta timestamp and
the L1 info tree index), and its transaction records follow, each with the
percentage byte. A forced batch holds records only, and is read by
`DecodeTxs` at `FORKID_ETROG`.

`decodeTxRLP` finds a record's end from its RLP list header as
`DecodeTxs` does, in code of its own: the `uint64` sum of a long header is
not checked, and the record's slices are taken without the `endPos < pos`
guard.

Positions are Go `int`s, never negative here. The loop of `DecodeBatchV2`
takes the data shorter than `2 ^ 63`, as every Go slice is: that is what
makes each pass move forward.
-/

namespace XLayerNode

namespace State

open GoHex Outcome

/-- `L2TxRaw`. -/
structure L2TxRaw where
  tx : LegacyTx
  efficiencyPercentage : UInt8
  deriving DecidableEq

/-- `L2BlockRaw`. -/
structure L2BlockRaw where
  deltaTimestamp : UInt32
  indexL1InfoTree : UInt32
  transactions : List L2TxRaw
  deriving DecidableEq

/-- `BatchRawV2`. -/
structure BatchRawV2 where
  blocks : List L2BlockRaw
  deriving DecidableEq

/-- `ForcedBatchRawV2`. -/
structure ForcedBatchRawV2 where
  transactions : List L2TxRaw
  deriving DecidableEq

/-- `changeL2Block`, the tag of a block header. -/
def changeL2Block : UInt8 := 0x0b

/-! ## Encoding -/

/-- `serializeUint32`: big-endian. -/
def serializeUint32 (value : UInt32) : List UInt8 :=
  [(value >>> 24).toUInt8, (value >>> 16).toUInt8, (value >>> 8).toUInt8, value.toUInt8]

/-- `EncodeBlockHeaderV2`, whose error is always nil. -/
def encodeBlockHeaderV2 (batchData : List UInt8) (block : L2BlockRaw) : List UInt8 :=
  batchData ++ [changeL2Block] ++ serializeUint32 block.deltaTimestamp ++
    serializeUint32 block.indexL1InfoTree

/-- `encodeTxRLP`: the record of `prepareRPLTxData` and the percentage. -/
def encodeTxRLP (batchData : List UInt8) (tx : L2TxRaw) : Except CodecError (List UInt8) := do
  let rlpTx ← prepareRPLTxData tx.tx
  pure (batchData ++ rlpTx ++ [tx.efficiencyPercentage])

/-- `EncodeBatchV2`, of a pointer that may be nil. -/
def encodeBatchV2 (batch : Option BatchRawV2) : Except CodecError (List UInt8) :=
  match batch with
  | none => .error .errInvalidBatchV2
  | some batch =>
    if batch.blocks.length = 0 then .error .errInvalidBatchV2
    else
      batch.blocks.foldlM (fun batchData block =>
        block.transactions.foldlM encodeTxRLP (encodeBlockHeaderV2 batchData block)) []

/-! ## Decoding -/

/-- `deserializeUint32`: the position after the word, and the word. -/
def deserializeUint32 (txsData : List UInt8) (pos : ℕ) : Outcome CodecError (ℕ × UInt32) :=
  if txsData.length - pos < 4 then throw .errInvalidBatchV2
  else do
    let b0 ← index txsData pos
    let b1 ← index txsData (pos + 1)
    let b2 ← index txsData (pos + 2)
    let b3 ← index txsData (pos + 3)
    pure (pos + 4, b0.toUInt32 <<< 24 ||| b1.toUInt32 <<< 16 ||| b2.toUInt32 <<< 8 ||| b3.toUInt32)

/-- `decodeBlockHeader`: the two words after the tag, as a block with no
transactions yet. -/
def decodeBlockHeader (txsData : List UInt8) (pos : ℕ) : Outcome CodecError (ℕ × L2BlockRaw) := do
  let (pos, deltaTimestamp) ← deserializeUint32 txsData pos
  let (pos, indexL1InfoTree) ← deserializeUint32 txsData pos
  pure (pos, ⟨deltaTimestamp, indexL1InfoTree, []⟩)

/-- `decodeRLPListLengthFromOffset`: the size of the RLP list at `offset`,
header included, in `uint64`. -/
def decodeRLPListLengthFromOffset (txsData : List UInt8) (offset : ℕ) :
    Outcome CodecError ℕ := do
  let txDataLength := txsData.length
  let b ← index txsData offset
  let num := b.toNat
  if num < c0 then throw .errInvalidRLP
  else
    let length := num - c0
    if shortRlp < length then
      let lengthInByteOfSize := num - f7
      if txDataLength < offset + headerByteLength + lengthInByteOfSize then throw .errInvalidRLP
      else do
        let lengthBytes ← slice txsData (offset + 1) (offset + 1 + lengthInByteOfSize)
        let n ← parseNum (parseUint (encodeToString lengthBytes) 16 64)
        -- `n + num - f7` in `uint64`: neither step is checked
        let length := ((n + num) % 2 ^ 64 + 2 ^ 64 - f7) % 2 ^ 64
        pure ((length + headerByteLength) % 2 ^ 64)
    else pure (length + headerByteLength)

/-- What one pass of `DecodeBatchV2`'s loop reads: a block header, or a
transaction of the current block; each with the position after it. -/
inductive BatchV2Step where
  | blockHeader (pos : ℕ) (block : L2BlockRaw)
  | tx (pos : ℕ) (tx : L2TxRaw)
  deriving DecidableEq

section Decode

variable (decodeBytes : List UInt8 → Option (List (List UInt8)))

/-- `decodeTxRLP`: the record at `offset`, and the position after it. -/
def decodeTxRLP (txsData : List UInt8) (offset : ℕ) : Outcome CodecError (ℕ × L2TxRaw) := do
  let length ← decodeRLPListLengthFromOffset txsData offset
  let endPos := (offset + length + rLength + sLength + vLength +
    efficiencyPercentageByteLength) % 2 ^ 64
  if txsData.length < endPos then throw .errInvalidBatchV2
  else do
    let _fullDataTx ← slice txsData offset endPos
    let dataStart := (offset + length) % 2 ^ 64
    let txInfo ← slice txsData offset dataStart
    let (rData, sData, vData) ← sliceSignature txsData dataStart
    let efficiencyPercentage ← index txsData ((dataStart + rLength + sLength + vLength) % 2 ^ 64)
    match decodeBytes txInfo with
    | none => throw CodecError.errRlp
    | some rlpFields => do
      let legacyTx ← Outcome.ofExcept (rlpFieldsToLegacyTx rlpFields vData rData sData)
      pure (endPos, ⟨legacyTx, efficiencyPercentage⟩)

/-- One pass of `DecodeBatchV2`'s loop at `pos`. Before the first header, a
record is only decoded to choose the error. -/
def decodeBatchV2Step (txsData : List UInt8) (pos : ℕ) (currentBlock : Option L2BlockRaw) :
    Outcome CodecError BatchV2Step := do
  let tag ← index txsData pos
  if tag = changeL2Block then
    let (pos, block) ← decodeBlockHeader txsData (pos + 1)
    pure (.blockHeader pos block)
  else
    match currentBlock with
    | none =>
      match decodeTxRLP decodeBytes txsData pos with
      | .ok _ => throw .errBatchV2DontStartWithChangeL2Block
      | .err _ => throw .errInvalidBatchV2
      | .panic => .panic
    | some _ => do
      let (pos, tx) ← decodeTxRLP decodeBytes txsData pos
      pure (.tx pos tx)

end Decode

/-! ## The loop moves forward -/

/-- `deserializeUint32` moves four bytes on. -/
theorem fst_of_deserializeUint32_eq_ok {txsData : List UInt8} {pos pos' : ℕ} {v : UInt32}
    (h : deserializeUint32 txsData pos = .ok (pos', v)) : pos' = pos + 4 := by
  unfold deserializeUint32 at h
  split_ifs at h
  simp only [bind_eq_ok] at h
  obtain ⟨_, -, _, -, _, -, _, -, h⟩ := h
  cases h
  rfl

/-- `decodeBlockHeader` moves eight bytes on. -/
theorem fst_of_decodeBlockHeader_eq_ok {txsData : List UInt8} {pos pos' : ℕ} {block : L2BlockRaw}
    (h : decodeBlockHeader txsData pos = .ok (pos', block)) : pos' = pos + 8 := by
  obtain ⟨⟨p1, v1⟩, h1, h⟩ := bind_eq_ok.1 h
  obtain ⟨⟨p2, v2⟩, h2, h⟩ := bind_eq_ok.1 h
  cases h
  rw [fst_of_deserializeUint32_eq_ok h2, fst_of_deserializeUint32_eq_ok h1]

/-- The size `decodeRLPListLengthFromOffset` returns is a `uint64`. -/
theorem lt_of_decodeRLPListLengthFromOffset_eq_ok {txsData : List UInt8} {offset length : ℕ}
    (h : decodeRLPListLengthFromOffset txsData offset = .ok length) : length < 2 ^ 64 := by
  obtain ⟨b, -, h⟩ := bind_eq_ok.1 h
  dsimp only at h
  split_ifs at h with h1 h2 h3
  · obtain ⟨_, -, h⟩ := bind_eq_ok.1 h
    obtain ⟨_, -, h⟩ := bind_eq_ok.1 h
    rw [pure_def, ok.injEq] at h
    rw [← h]
    exact Nat.mod_lt _ (by norm_num)
  · rw [pure_def, ok.injEq] at h
    simp only [c0, shortRlp, headerByteLength] at h2 h
    omega

/-- **A written word reads back.** -/
theorem deserializeUint32_serializeUint32 (p rest : List UInt8) (v : UInt32) :
    deserializeUint32 (p ++ serializeUint32 v ++ rest) p.length = .ok (p.length + 4, v) := by
  have hlen : (p ++ serializeUint32 v ++ rest).length = p.length + 4 + rest.length := by
    simp only [serializeUint32, List.length_append, List.length_cons, List.length_nil]
  unfold deserializeUint32
  rw [if_neg (by omega), index_of_lt (by omega), ok_bind, index_of_lt (by omega), ok_bind,
    index_of_lt (by omega), ok_bind, index_of_lt (by omega), ok_bind, pure_def, ok.injEq,
    Prod.mk.injEq]
  refine ⟨rfl, UInt32.toNat_inj.1 ?_⟩
  simp only [List.append_assoc, List.getElem_append_right (Nat.le_add_right _ _),
    Nat.add_sub_cancel_left, List.getElem_append_right (Nat.le_refl _), Nat.sub_self]
  rw [toNat_or_shiftLeft_bytes]
  simp only [serializeUint32, List.cons_append, List.getElem_cons_zero, List.getElem_cons_succ]
  exact beValue_shiftRight_bytes v

/-- **A written block header reads back**, as a block with no transactions
yet. -/
theorem decodeBlockHeader_encode (p rest : List UInt8) (deltaTimestamp indexL1InfoTree : UInt32) :
    decodeBlockHeader (p ++ serializeUint32 deltaTimestamp ++ serializeUint32 indexL1InfoTree ++ rest)
      p.length = .ok (p.length + 8, ⟨deltaTimestamp, indexL1InfoTree, []⟩) := by
  have h1 := deserializeUint32_serializeUint32 p (serializeUint32 indexL1InfoTree ++ rest)
    deltaTimestamp
  have h2 := deserializeUint32_serializeUint32 (p ++ serializeUint32 deltaTimestamp) rest
    indexL1InfoTree
  have hlen4 : (p ++ serializeUint32 deltaTimestamp).length = p.length + 4 := by
    simp [serializeUint32]
  have hdata : p ++ serializeUint32 deltaTimestamp ++ serializeUint32 indexL1InfoTree ++ rest =
      p ++ serializeUint32 deltaTimestamp ++ (serializeUint32 indexL1InfoTree ++ rest) := by
    simp only [List.append_assoc]
  unfold decodeBlockHeader
  rw [hdata, h1, ok_bind]
  dsimp only
  rw [← hdata, ← hlen4, h2, ok_bind, pure_def, ok.injEq, Prod.mk.injEq]
  exact ⟨by omega, rfl⟩

section Decode

variable {decodeBytes : List UInt8 → Option (List (List UInt8))}

/-- **What a successful `decodeTxRLP` read**, in data shorter than
`2 ^ 63`: a list of `length` bytes, with the 66 bytes after it inside the
data, and no sum wrapped. -/
theorem bounds_of_decodeTxRLP_eq_ok {txsData : List UInt8} (hlen : txsData.length < 2 ^ 63)
    {offset endPos : ℕ} {tx : L2TxRaw}
    (h : decodeTxRLP decodeBytes txsData offset = .ok (endPos, tx)) :
    ∃ length, decodeRLPListLengthFromOffset txsData offset = .ok length ∧
      offset + length + 66 ≤ txsData.length ∧ endPos = offset + length + 66 := by
  obtain ⟨length, hlength, h⟩ := bind_eq_ok.1 h
  dsimp only at h
  split_ifs at h with hend
  obtain ⟨_, hfull, h⟩ := bind_eq_ok.1 h
  obtain ⟨_, hinfo, h⟩ := bind_eq_ok.1 h
  obtain ⟨⟨rData, sData, vData⟩, hsig, h⟩ := bind_eq_ok.1 h
  obtain ⟨_, hep, h⟩ := bind_eq_ok.1 h
  have hpos : (offset + length + rLength + sLength + vLength +
      efficiencyPercentageByteLength) % 2 ^ 64 = endPos := by
    split at h
    · cases h
    · obtain ⟨_, -, h⟩ := bind_eq_ok.1 h
      cases h; rfl
  obtain ⟨h1, h2, -⟩ := slice_eq_ok.1 hfull
  obtain ⟨h3, -, -⟩ := slice_eq_ok.1 hinfo
  obtain ⟨h4, h5⟩ := bounds_of_sliceSignature_eq_ok hsig
  obtain ⟨h6, -⟩ := index_eq_ok.1 hep
  simp only [rLength, sLength, vLength, efficiencyPercentageByteLength] at hpos h6
  -- the percentage byte lies below `2 ^ 63`: `dataStart` did not wrap, and
  -- `endPos` is `dataStart + 66`
  have hlt := lt_of_decodeRLPListLengthFromOffset_eq_ok hlength
  exact ⟨length, hlength, by omega, by omega⟩

/-- **Progress of `decodeTxRLP`**: in data shorter than `2 ^ 63`, a record
read at `offset` ends after it, inside the data. -/
theorem lt_of_decodeTxRLP_eq_ok {txsData : List UInt8} (hlen : txsData.length < 2 ^ 63)
    {offset endPos : ℕ} {tx : L2TxRaw}
    (h : decodeTxRLP decodeBytes txsData offset = .ok (endPos, tx)) :
    offset < endPos ∧ endPos ≤ txsData.length := by
  obtain ⟨length, -, hle, rfl⟩ := bounds_of_decodeTxRLP_eq_ok hlen h
  omega

/-- **Progress of `DecodeBatchV2`**: in data shorter than `2 ^ 63`, each
pass ends after `pos`. -/
theorem lt_of_decodeBatchV2Step_eq_ok {txsData : List UInt8} (hlen : txsData.length < 2 ^ 63)
    {pos : ℕ} {currentBlock : Option L2BlockRaw} {r : BatchV2Step}
    (h : decodeBatchV2Step decodeBytes txsData pos currentBlock = .ok r) :
    match r with
    | .blockHeader pos' _ => pos' = pos + 9
    | .tx pos' _ => pos < pos' := by
  obtain ⟨tag, -, h⟩ := bind_eq_ok.1 h
  split_ifs at h
  · obtain ⟨⟨pos', block⟩, hb, h⟩ := bind_eq_ok.1 h
    cases h
    dsimp only
    rw [fst_of_decodeBlockHeader_eq_ok hb]
  · cases currentBlock with
    | none =>
      dsimp only at h
      split at h <;> cases h
    | some _ =>
      obtain ⟨⟨pos', tx⟩, htx, h⟩ := bind_eq_ok.1 h
      cases h
      exact (lt_of_decodeTxRLP_eq_ok hlen htx).1

end Decode

section Loop

variable (decodeBytes : List UInt8 → Option (List (List UInt8)))

/-- `DecodeBatchV2`'s loop from `pos`, with the finished blocks and the
current one. -/
def decodeBatchV2Loop (txsData : List UInt8) (hlen : txsData.length < 2 ^ 63) (pos : ℕ)
    (blocks : List L2BlockRaw) (currentBlock : Option L2BlockRaw) :
    Outcome CodecError BatchRawV2 :=
  if pos < txsData.length then
    match _hstep : decodeBatchV2Step decodeBytes txsData pos currentBlock with
    | .ok (.blockHeader pos' block) =>
      decodeBatchV2Loop txsData hlen pos' (blocks ++ currentBlock.toList) (some block)
    | .ok (.tx pos' tx) =>
      decodeBatchV2Loop txsData hlen pos' blocks
        (currentBlock.map fun b => { b with transactions := b.transactions ++ [tx] })
    | .err e => .err e
    | .panic => .panic
  else .ok ⟨blocks ++ currentBlock.toList⟩
termination_by txsData.length - pos
decreasing_by
  all_goals
    have := lt_of_decodeBatchV2Step_eq_ok hlen _hstep
    dsimp only at this
    omega

variable {decodeBytes} {txsData : List UInt8} {hlen : txsData.length < 2 ^ 63} {pos : ℕ}
  {blocks : List L2BlockRaw} {currentBlock : Option L2BlockRaw}

/-- One pass of the loop, while `pos` is inside the data. -/
theorem decodeBatchV2Loop_of_lt (hpos : pos < txsData.length) :
    decodeBatchV2Loop decodeBytes txsData hlen pos blocks currentBlock =
      match decodeBatchV2Step decodeBytes txsData pos currentBlock with
      | .ok (.blockHeader pos' block) =>
        decodeBatchV2Loop decodeBytes txsData hlen pos' (blocks ++ currentBlock.toList) (some block)
      | .ok (.tx pos' tx) =>
        decodeBatchV2Loop decodeBytes txsData hlen pos' blocks
          (currentBlock.map fun b => { b with transactions := b.transactions ++ [tx] })
      | .err e => .err e
      | .panic => .panic := by
  rw [decodeBatchV2Loop, if_pos hpos]
  split <;> rename_i h <;> simp only [h]

/-- The loop ends once `pos` reaches the end of the data, with the current
block closed. -/
theorem decodeBatchV2Loop_of_le (hpos : txsData.length ≤ pos) :
    decodeBatchV2Loop decodeBytes txsData hlen pos blocks currentBlock =
      .ok ⟨blocks ++ currentBlock.toList⟩ := by
  rw [decodeBatchV2Loop, if_neg (by omega)]

/-- **A pass at the block tag**: the current block is closed, and the
header's block opened. -/
theorem decodeBatchV2Loop_of_tag (hpos : pos < txsData.length)
    (htag : txsData[pos] = changeL2Block) :
    decodeBatchV2Loop decodeBytes txsData hlen pos blocks currentBlock =
      match decodeBlockHeader txsData (pos + 1) with
      | .ok (pos', block) =>
        decodeBatchV2Loop decodeBytes txsData hlen pos' (blocks ++ currentBlock.toList) (some block)
      | .err e => .err e
      | .panic => .panic := by
  rw [decodeBatchV2Loop_of_lt hpos]
  unfold decodeBatchV2Step
  rw [index_of_lt hpos, ok_bind, if_pos htag]
  cases decodeBlockHeader txsData (pos + 1) with
  | ok r => rfl
  | err e => rfl
  | panic => rfl

/-- **A pass at any other byte, inside a block**: the loop goes on past
the record `decodeTxRLP` reads, or stops with its error. -/
theorem decodeBatchV2Loop_of_ne_tag (hpos : pos < txsData.length)
    (htag : txsData[pos] ≠ changeL2Block) (b : L2BlockRaw) :
    decodeBatchV2Loop decodeBytes txsData hlen pos blocks (some b) =
      match decodeTxRLP decodeBytes txsData pos with
      | .ok (pos', tx) =>
        decodeBatchV2Loop decodeBytes txsData hlen pos' blocks
          (some { b with transactions := b.transactions ++ [tx] })
      | .err e => .err e
      | .panic => .panic := by
  rw [decodeBatchV2Loop_of_lt hpos]
  unfold decodeBatchV2Step
  rw [index_of_lt hpos, ok_bind, if_neg htag]
  cases decodeTxRLP decodeBytes txsData pos with
  | ok r => rfl
  | err e => rfl
  | panic => rfl

/-- Inside a block, a byte that is neither the block tag nor a record
`decodeTxRLP` accepts ends the loop without a batch. -/
theorem decodeBatchV2Loop_ne_ok_of_decodeTxRLP (hpos : pos < txsData.length)
    (htag : txsData[pos] ≠ changeL2Block) (b : L2BlockRaw)
    (hd : ∀ r, decodeTxRLP decodeBytes txsData pos ≠ .ok r) (batch : BatchRawV2) :
    decodeBatchV2Loop decodeBytes txsData hlen pos blocks (some b) ≠ .ok batch := by
  rw [decodeBatchV2Loop_of_ne_tag hpos htag]
  cases h : decodeTxRLP decodeBytes txsData pos with
  | ok r => exact absurd h (hd r)
  | err e => simp
  | panic => simp

/-- **The loop only adds blocks**: a batch it returns holds the finished
blocks and the current one, and perhaps more. -/
theorem length_le_of_decodeBatchV2Loop_eq_ok {pos : ℕ} {blocks : List L2BlockRaw}
    {currentBlock : Option L2BlockRaw} {batch : BatchRawV2}
    (h : decodeBatchV2Loop decodeBytes txsData hlen pos blocks currentBlock = .ok batch) :
    blocks.length + currentBlock.toList.length ≤ batch.blocks.length := by
  by_cases hpos : pos < txsData.length
  · rw [decodeBatchV2Loop_of_lt hpos] at h
    cases hstep : decodeBatchV2Step decodeBytes txsData pos currentBlock with
    | ok step =>
      rw [hstep] at h
      have hlt := lt_of_decodeBatchV2Step_eq_ok hlen hstep
      cases step with
      | blockHeader pos' block =>
        dsimp only at h
        have := length_le_of_decodeBatchV2Loop_eq_ok h
        simp only [List.length_append, Option.toList_some, List.length_singleton] at this
        omega
      | tx pos' tx =>
        dsimp only at h
        have := length_le_of_decodeBatchV2Loop_eq_ok h
        cases currentBlock <;> simpa using this
    | err e => rw [hstep] at h; cases h
    | panic => rw [hstep] at h; cases h
  · rw [decodeBatchV2Loop_of_le (by omega), ok.injEq] at h
    subst h
    simp
termination_by txsData.length - pos
decreasing_by all_goals (dsimp only at hlt; omega)

variable (decodeBytes)

/-- `DecodeBatchV2`. -/
def decodeBatchV2 (txsData : List UInt8) (hlen : txsData.length < 2 ^ 63) :
    Outcome CodecError BatchRawV2 :=
  decodeBatchV2Loop decodeBytes txsData hlen 0 [] none

/-- **`DecodeBatchV2` panics on a wrapped record length.** After a block
header, a long list header `0xff` with the length bytes
`ffffffffffffffb6` makes `decodeRLPListLengthFromOffset` return
`2 ^ 64 - 65`: `endPos` wraps to `10`, which passes the check against the
data's length, and `dataStart` lands at `2 ^ 64 - 56`, far past the data,
so slicing `txInfo` panics. No rlp decoder is reached. -/
theorem decodeBatchV2_wrapped_length_panics :
    decodeBatchV2 decodeBytes
      [0x0b, 0, 0, 0, 0, 0, 0, 0, 0, 0xff, 0xff, 0xff, 0xff, 0xff, 0xff, 0xff, 0xff, 0xb6]
      (by decide) = .panic := by
  rw [decodeBatchV2, decodeBatchV2Loop_of_lt (by decide)]
  -- the header, read from offset 1
  rw [show decodeBatchV2Step decodeBytes
      [0x0b, 0, 0, 0, 0, 0, 0, 0, 0, 0xff, 0xff, 0xff, 0xff, 0xff, 0xff, 0xff, 0xff, 0xb6] 0 none =
      .ok (.blockHeader 9 ⟨0, 0, []⟩) from rfl]
  dsimp only
  rw [decodeBatchV2Loop_of_lt (by decide)]
  -- the record at offset 9
  rw [show decodeBatchV2Step decodeBytes
      [0x0b, 0, 0, 0, 0, 0, 0, 0, 0, 0xff, 0xff, 0xff, 0xff, 0xff, 0xff, 0xff, 0xff, 0xb6] 9
      (some ⟨0, 0, []⟩) = .panic from rfl]

/-- `DecodeForcedBatchV2`: the records of `DecodeTxs` at Etrog, each paired
with its percentage. -/
def decodeForcedBatchV2 (txsData : List UInt8) : Outcome CodecError ForcedBatchRawV2 := do
  let (txs, _, efficiencyPercentages) ← decodeTxs decodeBytes txsData forkIdEtrog
  if efficiencyPercentages.length ≠ txs.length then throw .errInvalidRLP
  else do
    let transactions ← txs.zipIdx.mapM fun (tx, i) => do
      let p ← index efficiencyPercentages i
      pure (⟨tx, p⟩ : L2TxRaw)
    pure ⟨transactions⟩

end Loop

end State

end XLayerNode
