import XLayerNode.State.Transaction
import XLayerNode.Common.Outcome
/-!
# `EncodeTransactions` and `DecodeTxs`: batch data before Etrog

Before Etrog, and in a forced batch, batch data is a run of transaction
records: the RLP list of the fields, `r`, `s`, the `v` byte, and from
Dragonfruit on one effective-percentage byte. `DecodeTxs` finds each
record's end from the RLP list header at its start, in `uint64`
arithmetic: `decodeTxsStep` is one pass of its loop body and
`decodeTxsLoop` the loop.

The rlp decoder of go-ethereum is not part of the repository: it is the
parameter `decodeBytes` (`rlp.DecodeBytes(b, &[][]byte)`, `none` for an
error). Sums of a position and a constant are written without wrapping,
since a Go slice is shorter than `2 ^ 63`; every sum that involves a
length read from the data wraps at `2 ^ 64`, as the code's does.
-/

namespace XLayerNode

namespace Hex

open GoHex

/-- `hex.DecodeHex`: an optional `0x` dropped, an odd-length string given a
leading `0`, then `hex.DecodeString`. -/
def decodeHex (str : List Char) : Except HexError (List UInt8) :=
  let str := if str.take 2 = ['0', 'x'] then str.drop 2 else str
  let str := if str.length % 2 ≠ 0 then '0' :: str else str
  decodeString str

/-- **A byte written with `%x` decodes to that byte**, whether one hex digit
or two: the `0` that `DecodeHex` prepends restores the high nibble. -/
theorem decodeHex_formatHex (b : UInt8) : decodeHex (formatHex b.toNat) = .ok [b] := by
  have hb := UInt8.toNat_lt b
  have hlen : (hexDigits b.toNat).length ≤ 2 :=
    length_hexDigits_le (by norm_num) (by simpa using hb)
  have hpos : 0 < (hexDigits b.toNat).length := by
    unfold hexDigits; split_ifs with h
    · simp
    · simpa [Nat.digits_eq_nil_iff_eq_zero] using List.length_pos_iff.2
        (Nat.digits_ne_nil_iff_ne_zero.2 h)
  -- no hex digit is an \x78, so there is no prefix to trim
  have hnox : (formatHex b.toNat).take 2 ≠ ['0', 'x'] := by
    intro h
    have hx : 'x' ∈ (formatHex b.toNat).take 2 := by rw [h]; simp
    obtain ⟨d, hd, hdx⟩ := List.mem_map.1 (List.mem_of_mem_take hx)
    have hne : ∀ d : Fin 16, hexDigit d ≠ 'x' := by decide
    exact hne ⟨d, lt_of_mem_hexDigits hd⟩ hdx
  -- the string read is the two digits of `b`, written with `hexDigit`
  have hstr : (if (formatHex b.toNat).length % 2 ≠ 0 then '0' :: formatHex b.toNat
      else formatHex b.toNat) =
      (List.replicate (2 - (hexDigits b.toNat).length) 0 ++ hexDigits b.toNat).map hexDigit := by
    simp only [formatHex, List.length_map]
    rcases (show (hexDigits b.toNat).length = 1 ∨ (hexDigits b.toNat).length = 2 by omega)
      with h | h <;> simp [h, hexDigit]
  obtain ⟨bs, hbs, hl, hv⟩ := decodeString_map_hexDigit
    (List.replicate (2 - (hexDigits b.toNat).length) 0 ++ hexDigits b.toNat)
    (by
      intro d hd
      rcases List.mem_append.1 hd with h | h
      · rw [List.eq_of_mem_replicate h]; norm_num
      · exact lt_of_mem_hexDigits h)
    (by simp; omega)
  have hbs1 : bs = [b] := by
    rcases bs with _ | ⟨c, _ | ⟨_, _⟩⟩
    · simp at hl
      omega
    · simp only [beValue_singleton, ofDigitsBE_replicate_zero_append, ofDigitsBE_hexDigits] at hv
      rw [UInt8.toNat_inj.1 hv]
    · simp at hl
      omega
  simp only [decodeHex, if_neg hnox, hstr, hbs, hbs1]

end Hex

namespace State

open GoHex Outcome

/-- `headerByteLength`. -/
def headerByteLength : ℕ := 1
/-- `sLength`. -/
def sLength : ℕ := 32
/-- `rLength`. -/
def rLength : ℕ := 32
/-- `vLength`. -/
def vLength : ℕ := 1
/-- `c0`, the first list header of RLP. -/
def c0 : ℕ := 192
/-- `shortRlp`, the longest payload a one-byte header announces. -/
def shortRlp : ℕ := 55
/-- `f7`, `c0 + shortRlp`. -/
def f7 : ℕ := 247
/-- `EfficiencyPercentageByteLength`. -/
def efficiencyPercentageByteLength : ℕ := 1

/-- `FORKID_DRAGONFRUIT`. -/
def forkIdDragonfruit : ℕ := 5
/-- `FORKID_ETROG`. -/
def forkIdEtrog : ℕ := 7
/-- `FORKID_ELDERBERRY`. -/
def forkIdElderberry : ℕ := 8

/-- `EncodeTransactions`: each transaction's record, and from Dragonfruit on
its percentage as `hex.DecodeHex(fmt.Sprintf("%x", p))`. A list of
percentages shorter than the transactions makes `effectivePercentages[i]`
panic. -/
def encodeTransactions (txs : List LegacyTx) (effectivePercentages : List UInt8)
    (forkID : ℕ) : Outcome CodecError (List UInt8) :=
  go txs 0 []
where
  /-- The loop over `txs` from index `i`, with the data written so far. -/
  go : List LegacyTx → ℕ → List UInt8 → Outcome CodecError (List UInt8)
    | [], _, batchL2Data => .ok batchL2Data
    | tx :: rest, i, batchL2Data => do
      let txData ← Outcome.ofExcept (prepareRPLTxData tx)
      let batchL2Data := batchL2Data ++ txData
      if forkIdDragonfruit ≤ forkID then
        let p ← index effectivePercentages i
        let effectivePercentageAsHex ← Outcome.ofExcept ((Hex.decodeHex (formatHex p.toNat)).mapError .hex)
        go rest (i + 1) (batchL2Data ++ effectivePercentageAsHex)
      else go rest (i + 1) batchL2Data

/-- What one pass of `DecodeTxs`'s loop body ends in, short of an error: a
record ending at `endPos`, with its percentage when the fork writes one,
or the early `return` that hands back the still-nil `err`. -/
inductive TxsStep where
  | record (endPos : ℕ) (tx : LegacyTx) (efficiencyPercentage : Option UInt8)
  | stop
  deriving DecidableEq

/-- `strconv.ParseUint` inside `DecodeTxs`: its error is returned as is. -/
def parseNum (r : Except NumError ℕ) : Outcome CodecError ℕ := Outcome.ofExcept (r.mapError .num)

/-- The `r`, `s` and `v` slices that follow a record's RLP list at
`dataStart`, taken the same way by both decoders. -/
def sliceSignature (txsData : List UInt8) (dataStart : ℕ) :
    Outcome CodecError (List UInt8 × List UInt8 × List UInt8) := do
  let rData ← slice txsData dataStart ((dataStart + rLength) % 2 ^ 64)
  let sData ← slice txsData ((dataStart + rLength) % 2 ^ 64)
    ((dataStart + rLength + sLength) % 2 ^ 64)
  let vData ← slice txsData ((dataStart + rLength + sLength) % 2 ^ 64)
    ((dataStart + rLength + sLength + vLength) % 2 ^ 64)
  pure (rData, sData, vData)

/-- The slices of a record once its bounds are known: `txInfo`, `r`, `s`,
`v`, and the percentage byte from Dragonfruit on. -/
def sliceRecord (txsData : List UInt8) (pos dataStart endPos : ℕ) (withPercentage : Bool) :
    Outcome CodecError (List UInt8 × List UInt8 × List UInt8 × List UInt8 × Option UInt8) := do
  let txInfo ← slice txsData pos dataStart
  let (rData, sData, vData) ← sliceSignature txsData dataStart
  if withPercentage then
    let efficiencyPercentage ← slice txsData ((dataStart + rLength + sLength + vLength) % 2 ^ 64)
      endPos
    let p ← index efficiencyPercentage 0
    pure (txInfo, rData, sData, vData, some p)
  else pure (txInfo, rData, sData, vData, none)

/-- The payload length announced by the list header byte `num` at `pos`,
or `none` when the length bytes of a long header run past the data:
`DecodeTxs` then returns with its still-nil error. -/
def txsListLength (txsData : List UInt8) (pos num : ℕ) : Outcome CodecError (Option ℕ) :=
  if shortRlp < num - c0 then
    if txsData.length < pos + 1 + num - f7 then pure none
    else do
      let lengthBytes ← slice txsData (pos + 1) (pos + 1 + num - f7)
      let n ← parseNum (parseUint (encodeToString lengthBytes) 16 64)
      if (n + num) % 2 ^ 64 < f7 then throw .errInvalidData
      else pure (some ((n + num) % 2 ^ 64 - f7))
  else pure (some (num - c0))

/-- `endPos` of a record whose list payload is `length` bytes long, in
`uint64`. -/
def txsEndPos (forkID pos length : ℕ) : ℕ :=
  let endPos := (pos + length + rLength + sLength + vLength + headerByteLength) % 2 ^ 64
  if forkIdDragonfruit ≤ forkID then (endPos + efficiencyPercentageByteLength) % 2 ^ 64
  else endPos

section Decode

variable (decodeBytes : List UInt8 → Option (List (List UInt8)))

/-- The rest of `DecodeTxs`'s loop body once the payload length is known:
the bounds checks, the slices and the decoding of the fields. The source
makes the check `endPos < pos` twice; the second can never fire. -/
def decodeTxsRecord (txsData : List UInt8) (forkID pos length : ℕ) :
    Outcome CodecError TxsStep :=
  let endPos := txsEndPos forkID pos length
  if txsData.length < endPos then throw .errInvalidData
  else if endPos < pos then throw .errInvalidData
  else do
    let _fullDataTx ← slice txsData pos endPos
    let dataStart := (pos + length + headerByteLength) % 2 ^ 64
    let (txInfo, rData, sData, vData, efficiencyPercentage) ←
      sliceRecord txsData pos dataStart endPos (decide (forkIdDragonfruit ≤ forkID))
    match decodeBytes txInfo with
    | none => throw .errInvalidData
    | some rlpFields => do
      let legacyTx ← Outcome.ofExcept (rlpFieldsToLegacyTx rlpFields vData rData sData)
      pure (.record endPos legacyTx efficiencyPercentage)

/-- One pass of `DecodeTxs`'s loop body from `pos`. -/
def decodeTxsStep (txsData : List UInt8) (forkID pos : ℕ) : Outcome CodecError TxsStep := do
  let header ← slice txsData pos (pos + 1)
  let num ← parseNum (parseUint (encodeToString header) 16 64)
  if num < c0 then throw .errInvalidData
  else
    match ← txsListLength txsData pos num with
    | none => pure .stop
    | some length => decodeTxsRecord decodeBytes txsData forkID pos length

end Decode

/-! ## The loop moves forward -/

/-- **What a successful `sliceSignature` says about its bounds**: the three
slices lie inside the data, and none of the sums wrapped. -/
theorem bounds_of_sliceSignature_eq_ok {txsData : List UInt8} {dataStart : ℕ}
    {r : List UInt8 × List UInt8 × List UInt8}
    (h : sliceSignature txsData dataStart = .ok r) :
    dataStart + 65 ≤ txsData.length ∧ dataStart + 65 < 2 ^ 64 := by
  simp only [sliceSignature, bind_eq_ok, slice_eq_ok] at h
  obtain ⟨_, ⟨h2, -, -⟩, _, ⟨h3, -, -⟩, _, ⟨h4, h5, -⟩, -⟩ := h
  simp only [rLength, sLength, vLength] at h2 h3 h4 h5
  -- each slice starts where the last one ended, so a wrapped end is below its start
  omega

/-- **What a successful `sliceRecord` says about its bounds**: the fixed
slices lie inside the data without wrapping, and the percentage slice is
not empty. -/
theorem bounds_of_sliceRecord_eq_ok {txsData : List UInt8} {pos dataStart endPos : ℕ} {w : Bool}
    {r : List UInt8 × List UInt8 × List UInt8 × List UInt8 × Option UInt8}
    (h : sliceRecord txsData pos dataStart endPos w = .ok r) :
    pos ≤ dataStart ∧ dataStart + 65 ≤ txsData.length ∧ dataStart + 65 < 2 ^ 64 ∧
      (w = true → dataStart + 65 < endPos) := by
  obtain ⟨_, hinfo, h⟩ := bind_eq_ok.1 h
  obtain ⟨⟨rData, sData, vData⟩, hsig, h⟩ := bind_eq_ok.1 h
  obtain ⟨h1, -, -⟩ := slice_eq_ok.1 hinfo
  obtain ⟨hlen, h64⟩ := bounds_of_sliceSignature_eq_ok hsig
  refine ⟨h1, hlen, h64, ?_⟩
  rintro rfl
  simp only [if_true, bind_eq_ok, slice_eq_ok, index_eq_ok] at h
  obtain ⟨_, ⟨h6, -, rfl⟩, _, ⟨hne, -⟩, -⟩ := h
  simp only [List.length_take, List.length_drop, rLength, sLength, vLength] at h6 hne
  omega

/-- **`sliceSignature` in bounds**: the 32, 32 and 1 bytes at `dataStart`. -/
theorem sliceSignature_of_le {txsData : List UInt8} {dataStart : ℕ}
    (h : dataStart + 65 ≤ txsData.length) (h64 : dataStart + 65 < 2 ^ 64) :
    sliceSignature txsData dataStart = .ok ((txsData.drop dataStart).take 32,
      (txsData.drop (dataStart + 32)).take 32, (txsData.drop (dataStart + 64)).take 1) := by
  simp only [sliceSignature, rLength, sLength, vLength]
  rw [Nat.mod_eq_of_lt (by omega : dataStart + 32 < 2 ^ 64),
    Nat.mod_eq_of_lt (by omega : dataStart + 32 + 32 < 2 ^ 64),
    Nat.mod_eq_of_lt (by omega : dataStart + 32 + 32 + 1 < 2 ^ 64),
    slice_of_le (by omega) (by omega), ok_bind, slice_of_le (by omega) (by omega), ok_bind,
    slice_of_le (by omega) (by omega), ok_bind]
  rw [show dataStart + 32 + 32 - (dataStart + 32) = 32 by omega,
    show dataStart + 32 + 32 + 1 - (dataStart + 32 + 32) = 1 by omega,
    show dataStart + 32 + 32 = dataStart + 64 by omega, Nat.add_sub_cancel_left]
  rfl

/-- **`sliceRecord` in bounds**: the list from `pos` to `dataStart`, the
signature, and the byte after it when the percentage is read. -/
theorem sliceRecord_of_le {txsData : List UInt8} {pos dataStart endPos : ℕ} {w : Bool}
    (hpos : pos ≤ dataStart) (hend : endPos = dataStart + 65 + w.toNat)
    (h : endPos ≤ txsData.length) (h64 : endPos < 2 ^ 64) :
    sliceRecord txsData pos dataStart endPos w = .ok ((txsData.drop pos).take (dataStart - pos),
      (txsData.drop dataStart).take 32, (txsData.drop (dataStart + 32)).take 32,
      (txsData.drop (dataStart + 64)).take 1, if w then txsData[dataStart + 65]? else none) := by
  have h65 : dataStart + 65 ≤ txsData.length := by cases w <;> simp at hend <;> omega
  unfold sliceRecord
  rw [slice_of_le hpos (by omega), ok_bind, sliceSignature_of_le h65 (by cases w <;> simp at hend <;> omega),
    ok_bind]
  cases w with
  | false => rfl
  | true =>
    simp only [Bool.toNat_true] at hend
    subst hend
    have hlt : dataStart + 65 < txsData.length := by omega
    simp only [if_true, rLength, sLength, vLength,
      Nat.mod_eq_of_lt (by omega : dataStart + 32 + 32 + 1 < 2 ^ 64)]
    rw [slice_of_le (by omega) h, ok_bind, index_of_lt (by simp; omega), ok_bind]
    simp [List.getElem?_eq_getElem hlt]

section Decode

variable {decodeBytes : List UInt8 → Option (List (List UInt8))}

/-- A record that `decodeTxsRecord` returns ends after `pos`, inside the data. -/
theorem lt_of_decodeTxsRecord_eq_record {txsData : List UInt8} {forkID pos length endPos : ℕ}
    {tx : LegacyTx} {ep : Option UInt8}
    (h : decodeTxsRecord decodeBytes txsData forkID pos length = .ok (.record endPos tx ep)) :
    pos < endPos ∧ endPos ≤ txsData.length := by
  unfold decodeTxsRecord at h
  dsimp only at h
  split_ifs at h with hlen hpos
  obtain ⟨_, -, h⟩ := bind_eq_ok.1 h
  obtain ⟨r, hr, h⟩ := bind_eq_ok.1 h
  obtain ⟨hds, -, hds64, hep⟩ := bounds_of_sliceRecord_eq_ok hr
  have hend : txsEndPos forkID pos length = endPos := by
    split at h
    · cases h
    · obtain ⟨_, -, h⟩ := bind_eq_ok.1 h
      cases h; rfl
  subst hend
  refine ⟨?_, by omega⟩
  -- without the percentage byte, `endPos` is `dataStart + 65` again
  by_cases hf : forkIdDragonfruit ≤ forkID
  · have := hep (decide_eq_true hf)
    omega
  · simp only [txsEndPos, hf, if_false, rLength, sLength, vLength, headerByteLength] at hpos hds hds64 ⊢
    omega

/-- **Progress of `DecodeTxs`**: a record read from `pos` ends after it,
inside the data. -/
theorem lt_of_decodeTxsStep_eq_record {txsData : List UInt8} {forkID pos endPos : ℕ}
    {tx : LegacyTx} {ep : Option UInt8}
    (h : decodeTxsStep decodeBytes txsData forkID pos = .ok (.record endPos tx ep)) :
    pos < endPos ∧ endPos ≤ txsData.length := by
  obtain ⟨_, -, h⟩ := bind_eq_ok.1 h
  obtain ⟨num, -, h⟩ := bind_eq_ok.1 h
  split_ifs at h
  obtain ⟨length, -, h⟩ := bind_eq_ok.1 h
  match length, h with
  | some length, h => exact lt_of_decodeTxsRecord_eq_record h

end Decode

section Loop

variable (decodeBytes : List UInt8 → Option (List (List UInt8)))

/-- `DecodeTxs`'s loop from `pos`, with the transactions and percentages
decoded so far. -/
def decodeTxsLoop (txsData : List UInt8) (forkID pos : ℕ) (txs : List LegacyTx)
    (efficiencyPercentages : List UInt8) :
    Outcome CodecError (List LegacyTx × List UInt8 × List UInt8) :=
  if pos < txsData.length then
    match _hstep : decodeTxsStep decodeBytes txsData forkID pos with
    | .ok (.record endPos tx efficiencyPercentage) =>
      decodeTxsLoop txsData forkID endPos (txs ++ [tx])
        (efficiencyPercentages ++ efficiencyPercentage.toList)
    | .ok .stop => .ok ([], txsData, [])
    | .err e => .err e
    | .panic => .panic
  else .ok (txs, txsData, efficiencyPercentages)
termination_by txsData.length - pos
decreasing_by
  have := lt_of_decodeTxsStep_eq_record _hstep
  omega

variable {decodeBytes} {txsData : List UInt8} {forkID pos : ℕ} {txs : List LegacyTx}
  {efficiencyPercentages : List UInt8}

/-- One pass of the loop, while `pos` is inside the data. -/
theorem decodeTxsLoop_of_lt (hpos : pos < txsData.length) :
    decodeTxsLoop decodeBytes txsData forkID pos txs efficiencyPercentages =
      match decodeTxsStep decodeBytes txsData forkID pos with
      | .ok (.record endPos tx efficiencyPercentage) =>
        decodeTxsLoop decodeBytes txsData forkID endPos (txs ++ [tx])
          (efficiencyPercentages ++ efficiencyPercentage.toList)
      | .ok .stop => .ok ([], txsData, [])
      | .err e => .err e
      | .panic => .panic := by
  rw [decodeTxsLoop, if_pos hpos]
  split <;> rename_i h <;> simp only [h]

/-- The loop ends once `pos` reaches the end of the data. -/
theorem decodeTxsLoop_of_le (hpos : txsData.length ≤ pos) :
    decodeTxsLoop decodeBytes txsData forkID pos txs efficiencyPercentages =
      .ok (txs, txsData, efficiencyPercentages) := by
  rw [decodeTxsLoop, if_neg (by omega)]

variable (decodeBytes)

/-- `DecodeTxs`: the transactions, the data itself, and the percentages. -/
def decodeTxs (txsData : List UInt8) (forkID : ℕ) :
    Outcome CodecError (List LegacyTx × List UInt8 × List UInt8) :=
  if txsData.length = 0 then .ok ([], txsData, [])
  else decodeTxsLoop decodeBytes txsData forkID 0 [] []

end Loop

end State

end XLayerNode
