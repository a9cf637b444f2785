import XLayerNode.State.EncodingBatchV2
/-!
# Transaction records, as both decoders read them

`DecodeTxs` and `decodeTxRLP` read a transaction record the same way: the
RLP list header at its start gives the size of the list, and `r`, `s`, the
`v` byte and the percentage follow at fixed offsets. `recordAt` states that
reading once, in unbounded arithmetic but for the one `uint64` sum the two
decoders share, the value of a long header plus its first byte.

`decodeTxsStep_eq` and `decodeTxRLP_of_recordAt` (with its companions for
the two other readings) say that each decoder computes `recordAt` on data a
Go slice can hold. They part only on what they make of a record that
`recordAt` rejects: `DecodeTxs` returns an error, or its still-nil `err`
for a truncated header, while `decodeTxRLP` may panic.
`recordAt_append_left` moves a reading past a prefix, such as the block
header in front of the records.
-/

namespace XLayerNode

namespace State

open GoHex Outcome

/-- What a list header at `pos` says about the list it starts. -/
inductive HeaderRead where
  /-- The list is `size` bytes long, its header included. -/
  | size (size : ℕ)
  /-- The length bytes of a long header run past the data. -/
  | truncated
  /-- Not a list header, or a long header whose `uint64` sum falls below
  `f7`. -/
  | malformed
  deriving DecidableEq

/-- The list header at `pos`. -/
def readHeader (txsData : List UInt8) (pos : ℕ) : HeaderRead :=
  let num := (txsData.getD pos 0).toNat
  if num < c0 then .malformed
  else if num - c0 ≤ shortRlp then .size (num - c0 + 1)
  else if txsData.length < pos + 1 + (num - f7) then .truncated
  else
    let n := beValue ((txsData.drop (pos + 1)).take (num - f7))
    if (n + num) % 2 ^ 64 < f7 then .malformed else .size ((n + num) % 2 ^ 64 - f7 + 1)

/-- The parts of a transaction record. -/
structure TxRecord where
  txInfo : List UInt8
  rData : List UInt8
  sData : List UInt8
  vData : List UInt8
  efficiencyPercentage : Option UInt8
  deriving DecidableEq

/-- What reading a record at a position gives. -/
inductive RecordRead where
  /-- A record of `length` bytes. -/
  | record (length : ℕ) (rec : TxRecord)
  | truncated
  | malformed
  deriving DecidableEq

/-- The record at `pos` whose list is `size` bytes long: malformed when it
runs past the data. -/
def recordOfSize (withPercentage : Bool) (txsData : List UInt8) (pos size : ℕ) : RecordRead :=
  if txsData.length < pos + size + 65 + withPercentage.toNat then .malformed
  else .record (size + 65 + withPercentage.toNat)
    { txInfo := (txsData.drop pos).take size
      rData := (txsData.drop (pos + size)).take 32
      sData := (txsData.drop (pos + size + 32)).take 32
      vData := (txsData.drop (pos + size + 64)).take 1
      efficiencyPercentage := if withPercentage then txsData[pos + size + 65]? else none }

/-- The record at `pos`. -/
def recordAt (withPercentage : Bool) (txsData : List UInt8) (pos : ℕ) : RecordRead :=
  match readHeader txsData pos with
  | .size size => recordOfSize withPercentage txsData pos size
  | .truncated => .truncated
  | .malformed => .malformed

section Decode

variable (decodeBytes : List UInt8 → Option (List (List UInt8)))

/-- What `DecodeTxs` makes of a record that ends at `endPos`. -/
def TxRecord.txsStep (rec : TxRecord) (endPos : ℕ) : Outcome CodecError TxsStep :=
  match decodeBytes rec.txInfo with
  | none => throw .errInvalidData
  | some rlpFields => do
    let legacyTx ← Outcome.ofExcept (rlpFieldsToLegacyTx rlpFields rec.vData rec.rData rec.sData)
    pure (.record endPos legacyTx rec.efficiencyPercentage)

/-- What `decodeTxRLP` makes of a record that ends at `endPos`: it reads the
percentage byte first, and names an rlp error as such. -/
def TxRecord.l2TxRaw (rec : TxRecord) (endPos : ℕ) : Outcome CodecError (ℕ × L2TxRaw) := do
  let efficiencyPercentage ← index rec.efficiencyPercentage.toList 0
  match decodeBytes rec.txInfo with
  | none => throw CodecError.errRlp
  | some rlpFields => do
    let legacyTx ← Outcome.ofExcept (rlpFieldsToLegacyTx rlpFields rec.vData rec.rData rec.sData)
    pure (endPos, ⟨legacyTx, efficiencyPercentage⟩)

end Decode

/-! ## The reading itself -/

/-- A list read from a header is at least one byte long, and short of
`2 ^ 64` by more than the record's fixed part. -/
theorem bounds_of_readHeader_eq_size {txsData : List UInt8} {pos size : ℕ}
    (h : readHeader txsData pos = .size size) : 1 ≤ size ∧ size + 247 ≤ 2 ^ 64 := by
  unfold readHeader at h
  dsimp only at h
  split_ifs at h with h1 h2 h3 h4 <;> cases h
  · simp only [c0, shortRlp] at h2; omega
  · simp only [f7] at h4 ⊢; omega

/-- The header byte of a record is not the block tag. -/
theorem ne_changeL2Block_of_readHeader {txsData : List UInt8} {pos : ℕ}
    (h : readHeader txsData pos ≠ .malformed) : txsData.getD pos 0 ≠ changeL2Block := by
  intro htag
  apply h
  unfold readHeader
  rw [htag]
  rfl

/-- Reading past a prefix. -/
@[simp] theorem readHeader_append_left (p txsData : List UInt8) (pos : ℕ) :
    readHeader (p ++ txsData) (p.length + pos) = readHeader txsData pos := by
  simp only [readHeader, List.getD_eq_getElem?_getD, List.getElem?_append_right (by omega : p.length ≤ p.length + pos),
    Nat.add_sub_cancel_left, List.length_append, Nat.add_assoc, Nat.add_lt_add_iff_left,
    List.drop_append, List.drop_eq_nil_of_le (by omega : p.length ≤ p.length + (pos + 1)),
    List.nil_append]

@[simp] theorem recordOfSize_append_left (w : Bool) (p txsData : List UInt8) (pos size : ℕ) :
    recordOfSize w (p ++ txsData) (p.length + pos) size = recordOfSize w txsData pos size := by
  have hget : (p ++ txsData)[p.length + (pos + size + 65)]? = txsData[pos + size + 65]? := by
    rw [List.getElem?_append_right (by omega), Nat.add_sub_cancel_left]
  simp only [recordOfSize, List.length_append, Nat.add_assoc p.length, List.drop_length_add_append,
    hget, Nat.add_lt_add_iff_left]

/-- **Reading past a prefix**: a record of the data after `p` reads the same
in `p ++ txsData`, at the position shifted by `p`. -/
@[simp] theorem recordAt_append_left (w : Bool) (p txsData : List UInt8) (pos : ℕ) :
    recordAt w (p ++ txsData) (p.length + pos) = recordAt w txsData pos := by
  simp only [recordAt, readHeader_append_left, recordOfSize_append_left]

/-- A record was read from a list header. -/
theorem readHeader_ne_malformed_of_recordAt {w : Bool} {txsData : List UInt8} {pos length : ℕ}
    {rec : TxRecord} (h : recordAt w txsData pos = .record length rec) :
    readHeader txsData pos ≠ .malformed := by
  intro hm
  rw [recordAt, hm] at h
  cases h

/-- Reading right after a prefix. -/
theorem recordAt_append_length (w : Bool) (p txsData : List UInt8) :
    recordAt w (p ++ txsData) p.length = recordAt w txsData 0 :=
  recordAt_append_left w p txsData 0

/-! ## Reading back what the encoder writes -/

/-- **The header of an RLP list reads back the list's size**, for a
payload short of `2 ^ 64` by more than a header. -/
theorem readHeader_encodeList (items : List (List UInt8)) (rest : List UInt8)
    (hlen : (Rlp.payload items).length + 255 < 2 ^ 64) :
    readHeader (Rlp.encodeList items ++ rest) 0 = .size (Rlp.encodeList items).length := by
  unfold readHeader
  dsimp only
  unfold c0 shortRlp f7
  by_cases hshort : (Rlp.payload items).length < 56
  · -- one header byte, `0xc0 + len`
    have hnum : ((Rlp.encodeList items ++ rest).getD 0 0).toNat =
        192 + (Rlp.payload items).length := by
      simp only [Rlp.encodeList, Rlp.encodeLength_of_lt hshort, List.cons_append,
        List.getD_cons_zero, UInt8.toNat_ofNat']
      omega
    rw [hnum, if_neg (by omega), if_pos (by omega), Rlp.length_encodeList,
      Rlp.encodeLength_of_lt hshort, List.length_singleton,
      show 192 + (Rlp.payload items).length - 192 + 1 = 1 + (Rlp.payload items).length by omega]
  -- the byte `0xf7 + k`, then the `k` bytes of the length
  have hk : 1 ≤ (beBytes (Rlp.payload items).length).length ∧
      (beBytes (Rlp.payload items).length).length ≤ 8 :=
    Rlp.length_beBytes_of_long (by omega) (by omega)
  have hnum : ((Rlp.encodeList items ++ rest).getD 0 0).toNat =
      247 + (beBytes (Rlp.payload items).length).length := by
    simp only [Rlp.encodeList, Rlp.encodeLength_of_le (by omega : 56 ≤ (Rlp.payload items).length),
      List.cons_append, List.getD_cons_zero, UInt8.toNat_ofNat']
    omega
  have hwindow : ((Rlp.encodeList items ++ rest).drop (0 + 1)).take
      (247 + (beBytes (Rlp.payload items).length).length - 247) =
      beBytes (Rlp.payload items).length := by
    simp only [Rlp.encodeList, Rlp.encodeLength_of_le (by omega : 56 ≤ (Rlp.payload items).length),
      Nat.zero_add, List.cons_append, List.drop_succ_cons, List.drop_zero, Nat.add_sub_cancel_left,
      List.append_assoc, List.take_left']
  rw [hnum, if_neg (by omega), if_neg (by omega), hwindow, beValue_beBytes,
    if_neg (by simp [Rlp.length_encodeList, Rlp.encodeLength_of_le (by omega :
      56 ≤ (Rlp.payload items).length)]; omega),
    Nat.mod_eq_of_lt (by omega), if_neg (by omega), Rlp.length_encodeList,
    Rlp.encodeLength_of_le (by omega), List.length_cons]
  rw [show (Rlp.payload items).length + (247 + (beBytes (Rlp.payload items).length).length) -
      247 + 1 = (beBytes (Rlp.payload items).length).length + 1 + (Rlp.payload items).length
      by omega]

/-- **A record the encoder writes reads back whole**: its RLP list, the 32
bytes of `r` and of `s`, the `v` byte, and the percentage byte when the
format has one. -/
theorem recordAt_encodeList (w : Bool) (items : List (List UInt8)) {rData sData : List UInt8}
    (v : UInt8) {ep : List UInt8} (rest : List UInt8) (hr : rData.length = 32)
    (hs : sData.length = 32) (hep : ep.length = w.toNat)
    (hlen : (Rlp.payload items).length + 255 < 2 ^ 64) :
    recordAt w (Rlp.encodeList items ++ rData ++ sData ++ [v] ++ ep ++ rest) 0 =
      .record ((Rlp.encodeList items).length + 65 + w.toNat)
        ⟨Rlp.encodeList items, rData, sData, [v], ep.head?⟩ := by
  have hheader := readHeader_encodeList items (rData ++ sData ++ [v] ++ ep ++ rest) hlen
  simp only [← List.append_assoc] at hheader
  simp only [recordAt, hheader]
  unfold recordOfSize
  rw [if_neg (by simp; omega)]
  -- each part is a window past the parts before it
  have hsig : ∀ k, (Rlp.encodeList items ++ rData ++ sData ++ [v] ++ ep ++ rest).drop
      ((Rlp.encodeList items).length + k) =
      (rData ++ sData ++ [v] ++ ep ++ rest).drop k := by
    intro k
    simp only [List.append_assoc, List.drop_length_add_append]
  simp only [Nat.zero_add, List.drop_zero, hsig, RecordRead.record.injEq, TxRecord.mk.injEq,
    true_and]
  have hv : (rData ++ sData ++ [v] ++ ep ++ rest).drop 64 = v :: (ep ++ rest) := by
    rw [show rData ++ sData ++ [v] ++ ep ++ rest = (rData ++ sData) ++ v :: (ep ++ rest) by simp,
      show 64 = (rData ++ sData).length by simp [hr, hs], List.drop_left]
  refine ⟨by simp, by simp [hr], by simp [hr, hs], by rw [hv]; rfl, ?_⟩
  -- the percentage byte, when there is one, is the byte after `v`
  cases w with
  | false =>
    rw [List.eq_nil_of_length_eq_zero hep]
    rfl
  | true =>
    obtain ⟨p, rfl⟩ := List.length_eq_one_iff.1 hep
    simp [List.getElem?_append_right, hr, hs]

/-! ## `DecodeTxs` reads `recordAt` -/

/-- The first byte of a slice window. -/
theorem beValue_take_one_drop {txsData : List UInt8} {pos : ℕ} (hpos : pos < txsData.length) :
    beValue ((txsData.drop pos).take 1) = (txsData.getD pos 0).toNat := by
  rw [List.drop_eq_getElem_cons hpos, List.take_succ_cons, List.take_zero, beValue_singleton,
    List.getD_eq_getElem _ _ hpos]

/-- `DecodeTxs` reads the payload length from the header as `readHeader`
does: the short form directly, the long form through its length bytes in
hex, its `uint64` sum checked against `f7`. -/
theorem txsListLength_eq {txsData : List UInt8} {pos : ℕ}
    (hc0 : c0 ≤ (txsData.getD pos 0).toNat) :
    txsListLength txsData pos (txsData.getD pos 0).toNat =
      match readHeader txsData pos with
      | .size size => .ok (some (size - 1))
      | .truncated => .ok none
      | .malformed => .err .errInvalidData := by
  have hb := (txsData.getD pos 0).toNat_lt
  unfold txsListLength readHeader
  dsimp only
  generalize (txsData.getD pos 0).toNat = num at hc0 hb ⊢
  unfold c0 shortRlp f7 at *
  rw [if_neg (show ¬ num < 192 by omega)]
  by_cases hshort : num - 192 ≤ 55
  · rw [if_neg (show ¬ 55 < num - 192 by omega), if_pos hshort]
    simp only [pure_def, Nat.add_sub_cancel]
  rw [if_pos (show 55 < num - 192 by omega), if_neg hshort]
  by_cases htrunc : txsData.length < pos + 1 + (num - 247)
  · rw [if_pos (show txsData.length < pos + 1 + num - 247 by omega), if_pos htrunc]
    rfl
  -- the long form: between one and eight length bytes, all present
  rw [if_neg (show ¬ txsData.length < pos + 1 + num - 247 by omega), if_neg htrunc,
    slice_of_le (by omega) (by omega), ok_bind,
    show pos + 1 + num - 247 - (pos + 1) = num - 247 by omega]
  have hne : (txsData.drop (pos + 1)).take (num - 247) ≠ [] := by
    simp only [ne_eq, List.take_eq_nil_iff, List.drop_eq_nil_iff]
    omega
  have h8 : ((txsData.drop (pos + 1)).take (num - 247)).length ≤ 8 := by
    simp only [List.length_take]
    omega
  rw [parseNum, parseUint_encodeToString hne h8, Except.mapError, ofExcept_ok, ok_bind]
  by_cases hsum : (beValue ((txsData.drop (pos + 1)).take (num - 247)) + num) % 2 ^ 64 < 247
  · rw [if_pos hsum, if_pos hsum]
    rfl
  · rw [if_neg hsum, if_neg hsum, pure_def]
    dsimp only
    rw [Nat.add_sub_cancel]

section Decode

variable {decodeBytes : List UInt8 → Option (List (List UInt8))}

/-- **`DecodeTxs` checks a record's bounds as `recordOfSize` does.** In
data shorter than `2 ^ 64`, a record inside the data is read without
wrapping, and one that runs past it fails one of the two checks on
`endPos`, wrapped or not. -/
theorem decodeTxsRecord_eq {txsData : List UInt8} (hlen : txsData.length < 2 ^ 64)
    {forkID pos size : ℕ} (hsize : 1 ≤ size) (hbound : size + 247 ≤ 2 ^ 64) :
    decodeTxsRecord decodeBytes txsData forkID pos (size - 1) =
      match recordOfSize (decide (forkIdDragonfruit ≤ forkID)) txsData pos size with
      | .record length rec => rec.txsStep decodeBytes (pos + length)
      | _ => .err .errInvalidData := by
  have hend : txsEndPos forkID pos (size - 1) =
      (pos + size + 65 + (decide (forkIdDragonfruit ≤ forkID)).toNat) % 2 ^ 64 := by
    simp only [txsEndPos, rLength, sLength, vLength, headerByteLength,
      efficiencyPercentageByteLength]
    split_ifs with hf <;> simp only [hf, decide_true, decide_false, Bool.toNat_true,
      Bool.toNat_false] <;> omega
  have hwle := Bool.toNat_le (decide (forkIdDragonfruit ≤ forkID))
  unfold decodeTxsRecord recordOfSize
  dsimp only
  rw [hend]
  by_cases hfit : txsData.length < pos + size + 65 + (decide (forkIdDragonfruit ≤ forkID)).toNat
  · -- past the data: a wrapped `endPos` falls below `pos`
    rw [if_pos hfit]
    split_ifs <;> first | rfl | omega
  rw [if_neg hfit, Nat.mod_eq_of_lt (by omega), if_neg (by omega), if_neg (by omega),
    slice_of_le (by omega) (by omega), ok_bind,
    show (pos + (size - 1) + headerByteLength) % 2 ^ 64 = pos + size by
      simp only [headerByteLength]; rw [Nat.mod_eq_of_lt (by omega)]; omega,
    sliceRecord_of_le (by omega) (by omega) (by omega) (by omega), ok_bind,
    Nat.add_sub_cancel_left]
  -- the two sides match on the decoded fields with separate matchers
  dsimp only [TxRecord.txsStep]
  cases decodeBytes (List.take size (List.drop pos txsData)) <;> simp only [Nat.add_assoc]

/-- **`DecodeTxs`'s loop body computes `recordAt`** on data shorter than
`2 ^ 64`: a record's transaction and end, the early nil return for a
truncated header, and `ErrInvalidData` for a malformed record. -/
theorem decodeTxsStep_eq {txsData : List UInt8} (hlen : txsData.length < 2 ^ 64)
    {forkID pos : ℕ} (hpos : pos < txsData.length) :
    decodeTxsStep decodeBytes txsData forkID pos =
      match recordAt (decide (forkIdDragonfruit ≤ forkID)) txsData pos with
      | .record length rec => rec.txsStep decodeBytes (pos + length)
      | .truncated => .ok .stop
      | .malformed => .err .errInvalidData := by
  have hheader : parseNum (parseUint (encodeToString ((txsData.drop pos).take (pos + 1 - pos)))
      16 64) = .ok (txsData.getD pos 0).toNat := by
    rw [Nat.add_sub_cancel_left, parseNum,
      parseUint_encodeToString (by simp; omega) (by simp), beValue_take_one_drop hpos]
    rfl
  unfold decodeTxsStep
  rw [slice_of_le (by omega) (by omega), ok_bind, hheader, ok_bind]
  by_cases hc : (txsData.getD pos 0).toNat < c0
  · have hr : readHeader txsData pos = .malformed := by simp only [readHeader, hc, if_true]
    rw [if_pos hc, recordAt, hr]
    rfl
  rw [if_neg hc, txsListLength_eq (by omega), recordAt]
  cases hr : readHeader txsData pos with
  | size size =>
    obtain ⟨h1, h2⟩ := bounds_of_readHeader_eq_size hr
    rw [ok_bind]
    dsimp only
    rw [decodeTxsRecord_eq hlen h1 h2]
    unfold recordOfSize
    split_ifs <;> rfl
  | truncated => rfl
  | malformed => rfl

end Decode

/-! ## `decodeTxRLP` reads `recordAt` -/

/-- `decodeRLPListLengthFromOffset` in the shape of `readHeader`: the length
bytes of a long header are read through hex, and `n + num - f7 + 1` is
taken in `uint64` with no check. -/
theorem decodeRLPListLengthFromOffset_eq {txsData : List UInt8} {offset : ℕ}
    (hpos : offset < txsData.length) :
    decodeRLPListLengthFromOffset txsData offset =
      let num := (txsData.getD offset 0).toNat
      if num < c0 then .err .errInvalidRLP
      else if num - c0 ≤ shortRlp then .ok (num - c0 + 1)
      else if txsData.length < offset + 1 + (num - f7) then .err .errInvalidRLP
      else .ok ((((beValue ((txsData.drop (offset + 1)).take (num - f7)) + num) % 2 ^ 64 +
        2 ^ 64 - f7) % 2 ^ 64 + 1) % 2 ^ 64) := by
  unfold decodeRLPListLengthFromOffset
  rw [index_of_lt hpos, ok_bind, ← List.getD_eq_getElem _ 0 hpos]
  dsimp only
  have hb := (txsData.getD offset 0).toNat_lt
  generalize (txsData.getD offset 0).toNat = num at hb ⊢
  unfold c0 shortRlp f7 headerByteLength
  by_cases hc : num < 192
  · rw [if_pos hc, if_pos hc]
    rfl
  rw [if_neg hc, if_neg hc]
  by_cases hshort : num - 192 ≤ 55
  · rw [if_neg (show ¬ 55 < num - 192 by omega), if_pos hshort]
    rfl
  rw [if_pos (show 55 < num - 192 by omega), if_neg hshort]
  by_cases htrunc : txsData.length < offset + 1 + (num - 247)
  · rw [if_pos htrunc, if_pos htrunc]
    rfl
  have hne : (txsData.drop (offset + 1)).take (num - 247) ≠ [] := by
    simp only [ne_eq, List.take_eq_nil_iff, List.drop_eq_nil_iff]
    omega
  have h8 : ((txsData.drop (offset + 1)).take (num - 247)).length ≤ 8 := by
    simp only [List.length_take]
    omega
  rw [if_neg htrunc, if_neg htrunc, slice_of_le (by omega) (by omega), ok_bind,
    Nat.add_sub_cancel_left, parseNum, parseUint_encodeToString hne h8, Except.mapError,
    ofExcept_ok, ok_bind]
  rfl

/-- A list `readHeader` sizes is the size `decodeRLPListLengthFromOffset`
returns. -/
theorem decodeRLPListLengthFromOffset_of_size {txsData : List UInt8} {offset size : ℕ}
    (hpos : offset < txsData.length) (h : readHeader txsData offset = .size size) :
    decodeRLPListLengthFromOffset txsData offset = .ok size := by
  rw [decodeRLPListLengthFromOffset_eq hpos]
  unfold readHeader at h
  dsimp only at h ⊢
  split_ifs at h ⊢ with h1 h2 h3 h4 <;> cases h
  · rfl
  · -- the checked sum is at least `f7`: the subtraction does not wrap
    simp only [f7] at h4 ⊢
    rw [ok.injEq]
    omega

/-- Length bytes running past the data are an error. -/
theorem decodeRLPListLengthFromOffset_of_truncated {txsData : List UInt8} {offset : ℕ}
    (hpos : offset < txsData.length) (h : readHeader txsData offset = .truncated) :
    decodeRLPListLengthFromOffset txsData offset = .err .errInvalidRLP := by
  rw [decodeRLPListLengthFromOffset_eq hpos]
  unfold readHeader at h
  dsimp only at h ⊢
  split_ifs at h ⊢
  rfl

/-- **Where the two readings of a header part**: for a long header whose
`uint64` sum falls below `f7`, `decodeRLPListLengthFromOffset` does not
fail but wraps, to a size of `0` or of at least `2 ^ 64 - 246`. -/
theorem decodeRLPListLengthFromOffset_of_malformed {txsData : List UInt8} {offset : ℕ}
    (hpos : offset < txsData.length) (h : readHeader txsData offset = .malformed) :
    decodeRLPListLengthFromOffset txsData offset = .err .errInvalidRLP ∨
      ∃ length, decodeRLPListLengthFromOffset txsData offset = .ok length ∧
        (length = 0 ∨ 2 ^ 64 - 246 ≤ length) := by
  rw [decodeRLPListLengthFromOffset_eq hpos]
  unfold readHeader at h
  dsimp only at h ⊢
  split_ifs at h ⊢ with h1 h2 h3 h4 <;> try cases h
  · exact Or.inl rfl
  · refine Or.inr ⟨_, rfl, ?_⟩
    simp only [f7] at h4 ⊢
    omega

section Decode

variable {decodeBytes : List UInt8 → Option (List (List UInt8))}

/-- **`decodeTxRLP` once the size is known**: in data shorter than `2 ^ 63`,
a record that fits is sliced at the offsets `recordOfSize` names. -/
theorem decodeTxRLP_of_length {txsData : List UInt8} (hlen : txsData.length < 2 ^ 63)
    {offset length : ℕ} (h : decodeRLPListLengthFromOffset txsData offset = .ok length)
    (hfit : offset + length + 66 ≤ txsData.length) :
    decodeTxRLP decodeBytes txsData offset =
      TxRecord.l2TxRaw decodeBytes
        { txInfo := (txsData.drop offset).take length
          rData := (txsData.drop (offset + length)).take 32
          sData := (txsData.drop (offset + length + 32)).take 32
          vData := (txsData.drop (offset + length + 64)).take 1
          efficiencyPercentage := txsData[offset + length + 65]? }
        (offset + length + 66) := by
  have hget : txsData[offset + length + 65]? = some txsData[offset + length + 65] :=
    List.getElem?_eq_getElem (by omega)
  unfold decodeTxRLP
  rw [h, ok_bind]
  dsimp only
  unfold rLength sLength vLength efficiencyPercentageByteLength
  rw [Nat.mod_eq_of_lt (show offset + length + 32 + 32 + 1 + 1 < 2 ^ 64 by omega),
    if_neg (by omega), slice_of_le (by omega) (by omega), ok_bind,
    Nat.mod_eq_of_lt (show offset + length < 2 ^ 64 by omega),
    slice_of_le (by omega) (by omega), ok_bind, sliceSignature_of_le (by omega) (by omega),
    ok_bind, Nat.mod_eq_of_lt (show offset + length + 32 + 32 + 1 < 2 ^ 64 by omega),
    index_of_lt (by omega), ok_bind]
  simp only [TxRecord.l2TxRaw, hget, Option.toList_some, Nat.add_sub_cancel_left]
  rw [index_of_lt (by simp), ok_bind]
  rfl

/-- **`decodeTxRLP` computes `recordAt`** on a record it can read: the same
slices, and the transaction decoded from them. -/
theorem decodeTxRLP_of_recordAt {txsData : List UInt8} (hlen : txsData.length < 2 ^ 63)
    {offset length : ℕ} {rec : TxRecord} (hpos : offset < txsData.length)
    (h : recordAt true txsData offset = .record length rec) :
    decodeTxRLP decodeBytes txsData offset = rec.l2TxRaw decodeBytes (offset + length) := by
  unfold recordAt at h
  cases hr : readHeader txsData offset with
  | size size =>
    rw [hr] at h
    dsimp only at h
    unfold recordOfSize at h
    simp only [Bool.toNat_true, ↓reduceIte] at h
    split_ifs at h with hfit
    cases h
    rw [decodeTxRLP_of_length hlen (decodeRLPListLengthFromOffset_of_size hpos hr) (by omega)]
    simp only [Nat.add_assoc]
  | truncated => rw [hr] at h; cases h
  | malformed => rw [hr] at h; cases h

/-- A record whose length bytes run past the data is an error to
`decodeTxRLP`. -/
theorem decodeTxRLP_of_truncated {txsData : List UInt8} {offset : ℕ}
    (hpos : offset < txsData.length) (h : recordAt true txsData offset = .truncated) :
    decodeTxRLP decodeBytes txsData offset = .err .errInvalidRLP := by
  unfold recordAt at h
  cases hr : readHeader txsData offset with
  | size size =>
    rw [hr] at h
    dsimp only at h
    unfold recordOfSize at h
    split_ifs at h
  | truncated =>
    unfold decodeTxRLP
    rw [decodeRLPListLengthFromOffset_of_truncated hpos hr, err_bind]
  | malformed => rw [hr] at h; cases h

/-- **`decodeTxRLP` never accepts a record `recordAt` rejects**, in data
shorter than `2 ^ 63`, for an rlp decoder that rejects empty input: it
returns an error or panics. A wrapped size of `0` leaves an empty list for
the rlp decoder; any other wrapped size, or a record running past the data,
is caught by a bounds check or panics in a slice. -/
theorem decodeTxRLP_ne_ok_of_malformed {txsData : List UInt8} (hlen : txsData.length < 2 ^ 63)
    (hempty : decodeBytes [] = none) {offset : ℕ} (hpos : offset < txsData.length)
    (h : recordAt true txsData offset = .malformed) (r : ℕ × L2TxRaw) :
    decodeTxRLP decodeBytes txsData offset ≠ .ok r := by
  intro hr
  obtain ⟨length, hlength, hfit, -⟩ := bounds_of_decodeTxRLP_eq_ok hlen hr
  unfold recordAt at h
  cases hh : readHeader txsData offset with
  | size size =>
    -- the list fits, so the record ran past the data
    rw [hh] at h
    dsimp only at h
    rw [decodeRLPListLengthFromOffset_of_size hpos hh, ok.injEq] at hlength
    subst hlength
    unfold recordOfSize at h
    split_ifs at h with hfit'
    simp only [Bool.toNat_true] at hfit'
    omega
  | truncated => rw [hh] at h; cases h
  | malformed =>
    rcases decodeRLPListLengthFromOffset_of_malformed hpos hh with hl | ⟨length', hl, hwrap⟩
    · rw [hl] at hlength; cases hlength
    rw [hl, ok.injEq] at hlength
    subst hlength
    -- a wrapped size that fits is `0`: the rlp decoder sees no bytes
    have hzero : length' = 0 := by omega
    subst hzero
    rw [decodeTxRLP_of_length hlen hl hfit] at hr
    simp only [TxRecord.l2TxRaw, Nat.add_zero, List.take_zero, hempty] at hr
    obtain ⟨_, -, hr⟩ := bind_eq_ok.1 hr
    cases hr

end Decode

/-! ## One pass of each loop over a record

What each loop does with a record `recordAt` reads, stated once for the
round trips and for the agreement of the two decoders. -/

/-- A record lies inside the data, and is at least one byte long. -/
theorem bounds_of_recordAt {w : Bool} {txsData : List UInt8} {pos length : ℕ} {rec : TxRecord}
    (h : recordAt w txsData pos = .record length rec) :
    0 < length ∧ pos + length ≤ txsData.length := by
  unfold recordAt at h
  cases hr : readHeader txsData pos with
  | size size =>
    rw [hr] at h
    dsimp only at h
    unfold recordOfSize at h
    by_cases hfit : txsData.length < pos + size + 65 + w.toNat
    · rw [if_pos hfit] at h
      cases h
    · rw [if_neg hfit] at h
      cases h
      omega
  | truncated => rw [hr] at h; cases h
  | malformed => rw [hr] at h; cases h

/-- A record read with its percentage has one. -/
theorem isSome_efficiencyPercentage_of_recordAt {txsData : List UInt8} {pos length : ℕ}
    {rec : TxRecord} (h : recordAt true txsData pos = .record length rec) :
    rec.efficiencyPercentage.isSome := by
  unfold recordAt at h
  cases hr : readHeader txsData pos with
  | size size =>
    rw [hr] at h
    dsimp only at h
    unfold recordOfSize at h
    by_cases hfit : txsData.length < pos + size + 65 + true.toNat
    · rw [if_pos hfit] at h
      cases h
    · rw [if_neg hfit, if_pos rfl] at h
      cases h
      rw [Bool.toNat_true] at hfit
      rw [isSome_getElem?]
      omega
  | truncated => rw [hr] at h; cases h
  | malformed => rw [hr] at h; cases h

section Loop

variable {decodeBytes : List UInt8 → Option (List (List UInt8))}

/-- **One pass of `DecodeTxs` over a record**, in data shorter than
`2 ^ 64`: the loop moves on with what `txsStep` makes of it. -/
theorem decodeTxsLoop_of_recordAt {txsData : List UInt8} (hlen : txsData.length < 2 ^ 64)
    {forkID pos length : ℕ} {rec : TxRecord}
    (h : recordAt (decide (forkIdDragonfruit ≤ forkID)) txsData pos = .record length rec)
    {endPos : ℕ} {tx : LegacyTx} {ep : Option UInt8}
    (hstep : rec.txsStep decodeBytes (pos + length) = .ok (.record endPos tx ep))
    (txs : List LegacyTx) (efficiencyPercentages : List UInt8) :
    decodeTxsLoop decodeBytes txsData forkID pos txs efficiencyPercentages =
      decodeTxsLoop decodeBytes txsData forkID endPos (txs ++ [tx])
        (efficiencyPercentages ++ ep.toList) := by
  have hpos : pos < txsData.length := by
    have := bounds_of_recordAt h
    omega
  rw [decodeTxsLoop_of_lt hpos, decodeTxsStep_eq hlen hpos, h]
  dsimp only
  rw [hstep]

/-- **One pass of `DecodeBatchV2` over a record, inside a block**, in data
shorter than `2 ^ 63`: the loop moves on with what `l2TxRaw` makes of it. -/
theorem decodeBatchV2Loop_of_recordAt {txsData : List UInt8} (hlen : txsData.length < 2 ^ 63)
    {pos length : ℕ} {rec : TxRecord} (h : recordAt true txsData pos = .record length rec)
    {pos' : ℕ} {tx : L2TxRaw} (htx : rec.l2TxRaw decodeBytes (pos + length) = .ok (pos', tx))
    (blocks : List L2BlockRaw) (b : L2BlockRaw) :
    decodeBatchV2Loop decodeBytes txsData hlen pos blocks (some b) =
      decodeBatchV2Loop decodeBytes txsData hlen pos' blocks
        (some { b with transactions := b.transactions ++ [tx] }) := by
  have hpos : pos < txsData.length := by
    have := bounds_of_recordAt h
    omega
  -- a record starts with a list header, not with the block tag
  have htag : txsData[pos] ≠ changeL2Block := by
    have := ne_changeL2Block_of_readHeader (readHeader_ne_malformed_of_recordAt h)
    rwa [List.getD_eq_getElem _ _ hpos] at this
  rw [decodeBatchV2Loop_of_ne_tag hpos htag, decodeTxRLP_of_recordAt hlen hpos h, htx]

end Loop

end State

end XLayerNode
