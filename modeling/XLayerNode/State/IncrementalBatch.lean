import XLayerNode.State.RoundTrip
/-!
# Batch data that grows block by block

The sequencer writes a batch's data one L2 block at a time: `storeL2Block`
appends the block's `changeL2Block` bytes and its encoded transactions to
`BatchL2Data`. The trusted synchronizer reads a batch that has grown since
it last saw it as the old data followed by new blocks: `composePartialBatch`
decodes the new bytes alone and encodes them again.

Both rest on `DecodeBatchV2` being a homomorphism at block boundaries
(`decodeBatchV2_append`): behind data it reads, bytes that start with the
block tag read as they would alone, and their blocks follow. The loop
carries an open block from pass to pass, and the tag at the boundary
closes it, so what follows never depends on what came before. Each reader
of the decoder is moved past a prefix (`_append_left`) and kept when more
data follows (`_append_right`), from `deserializeUint32` up to one pass of
the loop; the two loop lemmas then carry those along a whole run.
-/

namespace XLayerNode

namespace State

open Outcome

theorem length_lt_of_append_left {p s : List UInt8} (h : (p ++ s).length < 2 ^ 63) :
    p.length < 2 ^ 63 :=
  lt_of_le_of_lt (by simp) h

theorem length_lt_of_append_right {p s : List UInt8} (h : (p ++ s).length < 2 ^ 63) :
    s.length < 2 ^ 63 :=
  lt_of_le_of_lt (by simp) h

/-! ## Words and block headers -/

section Header

variable (p s : List UInt8)

theorem deserializeUint32_append_left (pos : ℕ) :
    deserializeUint32 (p ++ s) (p.length + pos) =
      (fun r => (p.length + r.1, r.2)) <$> deserializeUint32 s pos := by
  unfold deserializeUint32
  rw [List.length_append, Nat.add_sub_add_left]
  split_ifs
  · rfl
  · simp only [Nat.add_assoc, index_append_left, map_bind, map_pure]

theorem decodeBlockHeader_append_left (pos : ℕ) :
    decodeBlockHeader (p ++ s) (p.length + pos) =
      (fun r => (p.length + r.1, r.2)) <$> decodeBlockHeader s pos := by
  unfold decodeBlockHeader
  rw [deserializeUint32_append_left]
  cases deserializeUint32 s pos with
  | ok r =>
    simp only [map_ok, ok_bind]
    rw [deserializeUint32_append_left]
    cases deserializeUint32 s r.1 with
    | ok r' => rfl
    | err e => rfl
    | panic => rfl
  | err e => rfl
  | panic => rfl

variable {p s}

theorem deserializeUint32_append_right {pos : ℕ} {r : ℕ × UInt32} (t : List UInt8)
    (h : deserializeUint32 s pos = .ok r) : deserializeUint32 (s ++ t) pos = .ok r := by
  unfold deserializeUint32 at h ⊢
  split_ifs at h with hlen
  simp only [bind_eq_ok] at h
  obtain ⟨b0, h0, b1, h1, b2, h2, b3, h3, h⟩ := h
  rw [if_neg (by simp only [List.length_append]; omega), index_append_right_of_eq_ok t h0, ok_bind,
    index_append_right_of_eq_ok t h1, ok_bind, index_append_right_of_eq_ok t h2, ok_bind,
    index_append_right_of_eq_ok t h3, ok_bind]
  exact h

theorem decodeBlockHeader_append_right {pos : ℕ} {r : ℕ × L2BlockRaw} (t : List UInt8)
    (h : decodeBlockHeader s pos = .ok r) : decodeBlockHeader (s ++ t) pos = .ok r := by
  obtain ⟨⟨pos₁, v₁⟩, h₁, h⟩ := bind_eq_ok.1 h
  obtain ⟨⟨pos₂, v₂⟩, h₂, h⟩ := bind_eq_ok.1 h
  unfold decodeBlockHeader
  rw [deserializeUint32_append_right t h₁, ok_bind]
  dsimp only
  rw [deserializeUint32_append_right t h₂, ok_bind]
  exact h

/-- A block header ends inside the data. -/
theorem le_length_of_decodeBlockHeader_eq_ok {pos pos' : ℕ} {block : L2BlockRaw}
    (h : decodeBlockHeader s pos = .ok (pos', block)) : pos' ≤ s.length := by
  obtain ⟨⟨pos₁, v₁⟩, -, h⟩ := bind_eq_ok.1 h
  obtain ⟨⟨pos₂, v₂⟩, h₂, h⟩ := bind_eq_ok.1 h
  cases h
  have hpos := fst_of_deserializeUint32_eq_ok h₂
  unfold deserializeUint32 at h₂
  split_ifs at h₂ with hlen
  omega

end Header

/-! ## Transaction records -/

section Record

variable {decodeBytes : List UInt8 → Option (List (List UInt8))} {p s : List UInt8}

theorem decodeRLPListLengthFromOffset_append_left (p s : List UInt8) (offset : ℕ) :
    decodeRLPListLengthFromOffset (p ++ s) (p.length + offset) =
      decodeRLPListLengthFromOffset s offset := by
  simp only [decodeRLPListLengthFromOffset, index_append_left, List.length_append, Nat.add_assoc,
    Nat.add_lt_add_iff_left, slice_append_left]

theorem decodeRLPListLengthFromOffset_append_right {offset length : ℕ} (t : List UInt8)
    (h : decodeRLPListLengthFromOffset s offset = .ok length) :
    decodeRLPListLengthFromOffset (s ++ t) offset = .ok length := by
  obtain ⟨b, hb, h⟩ := bind_eq_ok.1 h
  unfold decodeRLPListLengthFromOffset
  rw [index_append_right_of_eq_ok t hb, ok_bind]
  dsimp only at h ⊢
  split_ifs at h with h1 h2 h3
  · -- a long header: its length bytes lie inside `s`
    obtain ⟨lengthBytes, hslice, h⟩ := bind_eq_ok.1 h
    rw [if_neg h1, if_pos h2, if_neg (by simp only [List.length_append]; omega),
      slice_append_right_of_eq_ok t hslice, ok_bind]
    exact h
  · rw [if_neg h1, if_neg h2]
    exact h

/-- The record `decodeTxRLP` slices once it knows the size of the list. -/
def sliceTxRecord (txsData : List UInt8) (offset length : ℕ) : TxRecord :=
  { txInfo := (txsData.drop offset).take length
    rData := (txsData.drop (offset + length)).take 32
    sData := (txsData.drop (offset + length + 32)).take 32
    vData := (txsData.drop (offset + length + 64)).take 1
    efficiencyPercentage := txsData[offset + length + 65]? }

theorem sliceTxRecord_append_left (p s : List UInt8) (offset length : ℕ) :
    sliceTxRecord (p ++ s) (p.length + offset) length = sliceTxRecord s offset length := by
  have hget : (p ++ s)[p.length + (offset + length + 65)]? = s[offset + length + 65]? := by
    rw [List.getElem?_append_right (by omega), Nat.add_sub_cancel_left]
  simp only [sliceTxRecord, Nat.add_assoc p.length, List.drop_length_add_append, hget]

theorem sliceTxRecord_append_right {offset length : ℕ} (t : List UInt8)
    (hfit : offset + length + 66 ≤ s.length) :
    sliceTxRecord (s ++ t) offset length = sliceTxRecord s offset length := by
  have htake : ∀ i n, i + n ≤ s.length → ((s ++ t).drop i).take n = (s.drop i).take n := by
    intro i n hin
    rw [List.drop_append_of_le_length (by omega),
      List.take_append_of_le_length (by simp only [List.length_drop]; omega)]
  simp only [sliceTxRecord, htake offset length (by omega), htake (offset + length) 32 (by omega),
    htake (offset + length + 32) 32 (by omega), htake (offset + length + 64) 1 (by omega),
    List.getElem?_append_left (show offset + length + 65 < s.length by omega)]

/-- **What a successful `decodeTxRLP` is**: a list size whose record fits
with the 66 bytes after it, and the record sliced there. -/
theorem decodeTxRLP_eq_ok_iff {txsData : List UInt8} (hlen : txsData.length < 2 ^ 63)
    {offset : ℕ} {r : ℕ × L2TxRaw} :
    decodeTxRLP decodeBytes txsData offset = .ok r ↔
      ∃ length, decodeRLPListLengthFromOffset txsData offset = .ok length ∧
        offset + length + 66 ≤ txsData.length ∧
        (sliceTxRecord txsData offset length).l2TxRaw decodeBytes (offset + length + 66) = .ok r := by
  constructor
  · intro h
    obtain ⟨length, hlength, hfit, -⟩ := bounds_of_decodeTxRLP_eq_ok hlen h
    refine ⟨length, hlength, hfit, ?_⟩
    rw [← h, decodeTxRLP_of_length hlen hlength hfit]
    rfl
  · rintro ⟨length, hlength, hfit, h⟩
    rw [decodeTxRLP_of_length hlen hlength hfit]
    exact h

/-- Where a record ends is only handed back. -/
theorem TxRecord.l2TxRaw_add (rec : TxRecord) (k endPos : ℕ) :
    rec.l2TxRaw decodeBytes (k + endPos) =
      (fun r => (k + r.1, r.2)) <$> rec.l2TxRaw decodeBytes endPos := by
  simp only [TxRecord.l2TxRaw, map_bind]
  congr 1
  funext efficiencyPercentage
  split
  · rfl
  · simp only [map_bind, map_pure]

/-- **A record read past a prefix** is the record read alone, ending that
much further on. -/
theorem decodeTxRLP_append_left (hlen : (p ++ s).length < 2 ^ 63) {offset : ℕ}
    {r : ℕ × L2TxRaw} :
    decodeTxRLP decodeBytes (p ++ s) (p.length + offset) = .ok r ↔
      ∃ r₀, decodeTxRLP decodeBytes s offset = .ok r₀ ∧ r = (p.length + r₀.1, r₀.2) := by
  have hs := length_lt_of_append_right hlen
  have hend : ∀ length, p.length + offset + length + 66 = p.length + (offset + length + 66) := by
    intro length
    omega
  simp only [decodeTxRLP_eq_ok_iff hlen, decodeRLPListLengthFromOffset_append_left,
    sliceTxRecord_append_left]
  constructor
  · rintro ⟨length, hlength, hfit, h⟩
    rw [hend, TxRecord.l2TxRaw_add, map_eq_ok] at h
    obtain ⟨r₀, h₀, rfl⟩ := h
    simp only [List.length_append] at hfit
    exact ⟨r₀, (decodeTxRLP_eq_ok_iff hs).2 ⟨length, hlength, by omega, h₀⟩, rfl⟩
  · rintro ⟨r₀, h₀, rfl⟩
    obtain ⟨length, hlength, hfit, h⟩ := (decodeTxRLP_eq_ok_iff hs).1 h₀
    refine ⟨length, hlength, by simp only [List.length_append]; omega, ?_⟩
    rw [hend, TxRecord.l2TxRaw_add, h, map_ok]

/-- A record read stays the same when more data follows. -/
theorem decodeTxRLP_append_right {offset : ℕ} {r : ℕ × L2TxRaw} {t : List UInt8}
    (hlen : (s ++ t).length < 2 ^ 63) (h : decodeTxRLP decodeBytes s offset = .ok r) :
    decodeTxRLP decodeBytes (s ++ t) offset = .ok r := by
  obtain ⟨length, hlength, hfit, h⟩ :=
    (decodeTxRLP_eq_ok_iff (length_lt_of_append_left hlen)).1 h
  refine (decodeTxRLP_eq_ok_iff hlen).2 ⟨length, decodeRLPListLengthFromOffset_append_right t hlength,
    by simp only [List.length_append]; omega, ?_⟩
  rw [sliceTxRecord_append_right t hfit]
  exact h

end Record

/-! ## One pass of the loop -/

section Pass

variable {decodeBytes : List UInt8 → Option (List (List UInt8))} {p s : List UInt8} {pos : ℕ}
  {currentBlock : Option L2BlockRaw} {r : BatchV2Step}

/-- A pass read `k` bytes further on. -/
def BatchV2Step.shift (k : ℕ) : BatchV2Step → BatchV2Step
  | .blockHeader pos block => .blockHeader (k + pos) block
  | .tx pos l2Tx => .tx (k + pos) l2Tx

/-- Before the first block header, a pass at any other byte fails: a
record there is only decoded to choose the error. -/
theorem decodeBatchV2Step_none_ne_ok {txsData : List UInt8} {tag : UInt8}
    (hidx : (index txsData pos : Outcome CodecError UInt8) = .ok tag) (htag : tag ≠ changeL2Block) :
    decodeBatchV2Step decodeBytes txsData pos none ≠ .ok r := by
  unfold decodeBatchV2Step
  rw [hidx, ok_bind, if_neg htag]
  dsimp only
  split <;> simp

/-- **A pass past a prefix** is the pass over the data alone, moved on by
the prefix. -/
theorem decodeBatchV2Step_append_left (hlen : (p ++ s).length < 2 ^ 63) :
    decodeBatchV2Step decodeBytes (p ++ s) (p.length + pos) currentBlock = .ok r ↔
      ∃ r₀, decodeBatchV2Step decodeBytes s pos currentBlock = .ok r₀ ∧ r = r₀.shift p.length := by
  cases hidx : (index s pos : Outcome CodecError UInt8) with
  | ok tag =>
    have hidx' : (index (p ++ s) (p.length + pos) : Outcome CodecError UInt8) = .ok tag := by
      rw [index_append_left, hidx]
    by_cases htag : tag = changeL2Block
    · -- a block header
      unfold decodeBatchV2Step
      rw [hidx, hidx', ok_bind, ok_bind, if_pos htag, if_pos htag, Nat.add_assoc,
        decodeBlockHeader_append_left]
      cases decodeBlockHeader s (pos + 1) with
      | ok hb => simp [BatchV2Step.shift, eq_comm]
      | err e => simp
      | panic => simp
    cases currentBlock with
    | none =>
      exact iff_of_false (decodeBatchV2Step_none_ne_ok hidx' htag)
        fun ⟨r₀, h₀, _⟩ => decodeBatchV2Step_none_ne_ok hidx htag h₀
    | some b =>
      -- a record of the open block
      unfold decodeBatchV2Step
      rw [hidx, hidx', ok_bind, ok_bind, if_neg htag, if_neg htag]
      constructor
      · intro h
        obtain ⟨⟨pos', tx⟩, htx, h⟩ := bind_eq_ok.1 h
        obtain ⟨⟨pos₀, tx₀⟩, htx₀, hr⟩ := (decodeTxRLP_append_left hlen).1 htx
        cases hr
        cases h
        exact ⟨.tx pos₀ tx₀, by rw [htx₀]; rfl, rfl⟩
      · rintro ⟨r₀, h₀, rfl⟩
        obtain ⟨⟨pos₀, tx₀⟩, htx₀, h₀⟩ := bind_eq_ok.1 h₀
        cases h₀
        rw [(decodeTxRLP_append_left hlen).2 ⟨_, htx₀, rfl⟩]
        rfl
  | err e => exact absurd hidx index_ne_err
  | panic =>
    have hidx' : (index (p ++ s) (p.length + pos) : Outcome CodecError UInt8) = .panic := by
      rw [index_append_left, hidx]
    unfold decodeBatchV2Step
    rw [hidx, hidx']
    simp

/-- **A pass stays the same when more data follows.** -/
theorem decodeBatchV2Step_append_right {t : List UInt8} (hlen : (s ++ t).length < 2 ^ 63)
    (h : decodeBatchV2Step decodeBytes s pos currentBlock = .ok r) :
    decodeBatchV2Step decodeBytes (s ++ t) pos currentBlock = .ok r := by
  obtain ⟨tag, hidx, h⟩ := bind_eq_ok.1 h
  unfold decodeBatchV2Step
  rw [index_append_right_of_eq_ok t hidx, ok_bind]
  by_cases htag : tag = changeL2Block
  · rw [if_pos htag] at h ⊢
    obtain ⟨⟨pos', block⟩, hb, h⟩ := bind_eq_ok.1 h
    rw [decodeBlockHeader_append_right t hb, ok_bind]
    exact h
  rw [if_neg htag] at h ⊢
  cases currentBlock with
  | none =>
    exfalso
    dsimp only at h
    split at h <;> cases h
  | some b =>
    obtain ⟨⟨pos', tx⟩, htx, h⟩ := bind_eq_ok.1 h
    dsimp only
    rw [decodeTxRLP_append_right hlen htx, ok_bind]
    exact h

/-- Every pass ends inside the data. -/
theorem le_length_of_decodeBatchV2Step_eq_ok {txsData : List UInt8}
    (hlen : txsData.length < 2 ^ 63) (h : decodeBatchV2Step decodeBytes txsData pos currentBlock = .ok r) :
    match r with
    | .blockHeader pos' _ => pos' ≤ txsData.length
    | .tx pos' _ => pos' ≤ txsData.length := by
  obtain ⟨tag, -, h⟩ := bind_eq_ok.1 h
  split_ifs at h
  · obtain ⟨⟨pos', block⟩, hb, h⟩ := bind_eq_ok.1 h
    cases h
    exact le_length_of_decodeBlockHeader_eq_ok hb
  · cases currentBlock with
    | none =>
      dsimp only at h
      split at h <;> cases h
    | some _ =>
      obtain ⟨⟨pos', tx⟩, htx, h⟩ := bind_eq_ok.1 h
      cases h
      exact (lt_of_decodeTxRLP_eq_ok hlen htx).2

end Pass

/-! ## The loop across a block boundary -/

section Loop

variable {decodeBytes : List UInt8 → Option (List (List UInt8))}

/-- A pass that fails stops the loop without a batch. -/
theorem decodeBatchV2Loop_ne_ok_of_step {txsData : List UInt8} {hlen : txsData.length < 2 ^ 63}
    {pos : ℕ} {blocks : List L2BlockRaw} {currentBlock : Option L2BlockRaw}
    (hpos : pos < txsData.length)
    (hstep : ∀ r, decodeBatchV2Step decodeBytes txsData pos currentBlock ≠ .ok r) (batch : BatchRawV2) :
    decodeBatchV2Loop decodeBytes txsData hlen pos blocks currentBlock ≠ .ok batch := by
  rw [decodeBatchV2Loop_of_lt hpos]
  cases h : decodeBatchV2Step decodeBytes txsData pos currentBlock with
  | ok r => exact absurd h (hstep r)
  | err e => simp
  | panic => simp

/-- **The loop over data it reads, with more behind it**: it passes over
the data as if alone, and reaches its end with the blocks it had there. -/
theorem decodeBatchV2Loop_append_right {s t : List UInt8} (hs : s.length < 2 ^ 63)
    (hlen : (s ++ t).length < 2 ^ 63) (pos : ℕ) (hpos : pos ≤ s.length) (blocks : List L2BlockRaw)
    (currentBlock : Option L2BlockRaw) {batch : BatchRawV2}
    (h : decodeBatchV2Loop decodeBytes s hs pos blocks currentBlock = .ok batch) :
    ∃ blocks' currentBlock', batch = ⟨blocks' ++ currentBlock'.toList⟩ ∧
      decodeBatchV2Loop decodeBytes (s ++ t) hlen pos blocks currentBlock =
        decodeBatchV2Loop decodeBytes (s ++ t) hlen s.length blocks' currentBlock' := by
  by_cases hlt : pos < s.length
  · rw [decodeBatchV2Loop_of_lt hlt] at h
    cases hstep : decodeBatchV2Step decodeBytes s pos currentBlock with
    | ok step =>
      rw [hstep] at h
      have hfwd := lt_of_decodeBatchV2Step_eq_ok hs hstep
      have hend := le_length_of_decodeBatchV2Step_eq_ok hs hstep
      rw [decodeBatchV2Loop_of_lt (by simp only [List.length_append]; omega),
        decodeBatchV2Step_append_right hlen hstep]
      cases step with
      | blockHeader pos' block => exact decodeBatchV2Loop_append_right hs hlen pos' hend _ _ h
      | tx pos' tx => exact decodeBatchV2Loop_append_right hs hlen pos' hend _ _ h
    | err e => rw [hstep] at h; cases h
    | panic => rw [hstep] at h; cases h
  · obtain rfl : pos = s.length := by omega
    rw [decodeBatchV2Loop_of_le le_rfl, ok.injEq] at h
    exact ⟨blocks, currentBlock, h.symm, rfl⟩
termination_by s.length - pos
decreasing_by all_goals (dsimp only at hfwd; omega)

/-- **The loop past a prefix**, with the prefix's blocks `done` in front:
it succeeds iff the loop over the data alone does, and then with the same
blocks after `done`. -/
theorem decodeBatchV2Loop_append_left {p s : List UInt8} (hlen : (p ++ s).length < 2 ^ 63)
    (hs : s.length < 2 ^ 63) (done : List L2BlockRaw) (pos : ℕ) (blocks : List L2BlockRaw)
    (currentBlock : Option L2BlockRaw) (batch : BatchRawV2) :
    decodeBatchV2Loop decodeBytes (p ++ s) hlen (p.length + pos) (done ++ blocks) currentBlock =
        .ok batch ↔
      ∃ batch₀, decodeBatchV2Loop decodeBytes s hs pos blocks currentBlock = .ok batch₀ ∧
        batch = ⟨done ++ batch₀.blocks⟩ := by
  by_cases hlt : pos < s.length
  · have hlt' : p.length + pos < (p ++ s).length := by
      simp only [List.length_append]
      omega
    by_cases hok : ∃ step, decodeBatchV2Step decodeBytes s pos currentBlock = .ok step
    · obtain ⟨step, hstep⟩ := hok
      have hfwd := lt_of_decodeBatchV2Step_eq_ok hs hstep
      rw [decodeBatchV2Loop_of_lt hlt', decodeBatchV2Loop_of_lt hlt, hstep,
        (decodeBatchV2Step_append_left hlen).2 ⟨step, hstep, rfl⟩]
      cases step with
      | blockHeader pos' block =>
        dsimp only [BatchV2Step.shift]
        rw [List.append_assoc]
        exact decodeBatchV2Loop_append_left hlen hs done pos' _ _ batch
      | tx pos' tx => exact decodeBatchV2Loop_append_left hlen hs done pos' _ _ batch
    · -- the pass fails alone, so it fails past the prefix too
      have hstep : ∀ r, decodeBatchV2Step decodeBytes s pos currentBlock ≠ .ok r :=
        fun r h => hok ⟨r, h⟩
      have hstep' : ∀ r, decodeBatchV2Step decodeBytes (p ++ s) (p.length + pos) currentBlock ≠ .ok r :=
        fun r h => by
          obtain ⟨r₀, h₀, -⟩ := (decodeBatchV2Step_append_left hlen).1 h
          exact hstep r₀ h₀
      exact iff_of_false (decodeBatchV2Loop_ne_ok_of_step hlt' hstep' batch)
        fun ⟨batch₀, h₀, _⟩ => decodeBatchV2Loop_ne_ok_of_step hlt hstep batch₀ h₀
  · rw [decodeBatchV2Loop_of_le (by simp only [List.length_append]; omega),
      decodeBatchV2Loop_of_le (by omega)]
    simp [eq_comm]
termination_by s.length - pos
decreasing_by all_goals (dsimp only at hfwd; omega)

/-- **`DecodeBatchV2` is a homomorphism at block boundaries.** Behind data
it decodes, bytes that start with the block tag decode as they would alone,
and their blocks follow the first data's: the tag closes the block the
first data left open. -/
theorem decodeBatchV2_append {p s : List UInt8} (hlen : (p ++ s).length < 2 ^ 63)
    {batchP : BatchRawV2} (hp : decodeBatchV2 decodeBytes p (length_lt_of_append_left hlen) = .ok batchP)
    (htag : s.head? = some changeL2Block) (batch : BatchRawV2) :
    decodeBatchV2 decodeBytes (p ++ s) hlen = .ok batch ↔
      ∃ batchS, decodeBatchV2 decodeBytes s (length_lt_of_append_right hlen) = .ok batchS ∧
        batch = ⟨batchP.blocks ++ batchS.blocks⟩ := by
  have hs := length_lt_of_append_right hlen
  unfold decodeBatchV2 at hp ⊢
  obtain ⟨blocks', currentBlock', rfl, hrun⟩ :=
    decodeBatchV2Loop_append_right (length_lt_of_append_left hlen) hlen 0 (Nat.zero_le _) [] none hp
  obtain ⟨b, s', rfl⟩ : ∃ b s', s = b :: s' := List.exists_cons_of_ne_nil (by rintro rfl; cases htag)
  have hb : b = changeL2Block := by simpa using htag
  have hpos : p.length < (p ++ b :: s').length := by simp
  have htag' : (p ++ b :: s')[p.length] = changeL2Block := by simp [hb]
  rw [hrun, decodeBatchV2Loop_of_tag hpos htag',
    decodeBatchV2Loop_of_tag (Nat.zero_lt_succ _) (by simp [hb]), Nat.zero_add,
    decodeBlockHeader_append_left]
  -- the boundary's header, read past the prefix
  cases decodeBlockHeader (b :: s') 1 with
  | ok r =>
    have h := @decodeBatchV2Loop_append_left decodeBytes p (b :: s') hlen hs
      (blocks' ++ currentBlock'.toList) r.1 [] (some r.2) batch
    rw [List.append_nil] at h
    simpa using h
  | err e => simp
  | panic => simp

theorem decodeBatchV2_congr {decodeBytes : List UInt8 → Option (List (List UInt8))}
    {d d' : List UInt8} (h : d = d') (hd : d.length < 2 ^ 63) (hd' : d'.length < 2 ^ 63) :
    decodeBatchV2 decodeBytes d hd = decodeBatchV2 decodeBytes d' hd' := by
  subst h
  rfl

end Loop

/-! ## The trusted synchronizer: `composePartialBatch` -/

/-- The errors of `composePartialBatch`: a decoder's or the encoder's, or
new data no longer than the previous (the lengths of both). -/
inductive ComposeError where
  | codec (e : CodecError)
  | previousNotShorter (previousLength newLength : ℕ)

section Compose

variable (decodeBytes : List UInt8 → Option (List (List UInt8)))

/-- `composePartialBatch`: the data after the previous batch's, decoded
alone and encoded again. -/
def composePartialBatch (previousBatch newBatch : List UInt8)
    (hprev : previousBatch.length < 2 ^ 63) (hnew : newBatch.length < 2 ^ 63) :
    Outcome ComposeError (List UInt8) := do
  let _rawPreviousBatch ← (decodeBatchV2 decodeBytes previousBatch hprev).mapErr .codec
  if newBatch.length ≤ previousBatch.length then
    throw (.previousNotShorter previousBatch.length newBatch.length)
  else
    let newData := newBatch.drop previousBatch.length
    let rawPartialBatch ← (decodeBatchV2 decodeBytes newData
      (lt_of_le_of_lt (by simp [newData]) hnew)).mapErr .codec
    Outcome.ofExcept ((encodeBatchV2 (some rawPartialBatch)).mapError .codec)

variable {decodeBytes}

/-- **`composePartialBatch` of data grown by whole blocks encodes exactly
the blocks the growth added**: it succeeds iff the grown data decodes and
the blocks after the previous ones encode. -/
theorem composePartialBatch_append {prev s : List UInt8} (hlen : (prev ++ s).length < 2 ^ 63)
    {batchP : BatchRawV2}
    (hp : decodeBatchV2 decodeBytes prev (length_lt_of_append_left hlen) = .ok batchP)
    (htag : s.head? = some changeL2Block) (out : List UInt8) :
    composePartialBatch decodeBytes prev (prev ++ s) (length_lt_of_append_left hlen) hlen = .ok out ↔
      ∃ batch, decodeBatchV2 decodeBytes (prev ++ s) hlen = .ok batch ∧
        encodeBatchV2 (some ⟨batch.blocks.drop batchP.blocks.length⟩) = .ok out := by
  have hlong : ¬ (prev ++ s).length ≤ prev.length := by
    have hs : 0 < s.length := List.length_pos_iff.2 fun hnil => by rw [hnil] at htag; cases htag
    simp only [List.length_append]
    omega
  simp only [composePartialBatch, hp, mapErr_ok, ok_bind, if_neg hlong]
  rw [decodeBatchV2_congr List.drop_left _ (length_lt_of_append_right hlen)]
  simp only [decodeBatchV2_append hlen hp htag]
  -- the new data decodes alone, or neither reading does
  cases decodeBatchV2 decodeBytes s (length_lt_of_append_right hlen) with
  | ok batchS =>
    obtain ⟨blocksS⟩ := batchS
    simp only [mapErr_ok, ok_bind, ok.injEq, exists_eq_left']
    cases h : encodeBatchV2 (some ⟨blocksS⟩) <;> simp [Except.mapError, h]
  | err e => simp
  | panic => simp

end Compose

/-! ## The sequencer: `storeL2Block` -/

/-- `BuildChangeL2Block`: the `changeL2Block` mark, then the delta
timestamp and the L1 info tree index, big-endian. -/
def buildChangeL2Block (deltaTimestamp l1InfoTreeIndex : UInt32) : List UInt8 :=
  [0x0B] ++ serializeUint32 deltaTimestamp ++ serializeUint32 l1InfoTreeIndex

/-- `EncodeTransaction`: `EncodeTransactions` of one transaction. -/
def encodeTransaction (tx : LegacyTx) (effectivePercentage : UInt8) (forkID : ℕ) :
    Outcome CodecError (List UInt8) :=
  encodeTransactions [tx] [effectivePercentage] forkID

/-- The loop body of `storeL2Block` over the executed transactions: each is
encoded with its percentage and appended to the block's data. -/
def appendEncodedTx (forkID : ℕ) (blockL2Data : List UInt8) (txResponse : L2TxRaw) :
    Outcome CodecError (List UInt8) := do
  let txData ← encodeTransaction txResponse.tx txResponse.efficiencyPercentage forkID
  pure (blockL2Data ++ txData)

/-- What `storeL2Block` makes of the wip batch's `BatchL2Data` for a block
and its executed transactions: the block's data, its `changeL2Block` bytes
and then the transactions, is appended. An encoding error rolls the block
back. -/
def storeL2BlockData (batchL2Data : List UInt8) (deltaTimestamp l1InfoTreeIndex : UInt32)
    (txResponses : List L2TxRaw) (forkID : ℕ) : Outcome CodecError (List UInt8) := do
  let blockL2Data ← txResponses.foldlM (appendEncodedTx forkID)
    (buildChangeL2Block deltaTimestamp l1InfoTreeIndex)
  pure (batchL2Data ++ blockL2Data)

/-- The wip batch's `BatchL2Data` after `storeL2Block` of each of `blocks`
in turn, from the empty data a batch is opened with. -/
def storeL2Blocks (blocks : List L2BlockRaw) (forkID : ℕ) : Outcome CodecError (List UInt8) :=
  blocks.foldlM (fun batchL2Data block =>
    storeL2BlockData batchL2Data block.deltaTimestamp block.indexL1InfoTree block.transactions
      forkID) []

section Store

variable {forkID : ℕ}

/-- From Dragonfruit on, `EncodeTransaction` writes the record and the
percentage byte, as `EncodeBatchV2` does. -/
theorem encodeTransaction_eq (hfork : forkIdDragonfruit ≤ forkID) (t : L2TxRaw) :
    encodeTransaction t.tx t.efficiencyPercentage forkID = Outcome.ofExcept (encodeTxRLP [] t) := by
  cases h : prepareRPLTxData t.tx with
  | ok txData =>
    simp [encodeTransaction, encodeTransactions, encodeTransactions.go, encodeTxRLP, h, hfork,
      index_of_lt, Hex.decodeHex_formatHex, Except.mapError]
  | error e => simp [encodeTransaction, encodeTransactions, encodeTransactions.go, encodeTxRLP, h]

/-- **The block's data is what `EncodeBatchV2` writes for the block**, after
whatever precedes it: the loop of `storeL2Block` over the transactions is
the encoder's. -/
theorem foldlM_appendEncodedTx (hfork : forkIdDragonfruit ≤ forkID) :
    ∀ (txs : List L2TxRaw) (batchL2Data blockL2Data : List UInt8),
      (do let b ← txs.foldlM (appendEncodedTx forkID) blockL2Data; pure (batchL2Data ++ b)) =
        Outcome.ofExcept (txs.foldlM encodeTxRLP (batchL2Data ++ blockL2Data))
  | [], batchL2Data, blockL2Data => rfl
  | t :: rest, batchL2Data, blockL2Data => by
    have hstep : appendEncodedTx forkID blockL2Data t =
        (blockL2Data ++ ·) <$> Outcome.ofExcept (encodeTxRLP [] t) := by
      rw [appendEncodedTx, encodeTransaction_eq hfork]
      rfl
    cases h : prepareRPLTxData t.tx with
    | ok txData =>
      have henc : ∀ d : List UInt8, encodeTxRLP d t = .ok (d ++ txData ++ [t.efficiencyPercentage]) := by
        intro d
        rw [encodeTxRLP, h]
        rfl
      rw [List.foldlM_cons, List.foldlM_cons, hstep, henc, henc, ofExcept_ok, map_ok, ok_bind,
        foldlM_appendEncodedTx hfork rest]
      simp only [List.nil_append, List.append_assoc]
      rfl
    | error e =>
      have henc : ∀ d : List UInt8, encodeTxRLP d t = .error e := by
        intro d
        rw [encodeTxRLP, h]
        rfl
      rw [List.foldlM_cons, List.foldlM_cons, hstep, henc, henc]
      rfl

/-- **The sequencer's data is `EncodeBatchV2`'s**: storing blocks one after
another writes what the encoder writes for them all. -/
theorem storeL2Blocks_eq (hfork : forkIdDragonfruit ≤ forkID) :
    ∀ (blocks : List L2BlockRaw) (batchL2Data : List UInt8),
      blocks.foldlM (fun batchL2Data block =>
          storeL2BlockData batchL2Data block.deltaTimestamp block.indexL1InfoTree block.transactions
            forkID) batchL2Data =
        Outcome.ofExcept (blocks.foldlM (fun batchData block =>
          block.transactions.foldlM encodeTxRLP (encodeBlockHeaderV2 batchData block)) batchL2Data)
  | [], batchL2Data => rfl
  | block :: rest, batchL2Data => by
    have hheader : encodeBlockHeaderV2 batchL2Data block =
        batchL2Data ++ buildChangeL2Block block.deltaTimestamp block.indexL1InfoTree := by
      simp [encodeBlockHeaderV2, buildChangeL2Block, changeL2Block]
    rw [List.foldlM_cons, List.foldlM_cons, storeL2BlockData, foldlM_appendEncodedTx hfork, hheader]
    cases block.transactions.foldlM encodeTxRLP
        (batchL2Data ++ buildChangeL2Block block.deltaTimestamp block.indexL1InfoTree) with
    | ok data => exact storeL2Blocks_eq hfork rest data
    | error e => rfl

variable {decodeBytes : List UInt8 → Option (List (List UInt8))}

/-- **The data `storeL2Block` builds decodes to the blocks stored**, from
Etrog on, for transactions in normal form and an rlp decoder that reads
back what is encoded. -/
theorem decodeBatchV2_storeL2Blocks (hdec : DecodesLists decodeBytes)
    (hfork : forkIdEtrog ≤ forkID) (blocks : List L2BlockRaw)
    (htxs : ∀ block ∈ blocks, ∀ t ∈ block.transactions, t.tx.Encodable) :
    ∃ data, storeL2Blocks blocks forkID = .ok data ∧
      ∀ hlen : data.length < 2 ^ 63, decodeBatchV2 decodeBytes data hlen = .ok ⟨blocks⟩ := by
  obtain ⟨out, hfold, hloop⟩ := decodeBatchV2Loop_encodeBlocks hdec blocks [] htxs
  refine ⟨out, ?_, fun hlen => ?_⟩
  · rw [storeL2Blocks, storeL2Blocks_eq (le_trans (by decide) hfork), hfold, List.nil_append,
      ofExcept_ok]
  · rw [decodeBatchV2]
    exact hloop out hlen (List.nil_append out).symm [] none

end Store

/-! ## Batch data grows block by block -/

/-- **Batch data grows block by block.** `DecodeBatchV2` is a homomorphism
at block boundaries: behind data it decodes, bytes that start with the
block tag decode iff they decode alone, and then to the first data's
blocks followed by theirs. So `composePartialBatch` of data grown that way
encodes exactly the blocks the growth added; and the data the sequencer's
`storeL2Block` builds, block after block, decodes to exactly the blocks
stored, for transactions in normal form from Etrog on and an rlp decoder
that reads back what is encoded. -/
theorem batchL2Data_grows_by_blocks (decodeBytes : List UInt8 → Option (List (List UInt8))) :
    (∀ (p s : List UInt8) (hlen : (p ++ s).length < 2 ^ 63) (batchP : BatchRawV2),
      decodeBatchV2 decodeBytes p (length_lt_of_append_left hlen) = .ok batchP →
      s.head? = some changeL2Block → ∀ batch,
        (decodeBatchV2 decodeBytes (p ++ s) hlen = .ok batch ↔
          ∃ batchS, decodeBatchV2 decodeBytes s (length_lt_of_append_right hlen) = .ok batchS ∧
            batch = ⟨batchP.blocks ++ batchS.blocks⟩)) ∧
    (∀ (prev s : List UInt8) (hlen : (prev ++ s).length < 2 ^ 63) (batchP : BatchRawV2),
      decodeBatchV2 decodeBytes prev (length_lt_of_append_left hlen) = .ok batchP →
      s.head? = some changeL2Block → ∀ out,
        (composePartialBatch decodeBytes prev (prev ++ s) (length_lt_of_append_left hlen) hlen =
            .ok out ↔
          ∃ batch, decodeBatchV2 decodeBytes (prev ++ s) hlen = .ok batch ∧
            encodeBatchV2 (some ⟨batch.blocks.drop batchP.blocks.length⟩) = .ok out)) ∧
    (DecodesLists decodeBytes → ∀ forkID, forkIdEtrog ≤ forkID → ∀ blocks : List L2BlockRaw,
      (∀ block ∈ blocks, ∀ t ∈ block.transactions, t.tx.Encodable) →
      ∃ data, storeL2Blocks blocks forkID = .ok data ∧
        ∀ hlen : data.length < 2 ^ 63, decodeBatchV2 decodeBytes data hlen = .ok ⟨blocks⟩) :=
  ⟨fun _ _ hlen _ hp htag batch => decodeBatchV2_append hlen hp htag batch,
    fun _ _ hlen _ hp htag out => composePartialBatch_append hlen hp htag out,
    fun hdec _ hfork blocks htxs => decodeBatchV2_storeL2Blocks hdec hfork blocks htxs⟩

/-- `batchL2Data_grows_by_blocks` for the empty block `(3, 4)` stored behind
the empty block `(1, 2)`, and for the sequencer storing `chainOneBatch` at
Etrog: the data of one block decodes to it, and the two blocks' data
decodes to both, with `composePartialBatch` re-encoding the second. -/
theorem batchL2Data_grows_by_blocks_header :
    decodeBatchV2 Rlp.decodeList (buildChangeL2Block 1 2) (by decide) = .ok ⟨[⟨1, 2, []⟩]⟩ ∧
      (buildChangeL2Block 3 4).head? = some changeL2Block ∧
      decodeBatchV2 Rlp.decodeList (buildChangeL2Block 1 2 ++ buildChangeL2Block 3 4) (by decide) =
        .ok ⟨[⟨1, 2, []⟩, ⟨3, 4, []⟩]⟩ ∧
      composePartialBatch Rlp.decodeList (buildChangeL2Block 1 2)
          (buildChangeL2Block 1 2 ++ buildChangeL2Block 3 4) (by decide) (by decide) =
        .ok (buildChangeL2Block 3 4) ∧
      DecodesLists Rlp.decodeList ∧ forkIdEtrog ≤ 7 ∧
      (∀ block ∈ chainOneBatch.blocks, ∀ t ∈ block.transactions, t.tx.Encodable) ∧
      ∃ data, storeL2Blocks chainOneBatch.blocks 7 = .ok data ∧
        ∀ hlen : data.length < 2 ^ 63, decodeBatchV2 Rlp.decodeList data hlen = .ok chainOneBatch := by
  have h := batchL2Data_grows_by_blocks Rlp.decodeList
  have hstored := h.2.2 decodesLists_decodeList 7 (by decide)
  -- each empty block's data is what the sequencer stores for it
  have hone : ∀ (dt idx : UInt32) (hlen : (buildChangeL2Block dt idx).length < 2 ^ 63),
      decodeBatchV2 Rlp.decodeList (buildChangeL2Block dt idx) hlen = .ok ⟨[⟨dt, idx, []⟩]⟩ := by
    intro dt idx hlen
    obtain ⟨data, hstore, hdec⟩ := hstored [⟨dt, idx, []⟩] (by simp)
    obtain rfl : data = buildChangeL2Block dt idx :=
      Outcome.ok.inj (hstore.symm.trans rfl)
    exact hdec _
  have hboth := (h.1 _ _ (by decide) _ (hone 1 2 _) rfl ⟨[⟨1, 2, []⟩, ⟨3, 4, []⟩]⟩).2
    ⟨_, hone 3 4 _, rfl⟩
  have htxs : ∀ block ∈ chainOneBatch.blocks, ∀ t ∈ block.transactions, t.tx.Encodable := by
    simp [chainOneBatch, chainOneTx_encodable]
  exact ⟨hone 1 2 _, rfl, hboth, (h.2.1 _ _ (by decide) _ (hone 1 2 _) rfl _).2 ⟨_, hboth, rfl⟩,
    decodesLists_decodeList, by decide, htxs, hstored _ htxs⟩

end State

end XLayerNode
