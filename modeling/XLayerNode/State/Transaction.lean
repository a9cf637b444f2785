import XLayerNode.Common.GoHex
import XLayerNode.Common.Rlp
/-!
# Legacy transactions, and the record a batch stores for one

A batch stores a transaction as the RLP list of its fields followed by
`r`, `s` (32 bytes each) and a `v` byte of `27` or `28`: `prepareRPLTxData`
writes it, and `RlpFieldsToLegacyTx` turns the decoded fields and the three
signature slices back into a `types.LegacyTx`. The chain id is not stored
in the transaction: go-ethereum derives it from `V` (`deriveChainId`), and
a pre-EIP-155 transaction omits it from the RLP list.

`rlpFieldsToLegacyTx_rlpFieldsToEncode` is the round trip of one record:
for a signature in normal form (`LegacyTx.VNormal`) the decoder returns the
transaction the encoder was given.
-/

namespace XLayerNode

namespace State

open GoHex

/-- `common.Address`: twenty bytes. -/
structure Address where
  bytes : List UInt8
  length_bytes : bytes.length = 20
  deriving DecidableEq

/-- `common.BytesToAddress`: the last twenty bytes, zero-padded on the left. -/
def bytesToAddress (b : List UInt8) : Address :=
  ⟨List.replicate (20 - b.length) 0 ++ b.drop (b.length - 20), by simp; omega⟩

/-- go-ethereum's `types.LegacyTx`. Amounts are `*big.Int`s that a
transaction never holds negative. -/
structure LegacyTx where
  nonce : UInt64
  gasPrice : ℕ
  gas : UInt64
  /-- `To`; `nil` for a contract creation. -/
  toAddr : Option Address
  value : ℕ
  data : List UInt8
  v : ℕ
  r : ℕ
  s : ℕ
  deriving DecidableEq

/-- go-ethereum's `deriveChainId`, which `ChainId()` of a legacy transaction
returns: zero for `V ∈ {27, 28}`, else `(V - 35) / 2`, the subtraction in
`uint64` when `V` fits there. -/
def deriveChainId (v : ℕ) : ℕ :=
  if v < 2 ^ 64 then
    if v = 27 ∨ v = 28 then 0 else (v + 2 ^ 64 - 35) % 2 ^ 64 / 2
  else (v - 35) / 2

/-- `tx.ChainId()`. -/
def LegacyTx.chainId (tx : LegacyTx) : ℕ := deriveChainId tx.v

/-- A signature's `V` in the form a signer writes it: `27 + recId` before
EIP-155, `2 * chainId + 35 + recId` after. -/
def LegacyTx.VNormal (tx : LegacyTx) : Prop :=
  ((tx.v = 27 ∨ tx.v = 28) ∧ tx.chainId = 0) ∨
    ∃ recId, recId < 2 ∧ tx.v = 2 * tx.chainId + 35 + recId

/-- The errors of encoding and decoding batch data: the `state` package's
sentinels (a message wrapping one with `%w` is that sentinel to
`errors.Is`), and the errors of the library calls. -/
inductive CodecError where
  /-- `ErrInvalidData`, "invalid data". -/
  | errInvalidData
  /-- `ErrInvalidRLP`, "invalid rlp codification". -/
  | errInvalidRLP
  /-- `ErrInvalidBatchV2`, "invalid batch v2". -/
  | errInvalidBatchV2
  /-- `ErrBatchV2DontStartWithChangeL2Block`. -/
  | errBatchV2DontStartWithChangeL2Block
  /-- `types.ErrTxTypeNotSupported`. -/
  | errTxTypeNotSupported
  /-- An error of `rlp.DecodeBytes`. -/
  | errRlp
  /-- An error of `strconv.ParseUint`. -/
  | num (e : NumError)
  /-- An error of `hex.DecodeString`. -/
  | hex (e : HexError)
  deriving DecidableEq, Repr

/-- `ether155V`. -/
def ether155V : ℕ := 27

/-- `etherPre155V`. -/
def etherPre155V : ℕ := 35

/-- `double`. -/
def double : ℕ := 2

/-- `RlpFieldsToLegacyTx`: six fields before EIP-155, and the chain id as a
seventh after it, from which `V` is rebuilt as `v - 27 + chainId * 2 + 35`
(big integers, so the sum is taken before the `- 27`). -/
def rlpFieldsToLegacyTx (fields : List (List UInt8)) (v r s : List UInt8) :
    Except CodecError LegacyTx :=
  if h : fields.length < 6 then .error .errTxTypeNotSupported
  else
    let txV :=
      if h7 : 7 ≤ fields.length then
        beValue v + (beValue fields[6] * double + etherPre155V) - ether155V
      else beValue v
    .ok { nonce := UInt64.ofNat (beValue fields[0])
          gasPrice := beValue fields[1]
          gas := UInt64.ofNat (beValue fields[2])
          toAddr := if fields[3] ≠ [] then some (bytesToAddress fields[3]) else none
          value := beValue fields[4]
          data := fields[5]
          v := txV
          r := beValue r
          s := beValue s }

/-- `IsPreEIP155Tx`: chain id zero and `V` of `27` or `28`, both read as
`uint64`. -/
def isPreEIP155Tx (tx : LegacyTx) : Bool :=
  tx.chainId % 2 ^ 64 == 0 && (tx.v % 2 ^ 64 == 27 || tx.v % 2 ^ 64 == 28)

/-- The list `prepareRPLTxData` hands to `rlp.EncodeToBytes`: integers as
their shortest big-endian bytes, a nil `to` as the empty string, and after
EIP-155 the chain id and two `uint(0)`s. -/
def rlpFieldsToEncode (tx : LegacyTx) : List (List UInt8) :=
  let fields := [beBytes tx.nonce.toNat, beBytes tx.gasPrice, beBytes tx.gas.toNat,
    (tx.toAddr.map Address.bytes).getD [], beBytes tx.value, tx.data]
  if !isPreEIP155Tx tx then fields ++ [beBytes tx.chainId, beBytes 0, beBytes 0] else fields

/-- `prepareRPLTxData`: the RLP of the fields, then `r`, `s` and the `v`
byte `27 + sign`, written as one hexadecimal string and decoded. -/
def prepareRPLTxData (tx : LegacyTx) : Except CodecError (List UInt8) :=
  let sign := 1 - tx.v % 2 ^ 64 % 2
  let txCodedRlp := Rlp.encodeList (rlpFieldsToEncode tx)
  let newV := ether155V + sign
  let newRPadded := padLeft 64 (formatHex tx.r)
  let newSPadded := padLeft 64 (formatHex tx.s)
  let newVPadded := padLeft 2 (formatHex newV)
  match decodeString (encodeToString txCodedRlp ++ newRPadded ++ newSPadded ++ newVPadded) with
  | .ok txData => .ok txData
  | .error e => .error (.hex e)

/-! ## Addresses and chain ids -/

@[simp] theorem bytesToAddress_bytes (a : Address) : bytesToAddress a.bytes = a := by
  obtain ⟨b, hb⟩ := a
  simp [bytesToAddress, hb]

/-- A normal-form `V` is `27`, `28`, or at least `35`. -/
theorem LegacyTx.vNormal_cases {tx : LegacyTx} (h : tx.VNormal) :
    (tx.v = 27 ∨ tx.v = 28) ∧ tx.chainId = 0 ∨
      35 ≤ tx.v ∧ tx.v = 2 * tx.chainId + 35 + (1 - tx.v % 2) := by
  rcases h with h | ⟨recId, hrec, hv⟩
  · exact Or.inl h
  · right; omega

/-- **A normal-form transaction is pre-EIP-155 exactly when `V` is `27` or `28`.**
A chain id that vanishes modulo `2 ^ 64` would leave `V` at `35` or `36`
there. -/
theorem isPreEIP155Tx_iff {tx : LegacyTx} (h : tx.VNormal) :
    isPreEIP155Tx tx = true ↔ tx.v = 27 ∨ tx.v = 28 := by
  simp only [isPreEIP155Tx, Bool.and_eq_true, beq_iff_eq, Bool.or_eq_true]
  rcases tx.vNormal_cases h with ⟨hv, hc⟩ | ⟨hv, hc⟩
  · rw [hc]; omega
  · omega

/-! ## One record, there and back -/

/-- The `v` byte `prepareRPLTxData` writes. -/
def LegacyTx.vByte (tx : LegacyTx) : UInt8 := UInt8.ofNat (ether155V + (1 - tx.v % 2 ^ 64 % 2))

theorem LegacyTx.toNat_vByte (tx : LegacyTx) : tx.vByte.toNat = 27 + (1 - tx.v % 2) := by
  simp only [LegacyTx.vByte, ether155V, UInt8.toNat_ofNat']
  omega

/-- **`prepareRPLTxData` in bytes.** With `r, s < 2 ^ 256` the hex detour
writes the RLP, 32 bytes of `r`, 32 of `s`, and the `v` byte. -/
theorem prepareRPLTxData_eq {tx : LegacyTx} (hr : tx.r < 2 ^ 256) (hs : tx.s < 2 ^ 256) :
    ∃ rb sb, rb.length = 32 ∧ beValue rb = tx.r ∧ sb.length = 32 ∧ beValue sb = tx.s ∧
      prepareRPLTxData tx = .ok (Rlp.encodeList (rlpFieldsToEncode tx) ++ rb ++ sb ++ [tx.vByte]) := by
  have h256 : (2 : ℕ) ^ 256 = 256 ^ 32 := by norm_num
  obtain ⟨rb, hrb, hrl, hrv⟩ := decodeString_padLeft_formatHex (k := 32) (by norm_num)
    (by rw [← h256]; exact hr)
  obtain ⟨sb, hsb, hsl, hsv⟩ := decodeString_padLeft_formatHex (k := 32) (by norm_num)
    (by rw [← h256]; exact hs)
  have hsmall : ether155V + (1 - tx.v % 2 ^ 64 % 2) < 256 ^ 1 := by
    simp only [ether155V]; omega
  obtain ⟨vb, hvb, hvl, hvv⟩ := decodeString_padLeft_formatHex (k := 1) (by norm_num) hsmall
  have hvb' : vb = [tx.vByte] := by
    match vb, hvl with
    | [b], _ =>
      simp only [beValue_singleton] at hvv
      simp only [LegacyTx.vByte, ← hvv, UInt8.ofNat_toNat]
  refine ⟨rb, sb, hrl, hrv, hsl, hsv, ?_⟩
  have heven : ∀ cs : List Char, cs.length = 2 * 32 → cs.length % 2 = 0 := by
    intro cs h; omega
  simp only [show (2 : ℕ) * 32 = 64 from rfl, show (2 : ℕ) * 1 = 2 from rfl] at hrb hsb hvb
  unfold prepareRPLTxData
  dsimp only
  rw [List.append_assoc, List.append_assoc,
    decodeString_append _ _ (by simp [encodeToString]),
    decodeString_append _ _ (heven _ (length_padLeft_formatHex (by norm_num)
      (by rw [← h256]; exact hr))),
    decodeString_append _ _ (heven _ (length_padLeft_formatHex (by norm_num)
      (by rw [← h256]; exact hs))),
    decodeString_encodeToString, hrb, hsb, hvb, hvb']
  simp only [List.append_assoc]
  rfl

/-- **One record, there and back.** The fields `prepareRPLTxData` encodes,
with the `r`, `s` and `v` it writes, decode to the same transaction when
`V` is in normal form. -/
theorem rlpFieldsToLegacyTx_rlpFieldsToEncode {tx : LegacyTx} (hn : tx.VNormal)
    {rb sb : List UInt8} (hr : beValue rb = tx.r) (hs : beValue sb = tx.s) :
    rlpFieldsToLegacyTx (rlpFieldsToEncode tx) [tx.vByte] rb sb = .ok tx := by
  have hvb := tx.toNat_vByte
  have hto : (if (tx.toAddr.map Address.bytes).getD [] ≠ [] then
      some (bytesToAddress ((tx.toAddr.map Address.bytes).getD [])) else none) = tx.toAddr := by
    rcases hto : tx.toAddr with _ | ⟨a⟩
    · simp
    · have : a.bytes ≠ [] := by
        intro h; have := a.length_bytes; simp [h] at this
      simp [this]
  rcases (LegacyTx.vNormal_cases hn) with ⟨hv, hc⟩ | ⟨hv, hc⟩
  · -- pre-EIP-155: six fields, and the `v` byte is `V` itself
    have hpre := (isPreEIP155Tx_iff hn).2 hv
    have hV : beValue [tx.vByte] = tx.v := by rw [beValue_singleton, hvb]; omega
    simp only [rlpFieldsToEncode, hpre, Bool.not_true, Bool.false_eq_true, if_false,
      rlpFieldsToLegacyTx]
    simp [hto, hr, hs, hV]
  · -- EIP-155: the chain id is the seventh field and `V` is rebuilt from it
    have hpre : isPreEIP155Tx tx = false := by
      rw [Bool.eq_false_iff, Ne, isPreEIP155Tx_iff hn]; omega
    have hV : tx.vByte.toNat + (tx.chainId * double + etherPre155V) - ether155V = tx.v := by
      rw [hvb]; simp only [double, etherPre155V, ether155V]; omega
    simp only [rlpFieldsToEncode, hpre, Bool.not_false, if_true, rlpFieldsToLegacyTx]
    simp [hto, hr, hs, hV]

end State

end XLayerNode
