import XLayerNode.Common.GoHex
import Mathlib.Tactic.Ring
/-!
# Block and batch numbers on the wire

A `BlockNumber` or a `BatchNumber` is an `int64` whose values `-1` to `-5`
stand for the tags `earliest`, `latest`, `pending`, `safe` and
`finalized`. `StringOrHex` writes a tag by name and any other value as
`hex.EncodeUint64(uint64(n))`; `StringToBlockNumber` and
`stringToBatchNumber` read a tag they know by name and anything else with
`DecodeUint64orHex`, a decimal or `0x`-hex `uint64` cast back to `int64`.

The two renderers are one (`tagOrHex`); the two parsers differ only in
the tags they know (`stringToNumber` over `blockTags` and `batchTags`).
Since the cast back undoes the cast out, a number read back is the
number written, whatever its sign (`stringToNumber_encodeUint64`): the
block codec round-trips every value (`stringToBlockNumber_stringOrHex`).
The batch parser knows only `earliest` and `latest`, so `pending`, `safe`
and `finalized` do not parse back; and a number of `2^63` or more is cast
onto a negative value, the tags included (`toInt_toInt64_of_le`).
-/

namespace XLayerNode

namespace JsonRpc

open GoHex

/-- `Earliest`. -/
def earliest : List Char := "earliest".toList
/-- `Latest`. -/
def latest : List Char := "latest".toList
/-- `Pending`. -/
def pending : List Char := "pending".toList
/-- `Safe`. -/
def safe : List Char := "safe".toList
/-- `Finalized`. -/
def finalized : List Char := "finalized".toList

/-- `EarliestBlockNumber` and `EarliestBatchNumber`. -/
def earliestNumber : Int64 := -1
/-- `LatestBlockNumber` and `LatestBatchNumber`. -/
def latestNumber : Int64 := -2
/-- `PendingBlockNumber` and `PendingBatchNumber`. -/
def pendingNumber : Int64 := -3
/-- `SafeBlockNumber` and `SafeBatchNumber`. -/
def safeNumber : Int64 := -4
/-- `FinalizedBlockNumber` and `FinalizedBatchNumber`. -/
def finalizedNumber : Int64 := -5

/-- `hex.EncodeUint64`: `0x` and the lowercase hex digits. -/
def encodeUint64 (i : UInt64) : List Char := '0' :: 'x' :: formatHex i.toNat

/-- `encoding.DecodeUint64orHex`: hex after a `0x` prefix, else decimal. -/
def decodeUint64orHex (str : List Char) : Except NumError ℕ :=
  if "0x".toList.isPrefixOf str then parseUint (str.drop 2) 16 64 else parseUint str 10 64

/-- `strings.Trim(str, "\"")`. -/
def trimQuotes (str : List Char) : List Char :=
  ((str.dropWhile (· == '"')).reverse.dropWhile (· == '"')).reverse

/-- The `StringOrHex` of `BlockNumber` and of `BatchNumber`: a nil pointer
is `latest`, `-1` to `-5` their tags, anything else `uint64(n)` in hex. -/
def tagOrHex : Option Int64 → List Char
  | none => latest
  | some n =>
    if n = earliestNumber then earliest
    else if n = pendingNumber then pending
    else if n = latestNumber then latest
    else if n = safeNumber then safe
    else if n = finalizedNumber then finalized
    else encodeUint64 n.toUInt64

/-- `BlockNumber.StringOrHex`. -/
def BlockNumber.stringOrHex (b : Option Int64) : List Char := tagOrHex b

/-- `BatchNumber.StringOrHex`. -/
def BatchNumber.stringOrHex (b : Option Int64) : List Char := tagOrHex b

/-- The parsers' `switch`: the tags a parser knows, then
`DecodeUint64orHex` cast to `int64`. -/
def stringToNumber (tags : List (List Char × Int64)) (str : List Char) : Except NumError Int64 :=
  let str := trimQuotes str
  match tags.lookup str with
  | some n => .ok n
  | none => (decodeUint64orHex str).map fun n => (UInt64.ofNat n).toInt64

/-- The tags `StringToBlockNumber` knows; `""` is `latest`. -/
def blockTags : List (List Char × Int64) :=
  [(earliest, earliestNumber), (pending, pendingNumber), (latest, latestNumber), ([], latestNumber),
    (safe, safeNumber), (finalized, finalizedNumber)]

/-- The tags `stringToBatchNumber` knows; `""` is `latest`. -/
def batchTags : List (List Char × Int64) :=
  [(earliest, earliestNumber), (latest, latestNumber), ([], latestNumber)]

/-- `StringToBlockNumber`. -/
def stringToBlockNumber (str : List Char) : Except NumError Int64 := stringToNumber blockTags str

/-- `stringToBatchNumber`. -/
def stringToBatchNumber (str : List Char) : Except NumError Int64 := stringToNumber batchTags str

/-! ## Numbers read back -/

theorem hexDigit_ne_quote {d : ℕ} (hd : d < 16) : hexDigit d ≠ '"' := by
  have : ∀ d : Fin 16, hexDigit d ≠ '"' := by decide
  exact this ⟨d, hd⟩

/-- `strings.Trim` keeps a string without quotes. -/
theorem trimQuotes_of_forall_ne {str : List Char} (h : ∀ c ∈ str, c ≠ '"') :
    trimQuotes str = str := by
  have hdrop : ∀ l : List Char, (∀ c ∈ l, c ≠ '"') → l.dropWhile (· == '"') = l := by
    intro l hl
    cases l with
    | nil => rfl
    | cons c l =>
      have hc : c ≠ '"' := hl c List.mem_cons_self
      simp [hc]
  unfold trimQuotes
  rw [hdrop str h, hdrop str.reverse (by simpa using h), List.reverse_reverse]

theorem trimQuotes_encodeUint64 (i : UInt64) : trimQuotes (encodeUint64 i) = encodeUint64 i := by
  apply trimQuotes_of_forall_ne
  intro c hc
  simp only [encodeUint64, List.mem_cons] at hc
  rcases hc with rfl | rfl | hc
  · decide
  · decide
  · obtain ⟨d, hd, rfl⟩ := List.mem_map.1 hc
    exact hexDigit_ne_quote (lt_of_mem_hexDigits hd)

/-- **`DecodeUint64orHex` reads back `EncodeUint64`.** -/
theorem decodeUint64orHex_encodeUint64 (i : UInt64) :
    decodeUint64orHex (encodeUint64 i) = .ok i.toNat := by
  have hpre : "0x".toList.isPrefixOf (encodeUint64 i) = true := rfl
  rw [decodeUint64orHex, if_pos hpre, encodeUint64, List.drop_succ_cons, List.drop_succ_cons,
    List.drop_zero]
  exact parseUint_formatHex i.toNat_lt

/-- A tag is spelled with letters: no `0x` number is one. -/
theorem lookup_encodeUint64 {tags : List (List Char × Int64)}
    (htags : ∀ p ∈ tags, p.1.head? ≠ some '0') (i : UInt64) :
    tags.lookup (encodeUint64 i) = none := by
  induction tags with
  | nil => rfl
  | cons p tags ih =>
    obtain ⟨key, n⟩ := p
    have hkey : encodeUint64 i ≠ key := by
      intro heq
      have := htags (key, n) List.mem_cons_self
      simp [← heq, encodeUint64] at this
    rw [List.lookup_cons, beq_false_of_ne hkey]
    exact ih fun p hp => htags p (List.mem_cons_of_mem _ hp)

/-- **A number written as `0x`-hex parses back to its cast**, for a parser
whose tags are words. -/
theorem stringToNumber_encodeUint64 {tags : List (List Char × Int64)}
    (htags : ∀ p ∈ tags, p.1.head? ≠ some '0') (i : UInt64) :
    stringToNumber tags (encodeUint64 i) = .ok i.toInt64 := by
  simp only [stringToNumber, trimQuotes_encodeUint64, lookup_encodeUint64 htags,
    decodeUint64orHex_encodeUint64, Except.map, UInt64.ofNat_toNat]

theorem blockTags_words : ∀ p ∈ blockTags, p.1.head? ≠ some '0' := by decide

theorem batchTags_words : ∀ p ∈ batchTags, p.1.head? ≠ some '0' := by decide

/-- **The block codec round-trips every `int64`**: the tags by name, any
other value through `uint64` and back. -/
theorem stringToBlockNumber_stringOrHex (b : Int64) :
    stringToBlockNumber (BlockNumber.stringOrHex (some b)) = .ok b := by
  simp only [BlockNumber.stringOrHex, tagOrHex]
  split_ifs with h1 h3 h2 h4 h5
  · subst h1; decide
  · subst h3; decide
  · subst h2; decide
  · subst h4; decide
  · subst h5; decide
  · rw [stringToBlockNumber, stringToNumber_encodeUint64 blockTags_words]
    simp

/-- The batch codec round-trips the values its parser knows the tag of,
and every value that is not a tag. -/
theorem stringToBatchNumber_stringOrHex {b : Int64} (hb : b ≠ pendingNumber ∧ b ≠ safeNumber ∧
    b ≠ finalizedNumber) :
    stringToBatchNumber (BatchNumber.stringOrHex (some b)) = .ok b := by
  obtain ⟨h3, h4, h5⟩ := hb
  simp only [BatchNumber.stringOrHex, tagOrHex, if_neg h3, if_neg h4, if_neg h5]
  split_ifs with h1 h2
  · subst h1; decide
  · subst h2; decide
  · rw [stringToBatchNumber, stringToNumber_encodeUint64 batchTags_words]
    simp

/-- **A number of 64 bits at or above `2^63` is cast onto a negative
value**: `uint64` to `int64` keeps the bits. -/
theorem toInt_toInt64_of_le {i : UInt64} (h : 2 ^ 63 ≤ i.toNat) :
    i.toInt64.toInt = i.toNat - 2 ^ 64 := by
  have hlt := i.toNat_lt
  have hofNat : i = UInt64.ofNat i.toNat := (UInt64.ofNat_toNat).symm
  rw [hofNat, UInt64.toInt64_ofNat', Int64.toInt_ofNat', UInt64.toNat_ofNat',
    Nat.mod_eq_of_lt hlt, Int.bmod_def]
  simp only [Int64.size]
  rw [Int.emod_eq_of_lt (by omega) (by omega), if_neg (by omega)]
  norm_num

/-! ## Where the two codecs part -/

theorem codec_loses_batch_tags_and_wraps_numbers :
    (∀ b ∈ [pendingNumber, safeNumber, finalizedNumber],
      stringToBatchNumber (BatchNumber.stringOrHex (some b)) = .error .errSyntax) ∧
    (∀ i : UInt64, 2 ^ 63 ≤ i.toNat →
      stringToBlockNumber (encodeUint64 i) = .ok i.toInt64 ∧
      stringToBatchNumber (encodeUint64 i) = .ok i.toInt64 ∧ i.toInt64.toInt < 0) ∧
    stringToBlockNumber "0xfffffffffffffffe".toList = .ok latestNumber ∧
    stringToBatchNumber "18446744073709551614".toList = .ok latestNumber := by
  refine ⟨?_, ?_, by decide, by decide⟩
  · -- one tag at a time: a quantifier over `Int64` would be decided by enumeration
    intro b hb
    simp only [List.mem_cons, List.not_mem_nil, or_false] at hb
    rcases hb with rfl | rfl | rfl <;> decide
  · intro i hi
    refine ⟨stringToNumber_encodeUint64 blockTags_words i,
      stringToNumber_encodeUint64 batchTags_words i, ?_⟩
    rw [toInt_toInt64_of_le hi]
    have := i.toNat_lt
    omega

end JsonRpc

end XLayerNode
