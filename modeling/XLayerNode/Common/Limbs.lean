import XLayerNode.Common.Bytes
import XLayerNode.Common.Outcome
/-!
# Fixed-width limbs

A number cut into `k` limbs of base `B`, least significant first, is what
code writes as `(n >> (w*i)) & mask` for `i < k`: `toLimbs B k n`.
Mathlib's `Nat.ofDigits B` puts limbs back together, and the two are
inverse on numbers below `B ^ k` and on lists of `k` limbs below `B`
(`ofDigits_toLimbs`, `toLimbs_ofDigits`).

A byte string is the big-endian limb list of base 256 of its value, so a
window of it is a limb of a coarser base (`beValue_drop_take`). That is
how `big.Int.FillBytes` and `binary.BigEndian.Uint64` (`fillBytes`,
`bigEndianUint64`) cut a number into 64-bit limbs.
-/

namespace XLayerNode

/-- The `k` lowest limbs of `n` in base `B`, least significant first. -/
def toLimbs (B k n : ℕ) : List ℕ := (List.range k).map fun i => n / B ^ i % B

/-- `x.FillBytes(buf)` for a buffer of `len` bytes: the absolute value,
zero-extended big-endian; a panic if it does not fit. -/
def fillBytes {ε : Type} (len : ℕ) (x : ℤ) : Outcome ε (List UInt8) :=
  let bs := beBytes x.natAbs
  if len < bs.length then .panic else .ok (List.replicate (len - bs.length) 0 ++ bs)

/-- `binary.BigEndian.Uint64(b)`: the first eight bytes, big-endian; a
panic on fewer. -/
def bigEndianUint64 {ε : Type} (b : List UInt8) : Outcome ε UInt64 :=
  if b.length < 8 then .panic else .ok (UInt64.ofNat (beValue (b.take 8)))

section Limbs

variable {B : ℕ}

@[simp] theorem length_toLimbs (B k n : ℕ) : (toLimbs B k n).length = k := by
  simp [toLimbs]

@[simp] theorem getElem_toLimbs (B k n : ℕ) {i : ℕ} (hi : i < (toLimbs B k n).length) :
    (toLimbs B k n)[i] = n / B ^ i % B := by
  simp [toLimbs]

theorem lt_of_mem_toLimbs (hB : 0 < B) {k n x : ℕ} (hx : x ∈ toLimbs B k n) : x < B := by
  obtain ⟨i, -, rfl⟩ := List.mem_map.1 hx
  exact Nat.mod_lt _ hB

theorem toLimbs_succ (B k n : ℕ) : toLimbs B (k + 1) n = toLimbs B k n ++ [n / B ^ k % B] := by
  simp [toLimbs, List.range_succ]

/-- **Limbs put back together**: the low `k` limbs of `n` spell
`n % B ^ k`. -/
theorem ofDigits_toLimbs (B k n : ℕ) : Nat.ofDigits B (toLimbs B k n) = n % B ^ k := by
  induction k with
  | zero => simp [toLimbs, Nat.mod_one]
  | succ k ih =>
    -- the new top limb is the digit of weight `B ^ k`
    rw [toLimbs_succ, Nat.ofDigits_append, ih, length_toLimbs, Nat.ofDigits_singleton,
      Nat.mod_pow_succ]

/-- **And taken apart again**: a list of limbs below `B` is the limbs of
its value. -/
theorem toLimbs_ofDigits (hB : 0 < B) {L : List ℕ} (hL : ∀ x ∈ L, x < B) :
    toLimbs B L.length (Nat.ofDigits B L) = L := by
  apply List.ext_getElem (length_toLimbs _ _ _)
  intro i _ hiL
  -- the limb of weight `B ^ i` heads the limbs from `i` on
  have hdrop : L.drop i = L[i] :: L.drop (i + 1) := List.drop_eq_getElem_cons hiL
  rw [getElem_toLimbs, Nat.ofDigits_div_pow_eq_ofDigits_drop i hB L hL, Nat.ofDigits_mod_eq_head!,
    hdrop, List.head!_cons]
  exact Nat.mod_eq_of_lt (hL _ (List.getElem_mem hiL))

/-- Limbs added in one at a time, each at its weight, spell their value. -/
theorem foldl_range_add_mul_pow (B : ℕ) (f : ℕ → ℕ) (k : ℕ) :
    (List.range k).foldl (fun res i => res + f i * B ^ i) 0 = Nat.ofDigits B ((List.range k).map f) := by
  induction k with
  | zero => rfl
  | succ k ih =>
    rw [List.range_succ, List.foldl_append, ih, List.map_append, Nat.ofDigits_append,
      List.length_map, List.length_range]
    simp [Nat.mul_comm]

/-- The same loop started from the first limb, as code that reads `x[0]`
before its loop writes it. -/
theorem foldl_range'_one_add_mul_pow (B : ℕ) (f : ℕ → ℕ) (k : ℕ) :
    (List.range' 1 k).foldl (fun acc i => acc + f i * B ^ i) (f 0) =
      Nat.ofDigits B ((List.range (k + 1)).map f) := by
  rw [← foldl_range_add_mul_pow, List.range_eq_range', List.range'_succ, List.foldl_cons]
  simp

end Limbs

/-! ## Windows of a byte string -/

/-- **A window of a byte string**: the `k` bytes from `lo` are the limb of
base `256 ^ k` at their place in the value. -/
theorem beValue_drop_take (bs : List UInt8) {lo k : ℕ} (h : lo + k ≤ bs.length) :
    beValue ((bs.drop lo).take k) = beValue bs / 256 ^ (bs.length - (lo + k)) % 256 ^ k := by
  have hsplit : bs = bs.take lo ++ ((bs.drop lo).take k ++ bs.drop (lo + k)) := by
    rw [← List.drop_drop, List.take_append_drop, List.take_append_drop]
  have hmid : ((bs.drop lo).take k).length = k := by
    simp only [List.length_take, List.length_drop]
    omega
  have hrest : (bs.drop (lo + k)).length = bs.length - (lo + k) := List.length_drop
  have hM := beValue_lt ((bs.drop lo).take k)
  have hR := beValue_lt (bs.drop (lo + k))
  rw [hmid] at hM
  rw [hrest] at hR
  -- the value is (before * 256^k + window) * 256^r + after, with after below 256^r
  have hval : beValue bs = 256 ^ (bs.length - (lo + k)) *
        (beValue (bs.take lo) * 256 ^ k + beValue ((bs.drop lo).take k)) +
      beValue (bs.drop (lo + k)) := by
    conv_lhs => rw [hsplit]
    rw [beValue_append, beValue_append, List.length_append, hmid, hrest, pow_add]
    ring
  rw [hval, Nat.mul_add_div (by positivity), Nat.div_eq_of_lt hR, Nat.add_zero,
    Nat.mul_add_mod_of_lt hM]

/-- A byte string read backwards is its little-endian value. -/
theorem beValue_reverse (bs : List UInt8) : beValue bs.reverse = Nat.ofDigits 256 (bs.map UInt8.toNat) := by
  rw [beValue, ofDigitsBE_eq_ofDigits, ← List.map_reverse, List.reverse_reverse]

/-- A list is the concatenation of its first `k` windows of `m`. -/
theorem flatMap_range_drop_take {α : Type} (s : List α) (m k : ℕ) :
    (List.range k).flatMap (fun i => (s.drop (m * i)).take m) = s.take (m * k) := by
  induction k with
  | zero => simp
  | succ k ih =>
    rw [List.range_succ, List.flatMap_append, ih, List.flatMap_singleton, Nat.mul_succ,
      List.take_add]

/-- **`FillBytes` of a value that fits**: `len` bytes whose value is the
absolute value. -/
theorem fillBytes_of_lt {ε : Type} {len : ℕ} {x : ℤ} (hx : x.natAbs < 256 ^ len) :
    ∃ b, (fillBytes len x : Outcome ε (List UInt8)) = .ok b ∧ b.length = len ∧
      beValue b = x.natAbs := by
  have hlen := (length_beBytes_le_iff x.natAbs len).2 hx
  refine ⟨_, if_neg (by omega), ?_, ?_⟩
  · simp only [List.length_append, List.length_replicate]
    omega
  · -- leading zero bytes add nothing
    have hzero : (List.replicate (len - (beBytes x.natAbs).length) (0 : UInt8)).map UInt8.toNat =
        List.replicate (len - (beBytes x.natAbs).length) 0 := by
      simp
    rw [beValue, List.map_append, hzero, ofDigitsBE_replicate_zero_append, ← beValue, beValue_beBytes]

/-- `BigEndian.Uint64` of eight bytes is their value. -/
theorem bigEndianUint64_of_length {ε : Type} {b : List UInt8} (h : b.length = 8) :
    (bigEndianUint64 b : Outcome ε UInt64) = .ok (UInt64.ofNat (beValue b)) := by
  rw [bigEndianUint64, if_neg (by omega), List.take_of_length_le (by omega)]

end XLayerNode
