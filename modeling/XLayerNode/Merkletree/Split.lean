import XLayerNode.Common.Limbs
import XLayerNode.Common.GoHex
import Mathlib.Data.Int.Bitwise
/-!
# Scalars and their limbs in the merkletree

A 256-bit scalar travels the merkletree in two limb forms: eight 32-bit
limbs held in `uint64`s (`fea2scalar`, `scalar2fea`), and the four 64-bit
limbs of a node hash, the `h4` (`h4ToScalar`, and `scalarToh4` through 32
big-endian bytes), which also has a `0x`-hex text form (`H4ToString`,
`StringToh4`).

Each conversion is a limb list of `Common.Limbs` at its base
(`fea2scalar_eq`, `scalar2fea_eq`, `h4ToScalar_eq`, `scalarToh4_eq`), so
every round trip is `ofDigits_toLimbs` one way and `toLimbs_ofDigits` the
other (`scalar_limbs_roundTrip`). The text goes through 64 hex digits:
`%064s` pads `hex.EncodeToString(sc.Bytes())` with zeros, and
`SetString(·, 16)` reads the padded text back as the same value, also for
zero, whose `Bytes()` is empty (`setString_padLeft_encodeToString`).
-/

namespace XLayerNode

namespace Merkletree

open Outcome GoHex

/-- `poseidon.NROUNDSF`. -/
def nroundsf : ℕ := 8

/-- `maxBigIntLen`: 256 bits. -/
def maxBigIntLen : ℕ := 32

/-- `wordLength`: the bits of a limb of an `h4`. -/
def wordLength : ℕ := 64

/-- `fea2scalar`: eight 32-bit limbs, least significant first; any other
number of limbs is `0`. The sum of shifted `uint64`s is never negative. -/
def fea2scalar (v : List UInt64) : ℕ :=
  if v.length ≠ nroundsf then 0
  else (List.range 8).foldl (fun res i => res + (v.getD i 0).toNat <<< (32 * i)) 0

/-- `scalar2fea`: the eight 32-bit limbs of `value`, least significant
first, each `(value >> 32i) & 0xFFFFFFFF`. -/
def scalar2fea (value : ℤ) : List UInt64 :=
  let mask : ℤ := 0xFFFFFFFF
  (List.range 8).map fun (i : ℕ) => bigUint64 (Int.land (value >>> (32 * i)) mask)

/-- `h4ToScalar`: four 64-bit limbs, least significant first; an empty
slice is `0`, and one of one to three limbs panics at `h4[i]`. -/
def h4ToScalar {ε : Type} (h4 : List UInt64) : Outcome ε ℕ :=
  if h4.length = 0 then pure 0
  else do
    let result ← index h4 0
    (List.range' 1 3).foldlM (fun result i => do
      let b2 ← index h4 i
      pure (result + b2.toNat <<< (wordLength * i))) result.toNat

/-- `ScalarToFilledByteSlice`: `maxBigIntLen` bytes, big-endian. -/
def scalarToFilledByteSlice {ε : Type} (s : ℤ) : Outcome ε (List UInt8) :=
  fillBytes maxBigIntLen s

/-- `scalarToh4`: the 32 bytes of the scalar read as four big-endian
64-bit limbs, the most significant first into `r[3]`. -/
def scalarToh4 {ε : Type} (s : ℤ) : Outcome ε (List UInt64) := do
  let b ← scalarToFilledByteSlice s
  -- `binary.BigEndian.Uint64` of `hex.DecodeHex("0xFFFFFFFFFFFFFFFF")`
  let fbe : UInt64 := 0xFFFFFFFFFFFFFFFF
  let r3 ← bigEndianUint64 (← slice b 0 8)
  let r2 ← bigEndianUint64 (← slice b 8 16)
  let r1 ← bigEndianUint64 (← slice b 16 24)
  let r0 ← bigEndianUint64 (← slice b 24 b.length)
  pure [r0 &&& fbe, r1 &&& fbe, r2 &&& fbe, r3 &&& fbe]

/-- `H4ToString`: `0x`, then the scalar's bytes in hex, padded to 64
digits by `%064s`. -/
def h4ToString {ε : Type} (h4 : List UInt64) : Outcome ε (List Char) := do
  let sc ← h4ToScalar h4
  pure ('0' :: 'x' :: padLeft 64 (encodeToString (beBytes sc)))

/-- The error of `StringToh4`. -/
inductive StringToh4Error where
  /-- "Could not convert %q into big int". -/
  | couldNotConvert (str : List Char)
  deriving DecidableEq, Repr

/-- `StringToh4`: an optional `0x`, then `SetString(str, 16)`. -/
def stringToh4 (str : List Char) : Outcome StringToh4Error (List UInt64) :=
  let str := if "0x".toList.isPrefixOf str then str.drop 2 else str
  match setString str 16 with
  | none => err (.couldNotConvert str)
  | some bi => scalarToh4 bi

/-! ## The conversions as limbs -/

/-- Reading each index of a list is the list. -/
theorem map_range_getD {α β : Type} (l : List α) (d : α) (g : α → β) :
    (List.range l.length).map (fun i => g (l.getD i d)) = l.map g := by
  apply List.ext_getElem (by simp)
  intro i hi _
  simp only [List.length_map, List.length_range] at hi
  rw [List.getElem_map, List.getElem_range, List.getElem_map, List.getD_eq_getElem _ _ hi]

/-- **`fea2scalar` of eight limbs is their value in base `2^32`.** -/
theorem fea2scalar_eq {v : List UInt64} (hv : v.length = 8) :
    fea2scalar v = Nat.ofDigits (2 ^ 32) (v.map UInt64.toNat) := by
  have hshift : ∀ i, (v.getD i 0).toNat <<< (32 * i) = (v.getD i 0).toNat * (2 ^ 32) ^ i := by
    intro i
    rw [Nat.shiftLeft_eq, pow_mul]
  have hlimbs := map_range_getD v 0 UInt64.toNat
  rw [hv] at hlimbs
  simp only [fea2scalar, nroundsf, hv, ne_eq, not_true_eq_false, if_false, hshift]
  rw [foldl_range_add_mul_pow, hlimbs]

/-- The shift and mask of a non-negative value are a limb in base `2^32`. -/
theorem bigUint64_land_shiftRight (n i : ℕ) :
    bigUint64 (Int.land ((n : ℤ) >>> (32 * i)) 0xFFFFFFFF) = UInt64.ofNat (n / (2 ^ 32) ^ i % 2 ^ 32) := by
  have hland : Int.land ((n : ℤ) >>> (32 * i)) 0xFFFFFFFF = ((n >>> (32 * i) &&& (2 ^ 32 - 1) : ℕ) : ℤ) :=
    rfl
  rw [hland, bigUint64, Int.natAbs_natCast, Nat.and_two_pow_sub_one_eq_mod, Nat.shiftRight_eq_div_pow,
    pow_mul]

/-- **`scalar2fea` of a non-negative value is its eight limbs in base
`2^32`.** -/
theorem scalar2fea_eq (n : ℕ) : scalar2fea n = (toLimbs (2 ^ 32) 8 n).map UInt64.ofNat := by
  simp only [scalar2fea, toLimbs, List.map_map]
  exact List.map_congr_left fun i _ => bigUint64_land_shiftRight n i

/-- **`h4ToScalar` of four limbs is their value in base `2^64`.** -/
theorem h4ToScalar_eq {ε : Type} {h4 : List UInt64} (hh : h4.length = 4) :
    (h4ToScalar h4 : Outcome ε ℕ) = ok (Nat.ofDigits (2 ^ 64) (h4.map UInt64.toNat)) := by
  have hget : ∀ i ∈ List.range' 1 3, h4[i]? = some (h4.getD i 0) := by
    intro i hi
    rw [List.mem_range'_1] at hi
    rw [List.getElem?_eq_getElem (by omega), List.getD_eq_getElem]
  have hshift : ∀ (acc i : ℕ) (x : UInt64),
      acc + x.toNat <<< (wordLength * i) = acc + x.toNat * (2 ^ 64) ^ i := by
    intro acc i x
    rw [Nat.shiftLeft_eq, wordLength, pow_mul]
  have hlimbs := map_range_getD h4 0 UInt64.toNat
  rw [hh] at hlimbs
  rw [h4ToScalar, if_neg (by omega), index_of_lt (by omega), ok_bind,
    foldlM_index_eq (fun acc i (x : UInt64) => acc + x.toNat <<< (wordLength * i)) _ hget]
  simp only [hshift]
  -- the loop from `h4[0]` over `1, 2, 3`
  rw [← List.getD_eq_getElem h4 0,
    foldl_range'_one_add_mul_pow (2 ^ 64) (fun i => (h4.getD i 0).toNat) 3, hlimbs]

/-- **`scalarToh4` of a scalar below `2^256` is the four limbs of its
absolute value in base `2^64`.** -/
theorem scalarToh4_eq {ε : Type} {s : ℤ} (hs : s.natAbs < 2 ^ 256) :
    (scalarToh4 s : Outcome ε (List UInt64)) = ok ((toLimbs (2 ^ 64) 4 s.natAbs).map UInt64.ofNat) := by
  obtain ⟨b, hb, hlen, hval⟩ := @fillBytes_of_lt ε maxBigIntLen s (by simpa [maxBigIntLen] using hs)
  have hmask : ∀ x : UInt64, x &&& 0xFFFFFFFFFFFFFFFF = x := by
    intro x
    have hones : (0xFFFFFFFFFFFFFFFF : UInt64) = -1 := by decide
    rw [hones]
    grind
  -- the eight bytes from `lo` are the limb of weight `2 ^ (64 * j)`, `j = 3 - lo / 8`
  have hwindow : ∀ lo j, lo + 8 + 8 * j = 32 →
      (bigEndianUint64 ((b.drop lo).take 8) : Outcome ε UInt64) =
        ok (UInt64.ofNat (s.natAbs / (2 ^ 64) ^ j % 2 ^ 64)) := by
    intro lo j hj
    have hlen8 : ((b.drop lo).take 8).length = 8 := by
      simp only [List.length_take, List.length_drop, hlen, maxBigIntLen]
      omega
    rw [bigEndianUint64_of_length hlen8, beValue_drop_take b (by simp [hlen, maxBigIntLen]; omega),
      hval, hlen, maxBigIntLen]
    congr 3
    rw [show 32 - (lo + 8) = 8 * j by omega, pow_mul]
    norm_num
  have hlen' : b.length = 32 := hlen
  simp only [scalarToh4, scalarToFilledByteSlice, hb, ok_bind, slice_of_le (by omega : 0 ≤ 8)
    (by omega : 8 ≤ b.length), slice_of_le (by omega : 8 ≤ 16) (by omega : 16 ≤ b.length),
    slice_of_le (by omega : 16 ≤ 24) (by omega : 24 ≤ b.length),
    slice_of_le (by omega : 24 ≤ 32) (by omega : 32 ≤ b.length), hlen']
  rw [hwindow 0 3 rfl, hwindow 8 2 rfl, hwindow 16 1 rfl, hwindow 24 0 rfl]
  simp [toLimbs, List.range_succ, hmask]

/-! ## The round trips -/

/-- Limbs below `2^64` survive a trip through `uint64`. -/
theorem map_toNat_ofNat_toLimbs {B : ℕ} (hB : 0 < B) (hB64 : B ≤ 2 ^ 64) (k n : ℕ) :
    ((toLimbs B k n).map UInt64.ofNat).map UInt64.toNat = toLimbs B k n := by
  rw [List.map_map]
  conv_rhs => rw [← List.map_id (toLimbs B k n)]
  refine List.map_congr_left fun x hx => ?_
  have hx' : x < 2 ^ 64 := lt_of_lt_of_le (lt_of_mem_toLimbs hB hx) hB64
  simpa [UInt64.toNat_ofNat'] using hx'

/-- **The limbs of a value put back together are its low 256 bits.** -/
theorem fea2scalar_scalar2fea (n : ℕ) : fea2scalar (scalar2fea n) = n % 2 ^ 256 := by
  rw [scalar2fea_eq, fea2scalar_eq (by simp), map_toNat_ofNat_toLimbs (by norm_num) (by norm_num),
    ofDigits_toLimbs]
  norm_num

/-- **Eight 32-bit limbs are the limbs of their value.** -/
theorem scalar2fea_fea2scalar {f : List UInt64} (hf : f.length = 8)
    (hlt : ∀ x ∈ f, x.toNat < 2 ^ 32) : scalar2fea (fea2scalar f) = f := by
  have hdigits : ∀ d ∈ f.map UInt64.toNat, d < 2 ^ 32 := by
    intro d hd
    obtain ⟨x, hx, rfl⟩ := List.mem_map.1 hd
    exact hlt x hx
  have hlen : (f.map UInt64.toNat).length = 8 := by simp [hf]
  rw [fea2scalar_eq hf, scalar2fea_eq, ← hlen, toLimbs_ofDigits (by norm_num) hdigits, List.map_map]
  conv_rhs => rw [← List.map_id f]
  exact List.map_congr_left fun x _ => UInt64.ofNat_toNat

/-- **An `h4` is the limbs of its scalar.** -/
theorem scalarToh4_ofDigits {ε : Type} {h4 : List UInt64} (hh : h4.length = 4) :
    (scalarToh4 ((Nat.ofDigits (2 ^ 64) (h4.map UInt64.toNat) : ℕ) : ℤ) : Outcome ε (List UInt64)) =
      ok h4 := by
  have hdigits : ∀ d ∈ h4.map UInt64.toNat, d < 2 ^ 64 := by
    intro d hd
    obtain ⟨x, -, rfl⟩ := List.mem_map.1 hd
    exact x.toNat_lt
  have hlen : (h4.map UInt64.toNat).length = 4 := by simp [hh]
  have hfit : Nat.ofDigits (2 ^ 64) (h4.map UInt64.toNat) < 2 ^ 256 := by
    have := Nat.ofDigits_lt_base_pow_length (by norm_num) hdigits
    rw [hlen] at this
    simpa using this
  rw [scalarToh4_eq (by rw [Int.natAbs_natCast]; exact hfit), Int.natAbs_natCast, ← hlen,
    toLimbs_ofDigits (by norm_num) hdigits, List.map_map]
  conv_rhs => rw [← List.map_id h4]
  exact congrArg ok (List.map_congr_left fun x _ => UInt64.ofNat_toNat)

/-- `StringToh4` of the padded hex text of a scalar is `scalarToh4` of the
scalar. -/
theorem stringToh4_hexString (n : ℕ) :
    stringToh4 ('0' :: 'x' :: padLeft 64 (encodeToString (beBytes n))) = scalarToh4 n := by
  have hpre : "0x".toList.isPrefixOf ('0' :: 'x' :: padLeft 64 (encodeToString (beBytes n))) = true :=
    rfl
  have hread : setString (padLeft 64 (encodeToString (beBytes n))) 16 = some (n : ℤ) := by
    rw [setString_padLeft_encodeToString (by norm_num), beValue_beBytes]
  simp only [stringToh4, hpre, if_true, List.drop_succ_cons, List.drop_zero, hread]

/-- **`StringToh4` reads back `H4ToString`**, through the 64 padded hex
digits. -/
theorem stringToh4_h4ToString {h4 : List UInt64} (hh : h4.length = 4) :
    (h4ToString h4 >>= stringToh4) = ok h4 := by
  simp only [h4ToString, h4ToScalar_eq hh, ok_bind, pure_def]
  rw [stringToh4_hexString]
  exact scalarToh4_ofDigits hh

theorem scalar_limbs_roundTrip :
    (∀ v : ℤ, 0 ≤ v → v < 2 ^ 256 → (fea2scalar (scalar2fea v) : ℤ) = v) ∧
    (∀ f : List UInt64, f.length = 8 → (∀ x ∈ f, x.toNat < 2 ^ 32) → scalar2fea (fea2scalar f) = f) ∧
    (∀ a b c d : UInt64,
      (h4ToScalar [a, b, c, d] >>= fun sc => scalarToh4 sc : Outcome Empty (List UInt64)) =
        ok [a, b, c, d] ∧
      (h4ToString [a, b, c, d] >>= stringToh4) = ok [a, b, c, d]) := by
  refine ⟨?_, fun f hf hlt => scalar2fea_fea2scalar hf hlt, ?_⟩
  · intro v h0 hlt
    obtain ⟨n, rfl⟩ := Int.eq_ofNat_of_zero_le h0
    have hn : n < 2 ^ 256 := by exact_mod_cast hlt
    rw [fea2scalar_scalar2fea, Nat.mod_eq_of_lt hn]
  · intro a b c d
    refine ⟨?_, stringToh4_h4ToString rfl⟩
    rw [h4ToScalar_eq rfl, ok_bind]
    exact scalarToh4_ofDigits rfl

/-- The zero scalar, and eight small limbs. -/
theorem scalar_limbs_roundTrip_zero :
    (fea2scalar (scalar2fea 0) : ℤ) = 0 ∧
    scalar2fea (fea2scalar [1, 2, 3, 4, 5, 6, 7, 8]) = [1, 2, 3, 4, 5, 6, 7, 8] :=
  ⟨scalar_limbs_roundTrip.1 0 le_rfl (by norm_num),
    scalar_limbs_roundTrip.2.1 _ rfl (by
      simp only [List.forall_mem_cons, List.not_mem_nil, IsEmpty.forall_iff, implies_true, and_true]
      decide)⟩

end Merkletree

end XLayerNode
