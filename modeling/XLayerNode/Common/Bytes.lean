import Mathlib.Data.Nat.Digits.Lemmas
import Mathlib.Data.Nat.Bitwise
/-!
# Big-endian numbers

`ofDigitsBE b ds` reads a digit string most significant digit first.
`beValue` is `new(big.Int).SetBytes(b)`, a byte string read in base 256,
and `beBytes` is `big.Int.Bytes()`, the shortest byte string spelling a
number (empty for zero). Both are read off Mathlib's little-endian
`Nat.digits`, whose lemmas carry the proofs. The last section reads a
32-bit word written and read with shifts, as Go code spells it.
-/

namespace XLayerNode

/-- The value of a digit string in base `b`, most significant digit first. -/
def ofDigitsBE (b : ℕ) (ds : List ℕ) : ℕ := ds.foldl (fun acc d => acc * b + d) 0

theorem foldl_ofDigitsBE (b acc : ℕ) (ds : List ℕ) :
    ds.foldl (fun acc d => acc * b + d) acc = acc * b ^ ds.length + ofDigitsBE b ds := by
  induction ds generalizing acc with
  | nil => simp [ofDigitsBE]
  | cons d ds ih =>
    simp only [List.foldl_cons, ofDigitsBE, List.length_cons]
    rw [ih, ih (0 * b + d), pow_succ]
    ring

@[simp] theorem ofDigitsBE_nil (b : ℕ) : ofDigitsBE b [] = 0 := rfl

theorem ofDigitsBE_cons (b d : ℕ) (ds : List ℕ) :
    ofDigitsBE b (d :: ds) = d * b ^ ds.length + ofDigitsBE b ds := by
  simp only [ofDigitsBE, List.foldl_cons, Nat.zero_mul, Nat.zero_add]
  exact foldl_ofDigitsBE b d ds

theorem ofDigitsBE_append (b : ℕ) (ds es : List ℕ) :
    ofDigitsBE b (ds ++ es) = ofDigitsBE b ds * b ^ es.length + ofDigitsBE b es := by
  simp only [ofDigitsBE, List.foldl_append]
  exact foldl_ofDigitsBE b _ es

@[simp] theorem ofDigitsBE_singleton (b d : ℕ) : ofDigitsBE b [d] = d := by
  simp [ofDigitsBE]

/-- Reading most significant digit first is reading the reversed string
least significant digit first. -/
theorem ofDigitsBE_eq_ofDigits (b : ℕ) (ds : List ℕ) :
    ofDigitsBE b ds = Nat.ofDigits b ds.reverse := by
  induction ds with
  | nil => rfl
  | cons d ds ih =>
    rw [ofDigitsBE_cons, ih, List.reverse_cons, Nat.ofDigits_append, Nat.ofDigits_singleton,
      List.length_reverse]
    ring

/-- Leading zeros do not change the value. -/
@[simp] theorem ofDigitsBE_replicate_zero_append (b k : ℕ) (ds : List ℕ) :
    ofDigitsBE b (List.replicate k 0 ++ ds) = ofDigitsBE b ds := by
  induction k with
  | zero => simp
  | succ k ih => simpa [List.replicate_succ, ofDigitsBE_cons] using ih

theorem ofDigitsBE_lt {b : ℕ} (hb : 1 < b) {ds : List ℕ} (hds : ∀ d ∈ ds, d < b) :
    ofDigitsBE b ds < b ^ ds.length := by
  rw [ofDigitsBE_eq_ofDigits, ← List.length_reverse]
  exact Nat.ofDigits_lt_base_pow_length hb (by simpa using hds)

/-- `new(big.Int).SetBytes(b)`: a byte string read in base 256. -/
def beValue (bs : List UInt8) : ℕ := ofDigitsBE 256 (bs.map UInt8.toNat)

/-- `big.Int.Bytes()`: the shortest big-endian byte string of `n`. -/
def beBytes (n : ℕ) : List UInt8 := ((Nat.digits 256 n).map UInt8.ofNat).reverse

/-- `big.Int.Uint64()`: the low 64 bits of the absolute value. -/
def bigUint64 (x : ℤ) : UInt64 := UInt64.ofNat x.natAbs

theorem toNat_bigUint64 {x : ℤ} (h0 : 0 ≤ x) (h : x < 2 ^ 64) : (bigUint64 x).toNat = x.toNat := by
  have hx : x.natAbs < 2 ^ 64 := by omega
  simp only [bigUint64, UInt64.toNat_ofNat', Nat.mod_eq_of_lt hx]
  omega

@[simp] theorem beValue_nil : beValue [] = 0 := rfl

theorem beValue_append (as bs : List UInt8) :
    beValue (as ++ bs) = beValue as * 256 ^ bs.length + beValue bs := by
  simp [beValue, ofDigitsBE_append]

@[simp] theorem beValue_singleton (x : UInt8) : beValue [x] = x.toNat := by
  simp [beValue]

theorem beValue_cons (x : UInt8) (bs : List UInt8) :
    beValue (x :: bs) = x.toNat * 256 ^ bs.length + beValue bs := by
  simp [beValue, ofDigitsBE_cons]

theorem beValue_lt (bs : List UInt8) : beValue bs < 256 ^ bs.length := by
  have h : ofDigitsBE 256 (bs.map UInt8.toNat) < 256 ^ (bs.map UInt8.toNat).length :=
    ofDigitsBE_lt (by norm_num) (by simpa using fun x _ => UInt8.toNat_lt x)
  simpa [beValue] using h

theorem map_toNat_beBytes (n : ℕ) :
    (beBytes n).map UInt8.toNat = (Nat.digits 256 n).reverse := by
  have hd : ∀ d ∈ Nat.digits 256 n, (UInt8.ofNat d).toNat = d := fun d hd => by
    have := Nat.digits_lt_base (by norm_num) hd
    simpa using this
  simp only [beBytes, List.map_reverse, List.map_map]
  congr 1
  conv_rhs => rw [← List.map_id (Nat.digits 256 n)]
  exact List.map_congr_left hd

/-- **`SetBytes` inverts `Bytes`.** -/
@[simp] theorem beValue_beBytes (n : ℕ) : beValue (beBytes n) = n := by
  rw [beValue, map_toNat_beBytes, ofDigitsBE_eq_ofDigits, List.reverse_reverse,
    Nat.ofDigits_digits]

@[simp] theorem length_beBytes (n : ℕ) : (beBytes n).length = (Nat.digits 256 n).length := by
  simp [beBytes]

theorem length_beBytes_le_iff (n k : ℕ) : (beBytes n).length ≤ k ↔ n < 256 ^ k := by
  rw [length_beBytes]
  exact Nat.digits_length_le_iff (by norm_num) n

@[simp] theorem beBytes_zero : beBytes 0 = [] := by simp [beBytes]

theorem beBytes_eq_nil_iff (n : ℕ) : beBytes n = [] ↔ n = 0 := by
  simp [beBytes, Nat.digits_eq_nil_iff_eq_zero]

/-! ## Four bytes of a 32-bit word -/

/-- Disjoint shifted bytes: their `|||` is their sum. -/
theorem shiftLeft_or_bytes {a b c d : ℕ} (hb : b < 2 ^ 8) (hc : c < 2 ^ 8) (hd : d < 2 ^ 8) :
    a <<< 24 ||| b <<< 16 ||| c <<< 8 ||| d = ((a * 256 + b) * 256 + c) * 256 + d := by
  have hshift : a <<< 24 ||| b <<< 16 ||| c <<< 8 = ((a <<< 8 ||| b) <<< 8 ||| c) <<< 8 := by
    simp only [Nat.shiftLeft_or_distrib, ← Nat.shiftLeft_add]
  rw [hshift, ← Nat.shiftLeft_add_eq_or_of_lt hb, ← Nat.shiftLeft_add_eq_or_of_lt hc,
    ← Nat.shiftLeft_add_eq_or_of_lt hd]
  simp only [Nat.shiftLeft_eq]

/-- **Reading a big-endian word**: the four bytes shifted into place and
or-ed together are their value in base 256. -/
theorem toNat_or_shiftLeft_bytes (a b c d : UInt8) :
    (a.toUInt32 <<< 24 ||| b.toUInt32 <<< 16 ||| c.toUInt32 <<< 8 ||| d.toUInt32).toNat =
      beValue [a, b, c, d] := by
  -- a byte shifted by at most 24 stays below 2 ^ 32
  have hsmall : ∀ (x : UInt8) (k : ℕ), k ≤ 24 → x.toNat <<< k % 2 ^ 32 = x.toNat <<< k := by
    intro x k hk
    apply Nat.mod_eq_of_lt
    rw [Nat.shiftLeft_eq]
    calc x.toNat * 2 ^ k < 2 ^ 8 * 2 ^ k := Nat.mul_lt_mul_of_pos_right x.toNat_lt (Nat.two_pow_pos k)
      _ ≤ 2 ^ 8 * 2 ^ 24 := Nat.mul_le_mul_left _ (Nat.pow_le_pow_right (by norm_num) hk)
      _ = 2 ^ 32 := by norm_num
  simp only [UInt32.toNat_or, UInt32.toNat_shiftLeft, UInt8.toNat_toUInt32,
    show UInt32.toNat 24 % 32 = 24 from rfl, show UInt32.toNat 16 % 32 = 16 from rfl,
    show UInt32.toNat 8 % 32 = 8 from rfl, hsmall _ 24 le_rfl, hsmall _ 16 (by norm_num),
    hsmall _ 8 (by norm_num)]
  rw [shiftLeft_or_bytes b.toNat_lt c.toNat_lt d.toNat_lt]
  simp [beValue_cons]
  ring

/-- **Writing a big-endian word**: the bytes of a word shifted down by
24, 16, 8 and 0 are its value in base 256. -/
theorem beValue_shiftRight_bytes (v : UInt32) :
    beValue [(v >>> 24).toUInt8, (v >>> 16).toUInt8, (v >>> 8).toUInt8, v.toUInt8] = v.toNat := by
  have hv := v.toNat_lt
  simp only [beValue_cons, beValue_nil, UInt32.toNat_toUInt8, UInt32.toNat_shiftRight,
    List.length_cons, List.length_nil]
  simp only [show UInt32.toNat 24 % 32 = 24 from rfl, show UInt32.toNat 16 % 32 = 16 from rfl,
    show UInt32.toNat 8 % 32 = 8 from rfl, Nat.shiftRight_eq_div_pow, Nat.reducePow]
  omega

end XLayerNode
