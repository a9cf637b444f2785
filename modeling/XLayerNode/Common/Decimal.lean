import XLayerNode.Common.GoHex
import Mathlib.Data.Nat.Digits.Lemmas
/-!
# Decimal text, as Go writes it

`Nat.toDigits 10` is what `strconv.Itoa` and `big.Int.String()` write for
a non-negative value; `bigIntString` adds the sign of a negative one.
Decimal text is read back by `GoHex.setString` at base 10.

The bridge is `toDigits_eq_map_decDigits`: the text is the digit list
`decDigits` mapped through `Nat.digitChar`, and `decDigits` is Mathlib's
`Nat.digits` reversed, so Mathlib's lemmas on digits (`Nat.ofDigits`,
`Nat.self_div_pow_eq_ofDigits_drop`) carry what is said of the text.
`setString_map_digitChar` reads such a list back.
-/

namespace XLayerNode

namespace Decimal

/-- The decimal digits of `n`, most significant first; `[0]` for zero. -/
def decDigits (n : ℕ) : List ℕ := if n = 0 then [0] else (Nat.digits 10 n).reverse

/-- `big.Int.String()`: the decimal digits, after a `-` for a negative
value. -/
def bigIntString (x : ℤ) : List Char :=
  if x < 0 then '-' :: Nat.toDigits 10 x.natAbs else Nat.toDigits 10 x.toNat

/-! ## The digits of a number -/

theorem lt_of_mem_decDigits {n d : ℕ} (h : d ∈ decDigits n) : d < 10 := by
  unfold decDigits at h
  split_ifs at h
  · simp at h
    omega
  · exact Nat.digits_lt_base (by norm_num) (List.mem_reverse.1 h)

/-- **`Nat.toDigits 10` spells `decDigits`.** -/
theorem toDigits_eq_map_decDigits (n : ℕ) : Nat.toDigits 10 n = (decDigits n).map Nat.digitChar := by
  induction n using Nat.strong_induction_on with
  | _ n ih =>
    rw [Nat.toDigits_eq_if (by norm_num)]
    split_ifs with hlt
    · by_cases h0 : n = 0
      · subst h0
        rfl
      · simp [decDigits, h0, Nat.digits_of_lt 10 n h0 hlt]
    · -- the last digit is written after the digits of `n / 10`
      have hpos : 0 < n := by omega
      have hdiv : n / 10 ≠ 0 := by omega
      have hdigits : Nat.digits 10 n = n % 10 :: Nat.digits 10 (n / 10) :=
        Nat.digits_def' (by norm_num) hpos
      rw [ih (n / 10) (by omega)]
      simp [decDigits, hdiv, hdigits, show n ≠ 0 by omega]

theorem length_decDigits {n : ℕ} (h : n ≠ 0) : (decDigits n).length = (Nat.digits 10 n).length := by
  simp [decDigits, h]

/-- **The leading `k` digits of `n` spell `n / 10 ^ (length - k)`.** -/
theorem ofDigitsBE_take_decDigits (n k : ℕ) :
    ofDigitsBE 10 ((decDigits n).take k) = n / 10 ^ ((decDigits n).length - k) := by
  by_cases h0 : n = 0
  · subst h0
    cases k <;> simp [decDigits]
  · -- the leading digits are the top of Mathlib's little-endian list, reversed
    have hdrop := @Nat.self_div_pow_eq_ofDigits_drop 10 ((Nat.digits 10 n).length - k) n (by norm_num)
    rw [decDigits, if_neg h0, List.take_reverse, List.length_reverse, ofDigitsBE_eq_ofDigits,
      List.reverse_reverse, hdrop]

/-- `big.Int.String()` of a natural number spells its `decDigits`. -/
theorem bigIntString_natCast (n : ℕ) : bigIntString n = (decDigits n).map Nat.digitChar := by
  rw [bigIntString, if_neg (by omega), Int.toNat_natCast, toDigits_eq_map_decDigits]

/-! ## Reading digits back -/

theorem digitChar_eq_hexDigit {d : ℕ} (hd : d < 10) : Nat.digitChar d = GoHex.hexDigit d := by
  have : ∀ d : Fin 10, Nat.digitChar d = GoHex.hexDigit d := by decide
  exact this ⟨d, hd⟩

/-- **`SetString(s, 10)` reads a digit string as its value.** -/
theorem setString_map_digitChar {ds : List ℕ} (hne : ds ≠ []) (hds : ∀ d ∈ ds, d < 10) :
    GoHex.setString (ds.map Nat.digitChar) 10 = some (ofDigitsBE 10 ds : ℤ) := by
  have hchars : ds.map Nat.digitChar = ds.map GoHex.hexDigit :=
    List.map_congr_left fun d hd => digitChar_eq_hexDigit (hds d hd)
  rw [hchars]
  exact GoHex.setString_map_hexDigit (by norm_num) hne hds

end Decimal

end XLayerNode
