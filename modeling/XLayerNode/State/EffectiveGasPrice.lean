import XLayerNode.Common.Bytes
import Mathlib.Order.Bounds.Basic
import Mathlib.Tactic.Linarith
/-!
# The effective gas price percentage

A transaction is charged `floor(gasPrice * (p + 1) / 256)` for a byte `p`,
the effective percentage. `CalculateEffectiveGasPricePercentage` picks `p`
from the gas price the sender signed and the effective gas price the
sequencer needs: 255 when the signed price already covers it, else the
ceiling of `effectiveGasPrice * 256 / gasPrice`, simulated with integer
division, less one.

That byte is the least one whose charge covers the price needed
(`calculateEffectiveGasPricePercentage_tightest`): the ceiling is at most
256 because the signed price is above the needed one, so the `uint8`
conversion never wraps (`ceilPercentage_mem`), and one percentage less
falls short (`mul_ceilPercentage_lt`).
-/

namespace XLayerNode

namespace State

/-- `MaxEffectivePercentage`. -/
def maxEffectivePercentage : UInt8 := 255

/-- The error of `CalculateEffectiveGasPricePercentage`. -/
inductive EffectiveGasPriceError where
  /-- `ErrEffectiveGasPriceEmpty`: "effectiveGasPrice or gasPrice cannot be
  nil or zero". -/
  | errEffectiveGasPriceEmpty
  deriving DecidableEq, Repr

/-- `CalculateEffectiveGasPricePercentage`; `none` is a nil `*big.Int`, and
`/` on `ℤ` is the Euclidean division of `big.Int.Div`. -/
def calculateEffectiveGasPricePercentage (gasPrice effectiveGasPrice : Option ℤ) :
    Except EffectiveGasPriceError UInt8 :=
  match effectiveGasPrice, gasPrice with
  | some effectiveGasPrice, some gasPrice =>
    if gasPrice = 0 ∨ effectiveGasPrice = 0 then .error .errEffectiveGasPriceEmpty
    else if gasPrice ≤ effectiveGasPrice then pure maxEffectivePercentage
    else
      -- simulate Ceil with integer division, then take 1 to land in 0-255
      let b := (effectiveGasPrice * 256 + gasPrice - 1) / gasPrice - 1
      pure (bigUint64 b).toUInt8
  | _, _ => .error .errEffectiveGasPriceEmpty

/-! ## The ceiling -/

section Ceil

variable {gasPrice effectiveGasPrice : ℤ}

/-- The percentage the division computes, before the `uint8` conversion. -/
def ceilPercentage (gasPrice effectiveGasPrice : ℤ) : ℤ :=
  (effectiveGasPrice * 256 + gasPrice - 1) / gasPrice - 1

/-- **The ceiling covers the price**: one more than the percentage, times
the gas price, reaches `256` times the effective gas price. -/
theorem le_mul_ceilPercentage (hgp : 0 < gasPrice) :
    effectiveGasPrice * 256 ≤ gasPrice * (ceilPercentage gasPrice effectiveGasPrice + 1) := by
  have hlt := Int.lt_ediv_add_one_mul_self (effectiveGasPrice * 256 + gasPrice - 1) hgp
  unfold ceilPercentage
  nlinarith

/-- **And one less falls short.** -/
theorem mul_ceilPercentage_lt (hgp : 0 < gasPrice) :
    gasPrice * ceilPercentage gasPrice effectiveGasPrice < effectiveGasPrice * 256 := by
  have hle := Int.ediv_mul_le (effectiveGasPrice * 256 + gasPrice - 1) hgp.ne'
  unfold ceilPercentage
  nlinarith

/-- Below the gas price, the percentage is a byte. -/
theorem ceilPercentage_mem (hegp : 0 < effectiveGasPrice) (hlt : effectiveGasPrice < gasPrice) :
    0 ≤ ceilPercentage gasPrice effectiveGasPrice ∧ ceilPercentage gasPrice effectiveGasPrice ≤ 255 := by
  have hgp : 0 < gasPrice := hegp.trans hlt
  have hcover := @le_mul_ceilPercentage gasPrice effectiveGasPrice hgp
  have hshort := @mul_ceilPercentage_lt gasPrice effectiveGasPrice hgp
  constructor
  · -- a negative percentage would cover nothing
    by_contra hneg
    nlinarith
  · -- 256 percentages would cover the whole gas price, which is above the effective one
    by_contra hbig
    nlinarith

/-- What `floor(gasPrice * (p + 1) / 256)` reaching a price says of `p`. -/
theorem le_charge_iff (target : ℤ) (p : ℕ) :
    target ≤ gasPrice * (p + 1) / 256 ↔ target * 256 ≤ gasPrice * (p + 1) :=
  Int.le_ediv_iff_mul_le (by norm_num)

end Ceil

/-! ## The tightest byte -/

/-- `uint8(b.Uint64())` of a byte is the byte. -/
theorem toNat_toUInt8_bigUint64 {b : ℤ} (h0 : 0 ≤ b) (h : b ≤ 255) :
    (bigUint64 b).toUInt8.toNat = b.toNat := by
  rw [UInt64.toNat_toUInt8, toNat_bigUint64 h0 (by omega)]
  omega

/-- **The signed price covers the needed one**: 255 is then the least
byte whose charge reaches it, the whole gas price. -/
theorem isLeast_maxEffectivePercentage {gasPrice effectiveGasPrice : ℤ} (hgp : 0 < gasPrice)
    (hle : gasPrice ≤ effectiveGasPrice) :
    IsLeast {q : ℕ | q ≤ 255 ∧ min effectiveGasPrice gasPrice ≤ gasPrice * (q + 1) / 256}
      maxEffectivePercentage.toNat := by
  have hmin : min effectiveGasPrice gasPrice = gasPrice := min_eq_right hle
  refine ⟨⟨by decide, ?_⟩, ?_⟩
  · rw [hmin, le_charge_iff]
    simp [maxEffectivePercentage]
  · rintro q ⟨-, hq⟩
    rw [hmin, le_charge_iff] at hq
    -- a smaller byte charges less than the whole gas price
    by_contra hlt
    have hq' : (q : ℤ) + 1 ≤ 255 := by
      simp only [maxEffectivePercentage, UInt8.toNat_ofNat, not_le] at hlt
      omega
    nlinarith

/-- **Below the gas price, the ceiling is the least byte** whose charge
reaches the effective gas price. -/
theorem isLeast_ceilPercentage {gasPrice effectiveGasPrice : ℤ} (hegp : 0 < effectiveGasPrice)
    (hlt : effectiveGasPrice < gasPrice) :
    IsLeast {q : ℕ | q ≤ 255 ∧ min effectiveGasPrice gasPrice ≤ gasPrice * (q + 1) / 256}
      (ceilPercentage gasPrice effectiveGasPrice).toNat := by
  have hgp : 0 < gasPrice := hegp.trans hlt
  have hmin : min effectiveGasPrice gasPrice = effectiveGasPrice := min_eq_left hlt.le
  obtain ⟨h0, h255⟩ := ceilPercentage_mem hegp hlt
  have hcast : ((ceilPercentage gasPrice effectiveGasPrice).toNat : ℤ) =
      ceilPercentage gasPrice effectiveGasPrice := Int.toNat_of_nonneg h0
  refine ⟨⟨by omega, ?_⟩, ?_⟩
  · rw [hmin, le_charge_iff, hcast]
    exact le_mul_ceilPercentage hgp
  · rintro q ⟨-, hq⟩
    rw [hmin, le_charge_iff] at hq
    have hshort := @mul_ceilPercentage_lt gasPrice effectiveGasPrice hgp
    -- a byte that covers the price is above the one that falls short
    have hle : ceilPercentage gasPrice effectiveGasPrice ≤ q := by
      by_contra hgt
      have hq' : (q : ℤ) + 1 ≤ ceilPercentage gasPrice effectiveGasPrice := by omega
      nlinarith
    omega

/-- The error comes exactly with a nil or zero argument. -/
theorem calculateEffectiveGasPricePercentage_eq_error_iff (gasPrice effectiveGasPrice : Option ℤ) :
    calculateEffectiveGasPricePercentage gasPrice effectiveGasPrice =
        .error .errEffectiveGasPriceEmpty ↔
      gasPrice = none ∨ effectiveGasPrice = none ∨ gasPrice = some 0 ∨
        effectiveGasPrice = some 0 := by
  cases effectiveGasPrice with
  | none => simp [calculateEffectiveGasPricePercentage]
  | some effectiveGasPrice =>
    cases gasPrice with
    | none => simp [calculateEffectiveGasPricePercentage]
    | some gasPrice =>
      simp only [calculateEffectiveGasPricePercentage, reduceCtorEq, false_or, Option.some.injEq]
      split_ifs with hzero hle
      · simpa using hzero
      · simp only [pure, Except.pure, reduceCtorEq, false_iff]
        simpa using hzero
      · simp only [pure, Except.pure, reduceCtorEq, false_iff]
        simpa using hzero

theorem calculateEffectiveGasPricePercentage_tightest :
    (∀ gasPrice effectiveGasPrice : ℤ, 0 < gasPrice → 0 < effectiveGasPrice →
      ∃ p : UInt8,
        calculateEffectiveGasPricePercentage (some gasPrice) (some effectiveGasPrice) = .ok p ∧
        IsLeast {q : ℕ | q ≤ 255 ∧ min effectiveGasPrice gasPrice ≤ gasPrice * (q + 1) / 256}
          p.toNat) ∧
    ∀ gasPrice effectiveGasPrice : Option ℤ,
      calculateEffectiveGasPricePercentage gasPrice effectiveGasPrice =
          .error .errEffectiveGasPriceEmpty ↔
        gasPrice = none ∨ effectiveGasPrice = none ∨ gasPrice = some 0 ∨
          effectiveGasPrice = some 0 := by
  refine ⟨?_, calculateEffectiveGasPricePercentage_eq_error_iff⟩
  intro gasPrice effectiveGasPrice hgp hegp
  by_cases hle : gasPrice ≤ effectiveGasPrice
  · refine ⟨maxEffectivePercentage, ?_, isLeast_maxEffectivePercentage hgp hle⟩
    simp [calculateEffectiveGasPricePercentage, hgp.ne', hegp.ne', hle, pure, Except.pure]
  · have hlt : effectiveGasPrice < gasPrice := lt_of_not_ge hle
    obtain ⟨h0, h255⟩ := ceilPercentage_mem hegp hlt
    refine ⟨(bigUint64 (ceilPercentage gasPrice effectiveGasPrice)).toUInt8, ?_, ?_⟩
    · simp [calculateEffectiveGasPricePercentage, hgp.ne', hegp.ne', hle, ceilPercentage, pure,
        Except.pure]
    · rw [toNat_toUInt8_bigUint64 h0 h255]
      exact isLeast_ceilPercentage hegp hlt

/-- The test's case of 90%: a break-even price of 19800000000 against a
gas price of 22000000000. -/
theorem calculateEffectiveGasPricePercentage_tightest_breakEven :
    ∃ p : UInt8,
      calculateEffectiveGasPricePercentage (some 22000000000) (some 19800000000) = .ok p ∧
      IsLeast {q : ℕ | q ≤ 255 ∧
        min (19800000000 : ℤ) 22000000000 ≤ 22000000000 * (q + 1) / 256} p.toNat :=
  calculateEffectiveGasPricePercentage_tightest.1 22000000000 19800000000 (by norm_num) (by norm_num)

example : calculateEffectiveGasPricePercentage (some 22000000000) (some 19800000000) = .ok 230 := by
  decide

end State

end XLayerNode
