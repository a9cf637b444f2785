import XLayerNode.Common.Decimal
import XLayerNode.Common.GoHex
/-!
# Clamping and truncating the L2 gas price

The follower and the fixed gas pricers run `UpdateGasPriceAvg` alike
around the price each computes from its inputs: nothing is stored when L1
reports a gas price of 0 or when the pricer returns early on its coin
prices (`updateGasPriceAvgOf`). Otherwise the price they computed is raised
to `DefaultGasPriceWei`, lowered to
`MaxGasPriceWei` when that is set, and then truncated to three significant
digits through its text: the first three characters of `result.String()`,
then `fmt.Sprintf("%0Nd", 0)` for the rest, read back by `SetString`.
`SetGasPrices` gets the `Uint64()` of what comes out.

The text truncation is arithmetic (`truncateGasPrice_natCast`): it is
`keepThreeDigits c = c / 10^k * 10^k`, `k` the number of digits past the
third, so the value is at most `c` and less than `10^k` below it
(`keepThreeDigits_le`, `lt_keepThreeDigits_add`). The clamp keeps `c` in
`[DefaultGasPriceWei, MaxGasPriceWei]` (`default_le_clampGasPrice`,
`clampGasPrice_le_max`), and with a maximum set the value fits in 64 bits
(`setGasPricesArgs_spec`). The truncation comes after the clamp, though: a
default with a nonzero digit past its third is stored below itself
(`truncation_lowers_default`), and with no maximum a price of `2^64` or
more reaches `SetGasPrices` wrapped.
-/

namespace XLayerNode

namespace GasPrice

open Decimal

/-- The fields of `gasprice.Config` the clamp reads. -/
structure Config where
  /-- `DefaultGasPriceWei`: the minimum gas price of the follower. -/
  defaultGasPriceWei : UInt64
  /-- `MaxGasPriceWei`: the maximum gas price, ignored if 0. -/
  maxGasPriceWei : UInt64
  deriving DecidableEq, Repr

/-- Raise `result` to `DefaultGasPriceWei`, then lower it to
`MaxGasPriceWei` when that is set. -/
def clampGasPrice (cfg : Config) (result : ℤ) : ℤ :=
  let minGasPrice : ℤ := cfg.defaultGasPriceWei.toNat
  let result := if minGasPrice > result then minGasPrice else result
  let maxGasPrice : ℤ := cfg.maxGasPriceWei.toNat
  if cfg.maxGasPriceWei > 0 ∧ result > maxGasPrice then maxGasPrice else result

/-- The truncation to three significant digits through the text; `none`
is a nil `truncateValue`, when `SetString` fails. -/
def truncateGasPrice (result : ℤ) : Option ℤ :=
  let numLength := (bigIntString result).length
  if numLength > 3 then
    -- `fmt.Sprintf("%0" + strconv.Itoa(numLength-3) + "d", 0)`
    let zeros := GoHex.padLeft (numLength - 3) (Nat.toDigits 10 0)
    GoHex.setString ((bigIntString result).take 3 ++ zeros) 10
  else some result

/-- The tail of `UpdateGasPriceAvg` from `result` on: the arguments of
`SetGasPrices`, or `none` when the truncated value is nil and the update
is skipped. -/
def setGasPricesArgs (cfg : Config) (l1GasPrice result : ℤ) : Option (UInt64 × UInt64) :=
  (truncateGasPrice (clampGasPrice cfg result)).map fun truncateValue =>
    (bigUint64 truncateValue, bigUint64 l1GasPrice)

/-- `UpdateGasPriceAvg` of both pricers, around the price each computes:
nothing is stored when L1 reports a gas price of 0 ("gas price 0 received.
Skipping update...") or when the pricer returns early on its coin prices
(`computed = none`); otherwise the price it computed (`res.Int(result)`)
goes through `setGasPricesArgs` with the L1 price. -/
def updateGasPriceAvgOf (cfg : Config) (l1GasPrice : ℤ) (computed : Option ℤ) : Option (UInt64 × UInt64) :=
  if l1GasPrice = 0 then none
  else computed.bind (setGasPricesArgs cfg l1GasPrice)

/-- `FollowerGasPrice.UpdateGasPriceAvg`: `computed` is `none` when the
adjustment by the L1 and L2 coin prices is on and one of them is below
`minCoinPrice`, else the factor times the L1 price, adjusted. -/
def FollowerGasPrice.updateGasPriceAvg (cfg : Config) (l1GasPrice : ℤ) (computed : Option ℤ) :
    Option (UInt64 × UInt64) :=
  updateGasPriceAvgOf cfg l1GasPrice computed

/-- `FixedGasPrice.UpdateGasPriceAvg`: `computed` is `none` when the L2 coin
price is below `minCoinPrice`, else `GasPriceUsdt` over that price in
wei. -/
def FixedGasPrice.updateGasPriceAvg (cfg : Config) (l1GasPrice : ℤ) (computed : Option ℤ) :
    Option (UInt64 × UInt64) :=
  updateGasPriceAvgOf cfg l1GasPrice computed

/-- `n` with all but its three most significant decimal digits set to
zero. -/
def keepThreeDigits (n : ℕ) : ℕ :=
  n / 10 ^ ((decDigits n).length - 3) * 10 ^ ((decDigits n).length - 3)

/-! ## The clamp -/

section Clamp

variable (cfg : Config) (result : ℤ)

theorem clampGasPrice_nonneg : 0 ≤ clampGasPrice cfg result := by
  dsimp only [clampGasPrice]
  split_ifs <;> omega

/-- **The clamp reaches the default**, unless the maximum is set below it. -/
theorem default_le_clampGasPrice
    (hcfg : cfg.maxGasPriceWei = 0 ∨ cfg.defaultGasPriceWei ≤ cfg.maxGasPriceWei) :
    (cfg.defaultGasPriceWei.toNat : ℤ) ≤ clampGasPrice cfg result := by
  have hcfg' : cfg.maxGasPriceWei.toNat = 0 ∨
      cfg.defaultGasPriceWei.toNat ≤ cfg.maxGasPriceWei.toNat := by
    rcases hcfg with h | h
    · exact .inl (by simp [h])
    · exact .inr (UInt64.le_iff_toNat_le.1 h)
  have hpos : 0 < cfg.maxGasPriceWei → 0 < cfg.maxGasPriceWei.toNat := UInt64.lt_iff_toNat_lt.1
  dsimp only [clampGasPrice]
  split_ifs with hmin hmax hmax <;> grind

/-- **A set maximum bounds the clamp.** -/
theorem clampGasPrice_le_max (hmax : 0 < cfg.maxGasPriceWei) :
    clampGasPrice cfg result ≤ cfg.maxGasPriceWei.toNat := by
  dsimp only [clampGasPrice]
  split_ifs with hmin h <;> grind

end Clamp

/-! ## The truncation -/

/-- `fmt.Sprintf("%0Nd", 0)` is `N` zeros. -/
theorem padLeft_toDigits_zero {w : ℕ} (hw : 0 < w) :
    GoHex.padLeft w (Nat.toDigits 10 0) = (List.replicate w 0).map Nat.digitChar := by
  obtain ⟨w, rfl⟩ := Nat.exists_eq_add_of_lt hw
  simp [GoHex.padLeft, Nat.toDigits_zero, List.replicate_succ']

theorem ofDigitsBE_replicate_zero (b k : ℕ) : ofDigitsBE b (List.replicate k 0) = 0 := by
  simpa using ofDigitsBE_replicate_zero_append b k []

/-- **The text truncation is arithmetic**: three leading digits kept, the
rest zeroed. -/
theorem truncateGasPrice_natCast (n : ℕ) : truncateGasPrice n = some ↑(keepThreeDigits n) := by
  have hds : ∀ d ∈ decDigits n, d < 10 := fun _ hd => lt_of_mem_decDigits hd
  unfold truncateGasPrice keepThreeDigits
  simp only [bigIntString_natCast, List.length_map]
  split_ifs with hlen
  · -- the three leading digits, then a zero for each digit past them
    have hk : 0 < (decDigits n).length - 3 := by omega
    have htext : ((decDigits n).map Nat.digitChar).take 3 ++
          GoHex.padLeft ((decDigits n).length - 3) (Nat.toDigits 10 0) =
        ((decDigits n).take 3 ++ List.replicate ((decDigits n).length - 3) 0).map Nat.digitChar := by
      rw [padLeft_toDigits_zero hk, List.map_append, List.map_take]
    have hdigits : ∀ d ∈ (decDigits n).take 3 ++ List.replicate ((decDigits n).length - 3) 0,
        d < 10 := by
      intro d hd
      rcases List.mem_append.1 hd with hd | hd
      · exact hds d (List.mem_of_mem_take hd)
      · rw [List.eq_of_mem_replicate hd]
        norm_num
    rw [htext, setString_map_digitChar (by simp; omega) hdigits, ofDigitsBE_append,
      ofDigitsBE_take_decDigits, ofDigitsBE_replicate_zero, List.length_replicate]
    simp
  · -- three digits or fewer are kept as they are
    have hk : (decDigits n).length - 3 = 0 := by omega
    simp [hk]

theorem keepThreeDigits_le (n : ℕ) : keepThreeDigits n ≤ n :=
  Nat.div_mul_le_self n _

theorem lt_keepThreeDigits_add (n : ℕ) :
    n < keepThreeDigits n + 10 ^ ((decDigits n).length - 3) :=
  Nat.lt_div_mul_add (by positivity)

/-- The truncation keeps `n` exactly when no digit past the third is
nonzero. -/
theorem keepThreeDigits_lt_iff (n : ℕ) :
    keepThreeDigits n < n ↔ n % 10 ^ ((decDigits n).length - 3) ≠ 0 := by
  have h := Nat.div_add_mod' n (10 ^ ((decDigits n).length - 3))
  unfold keepThreeDigits
  omega

/-! ## What `SetGasPrices` gets -/

/-- **The stored price**: the clamp, truncated, then its `Uint64()`; with a
maximum set, the truncated value fits in 64 bits and is stored as it is. -/
theorem setGasPricesArgs_spec (cfg : Config) (l1GasPrice result : ℤ) :
    setGasPricesArgs cfg l1GasPrice result =
        some (UInt64.ofNat (keepThreeDigits (clampGasPrice cfg result).toNat),
          bigUint64 l1GasPrice) ∧
      (0 < cfg.maxGasPriceWei →
        (UInt64.ofNat (keepThreeDigits (clampGasPrice cfg result).toNat)).toNat =
          keepThreeDigits (clampGasPrice cfg result).toNat) := by
  have hc : clampGasPrice cfg result = ((clampGasPrice cfg result).toNat : ℤ) :=
    (Int.toNat_of_nonneg (clampGasPrice_nonneg cfg result)).symm
  constructor
  · rw [setGasPricesArgs, hc, truncateGasPrice_natCast, Int.toNat_natCast]
    rfl
  · intro hmax
    -- the truncated value is below the clamp, which is below the maximum
    have hle := keepThreeDigits_le (clampGasPrice cfg result).toNat
    have hmaxle := clampGasPrice_le_max cfg result hmax
    have hlt := cfg.maxGasPriceWei.toNat_lt
    rw [UInt64.toNat_ofNat', Nat.mod_eq_of_lt (by omega)]

/-- What the pricers store: nothing at an L1 price of 0 or after an early
return on the coin prices, and otherwise the arguments `setGasPricesArgs`
gives. -/
theorem updateGasPriceAvgOf_eq_some_iff (cfg : Config) (l1GasPrice : ℤ) (computed : Option ℤ)
    (args : UInt64 × UInt64) :
    updateGasPriceAvgOf cfg l1GasPrice computed = some args ↔
      l1GasPrice ≠ 0 ∧ ∃ result, computed = some result ∧ setGasPricesArgs cfg l1GasPrice result = some args := by
  unfold updateGasPriceAvgOf
  split_ifs with hzero
  · simp [hzero]
  · simp [hzero, Option.bind_eq_some_iff]

/-- **Where the clamp is undone**: a price at or below a default that has a
nonzero digit past its third is stored below the default. -/
theorem truncation_lowers_default (cfg : Config) (l1GasPrice result : ℤ)
    (hcfg : cfg.maxGasPriceWei = 0 ∨ cfg.defaultGasPriceWei ≤ cfg.maxGasPriceWei)
    (hresult : result ≤ cfg.defaultGasPriceWei.toNat)
    (hdigit : cfg.defaultGasPriceWei.toNat %
      10 ^ ((decDigits cfg.defaultGasPriceWei.toNat).length - 3) ≠ 0) :
    ∃ l2 l1, setGasPricesArgs cfg l1GasPrice result = some (l2, l1) ∧
      l2 < cfg.defaultGasPriceWei := by
  -- the clamp is the default itself
  have hclamp : clampGasPrice cfg result = cfg.defaultGasPriceWei.toNat := by
    have hge := default_le_clampGasPrice cfg result hcfg
    dsimp only [clampGasPrice] at hge ⊢
    split_ifs at hge ⊢ with h1 h2 h2 <;> grind
  obtain ⟨hspec, -⟩ := setGasPricesArgs_spec cfg l1GasPrice result
  rw [hclamp, Int.toNat_natCast] at hspec
  refine ⟨_, _, hspec, ?_⟩
  have hlt := (keepThreeDigits_lt_iff _).2 hdigit
  have hfit := cfg.defaultGasPriceWei.toNat_lt
  rw [UInt64.lt_iff_toNat_lt, UInt64.toNat_ofNat', Nat.mod_eq_of_lt (by omega)]
  exact hlt

theorem truncation_breaks_default_and_wraps :
    FollowerGasPrice.updateGasPriceAvg ⟨1234, 0⟩ 5 (some 0) = some (1230, 5) ∧
    FixedGasPrice.updateGasPriceAvg ⟨1234, 0⟩ 5 (some 0) = some (1230, 5) ∧
    FollowerGasPrice.updateGasPriceAvg ⟨0, 0⟩ 5 (some (10 ^ 20)) = some (7766279631452241920, 5) := by
  decide

end GasPrice

end XLayerNode
