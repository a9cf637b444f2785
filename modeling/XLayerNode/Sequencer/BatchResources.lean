import Mathlib
/-!
# The resources of a batch

`ZKCounters` holds nine counters, `GasUsed` of 64 bits and the others of 32;
`BatchResources` adds the bytes. The finalizer keeps what is left of the
WIP batch (`imRemainingResources`) and the highest difference between the
reserved and the used counters of its transactions
(`imHighReservedZKCounters`). For each transaction the executor returns, it
computes the counters the transaction needs with `getNeededZKCounters`,
checks that they fit in what is left, subtracts the used counters and sets
the high reserved ones.

The counters are indexed by `Counter`, in the order `Fits` and `Sub` check
them, and each is a `Fin (2 ^ w)`, whose arithmetic is that of Go's
unsigned integers. The source writes the `GasUsed` counter out inline
(`neededGasUsed`), and it is the one counter whose high reserved value can
fall: when the executor reserves less gas than the transaction used, it is
left at zero (`getNeededZKCounters_snd_gasUsed_of_lt`,
`le_getNeededZKCounters_snd`).

Without wrap-around in the needed counters, every run keeps the used
counters of the accepted transactions and the high reserved ones within the
limits, with what is left equal to the limit minus what is used, and a
rejected transaction changes nothing (`checks_keep_accounts`). The needed
counters are sums of 32-bit values that may wrap: a needed counter that
wraps fits, the used counter then does not, and the transaction is rejected
after the high reserved counters were set
(`checkTxResources_rejected_sets_high`).
-/

namespace XLayerNode

namespace State

/-- The counters of `ZKCounters`, in the order `Fits` and `Sub` check
them. -/
inductive Counter where
  | gasUsed
  | keccakHashes
  | poseidonHashes
  | poseidonPaddings
  | memAligns
  | arithmetics
  | binaries
  | steps
  | sha256HashesV2
  deriving DecidableEq, Repr

namespace Counter

/-- `GasUsed` is a `uint64`, the others are `uint32`. -/
def width : Counter → ℕ
  | gasUsed => 64
  | _ => 32

/-- The order of the checks of `Fits` and `Sub`. -/
def all : List Counter :=
  [gasUsed, keccakHashes, poseidonHashes, poseidonPaddings, memAligns, arithmetics, binaries, steps,
    sha256HashesV2]

/-- The name `Fits` and `Sub` return for a counter that does not fit. -/
def name : Counter → String
  | gasUsed => "CumulativeGas"
  | keccakHashes => "KeccakHashes"
  | poseidonHashes => "PoseidonHashes"
  | poseidonPaddings => "PoseidonPaddings"
  | memAligns => "UsedMemAligns"
  | arithmetics => "UsedArithmetics"
  | binaries => "UsedBinaries"
  | steps => "UsedSteps"
  | sha256HashesV2 => "UsedSha256Hashes_V2"

theorem mem_all (c : Counter) : c ∈ all := by
  cases c <;> simp [all]

end Counter

/-- `ZKCounters`: a value of its width for each counter. -/
def ZKCounters : Type := (c : Counter) → Fin (2 ^ c.width)

namespace ZKCounters

/-- The zero value. -/
def zero : ZKCounters := fun _ => 0

/-- The first counter of `other` over `z`'s, in the order of the checks. -/
def firstOver (z other : ZKCounters) : Option Counter := Counter.all.find? fun c => z c < other c

/-- `Fits`: false and the name of the first counter of `other` over
`z`'s. -/
def fits (z other : ZKCounters) : Bool × String :=
  match z.firstOver other with
  | some c => (false, c.name)
  | none => (true, "")

/-- `Sub`: the counters after, and true and the name of the first counter
of `other` over `z`'s, in which case nothing is subtracted. -/
def sub (z other : ZKCounters) : ZKCounters × Bool × String :=
  match z.firstOver other with
  | some c => (z, true, c.name)
  | none => (fun c => z c - other c, false, "")

theorem firstOver_eq_none_iff {z other : ZKCounters} : z.firstOver other = none ↔ ∀ c, other c ≤ z c := by
  simp only [firstOver, List.find?_eq_none, decide_eq_true_eq, Fin.not_lt]
  exact ⟨fun h c => h c (Counter.mem_all c), fun h c _ => h c⟩

theorem fits_fst {z other : ZKCounters} : (z.fits other).1 = true ↔ ∀ c, other c ≤ z c := by
  rw [← firstOver_eq_none_iff]
  unfold fits
  cases z.firstOver other <;> simp

theorem sub_of_le {z other : ZKCounters} (h : ∀ c, other c ≤ z c) :
    z.sub other = (fun c => z c - other c, false, "") := by
  unfold sub
  rw [firstOver_eq_none_iff.mpr h]
  rfl

theorem sub_of_exhausted {z other : ZKCounters} (h : (z.sub other).2.1 = true) : (z.sub other).1 = z := by
  cases hfirst : z.firstOver other with
  | none => simp [sub, hfirst] at h
  | some c => simp [sub, hfirst]

end ZKCounters

/-- `BatchResources`. -/
structure BatchResources where
  zkCounters : ZKCounters
  bytes : Fin (2 ^ 64)

namespace BatchResources

/-- `Fits`: the bytes first, then the counters. -/
def fits (r other : BatchResources) : Bool × String :=
  if other.bytes > r.bytes then (false, "Bytes") else r.zkCounters.fits other.zkCounters

/-- `Sub`: an exhausted resource changes nothing, the bytes being
restored. -/
def sub (r other : BatchResources) : BatchResources × Bool × String :=
  if other.bytes > r.bytes then (r, true, "Bytes")
  else
    match r.zkCounters.sub other.zkCounters with
    | (_, true, resourceName) => (r, true, resourceName)
    | (zkCounters, false, _) => (⟨zkCounters, r.bytes - other.bytes⟩, false, "")

theorem fits_fst {r other : BatchResources} :
    (r.fits other).1 = true ↔ other.bytes ≤ r.bytes ∧ ∀ c, other.zkCounters c ≤ r.zkCounters c := by
  unfold fits
  split_ifs with hbytes
  · simp only [false_iff, not_and]
    exact fun h => absurd h (Fin.not_le.mpr hbytes)
  · rw [ZKCounters.fits_fst]
    exact ⟨fun h => ⟨Fin.not_lt.mp hbytes, h⟩, fun h => h.2⟩

theorem sub_of_le {r : BatchResources} {zkCounters : ZKCounters} {bytes : Fin (2 ^ 64)} (hbytes : bytes ≤ r.bytes)
    (hcounters : ∀ c, zkCounters c ≤ r.zkCounters c) :
    r.sub ⟨zkCounters, bytes⟩ = (⟨fun c => r.zkCounters c - zkCounters c, r.bytes - bytes⟩, false, "") := by
  simp only [sub, if_neg (Fin.not_lt.mpr hbytes), ZKCounters.sub_of_le hcounters]

theorem sub_of_exhausted {r other : BatchResources} (h : (r.sub other).2.1 = true) : (r.sub other).1 = r := by
  unfold sub at h ⊢
  split_ifs at h ⊢
  · rfl
  · split at h <;> simp_all

end BatchResources

/-- `BatchConstraintsCfg`, without `MaxTxsPerBatch`: the limit of the bytes
and of each counter. -/
structure BatchConstraintsCfg where
  maxBatchBytesSize : Fin (2 ^ 64)
  maxCounters : ZKCounters

/-- `CheckNodeLevelOOC`: the counters over their limit; it returns an error
when there is one. -/
def BatchConstraintsCfg.checkNodeLevelOOC (c : BatchConstraintsCfg) (counters : ZKCounters) : List Counter :=
  Counter.all.filter fun k => counters k > c.maxCounters k

end State

namespace Sequencer

open State

/-- `getMaxBatchResources`. -/
def getMaxBatchResources (constraints : BatchConstraintsCfg) : BatchResources :=
  ⟨constraints.maxCounters, constraints.maxBatchBytesSize⟩

/-- `neededCounter` of `getNeededZKCounters`, for a counter of `n` values:
the needed value and the new high reserved one. -/
def neededCounter {n : ℕ} (highCounter usedCounter reservedCounter : Fin n) : Fin n × Fin n :=
  if reservedCounter < usedCounter then (usedCounter + highCounter, highCounter)
  else if reservedCounter - usedCounter > highCounter then
    (usedCounter + (reservedCounter - usedCounter), reservedCounter - usedCounter)
  else (usedCounter + highCounter, highCounter)

/-- The `GasUsed` part of `getNeededZKCounters`, which the source writes
inline: `neededCounter` over `uint64`, except that when the reserved gas is
below the used gas the new high reserved gas is left at the zero value of
`newHigh`, where `neededCounter` returns the old high counter. -/
def neededGasUsed {n : ℕ} [NeZero n] (highGasUsed usedGasUsed reservedGasUsed : Fin n) : Fin n × Fin n :=
  if reservedGasUsed < usedGasUsed then (usedGasUsed + highGasUsed, 0)
  else if reservedGasUsed - usedGasUsed > highGasUsed then
    (usedGasUsed + (reservedGasUsed - usedGasUsed), reservedGasUsed - usedGasUsed)
  else (usedGasUsed + highGasUsed, highGasUsed)

/-- The needed value and the new high reserved one of counter `c`:
`neededGasUsed` for `GasUsed`, `neededCounter` for the others. -/
def neededFor : (c : Counter) → Fin (2 ^ c.width) → Fin (2 ^ c.width) → Fin (2 ^ c.width) →
    Fin (2 ^ c.width) × Fin (2 ^ c.width)
  | .gasUsed => neededGasUsed
  | _ => neededCounter

/-- `getNeededZKCounters`: the needed counters and the new high reserved
ones. -/
def getNeededZKCounters (highReservedCounters usedCounters reservedCounters : ZKCounters) :
    ZKCounters × ZKCounters :=
  (fun c => (neededFor c (highReservedCounters c) (usedCounters c) (reservedCounters c)).1,
    fun c => (neededFor c (highReservedCounters c) (usedCounters c) (reservedCounters c)).2)

/-- The part of the WIP batch the resource check reads and writes. -/
structure WipResources where
  imRemainingResources : BatchResources
  imHighReservedZKCounters : ZKCounters

/-- A new WIP batch. -/
def newWipResources (constraints : BatchConstraintsCfg) : WipResources :=
  ⟨getMaxBatchResources constraints, ZKCounters.zero⟩

/-- What the executor returns for a transaction, with its size
(`len(tx.RawTx)`). -/
structure TxResources where
  usedZkCounters : ZKCounters
  reservedZkCounters : ZKCounters
  bytes : Fin (2 ^ 64)

/-- How the check rejects a transaction; both return
`ErrBatchResourceOverFlow`. -/
inductive ResourceRejection where
  /-- The reserved counters are over the node-level limits: the transaction
  is deleted from the worker and set invalid in the pool. -/
  | nodeOOC
  /-- Otherwise: its counters are updated in the worker. -/
  | overflow
  deriving DecidableEq, Repr

/-- The resource check of `handleProcessTransactionResponse`: the WIP batch
after it, and how the transaction was rejected if it was. -/
def checkTxResources (constraints : BatchConstraintsCfg) (b : WipResources) (result : TxResources) :
    WipResources × Option ResourceRejection :=
  if (b.imRemainingResources.fits
      ⟨(getNeededZKCounters b.imHighReservedZKCounters result.usedZkCounters result.reservedZkCounters).1,
        result.bytes⟩).1 then
    -- the high reserved counters are set before the sanity check of `Sub` is read
    (⟨(b.imRemainingResources.sub ⟨result.usedZkCounters, result.bytes⟩).1,
        (getNeededZKCounters b.imHighReservedZKCounters result.usedZkCounters result.reservedZkCounters).2⟩,
      if (b.imRemainingResources.sub ⟨result.usedZkCounters, result.bytes⟩).2.1 then some .overflow else none)
  else if (constraints.checkNodeLevelOOC result.reservedZkCounters).isEmpty then (b, some .overflow)
  else (b, some .nodeOOC)

/-- The checks of a sequence of transactions: the WIP batch after them and
the transactions accepted, in order. -/
def runChecks (constraints : BatchConstraintsCfg) (b : WipResources) :
    List TxResources → WipResources × List TxResources
  | [] => (b, [])
  | result :: results =>
    ((runChecks constraints (checkTxResources constraints b result).1 results).1,
      if (checkTxResources constraints b result).2 = none then
        result :: (runChecks constraints (checkTxResources constraints b result).1 results).2
      else (runChecks constraints (checkTxResources constraints b result).1 results).2)

/-! ## The needed counters -/

/-- Without wrap-around, the needed counter is the used one plus the new
high reserved one. -/
theorem neededCounter_fst_val {n : ℕ} {highCounter usedCounter reservedCounter : Fin n}
    (hwrap : usedCounter.val + highCounter.val < n) :
    (neededCounter highCounter usedCounter reservedCounter).1.val =
      usedCounter.val + (neededCounter highCounter usedCounter reservedCounter).2.val := by
  unfold neededCounter
  split_ifs with hlt hdiff
  · rw [Fin.val_add, Nat.mod_eq_of_lt hwrap]
  · -- the used counter plus the difference is the reserved one, below `n`
    have hle : usedCounter ≤ reservedCounter := Fin.not_lt.mp hlt
    rw [Fin.val_add, Fin.sub_val_of_le hle, Nat.add_sub_cancel' (Fin.le_def.mp hle),
      Nat.mod_eq_of_lt reservedCounter.isLt]
  · rw [Fin.val_add, Nat.mod_eq_of_lt hwrap]

/-- The new high reserved counter is at least the old one. -/
theorem le_neededCounter_snd {n : ℕ} (highCounter usedCounter reservedCounter : Fin n) :
    highCounter ≤ (neededCounter highCounter usedCounter reservedCounter).2 := by
  unfold neededCounter
  split_ifs with hlt hdiff
  · exact Fin.le_refl _
  · exact Fin.le_of_lt hdiff
  · exact Fin.le_refl _

/-- `neededGasUsed` needs what `neededCounter` needs. -/
theorem neededGasUsed_fst {n : ℕ} [NeZero n] (highGasUsed usedGasUsed reservedGasUsed : Fin n) :
    (neededGasUsed highGasUsed usedGasUsed reservedGasUsed).1 =
      (neededCounter highGasUsed usedGasUsed reservedGasUsed).1 := by
  unfold neededGasUsed neededCounter
  split_ifs <;> rfl

/-- `neededGasUsed` sets the high reserved gas as `neededCounter` does,
except to zero when the reserved gas is below the used gas. -/
theorem neededGasUsed_snd {n : ℕ} [NeZero n] (highGasUsed usedGasUsed reservedGasUsed : Fin n) :
    (neededGasUsed highGasUsed usedGasUsed reservedGasUsed).2 =
      if reservedGasUsed < usedGasUsed then 0 else (neededCounter highGasUsed usedGasUsed reservedGasUsed).2 := by
  unfold neededGasUsed neededCounter
  split_ifs <;> rfl

/-- Without wrap-around, a needed counter covers the used one plus the new
high reserved one; it is their sum except for `GasUsed` reserved below its
use, whose new high counter is zero. -/
theorem neededFor_fst_val (c : Counter) {highCounter usedCounter reservedCounter : Fin (2 ^ c.width)}
    (hwrap : usedCounter.val + highCounter.val < 2 ^ c.width) :
    usedCounter.val + (neededFor c highCounter usedCounter reservedCounter).2.val ≤
      (neededFor c highCounter usedCounter reservedCounter).1.val := by
  cases c
  case gasUsed =>
    -- the needed gas is that of `neededCounter`, and the new high gas is its high counter or zero
    show usedCounter.val + (neededGasUsed highCounter usedCounter reservedCounter).2.val ≤
      (neededGasUsed highCounter usedCounter reservedCounter).1.val
    rw [neededGasUsed_fst, neededCounter_fst_val hwrap, neededGasUsed_snd]
    split_ifs
    · exact Nat.add_le_add_left (Nat.zero_le _) _
    · exact Nat.le_refl _
  all_goals exact Nat.le_of_eq (neededCounter_fst_val hwrap).symm

/-- **Only the high reserved gas can fall.** Every high reserved counter
other than `GasUsed`, and `GasUsed` when the executor reserves at least
the gas the transaction used, is at least its old value after
`getNeededZKCounters`. -/
theorem le_getNeededZKCounters_snd (highReservedCounters usedCounters reservedCounters : ZKCounters) (c : Counter)
    (hc : c ≠ .gasUsed ∨ usedCounters .gasUsed ≤ reservedCounters .gasUsed) :
    highReservedCounters c ≤ (getNeededZKCounters highReservedCounters usedCounters reservedCounters).2 c := by
  cases c
  case gasUsed =>
    have hle : usedCounters .gasUsed ≤ reservedCounters .gasUsed := hc.resolve_left (absurd rfl)
    show highReservedCounters .gasUsed ≤
      (neededGasUsed (highReservedCounters .gasUsed) (usedCounters .gasUsed) (reservedCounters .gasUsed)).2
    rw [neededGasUsed_snd, if_neg (Fin.not_lt.mpr hle)]
    exact le_neededCounter_snd _ _ _
  all_goals exact le_neededCounter_snd _ _ _

/-- When the executor reserves less gas than the transaction used, the high
reserved gas after `getNeededZKCounters` is zero, whatever it was. -/
theorem getNeededZKCounters_snd_gasUsed_of_lt {highReservedCounters usedCounters reservedCounters : ZKCounters}
    (hlt : reservedCounters .gasUsed < usedCounters .gasUsed) :
    (getNeededZKCounters highReservedCounters usedCounters reservedCounters).2 .gasUsed = 0 := by
  show (neededGasUsed (highReservedCounters .gasUsed) (usedCounters .gasUsed) (reservedCounters .gasUsed)).2 = 0
  rw [neededGasUsed_snd, if_pos hlt]

/-! ## What a check does -/

variable {constraints : BatchConstraintsCfg} {b : WipResources} {result : TxResources}

/-- What a check can do: accept the transaction, subtracting its used
counters and setting the high reserved ones; reject it after the needed
counters fit and the used ones do not, setting the high reserved ones; or
reject it and change nothing. -/
theorem checkTxResources_cases (constraints : BatchConstraintsCfg) (b : WipResources) (result : TxResources) :
    ((∀ c, (getNeededZKCounters b.imHighReservedZKCounters result.usedZkCounters
          result.reservedZkCounters).1 c ≤ b.imRemainingResources.zkCounters c) ∧
        result.bytes ≤ b.imRemainingResources.bytes ∧
        (∀ c, result.usedZkCounters c ≤ b.imRemainingResources.zkCounters c) ∧
        checkTxResources constraints b result =
          (⟨⟨fun c => b.imRemainingResources.zkCounters c - result.usedZkCounters c,
              b.imRemainingResources.bytes - result.bytes⟩,
            (getNeededZKCounters b.imHighReservedZKCounters result.usedZkCounters result.reservedZkCounters).2⟩,
            none)) ∨
      ((∀ c, (getNeededZKCounters b.imHighReservedZKCounters result.usedZkCounters
          result.reservedZkCounters).1 c ≤ b.imRemainingResources.zkCounters c) ∧
        ¬ (∀ c, result.usedZkCounters c ≤ b.imRemainingResources.zkCounters c) ∧
        checkTxResources constraints b result =
          (⟨b.imRemainingResources,
            (getNeededZKCounters b.imHighReservedZKCounters result.usedZkCounters result.reservedZkCounters).2⟩,
            some .overflow)) ∨
      ((checkTxResources constraints b result).1 = b ∧ (checkTxResources constraints b result).2.isSome) := by
  unfold checkTxResources
  split_ifs with hfits hsub hooc
  · -- the used counters did not fit, and nothing was subtracted
    obtain ⟨hbytes, hneeded⟩ := BatchResources.fits_fst.mp hfits
    replace hbytes : result.bytes ≤ b.imRemainingResources.bytes := hbytes
    refine .inr (.inl ⟨hneeded, fun hused => ?_, ?_⟩)
    · rw [BatchResources.sub_of_le hbytes hused] at hsub
      cases hsub
    · rw [BatchResources.sub_of_exhausted hsub]
  · obtain ⟨hbytes, hneeded⟩ := BatchResources.fits_fst.mp hfits
    replace hbytes : result.bytes ≤ b.imRemainingResources.bytes := hbytes
    by_cases hused : ∀ c, result.usedZkCounters c ≤ b.imRemainingResources.zkCounters c
    · refine .inl ⟨hneeded, hbytes, hused, ?_⟩
      rw [BatchResources.sub_of_le hbytes hused]
    · -- a used counter over what is left makes `Sub` exhausted
      refine absurd ?_ hsub
      unfold BatchResources.sub
      split_ifs
      · rfl
      · unfold ZKCounters.sub
        cases hfirst : b.imRemainingResources.zkCounters.firstOver result.usedZkCounters
        · exact absurd (ZKCounters.firstOver_eq_none_iff.mp hfirst) hused
        · rfl
  · exact .inr (.inr ⟨rfl, rfl⟩)
  · exact .inr (.inr ⟨rfl, rfl⟩)

/-! ## The accounts of a run without wrap-around -/

/-- The used counters of transactions, as numbers. -/
def usedSum (txs : List TxResources) (c : Counter) : ℕ := (txs.map fun t => (t.usedZkCounters c).val).sum

/-- The bytes of transactions, as a number. -/
def bytesSum (txs : List TxResources) : ℕ := (txs.map fun t => t.bytes.val).sum

/-- The accounts of a WIP batch after it accepted `txs`: their used
counters and the high reserved ones within the limits, and what is left
the limit minus what is used. -/
structure Accounts (constraints : BatchConstraintsCfg) (b : WipResources) (txs : List TxResources) : Prop where
  counters_le : ∀ c, usedSum txs c + (b.imHighReservedZKCounters c).val ≤ (constraints.maxCounters c).val
  remaining : ∀ c, (b.imRemainingResources.zkCounters c).val = (constraints.maxCounters c).val - usedSum txs c
  bytes_le : bytesSum txs ≤ constraints.maxBatchBytesSize.val
  remaining_bytes : b.imRemainingResources.bytes.val = constraints.maxBatchBytesSize.val - bytesSum txs

/-- No needed counter of `result` wraps around: each used counter plus its
limit is below its width. -/
def NoWrap (constraints : BatchConstraintsCfg) (result : TxResources) : Prop :=
  ∀ c, (result.usedZkCounters c).val + (constraints.maxCounters c).val < 2 ^ c.width

@[simp] theorem usedSum_append_singleton (txs : List TxResources) (r : TxResources) (c : Counter) :
    usedSum (txs ++ [r]) c = usedSum txs c + (r.usedZkCounters c).val := by
  simp [usedSum]

@[simp] theorem bytesSum_append_singleton (txs : List TxResources) (r : TxResources) :
    bytesSum (txs ++ [r]) = bytesSum txs + r.bytes.val := by
  simp [bytesSum]

theorem accounts_newWipResources (constraints : BatchConstraintsCfg) :
    Accounts constraints (newWipResources constraints) [] where
  counters_le c := by simp [usedSum, newWipResources, ZKCounters.zero]
  remaining c := by simp [usedSum, newWipResources, getMaxBatchResources]
  bytes_le := by simp [bytesSum]
  remaining_bytes := by simp [bytesSum, newWipResources, getMaxBatchResources]

variable {txs : List TxResources}

/-- Within the accounts, a needed counter covers the used one plus the new
high reserved one: the high reserved counter is within the limit, so the
sum does not wrap. -/
theorem Accounts.needed_le (h : Accounts constraints b txs) (hwrap : NoWrap constraints result) (c : Counter) :
    (result.usedZkCounters c).val +
        ((getNeededZKCounters b.imHighReservedZKCounters result.usedZkCounters result.reservedZkCounters).2 c).val ≤
      ((getNeededZKCounters b.imHighReservedZKCounters result.usedZkCounters result.reservedZkCounters).1 c).val := by
  have hhigh := h.counters_le c
  have hsum : (result.usedZkCounters c).val + (b.imHighReservedZKCounters c).val < 2 ^ c.width := by
    have := hwrap c
    omega
  exact neededFor_fst_val c hsum

/-- **A check keeps the accounts**: it accepts the transaction, which joins
the accepted ones, or rejects it and changes nothing. -/
theorem Accounts.checkTxResources (h : Accounts constraints b txs) (hwrap : NoWrap constraints result) :
    ((checkTxResources constraints b result).2 = none ∧
        Accounts constraints (checkTxResources constraints b result).1 (txs ++ [result])) ∨
      ((checkTxResources constraints b result).2.isSome ∧ (checkTxResources constraints b result).1 = b) := by
  rcases checkTxResources_cases constraints b result with ⟨hneeded, hbytes, hused, heq⟩ | ⟨hneeded, hused, -⟩ |
    ⟨heq, hsome⟩
  · -- accepted: the needed counters fit in what is left, and they are the used plus the high reserved ones
    rw [heq]
    refine .inl ⟨rfl, fun c => ?_, fun c => ?_, ?_, ?_⟩
    · have hfit := Fin.le_def.mp (hneeded c)
      have hval := h.needed_le hwrap c
      have hrem := h.remaining c
      have hle := h.counters_le c
      dsimp only
      rw [usedSum_append_singleton]
      omega
    · have hrem := h.remaining c
      have hle := h.counters_le c
      show (b.imRemainingResources.zkCounters c - result.usedZkCounters c).val = _
      rw [usedSum_append_singleton, Fin.sub_val_of_le (hused c), hrem]
      omega
    · have hb := Fin.le_def.mp hbytes
      have hrem := h.remaining_bytes
      have hle := h.bytes_le
      rw [bytesSum_append_singleton]
      omega
    · have hrem := h.remaining_bytes
      have hle := h.bytes_le
      show (b.imRemainingResources.bytes - result.bytes).val = _
      rw [bytesSum_append_singleton, Fin.sub_val_of_le hbytes, hrem]
      omega
  · -- the used counters are at most the needed ones, which fit: `Sub` cannot be exhausted
    refine absurd (fun c => ?_) hused
    have hfit := Fin.le_def.mp (hneeded c)
    have hval := h.needed_le hwrap c
    exact Fin.le_def.mpr (by omega)
  · exact .inr ⟨hsome, heq⟩

/-- The accounts after a sequence of checks, the accepted transactions
joining the ones before. -/
theorem Accounts.runChecks (h : Accounts constraints b txs) (results : List TxResources)
    (hwrap : ∀ r ∈ results, NoWrap constraints r) :
    Accounts constraints (runChecks constraints b results).1 (txs ++ (runChecks constraints b results).2) := by
  induction results generalizing b txs with
  | nil => simpa [Sequencer.runChecks] using h
  | cons result results ih =>
    have hrest : ∀ r ∈ results, NoWrap constraints r := fun r hr => hwrap r (List.mem_cons_of_mem _ hr)
    rcases h.checkTxResources (hwrap result List.mem_cons_self) with ⟨hnone, hacc⟩ | ⟨hsome, heq⟩
    · have := ih hacc hrest
      simpa [Sequencer.runChecks, hnone] using this
    · have hne : (Sequencer.checkTxResources constraints b result).2 ≠ none := fun hn => by simp [hn] at hsome
      have := ih (heq ▸ h) hrest
      simpa [Sequencer.runChecks, hne, heq] using this

theorem runChecks_append (b : WipResources) (xs ys : List TxResources) :
    (runChecks constraints b (xs ++ ys)).1 = (runChecks constraints (runChecks constraints b xs).1 ys).1 := by
  induction xs generalizing b with
  | nil => rfl
  | cons x xs ih => exact ih _

/-- **Without wrap-around, the resources of a WIP batch are accounted
exactly.** From a new batch, for transactions whose used counters plus the
limits stay below the widths, the used counters of the accepted ones plus
the high reserved ones stay within the limits, what is left is the limit
minus what is used, and every check of the run that rejects leaves the
batch as it was. -/
theorem checks_keep_accounts (constraints : BatchConstraintsCfg) (results : List TxResources)
    (hwrap : ∀ r ∈ results, NoWrap constraints r) :
    Accounts constraints (runChecks constraints (newWipResources constraints) results).1
        (runChecks constraints (newWipResources constraints) results).2 ∧
      ∀ k (hk : k < results.length),
        (checkTxResources constraints (runChecks constraints (newWipResources constraints) (results.take k)).1
            results[k]).2.isSome →
          (checkTxResources constraints (runChecks constraints (newWipResources constraints) (results.take k)).1
            results[k]).1 = (runChecks constraints (newWipResources constraints) (results.take k)).1 := by
  refine ⟨by simpa using (accounts_newWipResources constraints).runChecks results hwrap, fun k hk hsome => ?_⟩
  -- the batch before the `k`-th check is that of the run over the first `k` transactions
  have hbefore := (accounts_newWipResources constraints).runChecks (results.take k)
    fun r hr => hwrap r (List.mem_of_mem_take hr)
  rcases hbefore.checkTxResources (hwrap _ (List.getElem_mem hk)) with ⟨hnone, -⟩ | ⟨-, heq⟩
  · rw [hnone] at hsome
    cases hsome
  · exact heq

/-- Limits of 100 on every counter, and of 1000 bytes. -/
def limits100 : BatchConstraintsCfg := ⟨1000, fun _ => 100⟩

/-- A transaction of 10 bytes that uses nothing and reserves one step. -/
def reservesOneStep : TxResources := ⟨ZKCounters.zero, fun c => if c = .steps then 1 else 0, 10⟩

/-- A transaction of 10 bytes that uses and reserves 200 steps. -/
def usesTwoHundredSteps : TxResources :=
  ⟨fun c => if c = .steps then 200 else 0, fun c => if c = .steps then 200 else 0, 10⟩

theorem checks_keep_accounts_overLimitRun :
    (∀ r ∈ [reservesOneStep, usesTwoHundredSteps], NoWrap limits100 r) ∧
      (Accounts limits100 (runChecks limits100 (newWipResources limits100) [reservesOneStep, usesTwoHundredSteps]).1
          (runChecks limits100 (newWipResources limits100) [reservesOneStep, usesTwoHundredSteps]).2 ∧
        ∀ k (hk : k < [reservesOneStep, usesTwoHundredSteps].length),
          (checkTxResources limits100
              (runChecks limits100 (newWipResources limits100) ([reservesOneStep, usesTwoHundredSteps].take k)).1
              [reservesOneStep, usesTwoHundredSteps][k]).2.isSome →
            (checkTxResources limits100
              (runChecks limits100 (newWipResources limits100) ([reservesOneStep, usesTwoHundredSteps].take k)).1
              [reservesOneStep, usesTwoHundredSteps][k]).1 =
              (runChecks limits100 (newWipResources limits100) ([reservesOneStep, usesTwoHundredSteps].take k)).1) := by
  have hwrap : ∀ r ∈ [reservesOneStep, usesTwoHundredSteps], NoWrap limits100 r := by
    intro r hr c
    simp only [List.mem_cons, List.not_mem_nil, or_false] at hr
    rcases hr with rfl | rfl <;> cases c <;> decide
  exact ⟨hwrap, checks_keep_accounts limits100 _ hwrap⟩

/-- A transaction of 10 bytes that uses and reserves 2^32 − 1 steps, and
reserves 7 arithmetics. -/
def wrapsSteps : TxResources :=
  ⟨fun c => if c = .steps then 4294967295 else 0,
    fun c => if c = .steps then 4294967295 else if c = .arithmetics then 7 else 0, 10⟩

/-- **A rejected transaction sets the high reserved counters**: after
`reservesOneStep`, the needed steps of `wrapsSteps` wrap to 0 and fit, its
used steps do not, and the check rejects it after raising the high
reserved arithmetics from 0 to 7. -/
theorem checkTxResources_rejected_sets_high :
    (checkTxResources limits100 (checkTxResources limits100 (newWipResources limits100) reservesOneStep).1
        wrapsSteps).2 = some .overflow ∧
      ((checkTxResources limits100 (checkTxResources limits100 (newWipResources limits100) reservesOneStep).1
          wrapsSteps).1.imHighReservedZKCounters .arithmetics).val = 7 ∧
      ((checkTxResources limits100 (newWipResources limits100) reservesOneStep).1.imHighReservedZKCounters
        .arithmetics).val = 0 := by
  decide

end Sequencer

end XLayerNode
