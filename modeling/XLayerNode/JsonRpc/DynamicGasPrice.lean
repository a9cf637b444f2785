import XLayerNode.GasPrice.LastN
/-!
# The RPC's dynamic gas price

`calcDynamicGP` samples batches as the last-N-blocks suggester samples
blocks (`GasPrice.sampledNumbers`, `GasPrice.collect`), with positive tips
only and `MinPrice` standing for an empty batch. The percentile is raised to
`MinPrice`, lowered to `MaxPrice` when that is set, and averaged with the
pool's raw price when the pool is not congested or the last block is empty.

The scheduler does not matter here either (`calcDynamicGP_schedule`). With
`Percentile` at most 100 no call panics, and the price stays nonnegative,
over every run from the manager the endpoints start with
(`run_ne_panic`, `run_lastPrice_nonneg`). As in the suggester, a call
samples the batches that end at the batch number the previous call cached,
not the one it just read (`calcDynamicGP_window`).
-/

namespace XLayerNode

namespace JsonRpc

open Outcome GasPrice

/-- The fields of `DynamicGPConfig` that `calcDynamicGP` reads. -/
structure DynamicGPConfig where
  /-- `CongestionTxThreshold`. -/
  congestionTxThreshold : UInt64
  /-- `CheckBatches`. -/
  checkBatches : ℕ
  /-- `SampleNumber`. -/
  sampleNumber : ℕ
  /-- `Percentile`. -/
  percentile : ℕ
  /-- `MaxPrice`; 0 sets no maximum. -/
  maxPrice : UInt64
  /-- `MinPrice`. -/
  minPrice : UInt64
  deriving DecidableEq, Repr

/-- The cache of `DynamicGPManager`. -/
structure DynamicGPManager where
  lastL2BatchNumber : ℕ
  lastPrice : ℤ
  deriving DecidableEq, Repr

/-- The manager `NewEthEndpoints` starts with: `lastPrice` is 1 wei. -/
def newDynamicGPManager : DynamicGPManager := ⟨0, 1⟩

/-- `getL2BatchTxsTips`: `none` when the batch's transactions could not be
read, otherwise its lowest positive tips. -/
def getL2BatchTxsTips (limit : ℕ) (txs : Option (List ℤ)) : Option (List ℤ) :=
  txs.map fun tips => sampleTips limit (fun tip => decide (tip ≤ 0)) [] (tips.insertionSort (· ≤ ·))

/-- `getAvgPrice`: `(low + high) / 2` by `Quo`, rounding towards zero. -/
def getAvgPrice (low high : ℤ) : ℤ := (low + high).tdiv 2

/-- `isCongested`: `none` when the pool could not count its ready
transactions. -/
def isCongested (cfg : DynamicGPConfig) (readyTxCount : Option UInt64) : Option Bool :=
  readyTxCount.map fun txCount => decide (cfg.congestionTxThreshold ≤ txCount)

/-- `isLastBlockEmpty`, from the number of transactions of the last block;
`none` when it could not be read. -/
def isLastBlockEmpty (lastBlockTxCount : Option ℕ) : Option Bool :=
  lastBlockTxCount.map fun n => decide (n = 0)

/-- The price `calcDynamicGP` takes from the collected samples: their
percentile, or `lastPrice` when there are none, raised to `MinPrice` and
lowered to `MaxPrice` when that is set. -/
def dynamicPrice (cfg : DynamicGPConfig) (lastPrice : ℤ) (results : List ℤ) : Outcome Empty ℤ := do
  let price ← if 0 < results.length then percentileOf cfg.percentile results else pure lastPrice
  let minGasPrice : ℤ := cfg.minPrice.toNat
  let price := if minGasPrice > price then minGasPrice else price
  let maxGasPrice : ℤ := cfg.maxPrice.toNat
  pure (if cfg.maxPrice > 0 ∧ price > maxGasPrice then maxGasPrice else price)

/-- What one call of `calcDynamicGP` reads; `none` is an error. -/
structure DynamicGPInput where
  /-- `GetLastBatchNumber`. -/
  lastBatchNumber : Option ℕ
  /-- The tips of each batch (`GetTransactionsByBatchNumber`). -/
  batchTxs : ℕ → Option (List ℤ)
  /-- The order the samplers report in. -/
  schedule : Schedule
  /-- `GetReadyTxCount`. -/
  readyTxCount : Option UInt64
  /-- The number of transactions of `GetLastL2Block`. -/
  lastBlockTxCount : Option ℕ
  /-- `GetGasPrices`' `L2GasPrice`. -/
  l2GasPrice : Option UInt64

/-- The end of `calcDynamicGP`: the average with the raw price when the
pool is not congested or the last block is empty; `none` when a read
failed and the call returns. -/
def finalPrice (cfg : DynamicGPConfig) (input : DynamicGPInput) (price : ℤ) : Option ℤ :=
  match isCongested cfg input.readyTxCount, isLastBlockEmpty input.lastBlockTxCount, input.l2GasPrice with
  | some congested, some empty, some rawGP =>
    some (if !congested || empty then getAvgPrice rawGP.toNat price else price)
  | _, _, _ => none

/-- `calcDynamicGP`: the new cache, the old one when the call returns
early. -/
def calcDynamicGP (cfg : DynamicGPConfig) (m : DynamicGPManager) (input : DynamicGPInput) :
    Outcome Empty DynamicGPManager :=
  match input.lastBatchNumber with
  | none => pure m
  | some l2BatchNumber =>
    if l2BatchNumber = m.lastL2BatchNumber then pure m
    else
      -- the window starts at the cached number
      let order := (input.schedule (sampledNumbers cfg.checkBatches m.lastL2BatchNumber)).1
      match collect (cfg.minPrice.toNat : ℤ)
          (order.map fun n => getL2BatchTxsTips cfg.sampleNumber (input.batchTxs n)) with
      | none => pure m
      | some results => do
        let price ← dynamicPrice cfg m.lastPrice results
        match finalPrice cfg input price with
        | some price => pure ⟨l2BatchNumber, price⟩
        | none => pure m

/-- Calls one after another, as the update timer of
`runDynamicGPSuggester` makes them. -/
def DynamicGPManager.run (cfg : DynamicGPConfig) :
    DynamicGPManager → List DynamicGPInput → Outcome Empty DynamicGPManager
  | m, [] => pure m
  | m, input :: inputs => do
    let m' ← calcDynamicGP cfg m input
    run cfg m' inputs

/-! ## The order of the reports -/

theorem dynamicPrice_perm (cfg : DynamicGPConfig) (lastPrice : ℤ) {results results' : List ℤ}
    (h : results.Perm results') : dynamicPrice cfg lastPrice results = dynamicPrice cfg lastPrice results' := by
  rw [dynamicPrice, dynamicPrice, h.length_eq, percentileOf_perm cfg.percentile h]

/-- **The scheduler does not matter.** -/
theorem calcDynamicGP_schedule (cfg : DynamicGPConfig) (m : DynamicGPManager) (input : DynamicGPInput)
    (s : Schedule) : calcDynamicGP cfg m { input with schedule := s } = calcDynamicGP cfg m input := by
  unfold calcDynamicGP
  cases input.lastBatchNumber with
  | none => rfl
  | some l2BatchNumber =>
    dsimp only
    split_ifs with hsame
    · rfl
    · rcases rel_perm_cases (collect_schedule (cfg.minPrice.toNat : ℤ)
          (fun n => getL2BatchTxsTips cfg.sampleNumber (input.batchTxs n)) s input.schedule
          (sampledNumbers cfg.checkBatches m.lastL2BatchNumber)) with ⟨ha, hb⟩ | ⟨a, b, ha, hb, hab⟩
      · simp only [ha, hb]
      · -- `finalPrice` does not read the schedule
        simp only [ha, hb, dynamicPrice_perm cfg m.lastPrice hab]
        rfl

/-! ## No panic, and a nonnegative price -/

theorem dynamicPrice_ok (cfg : DynamicGPConfig) (hP : cfg.percentile ≤ 100) {lastPrice : ℤ}
    (hlast : 0 ≤ lastPrice) {results : List ℤ} (hres : ∀ x ∈ results, 0 ≤ x) :
    ∃ price, dynamicPrice cfg lastPrice results = ok price ∧ 0 ≤ price := by
  -- the percentile is one of the samples, or the last price
  obtain ⟨price, hprice, hnonneg⟩ : ∃ price,
      (if 0 < results.length then percentileOf cfg.percentile results else ok lastPrice) = ok price ∧
        0 ≤ price := by
    split_ifs with hlen
    · obtain ⟨x, hx, hok⟩ := percentileOf_ok hP hlen
      exact ⟨x, hok, hres x hx⟩
    · exact ⟨lastPrice, rfl, hlast⟩
  unfold dynamicPrice
  split_ifs at hprice ⊢
  all_goals
    simp only [pure_def] at hprice ⊢
    rw [hprice, ok_bind]
    -- the clamp keeps a nonnegative price nonnegative
    exact ⟨_, rfl, by split_ifs <;> omega⟩

theorem getL2BatchTxsTips_pos {limit : ℕ} {txs : Option (List ℤ)} {vs : List ℤ}
    (h : getL2BatchTxsTips limit txs = some vs) : ∀ x ∈ vs, 0 < x := by
  intro x hx
  obtain ⟨tips, -, rfl⟩ := Option.map_eq_some_iff.1 h
  rw [sampleTips_eq, List.nil_append] at hx
  have hmem := (List.mem_filter.1 (List.mem_of_mem_take hx)).2
  simp only [Bool.not_eq_eq_eq_not, Bool.not_true, decide_eq_false_iff_not, not_le] at hmem
  exact hmem

/-- The collected samples are positive tips or `MinPrice`. -/
theorem collect_nonneg (cfg : DynamicGPConfig) (input : DynamicGPInput) :
    ∀ {order : List ℕ} {results : List ℤ}, collect (cfg.minPrice.toNat : ℤ)
      (order.map fun n => getL2BatchTxsTips cfg.sampleNumber (input.batchTxs n)) = some results →
      ∀ x ∈ results, 0 ≤ x := by
  intro order results h x hx
  rw [collect_eq] at h
  obtain ⟨vss, hvss, rfl⟩ := Option.map_eq_some_iff.1 h
  obtain ⟨vs, hvs, hxvs⟩ := List.mem_flatMap.1 hx
  split_ifs at hxvs
  · rw [List.mem_singleton.1 hxvs]
    omega
  · -- `vs` is one batch's sample
    obtain ⟨n, -, hn⟩ := List.mem_map.1 (mem_of_mapM_id_eq_some hvss vs hvs)
    exact le_of_lt (getL2BatchTxsTips_pos hn x hxvs)

theorem finalPrice_nonneg {cfg : DynamicGPConfig} {input : DynamicGPInput} {price price' : ℤ}
    (hprice : 0 ≤ price) (h : finalPrice cfg input price = some price') : 0 ≤ price' := by
  unfold finalPrice at h
  split at h
  · simp only [Option.some.injEq] at h
    subst h
    split_ifs
    · exact Int.tdiv_nonneg (by omega) (by norm_num)
    · exact hprice
  · cases h

/-- **One call**: with `Percentile` at most 100 it does not panic, and it
keeps the price nonnegative. -/
theorem calcDynamicGP_ok (cfg : DynamicGPConfig) (hP : cfg.percentile ≤ 100) {m : DynamicGPManager}
    (hm : 0 ≤ m.lastPrice) (input : DynamicGPInput) :
    ∃ m', calcDynamicGP cfg m input = ok m' ∧ 0 ≤ m'.lastPrice := by
  unfold calcDynamicGP
  cases input.lastBatchNumber with
  | none => exact ⟨m, rfl, hm⟩
  | some l2BatchNumber =>
    dsimp only
    split_ifs with hsame
    · exact ⟨m, rfl, hm⟩
    · cases hres : collect (cfg.minPrice.toNat : ℤ) ((input.schedule
          (sampledNumbers cfg.checkBatches m.lastL2BatchNumber)).1.map fun n =>
            getL2BatchTxsTips cfg.sampleNumber (input.batchTxs n)) with
      | none => exact ⟨m, rfl, hm⟩
      | some results =>
        obtain ⟨price, hprice, hnonneg⟩ := dynamicPrice_ok cfg hP hm (collect_nonneg cfg input hres)
        simp only [hprice, ok_bind]
        cases hfinal : finalPrice cfg input price with
        | none => exact ⟨m, rfl, hm⟩
        | some price' => exact ⟨⟨l2BatchNumber, price'⟩, rfl, finalPrice_nonneg hnonneg hfinal⟩

/-- **Every run from a cache with a nonnegative price** returns, with a
nonnegative price, when `Percentile` is at most 100. -/
theorem run_ok (cfg : DynamicGPConfig) (hP : cfg.percentile ≤ 100) :
    ∀ (inputs : List DynamicGPInput) {m : DynamicGPManager}, 0 ≤ m.lastPrice →
      ∃ m', DynamicGPManager.run cfg m inputs = ok m' ∧ 0 ≤ m'.lastPrice
  | [], m, hm => ⟨m, rfl, hm⟩
  | input :: inputs, _, hm => by
    obtain ⟨m', hstep, hm'⟩ := calcDynamicGP_ok cfg hP hm input
    rw [DynamicGPManager.run, hstep, ok_bind]
    exact run_ok cfg hP inputs hm'

theorem run_ne_panic (cfg : DynamicGPConfig) (hP : cfg.percentile ≤ 100) (inputs : List DynamicGPInput) :
    DynamicGPManager.run cfg newDynamicGPManager inputs ≠ panic := by
  obtain ⟨m', hrun, -⟩ := run_ok cfg hP inputs (m := newDynamicGPManager) (by decide)
  rw [hrun]
  exact nofun

theorem run_lastPrice_nonneg (cfg : DynamicGPConfig) (hP : cfg.percentile ≤ 100)
    (inputs : List DynamicGPInput) {m' : DynamicGPManager}
    (h : DynamicGPManager.run cfg newDynamicGPManager inputs = ok m') : 0 ≤ m'.lastPrice := by
  obtain ⟨m'', hrun, hnonneg⟩ := run_ok cfg hP inputs (m := newDynamicGPManager) (by decide)
  rw [h, ok.injEq] at hrun
  rw [hrun]
  exact hnonneg

/-! ## The window of a call -/

/-- The samples of the window that ends at batch `number`, in launch order,
`MinPrice` standing for an empty batch. -/
def windowSamples (cfg : DynamicGPConfig) (number : ℕ) (batchTxs : ℕ → Option (List ℤ)) : List ℤ :=
  (sampledNumbers cfg.checkBatches number).flatMap fun n =>
    let vs := (getL2BatchTxsTips cfg.sampleNumber (batchTxs n)).getD []
    if vs = [] then [(cfg.minPrice.toNat : ℤ)] else vs

/-- **A call that completes** stores the clamped percentile of the window
that ends at the *cached* batch, averaged with the raw price when the pool
is not congested or the last block is empty. -/
theorem calcDynamicGP_window (cfg : DynamicGPConfig) (m : DynamicGPManager) (input : DynamicGPInput)
    {l2BatchNumber : ℕ} (hread : input.lastBatchNumber = some l2BatchNumber)
    (hnew : l2BatchNumber ≠ m.lastL2BatchNumber)
    (hbatches : ∀ n ∈ sampledNumbers cfg.checkBatches m.lastL2BatchNumber, input.batchTxs n ≠ none) :
    calcDynamicGP cfg m input = (do
      let price ← dynamicPrice cfg m.lastPrice (windowSamples cfg m.lastL2BatchNumber input.batchTxs)
      match finalPrice cfg input price with
      | some price => pure ⟨l2BatchNumber, price⟩
      | none => pure m) := by
  -- read the reports in launch order
  rw [← calcDynamicGP_schedule cfg m input Schedule.launchOrder]
  have hcollect : collect (cfg.minPrice.toNat : ℤ) ((sampledNumbers cfg.checkBatches m.lastL2BatchNumber).map
        fun n => getL2BatchTxsTips cfg.sampleNumber (input.batchTxs n)) =
      some (windowSamples cfg m.lastL2BatchNumber input.batchTxs) :=
    collect_map_of_ne_none _ _ fun n hn => by simpa [getL2BatchTxsTips] using hbatches n hn
  unfold calcDynamicGP
  simp only [hread, if_neg hnew, Schedule.launchOrder_val, hcollect]
  rfl

theorem gas_price_window_lags_and_first_call_panics :
    (∀ (cfg : LastNConfig) (blockTxs : ℕ → Option (List ℤ)) (schedule : Schedule),
      newLastNL2BlocksGasPriceSuggester.updateGasPriceAvg cfg 1 blockTxs schedule = panic) ∧
    DynamicGPManager.run ⟨0, 3, 3, 50, 0, 1⟩ newDynamicGPManager
        [⟨some 5, fun n => if 8 ≤ n then some [100] else some [], Schedule.launchOrder, some 0, some 1,
            some 0⟩,
          ⟨some 10, fun n => if 8 ≤ n then some [100] else some [], Schedule.launchOrder, some 0, some 1,
            some 0⟩] =
      ok ⟨10, 1⟩ ∧
    (sampledNumbers 3 10).map (fun n => getL2BatchTxsTips 3 (if 8 ≤ n then some [100] else some [])) =
      [some [100], some [100], some [100]] := by
  refine ⟨fun cfg blockTxs schedule => ?_, by decide, by decide⟩
  rw [updateGasPriceAvg_fresh, if_neg (by decide)]

end JsonRpc

end XLayerNode
