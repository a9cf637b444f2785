import XLayerNode.Common.Bytes
import XLayerNode.Common.Outcome
import Mathlib.Data.List.Sort
/-!
# Sampling the tips of the last blocks

The last-N-blocks suggester and the RPC's dynamic gas price share one
scheme. A sampler goroutine is started for each of the `CheckBlocks`
numbers from `number` down (`sampledNumbers`). Each sampler takes the
lowest tips of its block that are not skipped, at most `limit` of them
(`sampleTips`), and the samplers report on a channel in whatever order the
scheduler gives (`Schedule`). The receive loop stops at the first error and
puts a stand-in price for an empty sample (`collect`). The percentile of
the sorted samples is then the price (`percentileOf`).

None of it depends on the order of the reports (`collect_perm`,
`insertionSort_eq_of_perm`). What the window is anchored on does matter:
`number` is the block number cached by the previous call, not the one just
read. For `LastNL2BlocksGasPrice` the cache starts empty, with a nil
`lastPrice`. The first call that does not return early starts no sampler,
so it takes the nil price and panics in `Cmp`
(`updateGasPriceAvg_fresh`), and a run from the fresh suggester never
stores a price (`run_fresh`). From a cache that does hold a price, a call
stores the capped percentile of the window ending at the cached block
(`updateGasPriceAvg_window`).
-/

namespace XLayerNode

namespace GasPrice

open Outcome

/-! ## The sampling loops -/

/-- The scan of `getL2BlockTxsTips` over the tips in increasing order: a
tip that `skip`s is passed over, the others are appended until there are
`limit` of them (the check follows the append, so one is always taken). -/
def sampleTips (limit : ℕ) (skip : ℤ → Bool) : List ℤ → List ℤ → List ℤ
  | prices, [] => prices
  | prices, tip :: tips =>
    if skip tip then sampleTips limit skip prices tips
    else if limit ≤ (prices ++ [tip]).length then prices ++ [tip]
    else sampleTips limit skip (prices ++ [tip]) tips

/-- The launch loop: a sampler for `number`, `number - 1`, … while fewer
than `checkN` are started and the number is positive. -/
def sampledNumbers : ℕ → ℕ → List ℕ
  | 0, _ => []
  | _, 0 => []
  | checkN + 1, number + 1 => (number + 1) :: sampledNumbers checkN number

/-- The order in which the samplers started for `launched` report on the
channel: any permutation of them, as the scheduler chooses. -/
def Schedule : Type := (launched : List ℕ) → { order : List ℕ // order.Perm launched }

/-- The samplers report in the order they were started. -/
def Schedule.launchOrder : Schedule := fun launched => ⟨launched, List.Perm.refl launched⟩

@[simp] theorem Schedule.launchOrder_val (launched : List ℕ) :
    (Schedule.launchOrder launched).1 = launched := rfl

/-- The receive loop over the reports in arrival order: an error (`none`)
ends the call, and an empty sample stands for `fill`. -/
def collect {β : Type} (fill : β) : List (Option (List β)) → Option (List β)
  | [] => some []
  | none :: _ => none
  | some vs :: rest =>
    (collect fill rest).map fun results => (if vs = [] then [fill] else vs) ++ results

/-- `sort.Sort(bigIntArray(results))`, then
`results[(len(results)-1)*Percentile/100]`. -/
def percentileOf (percentile : ℕ) (results : List ℤ) : Outcome Empty ℤ :=
  index (results.insertionSort (· ≤ ·)) ((results.length - 1) * percentile / 100)

/-! ## The last-N-blocks suggester -/

/-- `sampleNumber`: the transactions sampled in a block. -/
def sampleNumber : ℕ := 3

/-- The fields of `gasprice.Config` the last-N-blocks suggester reads. -/
structure LastNConfig where
  /-- `MaxPrice`. -/
  maxPrice : ℤ
  /-- `IgnorePrice`; `none` is nil. -/
  ignorePrice : Option ℤ
  /-- `CheckBlocks`. -/
  checkBlocks : ℕ
  /-- `Percentile`. -/
  percentile : ℕ
  /-- `int64(Factor * 100)`. -/
  factorAsPercentage : ℤ
  deriving DecidableEq, Repr

/-- The cache of `LastNL2BlocksGasPrice`; `lastPrice` is a `*big.Int`,
`none` when nil. -/
structure LastNL2BlocksGasPrice where
  lastL2BlockNumber : ℕ
  lastPrice : Option ℤ
  deriving DecidableEq, Repr

/-- `newLastNL2BlocksGasPriceSuggester`: nothing cached, `lastPrice` nil. -/
def newLastNL2BlocksGasPriceSuggester : LastNL2BlocksGasPrice := ⟨0, none⟩

/-- `getL2BlockTxsTips`: `none` when the block's transactions could not be
read, otherwise its lowest tips at or above `IgnorePrice`. -/
def getL2BlockTxsTips (limit : ℕ) (ignorePrice : Option ℤ) (txs : Option (List ℤ)) :
    Option (List ℤ) :=
  txs.map fun tips =>
    sampleTips limit (fun tip => ignorePrice.any fun p => decide (tip < p)) [] (tips.insertionSort (· ≤ ·))

/-- A `*big.Int` that `Cmp` reads: a nil one panics. -/
def derefBigInt : Option ℤ → Outcome Empty ℤ
  | some x => ok x
  | none => panic

/-- The price `UpdateGasPriceAvg` takes from the collected samples: their
percentile, or `lastPrice` when there are none, capped at `MaxPrice`. -/
def lastNPrice (cfg : LastNConfig) (lastPrice : Option ℤ) (results : List (Option ℤ)) :
    Outcome Empty ℤ := do
  let price ← if 0 < results.length then do
      let values ← results.mapM derefBigInt
      percentileOf cfg.percentile values
    else derefBigInt lastPrice
  pure (if price > cfg.maxPrice then cfg.maxPrice else price)

/-- The arguments of `SetGasPrices`: `lastPrice.Uint64()`, and that of
`lastPrice / factor * 100`; `Div` by a zero factor panics. -/
def poolGasPrices (factorAsPercentage price : ℤ) : Outcome Empty (UInt64 × UInt64) :=
  if factorAsPercentage = 0 then panic
  else pure (bigUint64 price, bigUint64 (price / factorAsPercentage * 100))

/-- `LastNL2BlocksGasPrice.UpdateGasPriceAvg`, given the block number read,
each block's tips (`none` when they could not be read) and the order the
samplers report in. It returns the new cache and the arguments of
`SetGasPrices`, `none` when it returned early. -/
def LastNL2BlocksGasPrice.updateGasPriceAvg (cfg : LastNConfig) (g : LastNL2BlocksGasPrice)
    (l2BlockNumber : ℕ) (blockTxs : ℕ → Option (List ℤ)) (schedule : Schedule) :
    Outcome Empty (LastNL2BlocksGasPrice × Option (UInt64 × UInt64)) :=
  if l2BlockNumber = g.lastL2BlockNumber then pure (g, none)
  else
    -- the window starts at the cached number
    let order := (schedule (sampledNumbers cfg.checkBlocks g.lastL2BlockNumber)).1
    match collect g.lastPrice (order.map fun n =>
        (getL2BlockTxsTips sampleNumber cfg.ignorePrice (blockTxs n)).map (List.map some)) with
    | none => pure (g, none)
    | some results => do
      let price ← lastNPrice cfg g.lastPrice results
      let args ← poolGasPrices cfg.factorAsPercentage price
      pure (⟨l2BlockNumber, some price⟩, some args)

/-- What one call of `UpdateGasPriceAvg` reads: the last block number, the
tips of each block, and the order of the reports. -/
structure LastNInput where
  l2BlockNumber : ℕ
  blockTxs : ℕ → Option (List ℤ)
  schedule : Schedule

/-- Calls one after another, as the update timer makes them; a panic stops
the node. -/
def LastNL2BlocksGasPrice.run (cfg : LastNConfig) :
    LastNL2BlocksGasPrice → List LastNInput → Outcome Empty LastNL2BlocksGasPrice
  | g, [] => pure g
  | g, c :: cs => do
    let r ← g.updateGasPriceAvg cfg c.l2BlockNumber c.blockTxs c.schedule
    run cfg r.1 cs

/-! ## The loops in closed form -/

/-- **A block's sample**: the first tips that are not skipped, as many as
are still missing, and at least one. -/
theorem sampleTips_eq (limit : ℕ) (skip : ℤ → Bool) :
    ∀ (prices tips : List ℤ), sampleTips limit skip prices tips =
      prices ++ (tips.filter fun tip => !skip tip).take (max limit (prices.length + 1) - prices.length)
  | prices, [] => by simp [sampleTips]
  | prices, tip :: tips => by
    by_cases hskip : skip tip
    · simp only [sampleTips, hskip, if_true, List.filter_cons, Bool.not_true, Bool.false_eq_true,
        if_false]
      exact sampleTips_eq limit skip prices tips
    · simp only [sampleTips, hskip, Bool.false_eq_true, if_false, List.filter_cons, Bool.not_false,
        if_true, List.length_append, List.length_singleton]
      split_ifs with hlim
      · -- the tip completes the sample
        have hone : max limit (prices.length + 1) - prices.length = 0 + 1 := by omega
        rw [hone, List.take_succ_cons, List.take_zero]
      · -- still short: the tip is kept and the scan goes on
        have hmore : max limit (prices.length + 1) - prices.length =
            (max limit (prices.length + 1 + 1) - (prices.length + 1)) + 1 := by omega
        rw [sampleTips_eq limit skip (prices ++ [tip]) tips, hmore, List.take_succ_cons,
          List.length_append, List.length_singleton, List.append_assoc, List.singleton_append]

theorem getL2BlockTxsTips_eq (limit : ℕ) (ignorePrice : Option ℤ) (txs : Option (List ℤ)) :
    getL2BlockTxsTips limit ignorePrice txs = txs.map fun tips =>
      ((tips.insertionSort (· ≤ ·)).filter fun tip => !ignorePrice.any fun p => decide (tip < p)).take
        (max limit 1) := by
  simp [getL2BlockTxsTips, sampleTips_eq]

/-- **The window**: `number` and the numbers below it, `checkN` of them
unless fewer are positive. -/
theorem sampledNumbers_eq : ∀ (checkN number : ℕ),
    sampledNumbers checkN number = (List.range (min checkN number)).map fun i => number - i
  | 0, _ => by simp [sampledNumbers]
  | checkN + 1, 0 => by simp [sampledNumbers]
  | checkN + 1, number + 1 => by
    have hmin : min (checkN + 1) (number + 1) = min checkN number + 1 := by omega
    rw [sampledNumbers, sampledNumbers_eq checkN number, hmin, List.range_succ_eq_map, List.map_cons,
      List.map_map]
    congr 1
    refine List.map_congr_left fun i _ => ?_
    simp only [Function.comp_apply]
    omega

theorem sampledNumbers_zero_right (checkN : ℕ) : sampledNumbers checkN 0 = [] := by
  cases checkN <;> rfl

/-- The receive loop collects every sample, the stand-in for an empty one,
unless a report is an error. -/
theorem collect_eq {β : Type} (fill : β) : ∀ (rs : List (Option (List β))),
    collect fill rs = (rs.mapM id).map (List.flatMap fun vs => if vs = [] then [fill] else vs)
  | [] => rfl
  | none :: _ => rfl
  | some vs :: rest => by
    rw [collect, collect_eq fill rest, List.mapM_cons]
    cases rest.mapM id <;> rfl

theorem collect_map_of_ne_none {β : Type} (fill : β) (f : ℕ → Option (List β)) :
    ∀ {l : List ℕ}, (∀ n ∈ l, f n ≠ none) →
      collect fill (l.map f) = some (l.flatMap fun n =>
        let vs := (f n).getD []
        if vs = [] then [fill] else vs)
  | [], _ => rfl
  | n :: l, h => by
    obtain ⟨vs, hvs⟩ := Option.ne_none_iff_exists'.1 (h n List.mem_cons_self)
    rw [List.map_cons, hvs, collect, collect_map_of_ne_none fill f fun m hm => h m (List.mem_cons_of_mem n hm)]
    simp [hvs]

/-! ## The order of the reports -/

theorem rel_perm_cases {β : Type} {a b : Option (List β)} (h : Option.Rel List.Perm a b) :
    (a = none ∧ b = none) ∨ ∃ x y, a = some x ∧ b = some y ∧ x.Perm y := by
  cases h with
  | none => exact .inl ⟨rfl, rfl⟩
  | some h => exact .inr ⟨_, _, rfl, rfl, h⟩

theorem rel_perm_trans {β : Type} {a b c : Option (List β)} (hab : Option.Rel List.Perm a b)
    (hbc : Option.Rel List.Perm b c) : Option.Rel List.Perm a c := by
  cases hab with
  | none => exact hbc
  | some h =>
    cases hbc with
    | some h' => exact .some (h.trans h')

/-- Reading a list of optional values: all there, in any order, or not. -/
theorem mapM_id_perm {β : Type} {rs rs' : List (Option β)} (h : rs.Perm rs') :
    Option.Rel List.Perm (rs.mapM id) (rs'.mapM id) := by
  induction h with
  | nil => exact .some .nil
  | cons x _ ih =>
    rw [List.mapM_cons, List.mapM_cons]
    cases x with
    | none => exact .none
    | some v =>
      rcases rel_perm_cases ih with ⟨ha, hb⟩ | ⟨a, b, ha, hb, hab⟩
      · simp [ha, hb]
      · simpa [ha, hb] using hab.cons v
  | swap x y l =>
    simp only [List.mapM_cons]
    cases x <;> cases y
    all_goals cases l.mapM id
    all_goals simp [List.Perm.swap]
  | trans _ _ ih₁ ih₂ => exact rel_perm_trans ih₁ ih₂

theorem mem_of_mapM_id_eq_some {β : Type} :
    ∀ {rs : List (Option β)} {vs : List β}, rs.mapM id = some vs → ∀ v ∈ vs, some v ∈ rs
  | [], vs, h, v, hv => by
    simp only [List.mapM_nil, pure, Option.some.injEq] at h
    subst h
    exact absurd hv List.not_mem_nil
  | r :: rs, vs, h, v, hv => by
    rw [List.mapM_cons] at h
    obtain ⟨a, ha, hrest⟩ := Option.bind_eq_some_iff.1 h
    obtain ⟨vs', hvs', hcons⟩ := Option.bind_eq_some_iff.1 hrest
    simp only [id, pure, Option.some.injEq] at ha hcons
    subst ha hcons
    rcases List.mem_cons.1 hv with rfl | hv
    · exact List.mem_cons_self
    · exact List.mem_cons_of_mem _ (mem_of_mapM_id_eq_some hvs' v hv)

/-- **The reports' order does not matter to what is collected**, up to the
order of the samples. -/
theorem collect_perm {β : Type} (fill : β) {rs rs' : List (Option (List β))} (h : rs.Perm rs') :
    Option.Rel List.Perm (collect fill rs) (collect fill rs') := by
  rw [collect_eq, collect_eq]
  rcases rel_perm_cases (mapM_id_perm h) with ⟨ha, hb⟩ | ⟨a, b, ha, hb, hab⟩
  · simp [ha, hb]
  · simpa [ha, hb] using hab.flatMap_right _

/-- Two schedules of the same samplers collect the same samples, up to
order. -/
theorem collect_schedule {β : Type} (fill : β) (f : ℕ → Option (List β)) (s s' : Schedule)
    (launched : List ℕ) :
    Option.Rel List.Perm (collect fill ((s launched).1.map f)) (collect fill ((s' launched).1.map f)) :=
  collect_perm fill (((s launched).2.trans (s' launched).2.symm).map f)

theorem insertionSort_eq_of_perm {l l' : List ℤ} (h : l.Perm l') :
    l.insertionSort (· ≤ ·) = l'.insertionSort (· ≤ ·) :=
  List.Perm.eq_of_pairwise' (List.pairwise_insertionSort _ l) (List.pairwise_insertionSort _ l')
    (((List.perm_insertionSort _ l).trans h).trans (List.perm_insertionSort _ l').symm)

/-- **The percentile does not depend on the order of the samples.** -/
theorem percentileOf_perm (percentile : ℕ) {l l' : List ℤ} (h : l.Perm l') :
    percentileOf percentile l = percentileOf percentile l' := by
  rw [percentileOf, percentileOf, insertionSort_eq_of_perm h, h.length_eq]

/-- **The percentile is one of the samples**, and there is one, when
`Percentile` is at most 100. -/
theorem percentileOf_ok {percentile : ℕ} (hP : percentile ≤ 100) {l : List ℤ} (hl : 0 < l.length) :
    ∃ x ∈ l, percentileOf percentile l = ok x := by
  have hperm := List.perm_insertionSort (· ≤ ·) l
  -- the index is at most `len - 1`
  have hidx : (l.length - 1) * percentile / 100 < (l.insertionSort (· ≤ ·)).length := by
    have hle : (l.length - 1) * percentile ≤ (l.length - 1) * 100 := Nat.mul_le_mul_left _ hP
    rw [hperm.length_eq]
    have := Nat.div_le_div_right (c := 100) hle
    rw [Nat.mul_div_cancel _ (by norm_num)] at this
    omega
  exact ⟨_, hperm.subset (List.getElem_mem hidx), index_of_lt hidx⟩

theorem mapM_derefBigInt_eq (results : List (Option ℤ)) :
    results.mapM derefBigInt = match results.mapM id with
      | some vs => ok vs
      | none => panic := by
  induction results with
  | nil => rfl
  | cons r rs ih =>
    rw [List.mapM_cons, List.mapM_cons]
    cases r with
    | none => rfl
    | some v =>
      simp only [derefBigInt, ok_bind, ih]
      cases rs.mapM id <;> rfl

theorem lastNPrice_perm (cfg : LastNConfig) (lastPrice : Option ℤ) {results results' : List (Option ℤ)}
    (h : results.Perm results') : lastNPrice cfg lastPrice results = lastNPrice cfg lastPrice results' := by
  unfold lastNPrice
  rw [h.length_eq, mapM_derefBigInt_eq, mapM_derefBigInt_eq]
  -- a nil sample panics in both orders; otherwise the values are permuted
  rcases rel_perm_cases (mapM_id_perm h) with ⟨ha, hb⟩ | ⟨a, b, ha, hb, hab⟩
  · simp only [ha, hb]
  · simp only [ha, hb, ok_bind, percentileOf_perm cfg.percentile hab]

/-- **The scheduler does not matter**: a call reads the same whatever
order the samplers report in. -/
theorem updateGasPriceAvg_schedule (cfg : LastNConfig) (g : LastNL2BlocksGasPrice) (l2BlockNumber : ℕ)
    (blockTxs : ℕ → Option (List ℤ)) (s s' : Schedule) :
    g.updateGasPriceAvg cfg l2BlockNumber blockTxs s = g.updateGasPriceAvg cfg l2BlockNumber blockTxs s' := by
  unfold LastNL2BlocksGasPrice.updateGasPriceAvg
  split_ifs with hsame
  · rfl
  · rcases rel_perm_cases (collect_schedule g.lastPrice (fun n =>
        (getL2BlockTxsTips sampleNumber cfg.ignorePrice (blockTxs n)).map (List.map some)) s s'
        (sampledNumbers cfg.checkBlocks g.lastL2BlockNumber)) with ⟨ha, hb⟩ | ⟨a, b, ha, hb, hab⟩
    · simp only [ha, hb]
    · simp only [ha, hb, lastNPrice_perm cfg g.lastPrice hab]

/-! ## Runs from the fresh suggester -/

/-- **The first call that does not return early panics**: the cache says
block 0, so no sampler starts, and the nil `lastPrice` reaches `Cmp`. -/
theorem updateGasPriceAvg_fresh (cfg : LastNConfig) (l2BlockNumber : ℕ)
    (blockTxs : ℕ → Option (List ℤ)) (schedule : Schedule) :
    newLastNL2BlocksGasPriceSuggester.updateGasPriceAvg cfg l2BlockNumber blockTxs schedule =
      if l2BlockNumber = 0 then ok (newLastNL2BlocksGasPriceSuggester, none) else panic := by
  have hnone : (schedule []).1 = [] := List.Perm.eq_nil (schedule []).2
  have hlast : newLastNL2BlocksGasPriceSuggester.lastL2BlockNumber = 0 := rfl
  unfold LastNL2BlocksGasPrice.updateGasPriceAvg
  by_cases h0 : l2BlockNumber = 0
  · rw [if_pos (h0.trans hlast.symm), if_pos h0]
    rfl
  · rw [if_neg fun h => h0 (h.trans hlast), if_neg h0, hlast, sampledNumbers_zero_right]
    simp only [hnone, List.map_nil, collect, lastNPrice, List.length_nil, Nat.lt_irrefl, if_false,
      newLastNL2BlocksGasPriceSuggester, derefBigInt, panic_bind]

/-- **A run from the fresh suggester never stores a price**: it stays
fresh while the block number read is 0 and panics at the first other. -/
theorem run_fresh (cfg : LastNConfig) (inputs : List LastNInput) :
    LastNL2BlocksGasPrice.run cfg newLastNL2BlocksGasPriceSuggester inputs =
      if inputs.all fun c => c.l2BlockNumber = 0 then ok newLastNL2BlocksGasPriceSuggester else panic := by
  induction inputs with
  | nil => rfl
  | cons c cs ih =>
    rw [LastNL2BlocksGasPrice.run, updateGasPriceAvg_fresh, List.all_cons]
    by_cases h0 : c.l2BlockNumber = 0
    · simp only [h0, if_true, ok_bind, ih, decide_true, Bool.true_and]
    · simp only [h0, if_false, panic_bind, decide_false, Bool.false_and, Bool.false_eq_true]

/-! ## The window of a call -/

/-- The samples of the window that ends at block `number`, in launch
order, `p` standing for an empty block. -/
def windowSamples (cfg : LastNConfig) (number : ℕ) (blockTxs : ℕ → Option (List ℤ)) (p : ℤ) :
    List ℤ :=
  (sampledNumbers cfg.checkBlocks number).flatMap fun n =>
    let vs := ((getL2BlockTxsTips sampleNumber cfg.ignorePrice (blockTxs n)).getD [])
    if vs = [] then [p] else vs

theorem lastNPrice_some (cfg : LastNConfig) (p : ℤ) (vs : List ℤ) :
    lastNPrice cfg (some p) (vs.map some) = (do
      let price ← if 0 < vs.length then percentileOf cfg.percentile vs else ok p
      pure (min price cfg.maxPrice)) := by
  have hvs : ∀ vs : List ℤ, (vs.map some).mapM derefBigInt = ok vs := by
    intro vs
    induction vs with
    | nil => rfl
    | cons v vs ih => simp only [List.map_cons, List.mapM_cons, derefBigInt, ok_bind, ih, pure_def]
  have hcap : ∀ price : ℤ, (if price > cfg.maxPrice then cfg.maxPrice else price) = min price cfg.maxPrice :=
    fun price => by
      rw [min_def]
      split_ifs <;> omega
  simp only [lastNPrice, List.length_map, hvs vs, ok_bind, derefBigInt, hcap]

/-- **A call from a cache that holds a price**: unless it returns early
(the same block, or a sampler failed), it stores the percentile of the
window that ends at the *cached* block, capped at `MaxPrice`, whatever the
order of the reports. -/
theorem updateGasPriceAvg_window (cfg : LastNConfig) (g : LastNL2BlocksGasPrice) {p : ℤ}
    (hp : g.lastPrice = some p) {l2BlockNumber : ℕ} (hnew : l2BlockNumber ≠ g.lastL2BlockNumber)
    {blockTxs : ℕ → Option (List ℤ)}
    (hread : ∀ n ∈ sampledNumbers cfg.checkBlocks g.lastL2BlockNumber, blockTxs n ≠ none)
    (schedule : Schedule) :
    g.updateGasPriceAvg cfg l2BlockNumber blockTxs schedule = (do
      let samples := windowSamples cfg g.lastL2BlockNumber blockTxs p
      let price ← if 0 < samples.length then percentileOf cfg.percentile samples else ok p
      let price := min price cfg.maxPrice
      let args ← poolGasPrices cfg.factorAsPercentage price
      pure (⟨l2BlockNumber, some price⟩, some args)) := by
  -- read the reports in launch order
  rw [updateGasPriceAvg_schedule cfg g l2BlockNumber blockTxs schedule Schedule.launchOrder]
  -- every launched sampler reports its block's sample
  have hcollect : collect g.lastPrice ((sampledNumbers cfg.checkBlocks g.lastL2BlockNumber).map fun n =>
        (getL2BlockTxsTips sampleNumber cfg.ignorePrice (blockTxs n)).map (List.map some)) =
      some ((windowSamples cfg g.lastL2BlockNumber blockTxs p).map some) := by
    rw [hp, collect_map_of_ne_none _ _ fun n hn => by simpa [getL2BlockTxsTips] using hread n hn, windowSamples,
      List.map_flatMap]
    congr 1
    refine List.flatMap_congr fun n _ => ?_
    cases getL2BlockTxsTips sampleNumber cfg.ignorePrice (blockTxs n) with
    | none => rfl
    | some vs => by_cases hvs : vs = [] <;> simp [hvs]
  unfold LastNL2BlocksGasPrice.updateGasPriceAvg
  rw [if_neg hnew]
  simp only [Schedule.launchOrder_val, hcollect]
  simp only [hp, lastNPrice_some]
  split_ifs <;> simp only [bind_assoc, pure_bind, ok_bind]

end GasPrice

end XLayerNode
