import Mathlib
import XLayerNode.Common.Outcome
/-!
# Gas estimation

`EstimateGas` looks for the least gas limit a transaction runs with. It
caps the search at `MaxTxGasLimit`, at what the sender can pay for and at
the transaction's own gas; runs the transaction once at that high end;
tries an optimistic limit derived from the gas that run used and refunded;
and then bisects, the midpoint held to at most twice the low end, until the
range is within 4096 gas. A plain transfer to an account returns 21000
without running anything.

The executor is an oracle from gas limits to an outcome: an error, or a run
that passed, ran out of gas, reverted or ran out of counters, with the gas
it used and refunded. For an executor whose passing limits are upward
closed (`MonotoneExecutor`), the bisection keeps a passing high end and a
low end below every passing limit (`bisect_spec`), and it runs at most
`log₂ highEnd + log₂ (highEnd + 1)` times (`bisect_executions_le`). An
executor error inside the bisection is not returned as an error: the loop
reads the `reverted` flag of the nil result first, and panics
(`bisect_of_error`).
-/

namespace XLayerNode

namespace State

/-- `MaxTxGasLimit`, the gas limit allowed per transaction in a batch. -/
def MaxTxGasLimit : ℕ := 30000000

/-- `ethTransferGas`, the intrinsic gas of a plain transfer. -/
def ethTransferGas : ℕ := 21000

/-- go-ethereum's `params.CallStipend`. -/
def CallStipend : ℕ := 2300

/-- How the executor's run of the transaction ended, as `EstimateGas` tells
the ROM errors apart; every other ROM error takes the path of out-of-gas. -/
inductive ExecStatus where
  | pass
  | outOfGas
  | reverted
  | outOfCounters
  deriving DecidableEq, Repr

/-- The executor's response for the transaction. -/
structure ExecResponse where
  status : ExecStatus
  gasUsed : ℕ
  gasRefunded : ℕ
  returnValue : List UInt8
  deriving DecidableEq, Repr

/-- `testGasEstimationResult`. -/
structure TestGasEstimationResult where
  failed : Bool
  reverted : Bool
  ooc : Bool
  gasUsed : ℕ
  gasRefund : ℕ
  returnValue : List UInt8
  deriving DecidableEq, Repr

/-- The result `internalTestGasEstimationTransactionV2` builds from the
executor's response. -/
def TestGasEstimationResult.ofResponse (resp : ExecResponse) : TestGasEstimationResult :=
  match resp.status with
  | .pass => ⟨false, false, false, resp.gasUsed, resp.gasRefunded, []⟩
  | .outOfGas => ⟨true, false, false, resp.gasUsed, resp.gasRefunded, []⟩
  | .reverted => ⟨true, true, false, resp.gasUsed, resp.gasRefunded, resp.returnValue⟩
  | .outOfCounters => ⟨true, false, true, resp.gasUsed, resp.gasRefunded, []⟩

@[simp] theorem TestGasEstimationResult.failed_ofResponse (resp : ExecResponse) :
    (TestGasEstimationResult.ofResponse resp).failed = !(resp.status == .pass) := by
  unfold TestGasEstimationResult.ofResponse
  split <;> simp_all

@[simp] theorem TestGasEstimationResult.gasUsed_ofResponse (resp : ExecResponse) :
    (TestGasEstimationResult.ofResponse resp).gasUsed = resp.gasUsed := by
  unfold TestGasEstimationResult.ofResponse
  split <;> rfl

variable {ε : Type}

/-- `internalTestGasEstimationTransactionV2`: the executor's run with `gas`.
A failed call returns no result, only the error. -/
def internalTestGasEstimationTransaction (exec : ℕ → Except ε ExecResponse) (gas : ℕ) :
    Except ε TestGasEstimationResult :=
  (exec gas).map TestGasEstimationResult.ofResponse

/-- The errors `EstimateGas` returns. -/
inductive EstimateGasError (ε : Type) where
  /-- An executor error, passed on. -/
  | executor (e : ε)
  /-- `ErrInsufficientFundsForTransfer`. -/
  | insufficientFundsForTransfer
  /-- The revert error, with the return value beside it. -/
  | executionReverted (returnValue : List UInt8)
  /-- The out-of-counters ROM error. -/
  | outOfCounters
  /-- "gas required exceeds allowance (%d)". -/
  | gasRequiredExceedsAllowance (highEnd : ℕ)
  deriving DecidableEq, Repr

/-- What `EstimateGas` reads of the transaction and of the state at the
block. -/
structure EstimateGasInput where
  isGasFreeSender : Bool
  gasPrice : ℕ
  value : ℕ
  gas : ℕ
  /-- The sender's balance, zero when the account is not found. -/
  senderBalance : ℕ
  /-- `core.IntrinsicGas` of the transaction. -/
  intrinsicGas : ℕ
  /-- The receiver's code when the transaction has a receiver; `none` when
  the lookup failed. -/
  receiverCode : Option (Option (List UInt8))
  deriving DecidableEq, Repr

namespace EstimateGasInput

/-- The gas the sender can pay for, when a gas price is set. -/
def allowanceHighEnd (i : EstimateGasInput) : Outcome (EstimateGasError ε) ℕ :=
  if !i.isGasFreeSender && i.gasPrice != 0 then
    if i.value > i.senderBalance then .err .insufficientFundsForTransfer
    else
      let gasAllowance := (i.senderBalance - i.value) / i.gasPrice
      -- `gasAllowance.IsUint64() && highEnd > gasAllowance.Uint64()`
      .ok (if gasAllowance < 2 ^ 64 ∧ MaxTxGasLimit > gasAllowance then gasAllowance else MaxTxGasLimit)
  else .ok MaxTxGasLimit

/-- The high end of the search, capped at last by the transaction's gas. -/
def highEnd (i : EstimateGasInput) : Outcome (EstimateGasError ε) ℕ := do
  let highEnd ← i.allowanceHighEnd
  return if i.gas ≠ 0 ∧ i.gas < highEnd then i.gas else highEnd

/-- A plain transfer to an account: the intrinsic gas of a transfer, and a
receiver whose code was read and is empty. -/
def isPlainTransfer (i : EstimateGasInput) : Bool :=
  i.intrinsicGas == ethTransferGas && i.receiverCode == some (some [])

theorem highEnd_le {i : EstimateGasInput} {h : ℕ} (hh : (i.highEnd : Outcome (EstimateGasError ε) ℕ) = .ok h) :
    h ≤ MaxTxGasLimit := by
  obtain ⟨a, ha, hh⟩ := Outcome.bind_eq_ok.mp hh
  -- the allowance is capped at the limit
  have hle : a ≤ MaxTxGasLimit := by
    unfold allowanceHighEnd at ha
    split_ifs at ha <;> cases ha
    · split_ifs with hcap
      · exact hcap.2.le
      · exact le_refl _
    · exact le_refl _
  simp only [Outcome.pure_def, Outcome.ok.injEq] at hh
  split_ifs at hh <;> omega

end EstimateGasInput

/-! ## The search -/

/-- The point the bisection tries: the middle of the range, but at most
twice the low end. -/
def bisectMid (lowEnd highEnd : ℕ) : ℕ :=
  if (lowEnd + highEnd) / 2 > lowEnd * 2 then lowEnd * 2 else (lowEnd + highEnd) / 2

theorem le_bisectMid {lowEnd highEnd : ℕ} (h : lowEnd ≤ highEnd) : lowEnd ≤ bisectMid lowEnd highEnd := by
  unfold bisectMid
  split_ifs <;> omega

theorem bisectMid_lt {lowEnd highEnd : ℕ} (h : lowEnd < highEnd) : bisectMid lowEnd highEnd < highEnd := by
  unfold bisectMid
  split_ifs <;> omega

/-- A passing midpoint at least halves the range. -/
theorem bisectMid_sub_le (lowEnd highEnd : ℕ) : bisectMid lowEnd highEnd - lowEnd ≤ (highEnd - lowEnd) / 2 := by
  unfold bisectMid
  split_ifs <;> omega

/-- A failing midpoint halves the range, or at least doubles the low end. -/
theorem bisectMid_fail (lowEnd highEnd : ℕ) :
    highEnd - (bisectMid lowEnd highEnd + 1) ≤ (highEnd - lowEnd) / 2 ∨
      bisectMid lowEnd highEnd + 1 + 1 = (lowEnd + 1) * 2 := by
  unfold bisectMid
  split_ifs <;> omega

/-- The bisection loop of `EstimateGas`: the high end it settles on, and
the number of executions it made. -/
def bisect (test : ℕ → Except ε TestGasEstimationResult) (lowEnd highEnd executions : ℕ) :
    Outcome (EstimateGasError ε) (ℕ × ℕ) :=
  if _hrange : lowEnd < highEnd ∧ highEnd - lowEnd > 4096 then
    match test (bisectMid lowEnd highEnd) with
    -- `err != nil && !estimationResult.reverted` reads a field of the nil result
    | .error _ => .panic
    | .ok r =>
      if r.failed then bisect test (bisectMid lowEnd highEnd + 1) highEnd (executions + 1)
      else bisect test lowEnd (bisectMid lowEnd highEnd) (executions + 1)
  else .ok (highEnd, executions)
termination_by highEnd - lowEnd
decreasing_by
  · have := le_bisectMid _hrange.1.le
    omega
  · have := bisectMid_lt _hrange.1
    omega

/-- `optimisticGasLimit`, in `uint64`. -/
def optimisticGasLimit (r : TestGasEstimationResult) : ℕ :=
  (r.gasUsed + r.gasRefund + CallStipend) * 64 % 2 ^ 64 / 63

/-- The run at the high end; a failure there is returned. -/
def firstRun (test : ℕ → Except ε TestGasEstimationResult) (highEnd : ℕ) :
    Outcome (EstimateGasError ε) TestGasEstimationResult := do
  let r ← (Outcome.ofExcept (test highEnd)).mapErr .executor
  if r.failed then
    if r.reverted then throw (.executionReverted r.returnValue)
    else if r.ooc then throw .outOfCounters
    else throw (.gasRequiredExceedsAllowance highEnd)
  return r

/-- The optimistic run, when its limit is below the high end: it moves the
low end up on a failure, the high end down on a pass. -/
def optimisticProbe (test : ℕ → Except ε TestGasEstimationResult) (lowEnd highEnd optimistic : ℕ) :
    Outcome (EstimateGasError ε) (ℕ × ℕ) :=
  if optimistic < highEnd then do
    let r ← (Outcome.ofExcept (test optimistic)).mapErr .executor
    return if r.failed then (optimistic, highEnd) else (lowEnd, optimistic)
  else .ok (lowEnd, highEnd)

/-- `EstimateGas`. -/
def estimateGas (i : EstimateGasInput) (exec : ℕ → Except ε ExecResponse) : Outcome (EstimateGasError ε) ℕ := do
  let highEnd ← i.highEnd
  if i.isPlainTransfer then return i.intrinsicGas
  let first ← firstRun (internalTestGasEstimationTransaction exec) highEnd
  let lowEnd := if i.intrinsicGas < first.gasUsed then first.gasUsed else i.intrinsicGas
  let ends ← optimisticProbe (internalTestGasEstimationTransaction exec) lowEnd highEnd (optimisticGasLimit first)
  let found ← bisect (internalTestGasEstimationTransaction exec) ends.1 ends.2 0
  return found.1

/-! ## The executor -/

/-- The executor runs the transaction to the end with `gas`. -/
def passes (exec : ℕ → Except ε ExecResponse) (gas : ℕ) : Bool :=
  match exec gas with
  | .ok resp => resp.status == .pass
  | .error _ => false

/-- What the search assumes of the executor: a limit above a passing one
passes, up to the high end, and no passing limit is below the gas that a
passing run used. -/
structure MonotoneExecutor (exec : ℕ → Except ε ExecResponse) (highEnd : ℕ) : Prop where
  mono : ∀ g g', g ≤ g' → g' ≤ highEnd → passes exec g → passes exec g'
  gasUsed_le : ∀ g g' resp, exec g = .ok resp → resp.status = .pass → passes exec g' → resp.gasUsed ≤ g'

variable {exec : ℕ → Except ε ExecResponse}

theorem internalTestGasEstimationTransaction_eq_ok {gas : ℕ} {r : TestGasEstimationResult}
    (h : internalTestGasEstimationTransaction exec gas = .ok r) :
    ∃ resp, exec gas = .ok resp ∧ r = TestGasEstimationResult.ofResponse resp := by
  unfold internalTestGasEstimationTransaction at h
  cases hexec : exec gas with
  | error e => simp [hexec, Except.map] at h
  | ok resp =>
    simp only [hexec, Except.map, Except.ok.injEq] at h
    exact ⟨resp, rfl, h.symm⟩

/-- A run that returned failed exactly when the limit does not pass. -/
theorem failed_eq_not_passes {gas : ℕ} {r : TestGasEstimationResult}
    (h : internalTestGasEstimationTransaction exec gas = .ok r) : r.failed = !passes exec gas := by
  obtain ⟨resp, hresp, rfl⟩ := internalTestGasEstimationTransaction_eq_ok h
  simp [passes, hresp]

/-- Below a limit that fails, nothing passes. -/
theorem MonotoneExecutor.lt_of_fails {H : ℕ} (hexec : MonotoneExecutor exec H) {m g : ℕ} (hm : m ≤ H)
    (hfail : passes exec m = false) (hg : passes exec g) : m < g := by
  by_contra hle
  have := hexec.mono g m (by omega) hm hg
  simp_all

/-! ## The bisection -/

section Bisect

variable {test : ℕ → Except ε TestGasEstimationResult} {lowEnd highEnd executions : ℕ}

/-- **An executor error at the midpoint panics the search.** -/
theorem bisect_of_error {e : ε} (hrange : lowEnd < highEnd ∧ highEnd - lowEnd > 4096)
    (htest : test (bisectMid lowEnd highEnd) = .error e) : bisect test lowEnd highEnd executions = .panic := by
  rw [bisect, dif_pos hrange, htest]

/-- The measure of the search: the logarithm of the range, and how many
times the low end can still double below `H`. -/
def searchPotential (H lowEnd highEnd : ℕ) : ℕ :=
  Nat.log 2 (highEnd - lowEnd) + (Nat.log 2 (H + 1) - Nat.log 2 (lowEnd + 1))

theorem log_add_one_le_of_le_half {a b : ℕ} (hb : 2 ≤ b) (h : a ≤ b / 2) : Nat.log 2 a + 1 ≤ Nat.log 2 b := by
  have hhalf : Nat.log 2 a ≤ Nat.log 2 b - 1 := by
    rw [← Nat.log_div_base]
    exact Nat.log_mono_right h
  have hpos : 0 < Nat.log 2 b := Nat.log_pos Nat.one_lt_two hb
  omega

/-- A passing midpoint lowers the potential. -/
theorem searchPotential_pass {H : ℕ} (hrange : lowEnd < highEnd ∧ highEnd - lowEnd > 4096) :
    searchPotential H lowEnd (bisectMid lowEnd highEnd) + 1 ≤ searchPotential H lowEnd highEnd := by
  unfold searchPotential
  have := log_add_one_le_of_le_half (a := bisectMid lowEnd highEnd - lowEnd) (b := highEnd - lowEnd)
    (by omega) (bisectMid_sub_le lowEnd highEnd)
  omega

/-- A failing midpoint lowers the potential: the range halves, or the low
end doubles. -/
theorem searchPotential_fail {H : ℕ} (hH : highEnd ≤ H) (hrange : lowEnd < highEnd ∧ highEnd - lowEnd > 4096) :
    searchPotential H (bisectMid lowEnd highEnd + 1) highEnd + 1 ≤ searchPotential H lowEnd highEnd := by
  unfold searchPotential
  have hmid := le_bisectMid hrange.1.le
  have hlt := bisectMid_lt hrange.1
  -- the low end only grows, and stays below the high end
  have hlow : Nat.log 2 (lowEnd + 1) ≤ Nat.log 2 (bisectMid lowEnd highEnd + 1 + 1) :=
    Nat.log_mono_right (by omega)
  have hcap : Nat.log 2 (bisectMid lowEnd highEnd + 1 + 1) ≤ Nat.log 2 (H + 1) := Nat.log_mono_right (by omega)
  rcases bisectMid_fail lowEnd highEnd with hhalf | hdouble
  · have := log_add_one_le_of_le_half (by omega) hhalf
    omega
  · have hrng : Nat.log 2 (highEnd - (bisectMid lowEnd highEnd + 1)) ≤ Nat.log 2 (highEnd - lowEnd) :=
      Nat.log_mono_right (by omega)
    have hstep : Nat.log 2 (bisectMid lowEnd highEnd + 1 + 1) = Nat.log 2 (lowEnd + 1) + 1 := by
      rw [hdouble, Nat.log_mul_base Nat.one_lt_two (by omega)]
    omega

/-- **The search runs at most `searchPotential` times.** -/
theorem bisect_executions_le {H G k : ℕ} (hH : highEnd ≤ H) (h : bisect test lowEnd highEnd executions = .ok (G, k)) :
    k ≤ executions + searchPotential H lowEnd highEnd := by
  induction lowEnd, highEnd, executions using bisect.induct test with
  | case1 lowEnd highEnd executions hrange e htest =>
    rw [bisect_of_error hrange htest] at h
    cases h
  | case2 lowEnd highEnd executions hrange r htest hfailed ih =>
    rw [bisect, dif_pos hrange, htest] at h
    simp only [hfailed, if_true] at h
    have := ih hH h
    have := searchPotential_fail hH hrange
    omega
  | case3 lowEnd highEnd executions hrange r htest hfailed ih =>
    rw [bisect, dif_pos hrange, htest] at h
    simp only [hfailed, Bool.false_eq_true, if_false] at h
    have := ih ((bisectMid_lt hrange.1).le.trans hH) h
    have := searchPotential_pass (H := H) hrange
    omega
  | case4 lowEnd highEnd executions hrange =>
    rw [bisect, dif_neg hrange] at h
    cases h
    omega

/-- The potential at the start is at most `log₂ H + log₂ (H + 1)`. -/
theorem searchPotential_le {H : ℕ} (hH : highEnd ≤ H) :
    searchPotential H lowEnd highEnd ≤ Nat.log 2 H + Nat.log 2 (H + 1) := by
  unfold searchPotential
  have := Nat.log_mono_right (b := 2) (show highEnd - lowEnd ≤ H by omega)
  omega

end Bisect

section Spec

variable {H : ℕ}

/-- **The bisection's invariant**: with an executor that answers, a
passing high end and a low end below every passing limit, the search
returns a passing limit within 4096 of every passing one. -/
theorem bisect_spec (hexec : MonotoneExecutor exec H) (hok : ∀ g, ∃ resp, exec g = .ok resp)
    {lowEnd highEnd : ℕ} (executions : ℕ) (hH : highEnd ≤ H) (hpass : passes exec highEnd)
    (hlow : ∀ g, passes exec g → lowEnd ≤ g) :
    ∃ G k, bisect (internalTestGasEstimationTransaction exec) lowEnd highEnd executions = .ok (G, k) ∧
      passes exec G ∧ G ≤ highEnd ∧ ∀ g, passes exec g → G ≤ g + 4096 := by
  induction lowEnd, highEnd, executions using bisect.induct (internalTestGasEstimationTransaction exec) with
  | case1 lowEnd highEnd executions hrange e htest =>
    obtain ⟨resp, hresp⟩ := hok (bisectMid lowEnd highEnd)
    simp [internalTestGasEstimationTransaction, hresp, Except.map] at htest
  | case2 lowEnd highEnd executions hrange r htest hfailed ih =>
    have hmid := bisectMid_lt hrange.1
    -- a failing midpoint is below every passing limit
    have hfails : passes exec (bisectMid lowEnd highEnd) = false := by
      simpa [hfailed] using (failed_eq_not_passes htest).symm
    obtain ⟨G, k, hrun, hG⟩ := ih hH hpass fun g hg => hexec.lt_of_fails (by omega) hfails hg
    refine ⟨G, k, ?_, hG⟩
    rw [bisect, dif_pos hrange, htest]
    simpa only [hfailed, if_true] using hrun
  | case3 lowEnd highEnd executions hrange r htest hfailed ih =>
    have hmid := bisectMid_lt hrange.1
    have hpasses : passes exec (bisectMid lowEnd highEnd) := by
      simpa [hfailed] using (failed_eq_not_passes htest).symm
    obtain ⟨G, k, hrun, hGpass, hGle, hGmin⟩ := ih (by omega) hpasses hlow
    refine ⟨G, k, ?_, hGpass, by omega, hGmin⟩
    rw [bisect, dif_pos hrange, htest]
    simpa only [hfailed, Bool.false_eq_true, if_false] using hrun
  | case4 lowEnd highEnd executions hrange =>
    refine ⟨highEnd, executions, by rw [bisect, dif_neg hrange], hpass, le_refl _, fun g hg => ?_⟩
    have := hlow g hg
    omega

/-- The first run of a passing high end returns its result. -/
theorem firstRun_of_passes {highEnd : ℕ} {resp : ExecResponse} (hresp : exec highEnd = .ok resp)
    (hpass : resp.status = .pass) :
    firstRun (internalTestGasEstimationTransaction exec) highEnd = .ok (.ofResponse resp) := by
  have hfailed : (TestGasEstimationResult.ofResponse resp).failed = false := by simp [hpass]
  simp only [firstRun, internalTestGasEstimationTransaction, hresp, Except.map, Outcome.ofExcept_ok,
    Outcome.mapErr_ok, Outcome.ok_bind, hfailed, Bool.false_eq_true, if_false, Outcome.pure_def]

/-- The first run of a high end that does not pass returns an error. -/
theorem firstRun_of_fails {highEnd : ℕ} {resp : ExecResponse} (hresp : exec highEnd = .ok resp)
    (hfail : resp.status ≠ .pass) :
    ∃ e, firstRun (internalTestGasEstimationTransaction exec) highEnd = .err e := by
  have hfailed : (TestGasEstimationResult.ofResponse resp).failed = true := by simp [hfail]
  simp only [firstRun, internalTestGasEstimationTransaction, hresp, Except.map, Outcome.ofExcept_ok,
    Outcome.mapErr_ok, Outcome.ok_bind, hfailed, if_true]
  split_ifs <;> exact ⟨_, rfl⟩

/-- **The optimistic run keeps the search's invariant**: a passing high end
below `H`, and a low end below every passing limit. -/
theorem optimisticProbe_spec (hexec : MonotoneExecutor exec H) (hok : ∀ g, ∃ resp, exec g = .ok resp)
    {lowEnd highEnd : ℕ} (optimistic : ℕ) (hH : highEnd ≤ H) (hpass : passes exec highEnd)
    (hlow : ∀ g, passes exec g → lowEnd ≤ g) :
    ∃ l h, optimisticProbe (internalTestGasEstimationTransaction exec) lowEnd highEnd optimistic = .ok (l, h) ∧
      h ≤ H ∧ passes exec h ∧ ∀ g, passes exec g → l ≤ g := by
  unfold optimisticProbe
  split_ifs with hlt
  · obtain ⟨resp, hresp⟩ := hok optimistic
    have htest : internalTestGasEstimationTransaction exec optimistic = .ok (.ofResponse resp) := by
      simp [internalTestGasEstimationTransaction, hresp, Except.map]
    simp only [htest, Outcome.ofExcept_ok, Outcome.mapErr_ok, Outcome.ok_bind, Outcome.pure_def]
    have hfailed := failed_eq_not_passes htest
    cases hopt : passes exec optimistic
    · -- a failing optimistic limit is below every passing one
      simp only [hfailed, hopt, Bool.not_false, if_true]
      exact ⟨_, _, rfl, hH, hpass, fun g hg => (hexec.lt_of_fails (by omega) hopt hg).le⟩
    · simp only [hfailed, hopt, Bool.not_true, Bool.false_eq_true, if_false]
      exact ⟨_, _, rfl, by omega, hopt, hlow⟩
  · exact ⟨_, _, rfl, hH, hpass, hlow⟩

end Spec

/-! ## What `EstimateGas` returns -/

/-- Past the shortcut and a passing first run, `EstimateGas` returns what
the bisection from the optimistic run's ends returns. -/
theorem estimateGas_eq_bisect {i : EstimateGasInput} {H l h : ℕ} {r : TestGasEstimationResult}
    (hhigh : (i.highEnd : Outcome (EstimateGasError ε) ℕ) = .ok H) (hplain : i.isPlainTransfer = false)
    (hfirst : firstRun (internalTestGasEstimationTransaction exec) H = .ok r)
    (hprobe : optimisticProbe (internalTestGasEstimationTransaction exec)
      (if i.intrinsicGas < r.gasUsed then r.gasUsed else i.intrinsicGas) H (optimisticGasLimit r) = .ok (l, h)) :
    estimateGas i exec = (bisect (internalTestGasEstimationTransaction exec) l h 0 >>= fun found => pure found.1) := by
  rw [estimateGas, hhigh, Outcome.ok_bind, hplain, if_neg Bool.false_ne_true, hfirst, Outcome.ok_bind]
  dsimp only
  rw [hprobe, Outcome.ok_bind]

/-- **`EstimateGas` with an executor that answers**: no panic, and a gas
limit it returns is the transfer constant of the shortcut, or a limit the
transaction passes with, at most the high end and within 4096 of every
passing limit. This takes the intrinsic gas to be at most every passing
limit, as an executor that fails below it has. -/
theorem estimateGas_sufficient {i : EstimateGasInput} {H : ℕ}
    (hhigh : (i.highEnd : Outcome (EstimateGasError ε) ℕ) = .ok H) (hexec : MonotoneExecutor exec H)
    (hok : ∀ g, ∃ resp, exec g = .ok resp) (hintrinsic : ∀ g, passes exec g → i.intrinsicGas ≤ g) :
    estimateGas i exec ≠ .panic ∧
      ∀ G, estimateGas i exec = .ok G →
        (i.isPlainTransfer ∧ G = ethTransferGas) ∨
          (passes exec G ∧ G ≤ H ∧ ∀ g, passes exec g → G ≤ g + 4096) := by
  by_cases hplain : i.isPlainTransfer
  · -- the shortcut answers the transfer constant
    have hrun : estimateGas i exec = .ok i.intrinsicGas := by
      simp only [estimateGas, hhigh, hplain, Outcome.ok_bind, if_true, Outcome.pure_def]
    have hgas : i.intrinsicGas = ethTransferGas := by
      simpa [EstimateGasInput.isPlainTransfer] using (Bool.and_eq_true _ _).mp hplain |>.1
    refine ⟨by simp [hrun], fun G hG => .inl ⟨hplain, ?_⟩⟩
    rw [hrun, Outcome.ok.injEq] at hG
    rw [← hG, hgas]
  obtain ⟨resp, hresp⟩ := hok H
  by_cases hpassH : resp.status = .pass
  · have hpass : passes exec H := by simp [passes, hresp, hpassH]
    -- the low end after the first run is below every passing limit
    have hlow : ∀ g, passes exec g →
        (if i.intrinsicGas < (TestGasEstimationResult.ofResponse resp).gasUsed then
          (TestGasEstimationResult.ofResponse resp).gasUsed else i.intrinsicGas) ≤ g := by
      intro g hg
      have := hexec.gasUsed_le H g resp hresp hpassH hg
      have := hintrinsic g hg
      rw [TestGasEstimationResult.gasUsed_ofResponse]
      split_ifs <;> omega
    obtain ⟨l, h, hprobe, hhH, hhpass, hllow⟩ :=
      optimisticProbe_spec hexec hok (optimisticGasLimit (.ofResponse resp)) (le_refl H) hpass hlow
    obtain ⟨G, k, hbisect, hG⟩ := bisect_spec hexec hok 0 hhH hhpass hllow
    have hrun : estimateGas i exec = .ok G := by
      rw [estimateGas_eq_bisect hhigh (Bool.eq_false_iff.mpr hplain) (firstRun_of_passes hresp hpassH) hprobe,
        hbisect]
      rfl
    refine ⟨by simp [hrun], fun G' hG' => .inr ?_⟩
    rw [hrun, Outcome.ok.injEq] at hG'
    subst hG'
    exact ⟨hG.1, hG.2.1.trans hhH, hG.2.2⟩
  · -- a failing first run is returned as an error
    obtain ⟨e, hfirst⟩ := firstRun_of_fails hresp hpassH
    have hrun : estimateGas i exec = .err e := by
      simp only [estimateGas, hhigh, hplain, hfirst, Outcome.ok_bind, Bool.false_eq_true, if_false,
        Outcome.err_bind]
    exact ⟨by simp [hrun], fun G hG => by simp [hrun] at hG⟩

/-- A call to a contract from a gas-free sender, with the intrinsic gas of
a transfer. -/
def contractCall : EstimateGasInput := ⟨true, 0, 0, 0, 0, ethTransferGas, some (some [0x60])⟩

/-- An executor whose runs pass from 110000 gas on, having used 50000. -/
def steadyExecutor (gas : ℕ) : Except Unit ExecResponse :=
  if 110000 ≤ gas then .ok ⟨.pass, 50000, 0, []⟩ else .ok ⟨.outOfGas, gas, 0, []⟩

theorem passes_steadyExecutor (gas : ℕ) : passes steadyExecutor gas = decide (110000 ≤ gas) := by
  unfold passes steadyExecutor
  by_cases h : 110000 ≤ gas
  · rw [if_pos h, decide_eq_true h]
    rfl
  · rw [if_neg h, decide_eq_false h]
    rfl

theorem monotoneExecutor_steadyExecutor (H : ℕ) : MonotoneExecutor steadyExecutor H where
  mono g g' hle _ hg := by
    simp only [passes_steadyExecutor, decide_eq_true_eq] at hg ⊢
    omega
  gasUsed_le g g' resp hresp hpass hg' := by
    simp only [passes_steadyExecutor, decide_eq_true_eq] at hg'
    unfold steadyExecutor at hresp
    split_ifs at hresp
    · cases hresp
      show 50000 ≤ g'
      omega
    · cases hresp
      cases hpass

theorem estimateGas_sufficient_steadyExecutor :
    (contractCall.highEnd : Outcome (EstimateGasError Unit) ℕ) = .ok MaxTxGasLimit ∧
      (∀ g, ∃ resp, steadyExecutor g = .ok resp) ∧ (∀ g, passes steadyExecutor g → contractCall.intrinsicGas ≤ g) ∧
      (estimateGas contractCall steadyExecutor ≠ .panic ∧
        ∀ G, estimateGas contractCall steadyExecutor = .ok G →
          (contractCall.isPlainTransfer ∧ G = ethTransferGas) ∨
            (passes steadyExecutor G ∧ G ≤ MaxTxGasLimit ∧ ∀ g, passes steadyExecutor g → G ≤ g + 4096)) := by
  have hhigh : (contractCall.highEnd : Outcome (EstimateGasError Unit) ℕ) = .ok MaxTxGasLimit := rfl
  have hok : ∀ g, ∃ resp, steadyExecutor g = .ok resp := by
    intro g
    unfold steadyExecutor
    split_ifs <;> exact ⟨_, rfl⟩
  have hintrinsic : ∀ g, passes steadyExecutor g → contractCall.intrinsicGas ≤ g := by
    intro g hg
    simp only [passes_steadyExecutor, decide_eq_true_eq] at hg
    simp only [contractCall, ethTransferGas]
    omega
  exact ⟨hhigh, hok, hintrinsic,
    estimateGas_sufficient hhigh (monotoneExecutor_steadyExecutor MaxTxGasLimit) hok hintrinsic⟩

/-- The executor of `steadyExecutor`, but with a call that fails at 106260
gas, twice the low end the search reaches for `contractCall`. -/
def flakyExecutor (gas : ℕ) : Except Unit ExecResponse :=
  if gas = 106260 then .error () else steadyExecutor gas

theorem estimateGas_flakyExecutor :
    MonotoneExecutor flakyExecutor MaxTxGasLimit ∧ estimateGas contractCall flakyExecutor = .panic := by
  -- the executor passes exactly where `steadyExecutor` does
  have hpasses : ∀ gas, passes flakyExecutor gas = passes steadyExecutor gas := by
    intro gas
    unfold passes flakyExecutor
    split_ifs with h
    · subst h
      rfl
    · rfl
  refine ⟨⟨fun g g' hle hH hg => ?_, fun g g' resp hresp hpass hg' => ?_⟩, ?_⟩
  · rw [hpasses] at hg ⊢
    exact (monotoneExecutor_steadyExecutor MaxTxGasLimit).mono g g' hle hH hg
  · rw [hpasses] at hg'
    unfold flakyExecutor at hresp
    split_ifs at hresp
    exact (monotoneExecutor_steadyExecutor MaxTxGasLimit).gasUsed_le g g' resp hresp hpass hg'
  · -- the first run passes having used 50000, the optimistic run at 53130
    -- fails, and the bisection tries twice the low end first
    have hfirst : firstRun (internalTestGasEstimationTransaction flakyExecutor) MaxTxGasLimit =
        .ok (.ofResponse ⟨.pass, 50000, 0, []⟩) := firstRun_of_passes rfl rfl
    have hprobe : optimisticProbe (internalTestGasEstimationTransaction flakyExecutor) 50000 MaxTxGasLimit
        (optimisticGasLimit (.ofResponse ⟨.pass, 50000, 0, []⟩)) = .ok (53130, MaxTxGasLimit) := by
      decide
    have hbisect : bisect (internalTestGasEstimationTransaction flakyExecutor) 53130 MaxTxGasLimit 0 = .panic :=
      bisect_of_error (by decide) rfl
    have hhigh : (contractCall.highEnd : Outcome (EstimateGasError Unit) ℕ) = .ok MaxTxGasLimit := rfl
    have hplain : contractCall.isPlainTransfer = false := rfl
    have hlow : (if contractCall.intrinsicGas < 50000 then 50000 else contractCall.intrinsicGas) = 50000 := rfl
    simp only [estimateGas, hhigh, hplain, hfirst, Outcome.ok_bind, Bool.false_eq_true, if_false,
      TestGasEstimationResult.gasUsed_ofResponse, hlow, hprobe, hbisect, Outcome.panic_bind]

end State

end XLayerNode
