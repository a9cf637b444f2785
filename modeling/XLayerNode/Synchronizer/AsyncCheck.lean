import Mathlib.Data.Option.Basic
import Mathlib.Data.Nat.Notation
import Mathlib.Tactic.SplitIfs
/-!
# The background L1 block checker

`AsyncCheck` runs an `L1BlockChecker` in a goroutine. `Run` starts the
goroutine unless `isRunning` says one runs, and clears the last result when
it starts one. The goroutine calls `Step` until it returns a reorg or the
context is cancelled, stores that result under the mutex, releases the
`WaitGroup`, and then, under the mutex again, clears `isRunning`.
`GetResult` reads the stored result, and `Stop` cancels the context and
waits on the `WaitGroup`.

The model is a step function over events: the synchronizer's calls and
the goroutine's steps, each atomic as the mutex makes it, in any order.

What a run keeps (`Inv`): one goroutine at most, `isRunning` while it has
not cleared it, the `WaitGroup` counting it until it releases it, and a
result stored by then; so `Stop` returns only once the goroutine has
stored its result (`stopWait_stored`). But a `Run` that comes after the
goroutine stored its result and before it cleared `isRunning` starts
nothing and keeps that result, which is then returned to every later
`GetResult` though no iteration ran after the `Run`
(`run_in_window_keeps_stale_result`).
-/

namespace XLayerNode

namespace Synchronizer

namespace L1CheckBlock

/-- What `checker.Step` returns: nil, an error, or a `ReorgError` at a
block. -/
inductive StepResult where
  | ok
  | error (code : ℕ)
  | reorg (blockNumber : ℕ)
  deriving DecidableEq, Repr

/-- The `Err` of an `IterationResult`. -/
inductive IterationError where
  /-- An error of `Step` other than a reorg. -/
  | step (code : ℕ)
  /-- `ctx.Err()` of the cancelled context. -/
  | contextCanceled
  deriving DecidableEq, Repr

/-- `syncinterfaces.IterationResult`, without its message. -/
structure IterationResult where
  err : Option IterationError
  reorgDetected : Bool
  blockNumber : ℕ
  deriving DecidableEq, Repr

/-- `executeIteration`: the result of one call of `Step`. -/
def executeIteration : StepResult → IterationResult
  | .ok => ⟨none, false, 0⟩
  | .error code => ⟨some (.step code), false, 0⟩
  | .reorg blockNumber => ⟨none, true, blockNumber⟩

/-- `step`: the result of a cancelled context, a reorg, or nil to go on
(after the sleep). -/
def AsyncCheck.step (ctxDone : Bool) (r : StepResult) : Option IterationResult :=
  if ctxDone then some ⟨some .contextCanceled, false, 0⟩
  else
    let result := executeIteration r
    if result.reorgDetected then some result else none

/-- Where the goroutine of `launchChecker` is. -/
inductive Routine where
  /-- No goroutine, or one that has cleared `isRunning`. -/
  | idle
  /-- In the loop of `step` calls. -/
  | looping
  /-- After `setResult`, before `Wg.Done`. -/
  | resultSet
  /-- After `Wg.Done`, before clearing `isRunning`. -/
  | wgDone
  deriving DecidableEq, Repr

/-- `AsyncCheck`: the fields the calls read and write, and the goroutine. -/
structure AsyncCheck where
  lastResult : Option IterationResult
  isRunning : Bool
  /-- Whether a context was made: `cancelCtx` is nil before the first
  launch. -/
  hasCtx : Bool
  ctxDone : Bool
  wg : ℕ
  routine : Routine
  deriving DecidableEq, Repr

/-- `NewAsyncCheck`. -/
def newAsyncCheck : AsyncCheck := ⟨none, false, false, false, 0, .idle⟩

/-- The events: the calls of the synchronizer and the steps of the
goroutine. -/
inductive Event where
  /-- `Run`. -/
  | run
  /-- The `cancelCtx()` of `Stop`. -/
  | stop
  /-- The `Wg.Wait()` of `Stop` returns. -/
  | stopWait
  /-- `GetResult`. -/
  | getResult
  /-- One turn of the goroutine's loop, with what `Step` returned. -/
  | iterate (r : StepResult)
  /-- The goroutine's `Wg.Done()`. -/
  | wgDone
  /-- The goroutine clears `isRunning`. -/
  | clearRunning
  deriving DecidableEq, Repr

/-- `Run`, under the mutex: nothing if a goroutine runs, else a cleared
result, a new context and `launchChecker`. -/
def AsyncCheck.run (a : AsyncCheck) : AsyncCheck :=
  if a.isRunning then a
  else
    { a with
      lastResult := none
      hasCtx := true
      ctxDone := false
      wg := a.wg + 1
      isRunning := true
      routine := .looping }

/-- One event, or none when it cannot happen now: a goroutine step of no
goroutine at that point, `Stop` before any context, a wait that blocks. -/
def AsyncCheck.event (a : AsyncCheck) : Event → Option AsyncCheck
  | .run => some a.run
  | .stop => if a.hasCtx then some { a with ctxDone := true } else none
  | .stopWait => if a.wg = 0 then some a else none
  | .getResult => some a
  | .iterate r =>
    if a.routine = .looping then
      match step a.ctxDone r with
      | some result => some { a with lastResult := some result, routine := .resultSet }
      | none => some a
    else none
  | .wgDone => if a.routine = .resultSet then some { a with wg := a.wg - 1, routine := .wgDone }
    else none
  | .clearRunning => if a.routine = .wgDone then some { a with isRunning := false, routine := .idle }
    else none

/-- A run of events; none when one of them cannot happen. -/
def AsyncCheck.runEvents (a : AsyncCheck) : List Event → Option AsyncCheck
  | [] => some a
  | e :: es => (a.event e).bind fun a' => a'.runEvents es

/-! ## What every run keeps -/

/-- The invariant: `isRunning` while the goroutine has not cleared it, the
`WaitGroup` holding it until `Wg.Done`, and a result stored once it left
its loop. -/
structure Inv (a : AsyncCheck) : Prop where
  isRunning_iff : a.isRunning = true ↔ a.routine ≠ .idle
  wg_eq : a.wg = if a.routine = .looping ∨ a.routine = .resultSet then 1 else 0
  stored : a.routine = .resultSet ∨ a.routine = .wgDone → a.lastResult.isSome
  hasCtx : a.routine ≠ .idle → a.hasCtx = true

theorem inv_newAsyncCheck : Inv newAsyncCheck :=
  ⟨by simp [newAsyncCheck], by simp [newAsyncCheck], by simp [newAsyncCheck], by simp [newAsyncCheck]⟩

theorem Inv.run {a : AsyncCheck} (h : Inv a) : Inv a.run := by
  unfold AsyncCheck.run
  split_ifs with hrun
  · exact h
  · have hidle : a.routine = .idle := by
      by_contra hne
      exact hrun (h.isRunning_iff.2 hne)
    have hwg : a.wg = 0 := by simpa [hidle] using h.wg_eq
    exact ⟨by simp, by simp [hwg], by simp, by simp⟩

/-- **Every event keeps the invariant.** -/
theorem Inv.event {a a' : AsyncCheck} (h : Inv a) {e : Event} (he : a.event e = some a') :
    Inv a' := by
  cases e with
  | run =>
    cases he
    exact h.run
  | stop =>
    simp only [AsyncCheck.event, Option.ite_none_right_eq_some, Option.some.injEq] at he
    obtain ⟨-, rfl⟩ := he
    exact ⟨h.isRunning_iff, h.wg_eq, h.stored, h.hasCtx⟩
  | stopWait =>
    simp only [AsyncCheck.event, Option.ite_none_right_eq_some, Option.some.injEq] at he
    obtain ⟨-, rfl⟩ := he
    exact h
  | getResult =>
    cases he
    exact h
  | iterate r =>
    simp only [AsyncCheck.event] at he
    split_ifs at he with hloop
    split at he
    · cases he
      refine ⟨?_, ?_, fun _ => rfl, fun _ => h.hasCtx (by simp [hloop])⟩
      · simpa [hloop] using h.isRunning_iff
      · simpa [hloop] using h.wg_eq
    · cases he
      exact h
  | wgDone =>
    simp only [AsyncCheck.event, Option.ite_none_right_eq_some, Option.some.injEq] at he
    obtain ⟨hset, rfl⟩ := he
    refine ⟨?_, ?_, fun _ => h.stored (.inl hset), fun _ => h.hasCtx (by simp [hset])⟩
    · simpa [hset] using h.isRunning_iff
    · have := h.wg_eq
      simp only [hset] at this
      simp [this]
  | clearRunning =>
    simp only [AsyncCheck.event, Option.ite_none_right_eq_some, Option.some.injEq] at he
    obtain ⟨hdone, rfl⟩ := he
    refine ⟨by simp, ?_, by simp, by simp⟩
    simpa [hdone] using h.wg_eq

/-- **Every run keeps the invariant.** -/
theorem Inv.runEvents {a a' : AsyncCheck} (h : Inv a) {es : List Event}
    (hrun : a.runEvents es = some a') : Inv a' := by
  induction es generalizing a with
  | nil =>
    cases hrun
    exact h
  | cons e es ih =>
    obtain ⟨a'', hnext, hrest⟩ := Option.bind_eq_some_iff.mp hrun
    exact ih (h.event hnext) hrest

/-- **`Stop` returns once the goroutine has stored its result**: its wait
returns only when no goroutine is in its loop or about to release the
`WaitGroup`, and a goroutine that released it stored a result. -/
theorem stopWait_stored {a : AsyncCheck} (h : Inv a) (hwait : (a.event .stopWait).isSome) :
    a.routine ≠ .looping ∧ a.routine ≠ .resultSet ∧ (a.routine = .wgDone → a.lastResult.isSome) := by
  have hwg : a.wg = 0 := by
    simp only [AsyncCheck.event] at hwait
    split_ifs at hwait with hwg
    · exact hwg
    · simp at hwait
  have hroutine := h.wg_eq
  rw [hwg] at hroutine
  refine ⟨fun hl => by simp [hl] at hroutine, fun hs => by simp [hs] at hroutine,
    fun hd => h.stored (.inr hd)⟩

/-! ## A `Run` in the goroutine's last window -/

/-- **A `Run` between the goroutine's `setResult` and its clearing of
`isRunning` keeps the stale result**: it clears nothing and starts no
goroutine; once the goroutine finishes, none runs, so no iteration can
store a result, and `GetResult` returns the one stored before that `Run`
until another `Run`. -/
theorem run_in_window_keeps_stale_result {a a₂ : AsyncCheck}
    (hwindow : a.routine = .resultSet ∨ a.routine = .wgDone) (h : Inv a)
    (hfinish : a.run.runEvents (if a.routine = .resultSet then [.wgDone, .clearRunning]
      else [.clearRunning]) = some a₂) :
    ∃ r, a.lastResult = some r ∧ a.run.lastResult = some r ∧ a.run.routine = a.routine ∧
      a₂.lastResult = some r ∧ a₂.routine = .idle ∧ a₂.isRunning = false ∧
      ∀ sr, a₂.event (.iterate sr) = none := by
  have hne : a.routine ≠ .idle := by
    rcases hwindow with hw | hw <;> simp [hw]
  have hrun : a.run = a := if_pos (h.isRunning_iff.2 hne)
  obtain ⟨r, hr⟩ := Option.isSome_iff_exists.mp (h.stored hwindow)
  rw [hrun] at hfinish ⊢
  -- the goroutine's last steps touch neither the result nor the loop
  have hfinished : a₂.lastResult = a.lastResult ∧ a₂.routine = .idle ∧ a₂.isRunning = false := by
    rcases hwindow with hset | hdone
    · simp only [hset, if_true, AsyncCheck.runEvents, AsyncCheck.event, Option.bind_some] at hfinish
      cases hfinish
      exact ⟨rfl, rfl, rfl⟩
    · simp only [hdone, reduceCtorEq, if_false, AsyncCheck.runEvents, AsyncCheck.event, if_true,
        Option.bind_some] at hfinish
      cases hfinish
      exact ⟨rfl, rfl, rfl⟩
  obtain ⟨hresult, hidle, hrunning⟩ := hfinished
  refine ⟨r, hr, hr, rfl, hresult.trans hr, hidle, hrunning, fun sr => ?_⟩
  simp [AsyncCheck.event, hidle]

/-- The checker after `Run` and an iteration that found a reorg at block
7: the goroutine has stored its result and not yet released anything. -/
def reorgWindow : AsyncCheck := ⟨some ⟨none, true, 7⟩, true, true, false, 1, .resultSet⟩

/-- `reorgWindow` after the goroutine finished. -/
def reorgWindowFinished : AsyncCheck := ⟨some ⟨none, true, 7⟩, false, true, false, 0, .idle⟩

/-- A `Run` made right after the goroutine stored the reorg at block 7
keeps it, and no goroutine is left to replace it. -/
theorem run_in_window_keeps_stale_result_reorgWindow :
    newAsyncCheck.runEvents [.run, .iterate (.reorg 7)] = some reorgWindow ∧
      ∃ r, reorgWindow.lastResult = some r ∧ reorgWindow.run.lastResult = some r ∧
        reorgWindow.run.routine = reorgWindow.routine ∧ reorgWindowFinished.lastResult = some r ∧
        reorgWindowFinished.routine = .idle ∧ reorgWindowFinished.isRunning = false ∧
        ∀ sr, reorgWindowFinished.event (.iterate sr) = none := by
  have hreach : newAsyncCheck.runEvents [.run, .iterate (.reorg 7)] = some reorgWindow := rfl
  exact ⟨hreach, run_in_window_keeps_stale_result (.inl rfl) (inv_newAsyncCheck.runEvents hreach) rfl⟩

end L1CheckBlock

end Synchronizer

end XLayerNode
