import Mathlib.Data.List.Basic
import Mathlib.Data.Option.Basic
import Mathlib.Tactic.SplitIfs
/-!
# Polling filters

`eth_newBlockFilter` and `eth_newFilter` install a filter whose `LastPoll`
is the clock when `createFilter` runs. `GetFilterChanges` reads the rows
of `state.l2block` whose `created_at` is at or after `LastPoll` (a block
filter returns their hashes, a log filter the logs of them it selects),
and only afterwards `updateFilterLastPoll` sets `LastPoll` to the clock.
`AddL2Block` stamps `created_at` with the clock when it inserts the row,
inside the storing transaction, and other connections read the row only
once that transaction commits.

The model is a step function over events: the clock's ticks, the
writer's insertions and commits, the installation of the filter and the
two halves of each `GetFilterChanges` call, in any order.

What a run keeps (`Inv`): `LastPoll` is never ahead of the clock. A block
whose rows are all stamped before `LastPoll`, and that no call in flight
has read, is `Lost`: every event keeps that (`Lost.event`), so no call
returns it in any continuation of the run (`Lost.runEvents`). A poll that
reads before the storing transaction commits and updates `LastPoll` once
the clock has passed the stamp leaves the block lost though it commits
after the filter was installed (`poll_before_commit_loses_block`).
-/

namespace XLayerNode

namespace JsonRpc

/-- A row of `state.log`: the fields `GetLogs` filters on. -/
structure LogEntry where
  address : ℕ
  /-- `topic0` to `topic3`, those the log has. -/
  topics : List ℕ
  deriving DecidableEq, Repr

/-- A log as `GetLogs` returns it, with `b.block_hash` of the block it
joins. -/
structure Log where
  blockHash : ℕ
  address : ℕ
  topics : List ℕ
  deriving DecidableEq, Repr

/-- A row of `state.l2block`, with the logs its transactions wrote. -/
structure L2BlockRow where
  blockHash : ℕ
  createdAt : ℕ
  /-- Whether the transaction that stored the row has committed: before
  that, no other connection reads it. -/
  committed : Bool
  logs : List LogEntry
  deriving DecidableEq, Repr

/-- `maxTopics`. -/
def maxTopics : ℕ := 4

/-- The parameters of a log filter that the `WHERE` clause of `GetLogs`
reads. -/
structure LogFilter where
  addresses : List ℕ
  topics : List (List ℕ)
  deriving DecidableEq, Repr

/-- The `WHERE` clause of `GetLogs` on one log: `l.address = any($1) OR $1
IS NULL`, and for each of the first `maxTopics` topic lists that is not
empty, `l.topicN = any($N)`, which a log without that topic fails. -/
def LogFilter.selects (f : LogFilter) (l : LogEntry) : Bool :=
  (f.addresses.isEmpty || f.addresses.contains l.address) &&
    (List.range maxTopics).all fun i =>
      match f.topics[i]? with
      | some ts => ts.isEmpty || (l.topics[i]?).any ts.contains
      | none => true

/-- `FilterType`, with the parameters of a log filter. -/
inductive FilterType where
  | block
  | log (parameters : LogFilter)
  deriving DecidableEq, Repr

/-- An item `GetFilterChanges` returns: a block hash or a log. -/
inductive Change where
  | blockHash (hash : ℕ)
  | log (l : Log)
  deriving DecidableEq, Repr

/-- The block an item is of. -/
def Change.block : Change → ℕ
  | .blockHash hash => hash
  | .log l => l.blockHash

/-- A `Filter`: its type and `LastPoll`. -/
structure Filter where
  type : FilterType
  lastPoll : ℕ
  deriving DecidableEq, Repr

/-! ## The queries -/

/-- The rows with `created_at >= since`. -/
def rowsSince (rows : List L2BlockRow) (since : ℕ) : List L2BlockRow :=
  rows.filter fun r => since ≤ r.createdAt

/-- `GetL2BlockHashesSince`: `SELECT block_hash FROM state.l2block WHERE
created_at >= $1`. -/
def getL2BlockHashesSince (rows : List L2BlockRow) (since : ℕ) : List ℕ :=
  (rowsSince rows since).map (·.blockHash)

/-- `GetLogs` with `since` over the whole block range: the logs the filter
selects of the rows with `created_at >= since`. -/
def getLogs (rows : List L2BlockRow) (f : LogFilter) (since : ℕ) : List Log :=
  (rowsSince rows since).flatMap fun r =>
    (r.logs.filter f.selects).map fun l => ⟨r.blockHash, l.address, l.topics⟩

/-- The rows another connection reads: those whose transaction committed. -/
def visible (rows : List L2BlockRow) : List L2BlockRow :=
  rows.filter (·.committed)

/-- What `GetFilterChanges` reads for the filter, by its type, from the
rows it sees. -/
def getFilterChanges (rows : List L2BlockRow) (f : Filter) : List Change :=
  match f.type with
  | .block => (getL2BlockHashesSince (visible rows) f.lastPoll).map .blockHash
  | .log parameters => (getLogs (visible rows) parameters f.lastPoll).map .log

/-- **A poll reads only committed rows stamped at or after `LastPoll`.** -/
theorem exists_row_of_mem_getFilterChanges {rows : List L2BlockRow} {f : Filter} {x : Change}
    (hx : x ∈ getFilterChanges rows f) :
    ∃ r ∈ rows, r.committed = true ∧ f.lastPoll ≤ r.createdAt ∧ x.block = r.blockHash := by
  unfold getFilterChanges at hx
  split at hx
  · simp only [getL2BlockHashesSince, rowsSince, visible, List.filter_filter, List.map_map,
      List.mem_map, List.mem_filter, Bool.and_eq_true, decide_eq_true_eq] at hx
    obtain ⟨r, ⟨hr, hsince, hcommitted⟩, rfl⟩ := hx
    exact ⟨r, hr, hcommitted, hsince, rfl⟩
  · simp only [getLogs, rowsSince, visible, List.filter_filter, List.mem_map, List.mem_flatMap,
      List.mem_filter, Bool.and_eq_true, decide_eq_true_eq] at hx
    obtain ⟨l, ⟨r, ⟨hr, hsince, hcommitted⟩, e, -, rfl⟩, rfl⟩ := hx
    exact ⟨r, hr, hcommitted, hsince, rfl⟩

/-- A block filter's poll returns exactly the committed blocks stamped at or
after `LastPoll`. -/
theorem blockHash_mem_getFilterChanges {rows : List L2BlockRow} {f : Filter}
    (htype : f.type = .block) {h : ℕ} :
    Change.blockHash h ∈ getFilterChanges rows f ↔
      ∃ r ∈ rows, r.committed = true ∧ f.lastPoll ≤ r.createdAt ∧ r.blockHash = h := by
  simp only [getFilterChanges, htype, getL2BlockHashesSince, rowsSince, visible,
    List.filter_filter, List.map_map, List.mem_map, List.mem_filter, Bool.and_eq_true,
    decide_eq_true_eq, Function.comp_apply, Change.blockHash.injEq]
  constructor
  · rintro ⟨r, ⟨hr, hsince, hcommitted⟩, rfl⟩
    exact ⟨r, hr, hcommitted, hsince, rfl⟩
  · rintro ⟨r, hr, hcommitted, hsince, rfl⟩
    exact ⟨r, ⟨hr, hsince, hcommitted⟩, rfl⟩

/-! ## The system -/

/-- The rows of `state.l2block`, the one filter a client polls, the calls
in flight, and the clock they share. -/
structure System where
  now : ℕ
  rows : List L2BlockRow
  filter : Option Filter
  /-- What each `GetFilterChanges` call in flight read, before its
  `updateFilterLastPoll`. -/
  calls : List (List Change)
  /-- What the calls returned, in order. -/
  returned : List (List Change)
  deriving DecidableEq, Repr

/-- No rows, no filter, no calls. -/
def System.init : System := ⟨0, [], none, [], []⟩

/-- The events. -/
inductive Event where
  /-- The clock advances. -/
  | tick
  /-- `AddL2Block` inserts a block's row, `created_at` the clock, in a
  transaction not yet committed. -/
  | addL2Block (blockHash : ℕ) (logs : List LogEntry)
  /-- The transaction that stored the block commits. -/
  | commit (blockHash : ℕ)
  /-- `createFilter`. -/
  | newFilter (type : FilterType)
  /-- A `GetFilterChanges` call reads the rows since `LastPoll`. -/
  | readChanges
  /-- Call `i` in flight runs `updateFilterLastPoll` and returns what it
  read. -/
  | updateFilterLastPoll (i : ℕ)
  deriving DecidableEq, Repr

/-- The rows once the transaction that stored `blockHash` committed. -/
def commitRows (rows : List L2BlockRow) (blockHash : ℕ) : List L2BlockRow :=
  rows.map fun r => if r.blockHash = blockHash then { r with committed := true } else r

/-- One event, or none when it cannot happen now: a block stored twice, a
commit of no open transaction, a second filter, a poll of no filter, or
the update of no call in flight. -/
def System.event (s : System) : Event → Option System
  | .tick => some { s with now := s.now + 1 }
  | .addL2Block blockHash logs =>
    if s.rows.any (·.blockHash == blockHash) then none
    else some { s with rows := s.rows ++ [⟨blockHash, s.now, false, logs⟩] }
  | .commit blockHash =>
    if s.rows.any fun r => r.blockHash == blockHash && !r.committed then
      some { s with rows := commitRows s.rows blockHash }
    else none
  | .newFilter type =>
    match s.filter with
    | some _ => none
    | none => some { s with filter := some ⟨type, s.now⟩ }
  | .readChanges =>
    match s.filter with
    | some f => some { s with calls := s.calls ++ [getFilterChanges s.rows f] }
    | none => none
  | .updateFilterLastPoll i =>
    match s.filter, s.calls[i]? with
    | some f, some res =>
      some { s with
        filter := some { f with lastPoll := s.now }
        calls := s.calls.eraseIdx i
        returned := s.returned ++ [res] }
    | _, _ => none

/-- A run of events; none when one of them cannot happen. -/
def System.runEvents (s : System) : List Event → Option System
  | [] => some s
  | e :: es => (s.event e).bind fun s' => s'.runEvents es

theorem System.runEvents_append (s : System) (es₁ es₂ : List Event) :
    s.runEvents (es₁ ++ es₂) = (s.runEvents es₁).bind fun s' => s'.runEvents es₂ := by
  induction es₁ generalizing s with
  | nil => rfl
  | cons e es₁ ih =>
    simp only [List.cons_append, System.runEvents, Option.bind_assoc]
    congr 1
    funext s'
    exact ih s'

/-! ## What every run keeps -/

/-- `LastPoll` is never ahead of the clock. -/
def Inv (s : System) : Prop :=
  ∀ f ∈ s.filter, f.lastPoll ≤ s.now

theorem inv_init : Inv System.init := by
  simp [Inv, System.init]

theorem Inv.event {s s' : System} (hi : Inv s) {e : Event} (he : s.event e = some s') :
    Inv s' := by
  cases e with
  | tick =>
    cases he
    intro f hf
    have := hi f hf
    simp only at this ⊢
    omega
  | addL2Block blockHash logs =>
    simp only [System.event, Option.ite_none_left_eq_some, Option.some.injEq] at he
    obtain ⟨-, rfl⟩ := he
    exact hi
  | commit blockHash =>
    simp only [System.event, Option.ite_none_right_eq_some, Option.some.injEq] at he
    obtain ⟨-, rfl⟩ := he
    exact hi
  | newFilter type =>
    simp only [System.event] at he
    split at he
    · cases he
    · cases he
      simp [Inv]
  | readChanges =>
    simp only [System.event] at he
    split at he
    · cases he
      exact hi
    · cases he
  | updateFilterLastPoll i =>
    simp only [System.event] at he
    split at he
    · cases he
      simp [Inv]
    · cases he

theorem Inv.runEvents {s s' : System} (hi : Inv s) {es : List Event}
    (hrun : s.runEvents es = some s') : Inv s' := by
  induction es generalizing s with
  | nil =>
    cases hrun
    exact hi
  | cons e es ih =>
    obtain ⟨s'', hnext, hrest⟩ := Option.bind_eq_some_iff.mp hrun
    exact ih (hi.event hnext) hrest

/-! ## A block stamped before `LastPoll` -/

/-- The rows of a block keep their stamps through a commit. -/
theorem exists_of_mem_commitRows {rows : List L2BlockRow} {b : ℕ} {r : L2BlockRow}
    (hr : r ∈ commitRows rows b) :
    ∃ r₀ ∈ rows, r.blockHash = r₀.blockHash ∧ r.createdAt = r₀.createdAt := by
  obtain ⟨r₀, hr₀, rfl⟩ := List.mem_map.mp hr
  refine ⟨r₀, hr₀, ?_⟩
  split_ifs <;> exact ⟨rfl, rfl⟩

/-- A commit keeps every block stored. -/
theorem stored_commitRows {rows : List L2BlockRow} {b h : ℕ} (hstored : ∃ r ∈ rows, r.blockHash = h) :
    ∃ r ∈ commitRows rows b, r.blockHash = h := by
  obtain ⟨r, hr, rfl⟩ := hstored
  refine ⟨_, List.mem_map_of_mem hr, ?_⟩
  split_ifs <;> rfl

/-- A commit of `h` commits every row of `h`. -/
theorem committed_of_mem_commitRows {rows : List L2BlockRow} {h : ℕ} {r : L2BlockRow}
    (hr : r ∈ commitRows rows h) (hrh : r.blockHash = h) : r.committed = true := by
  obtain ⟨r₀, -, rfl⟩ := List.mem_map.mp hr
  split_ifs at hrh ⊢ with h₀
  · rfl
  · exact absurd hrh h₀

/-- Block `h` is lost to the filter: it is stored, each of its rows is
stamped before `LastPoll`, and no call in flight read it. -/
structure Lost (h : ℕ) (s : System) : Prop where
  stored : ∃ r ∈ s.rows, r.blockHash = h
  stale : ∃ f, s.filter = some f ∧ ∀ r ∈ s.rows, r.blockHash = h → r.createdAt < f.lastPoll
  notInFlight : ∀ c ∈ s.calls, ∀ x ∈ c, x.block ≠ h

/-- A poll of a lost block does not read it. -/
theorem Lost.not_mem_getFilterChanges {h : ℕ} {s : System} (hl : Lost h s) {f : Filter}
    (hf : s.filter = some f) {x : Change} (hx : x ∈ getFilterChanges s.rows f) : x.block ≠ h := by
  obtain ⟨r, hr, -, hsince, hblock⟩ := exists_row_of_mem_getFilterChanges hx
  obtain ⟨f', hf', hstale⟩ := hl.stale
  rw [hf] at hf'
  cases hf'
  intro hxh
  have := hstale r hr (hblock ▸ hxh)
  omega

/-- **Every event keeps a block lost**, and a call that returns in it
returns nothing of the block. -/
theorem Lost.event {h : ℕ} {s s' : System} (hi : Inv s) (hl : Lost h s) {e : Event}
    (he : s.event e = some s') :
    Lost h s' ∧ ∃ res, s'.returned = s.returned ++ res ∧ ∀ c ∈ res, ∀ x ∈ c, x.block ≠ h := by
  cases e with
  | tick =>
    cases he
    exact ⟨⟨hl.stored, hl.stale, hl.notInFlight⟩, [], by simp, by simp⟩
  | addL2Block blockHash logs =>
    simp only [System.event, Option.ite_none_left_eq_some, Option.some.injEq] at he
    obtain ⟨hnew, rfl⟩ := he
    -- the block inserted is another block, since `h` is stored
    have hne : blockHash ≠ h := by
      rintro rfl
      obtain ⟨r, hr, hrh⟩ := hl.stored
      exact hnew (List.any_eq_true.mpr ⟨r, hr, by simp [hrh]⟩)
    obtain ⟨f, hf, hstale⟩ := hl.stale
    refine ⟨⟨?_, ⟨f, hf, ?_⟩, hl.notInFlight⟩, [], by simp, by simp⟩
    · obtain ⟨r, hr, hrh⟩ := hl.stored
      exact ⟨r, List.mem_append_left _ hr, hrh⟩
    · intro r hr hrh
      rcases List.mem_append.mp hr with hr | hr
      · exact hstale r hr hrh
      · rw [List.mem_singleton] at hr
        subst hr
        exact absurd hrh hne
  | commit blockHash =>
    simp only [System.event, Option.ite_none_right_eq_some, Option.some.injEq] at he
    obtain ⟨-, rfl⟩ := he
    obtain ⟨f, hf, hstale⟩ := hl.stale
    refine ⟨⟨stored_commitRows hl.stored, ⟨f, hf, ?_⟩, hl.notInFlight⟩, [], by simp, by simp⟩
    intro r hr hrh
    obtain ⟨r₀, hr₀, hhash, hcreated⟩ := exists_of_mem_commitRows hr
    rw [hcreated]
    exact hstale r₀ hr₀ (hhash ▸ hrh)
  | newFilter type =>
    obtain ⟨f, hf, -⟩ := hl.stale
    simp [System.event, hf] at he
  | readChanges =>
    obtain ⟨f, hf, hstale⟩ := hl.stale
    simp only [System.event, hf, Option.some.injEq] at he
    subst he
    refine ⟨⟨hl.stored, ⟨f, rfl, hstale⟩, ?_⟩, [], by simp, by simp⟩
    intro c hc x hx
    rcases List.mem_append.mp hc with hc | hc
    · exact hl.notInFlight c hc x hx
    · rw [List.mem_singleton] at hc
      subst hc
      exact hl.not_mem_getFilterChanges hf hx
  | updateFilterLastPoll i =>
    obtain ⟨f, hf, hstale⟩ := hl.stale
    cases hres : s.calls[i]? with
    | none => simp [System.event, hf, hres] at he
    | some res =>
      simp only [System.event, hf, hres, Option.some.injEq] at he
      subst he
      -- `LastPoll` moves to the clock, which is not behind it
      have hpoll : f.lastPoll ≤ s.now := hi f hf
      have hnotres : ∀ x ∈ res, x.block ≠ h :=
        hl.notInFlight res (List.mem_of_getElem? hres)
      refine ⟨⟨hl.stored, ⟨_, rfl, fun r hr hrh => ?_⟩, ?_⟩, [res], rfl, by simpa using hnotres⟩
      · have := hstale r hr hrh
        simp only
        omega
      · intro c hc
        exact hl.notInFlight c (List.mem_of_mem_eraseIdx hc)

/-- **A lost block is never returned**: in every continuation of the run,
the block stays lost and no call returns anything of it. -/
theorem Lost.runEvents {h : ℕ} {s s' : System} (hi : Inv s) (hl : Lost h s) {es : List Event}
    (hrun : s.runEvents es = some s') :
    Lost h s' ∧ ∃ res, s'.returned = s.returned ++ res ∧ ∀ c ∈ res, ∀ x ∈ c, x.block ≠ h := by
  induction es generalizing s with
  | nil =>
    cases hrun
    exact ⟨hl, [], by simp, by simp⟩
  | cons e es ih =>
    obtain ⟨s'', hnext, hrest⟩ := Option.bind_eq_some_iff.mp hrun
    obtain ⟨hl'', res₁, hret₁, hres₁⟩ := hl.event hi hnext
    obtain ⟨hl', res₂, hret₂, hres₂⟩ := ih (hi.event hnext) hl'' hrest
    refine ⟨hl', res₁ ++ res₂, by rw [hret₂, hret₁, List.append_assoc], ?_⟩
    intro c hc
    rcases List.mem_append.mp hc with hc | hc
    · exact hres₁ c hc
    · exact hres₂ c hc

/-! ## A poll between the stamp and the commit -/

/-- **A poll that reads before the storing transaction commits loses the
block**, when it updates `LastPoll` after the clock passed the block's
stamp: the read does not see the row, the update moves `LastPoll` past the
stamp, and the commit that follows comes too late for every later read. -/
theorem poll_before_commit_loses_block {h : ℕ} {s s' : System} (hf : s.filter.isSome)
    (hstored : ∃ r ∈ s.rows, r.blockHash = h)
    (hpending : ∀ r ∈ s.rows, r.blockHash = h → r.committed = false ∧ r.createdAt < s.now)
    (hcalls : ∀ c ∈ s.calls, ∀ x ∈ c, x.block ≠ h)
    (hrun : s.runEvents [.readChanges, .updateFilterLastPoll s.calls.length, .commit h] = some s') :
    Lost h s' ∧ (∀ r ∈ s'.rows, r.blockHash = h → r.committed = true) ∧
      ∃ res, s'.returned = s.returned ++ [res] ∧ ∀ x ∈ res, x.block ≠ h := by
  obtain ⟨f, hf⟩ := Option.isSome_iff_exists.mp hf
  -- the read sees no row of `h`, none being committed
  have hread : ∀ x ∈ getFilterChanges s.rows f, x.block ≠ h := by
    intro x hx hxh
    obtain ⟨r, hr, hcommitted, -, hblock⟩ := exists_row_of_mem_getFilterChanges hx
    have := (hpending r hr (hblock ▸ hxh)).1
    simp [hcommitted] at this
  have hopen : s.rows.any (fun r => r.blockHash == h && !r.committed) = true := by
    obtain ⟨r, hr, hrh⟩ := hstored
    exact List.any_eq_true.mpr ⟨r, hr, by simp [hrh, (hpending r hr hrh).1]⟩
  simp only [System.runEvents, System.event, hf, Option.bind_some, List.getElem?_concat_length,
    hopen, if_true] at hrun
  cases hrun
  refine ⟨⟨stored_commitRows hstored, ⟨_, rfl, fun r hr hrh => ?_⟩, ?_⟩,
    fun r hr hrh => committed_of_mem_commitRows hr hrh, _, rfl, hread⟩
  · obtain ⟨r₀, hr₀, hhash, hcreated⟩ := exists_of_mem_commitRows hr
    rw [hcreated]
    exact (hpending r₀ hr₀ (hhash ▸ hrh)).2
  · simpa [List.eraseIdx_append_of_length_le] using hcalls

/-- The filter installed at 0 and block 1, with one log, stored at 1; a
poll that reads at 2, before the block's transaction commits, and updates
`LastPoll` at 2; then the commit. -/
def missedBlockRun (type : FilterType) : List Event :=
  [.newFilter type, .tick, .addL2Block 1 [⟨0, []⟩], .tick, .readChanges,
    .updateFilterLastPoll 0, .commit 1]

/-- Block 1 stored and committed with the clock at 0, and two polls with
the clock still at 0: each reads `created_at >= LastPoll` at equal
readings. -/
def repeatedBlockRun : List Event :=
  [.newFilter .block, .addL2Block 1 [], .commit 1, .readChanges, .updateFilterLastPoll 0,
    .readChanges, .updateFilterLastPoll 0]

theorem getFilterChanges_not_exactly_once (type : FilterType) :
    (∃ s, System.init.runEvents (missedBlockRun type) = some s ∧
      (∀ r ∈ s.rows, r.blockHash = 1 → r.committed = true) ∧
      ∀ es s', s.runEvents es = some s' → ∀ c ∈ s'.returned, ∀ x ∈ c, x.block ≠ 1) ∧
    (System.init.runEvents repeatedBlockRun).map (·.returned) =
      some [[.blockHash 1], [.blockHash 1]] := by
  refine ⟨?_, rfl⟩
  -- the filter installed at 0, block 1 stamped at 1 and not committed, the clock at 2
  have hpre : System.init.runEvents [.newFilter type, .tick, .addL2Block 1 [⟨0, []⟩], .tick] =
      some ⟨2, [⟨1, 1, false, [⟨0, []⟩]⟩], some ⟨type, 0⟩, [], []⟩ := rfl
  obtain ⟨s, hs⟩ : ∃ s, System.init.runEvents (missedBlockRun type) = some s := ⟨_, rfl⟩
  have hwindow : (⟨2, [⟨1, 1, false, [⟨0, []⟩]⟩], some ⟨type, 0⟩, [], []⟩ : System).runEvents
      [.readChanges, .updateFilterLastPoll 0, .commit 1] = some s := by
    rw [show missedBlockRun type = [.newFilter type, .tick, .addL2Block 1 [⟨0, []⟩], .tick] ++
      [.readChanges, .updateFilterLastPoll 0, .commit 1] from rfl, System.runEvents_append,
      hpre] at hs
    exact hs
  obtain ⟨hlost, hcommitted, res, hret, hres⟩ := @poll_before_commit_loses_block 1
    ⟨2, [⟨1, 1, false, [⟨0, []⟩]⟩], some ⟨type, 0⟩, [], []⟩ s rfl
    ⟨_, List.mem_singleton_self _, rfl⟩ (by simp) (by simp) hwindow
  refine ⟨s, hs, hcommitted, fun es s' hrun c hc => ?_⟩
  obtain ⟨-, more, hret', hmore⟩ := hlost.runEvents (inv_init.runEvents hs) hrun
  rw [hret', hret, List.nil_append, List.singleton_append, List.mem_cons] at hc
  rcases hc with rfl | hc
  · exact hres
  · exact hmore c hc

end JsonRpc

end XLayerNode
