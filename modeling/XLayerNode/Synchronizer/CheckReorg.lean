import Mathlib.Data.List.Basic
import Mathlib.Data.List.Chain
import XLayerNode.Synchronizer.AsyncCheck
/-!
# The reorg search

`newCheckReorg` compares a stored L1 block with L1's block of the same
number. While the two differ in hash or parent hash and the stored block is
above the genesis block, it takes the next older stored block, read at the
offset `depth` from the newest one (`GetPreviousBlock(depth)`), and asks L1
again. It returns nothing when the block it started from matched, the first
block that matched otherwise, and the oldest stored block when the table
runs out.

Each step down reads `GetPreviousBlock(depth)` in a database transaction
of its own; a database error, of the transaction, the query, the commit or
the rollback after a failed commit, stops the search with that error, and
only stops it: the search otherwise answers as over a database that answers
(`newCheckReorg_or_state`).

The offset counts from the newest stored block, not from the block the
search starts from: the walk checks that block, then the stored blocks from
the second newest on (`newCheckReorgLoop_spec`). When the stored blocks and
L1's are linked by parent hash and a hash names one block, L1 confirms the
stored blocks from some point down, so the walk, wherever it starts, resets
to the newest stored block L1 confirms (`checkReorg_resets_to_newest_valid`).

With background checkers, `CheckReorgWrapper` returns the older of the
search's block and the block before the lowest bad block the checkers
report, which is then below every reported bad block
(`checkReorgWrapper_below`).
-/

namespace XLayerNode

namespace Synchronizer

namespace ClientSynchronizer

variable {α ε : Type} [DecidableEq α]

/-- `state.Block` and `etherman.Block`, with the fields the search reads. -/
structure Block (α : Type) where
  blockNumber : ℕ
  blockHash : α
  parentHash : α
  deriving DecidableEq, Repr

/-- The errors `newCheckReorg` returns. -/
inductive ReorgError (ε : Type) where
  /-- An error of `EthBlockByNumber`. -/
  | ethBlockByNumber (e : ε)
  /-- "wrong ethereum block retrieved from blockchain. Block numbers don't
  match. BlockNumber stored: %d. BlockNumber retrieved: %d" -/
  | wrongBlockNumber (stored retrieved : ℕ)
  /-- An error of the state database: of `BeginStateTransaction`, of
  `GetPreviousBlock` other than `ErrNotFound`, of `Commit`, or of the
  `Rollback` after a failed commit. -/
  | state (e : ε)
  deriving DecidableEq, Repr

/-- The errors the state database gives the search, `none` for a nil error:
at each offset `depth` of the walk, of `BeginStateTransaction`, of
`GetPreviousBlock` other than `ErrNotFound`, of the transaction's `Commit`,
and of its `Rollback`; and of the `GetPreviousBlockToBlockNumber` of
`CheckReorgWrapper`. -/
structure DbErrors (ε : Type) where
  beginStateTransaction : ℕ → Option ε
  getPreviousBlock : ℕ → Option ε
  commit : ℕ → Option ε
  rollback : ℕ → Option ε
  getPreviousBlockToBlockNumber : Option ε

/-- The database answers every query of the search. -/
def DbErrors.Answers (db : DbErrors ε) : Prop :=
  (∀ depth, db.beginStateTransaction depth = none ∧ db.getPreviousBlock depth = none ∧ db.commit depth = none) ∧
    db.getPreviousBlockToBlockNumber = none

/-- A database that answers every query. -/
def DbErrors.none : DbErrors ε := ⟨fun _ => .none, fun _ => .none, fun _ => .none, fun _ => .none, .none⟩

theorem DbErrors.answers_none : (DbErrors.none : DbErrors ε).Answers :=
  ⟨fun _ => ⟨rfl, rfl, rfl⟩, rfl⟩

/-- The L1 block to compare `reorgedBlock` with: the one given, or the one
`EthBlockByNumber` returns for its number. -/
def l1Block (ethBlockByNumber : ℕ → Except ε (Block α)) (reorgedBlock : Block α) :
    Option (Block α) → Except (ReorgError ε) (Block α)
  | some block => .ok block
  | none =>
    match ethBlockByNumber reorgedBlock.blockNumber with
    | .error e => .error (.ethBlockByNumber e)
    | .ok b =>
      if b.blockNumber ≠ reorgedBlock.blockNumber then
        .error (.wrongBlockNumber reorgedBlock.blockNumber b.blockNumber)
      else .ok b

/-- The comparison of the loop: the stored block is bad when L1's block
differs from it in hash or parent hash and it is above the genesis block. -/
def isBad (genesis : ℕ) (block reorgedBlock : Block α) : Bool :=
  (block.blockHash != reorgedBlock.blockHash || block.parentHash != reorgedBlock.parentHash) &&
    decide (genesis < reorgedBlock.blockNumber)

/-- The step of the walk to the next older stored block:
`GetPreviousBlock(depth)` in a database transaction of its own, which is
committed before the answer is read. `none` when the table has no block at
that offset (`ErrNotFound`); a failed commit is rolled back, and the error
of the rollback, if any, is returned in place of the commit's. -/
def previousBlock (db : DbErrors ε) (stored : List (Block α)) (depth : ℕ) :
    Except (ReorgError ε) (Option (Block α)) :=
  match db.beginStateTransaction depth with
  | some err => .error (.state err)
  | .none =>
    match db.commit depth with
    | some errC =>
      match db.rollback depth with
      | some rollbackErr => .error (.state rollbackErr)
      | .none => .error (.state errC)
    | .none =>
      match db.getPreviousBlock depth with
      | some err => .error (.state err)
      | .none => .ok stored[depth]?

omit [DecidableEq α] in
/-- The block the step finds is the stored block at the offset. -/
theorem previousBlock_eq_ok {db : DbErrors ε} {stored : List (Block α)} {depth : ℕ} {r : Option (Block α)}
    (h : previousBlock db stored depth = .ok r) : r = stored[depth]? := by
  unfold previousBlock at h
  split at h
  · cases h
  · split at h
    · split at h <;> cases h
    · split at h
      · cases h
      · exact (Except.ok.inj h).symm

omit [DecidableEq α] in
/-- Over a database that answers, the step reads the stored block at the
offset. -/
theorem previousBlock_of_answers {db : DbErrors ε} (hdb : db.Answers) (stored : List (Block α)) (depth : ℕ) :
    previousBlock db stored depth = .ok stored[depth]? := by
  obtain ⟨hbegin, hget, hcommit⟩ := hdb.1 depth
  simp [previousBlock, hbegin, hget, hcommit]

/-- How the loop of `newCheckReorg` ends, with its `depth`. -/
inductive LoopExit (α : Type) where
  /-- `GetPreviousBlock(depth)` found nothing: "Reorg reached the genesis
  block". -/
  | genesisReached (reorgedBlock : Block α) (depth : ℕ)
  /-- The block matched L1, or is at or below the genesis block. -/
  | matched (reorgedBlock : Block α) (depth : ℕ)
  deriving DecidableEq, Repr

namespace LoopExit

def block : LoopExit α → Block α
  | genesisReached b _ => b
  | matched b _ => b

def depth : LoopExit α → ℕ
  | genesisReached _ d => d
  | matched _ d => d

def isMatched : LoopExit α → Bool
  | genesisReached _ _ => false
  | matched _ _ => true

/-- The L1 queries of a loop that started without a block, one for each
iteration: the loop adds one to `depth` before it finds the table empty. -/
def queries : LoopExit α → ℕ
  | genesisReached _ d => d
  | matched _ d => d + 1

omit [DecidableEq α] in
theorem queries_le_depth_add_one (x : LoopExit α) : x.queries ≤ x.depth + 1 := by
  cases x <;> simp [queries, depth]

end LoopExit

/-- The loop of `newCheckReorg` from `reorgedBlock` at `depth`, with the L1
block of the first iteration when the caller has one. `stored` is
`state.block` newest first, as `GetPreviousBlock(depth)` reads it. -/
def newCheckReorgLoop (ethBlockByNumber : ℕ → Except ε (Block α)) (db : DbErrors ε) (genesis : ℕ)
    (stored : List (Block α)) (reorgedBlock : Block α) (block : Option (Block α)) (depth : ℕ) :
    Except (ReorgError ε) (LoopExit α) :=
  match l1Block ethBlockByNumber reorgedBlock block with
  | .error e => .error e
  | .ok b =>
    if isBad genesis b reorgedBlock then
      match _hprev : previousBlock db stored (depth + 1) with
      | .error e => .error e
      -- `ErrNotFound`: "Reorg reached the genesis block"
      | .ok .none => .ok (.genesisReached reorgedBlock (depth + 1))
      | .ok (some lb) => newCheckReorgLoop ethBlockByNumber db genesis stored lb .none (depth + 1)
    else .ok (.matched reorgedBlock depth)
termination_by stored.length - depth
decreasing_by
  have := (List.getElem?_eq_some_iff.mp (previousBlock_eq_ok _hprev).symm).1
  omega

/-- One round of the loop, with the step to the next older block read as a
plain match on its answer. -/
theorem newCheckReorgLoop_eq (ethBlockByNumber : ℕ → Except ε (Block α)) (db : DbErrors ε) (genesis : ℕ)
    (stored : List (Block α)) (reorgedBlock : Block α) (block : Option (Block α)) (depth : ℕ) :
    newCheckReorgLoop ethBlockByNumber db genesis stored reorgedBlock block depth =
      match l1Block ethBlockByNumber reorgedBlock block with
      | .error e => .error e
      | .ok b =>
        if isBad genesis b reorgedBlock then
          match previousBlock db stored (depth + 1) with
          | .error e => .error e
          | .ok .none => .ok (.genesisReached reorgedBlock (depth + 1))
          | .ok (some lb) => newCheckReorgLoop ethBlockByNumber db genesis stored lb .none (depth + 1)
        else .ok (.matched reorgedBlock depth) := by
  rw [newCheckReorgLoop]
  split
  · rfl
  · split_ifs
    · split <;> rename_i hprev <;> rw [hprev]
    · rfl

/-- `newCheckReorg`: nothing when the block it starts from is confirmed,
the block to reset to otherwise. -/
def newCheckReorg (ethBlockByNumber : ℕ → Except ε (Block α)) (db : DbErrors ε) (genesis : ℕ)
    (stored : List (Block α)) (latestStoredBlock : Block α) (syncedBlock : Option (Block α)) :
    Except (ReorgError ε) (Option (Block α)) :=
  match newCheckReorgLoop ethBlockByNumber db genesis stored latestStoredBlock syncedBlock 0 with
  | .error e => .error e
  | .ok (.genesisReached reorgedBlock _) => .ok (some reorgedBlock)
  | .ok (.matched reorgedBlock _) =>
    if latestStoredBlock.blockHash ≠ reorgedBlock.blockHash then .ok (some reorgedBlock) else .ok none

/-! ## The database's errors -/

omit [DecidableEq α] in
/-- The database's errors: whatever it answers, the step to the next older
block reads what it reads over a database that answers, or stops with a
database error. -/
theorem previousBlock_or_state (db : DbErrors ε) (stored : List (Block α)) (depth : ℕ) :
    previousBlock db stored depth = previousBlock .none stored depth ∨
      ∃ e, previousBlock db stored depth = .error (.state e) := by
  rw [previousBlock_of_answers DbErrors.answers_none]
  unfold previousBlock
  split
  · next err _ => exact .inr ⟨err, rfl⟩
  · split
    · -- the commit failed: the error of the rollback, or of the commit
      split <;> exact .inr ⟨_, rfl⟩
    · split
      · next err _ => exact .inr ⟨err, rfl⟩
      · exact .inl rfl

/-- **A database error only stops the search.** Whatever the database
answers, the loop returns what it returns over a database that answers, or
a database error: no error of the database makes it reset elsewhere. -/
theorem newCheckReorgLoop_or_state (ethBlockByNumber : ℕ → Except ε (Block α)) (db : DbErrors ε)
    (genesis : ℕ) (stored : List (Block α)) (reorgedBlock : Block α) (block : Option (Block α)) (depth : ℕ) :
    newCheckReorgLoop ethBlockByNumber db genesis stored reorgedBlock block depth =
        newCheckReorgLoop ethBlockByNumber .none genesis stored reorgedBlock block depth ∨
      ∃ e, newCheckReorgLoop ethBlockByNumber db genesis stored reorgedBlock block depth = .error (.state e) := by
  induction hmeasure : stored.length - depth using Nat.strongRecOn generalizing reorgedBlock block depth with
  | ind n ih =>
    rw [newCheckReorgLoop_eq ethBlockByNumber db, newCheckReorgLoop_eq ethBlockByNumber .none,
      previousBlock_of_answers DbErrors.answers_none]
    cases l1Block ethBlockByNumber reorgedBlock block with
    | error e => exact .inl rfl
    | ok b =>
      dsimp only
      split_ifs
      · rcases previousBlock_or_state db stored (depth + 1) with heq | ⟨e, herr⟩
        · -- the database answered: both loops go on from the next stored block
          rw [heq, previousBlock_of_answers DbErrors.answers_none]
          cases hnext : stored[depth + 1]? with
          | none => exact .inl rfl
          | some lb =>
            have hlt := (List.getElem?_eq_some_iff.mp hnext).1
            exact ih (stored.length - (depth + 1)) (by omega) lb none (depth + 1) rfl
        · -- a database error stops the loop
          rw [herr]
          exact .inr ⟨e, rfl⟩
      · exact .inl rfl

/-- Whatever the database answers, `newCheckReorg` answers as it does over
a database that answers, or returns a database error. -/
theorem newCheckReorg_or_state (ethBlockByNumber : ℕ → Except ε (Block α)) (db : DbErrors ε) (genesis : ℕ)
    (stored : List (Block α)) (latestStoredBlock : Block α) (syncedBlock : Option (Block α)) :
    newCheckReorg ethBlockByNumber db genesis stored latestStoredBlock syncedBlock =
        newCheckReorg ethBlockByNumber .none genesis stored latestStoredBlock syncedBlock ∨
      ∃ e, newCheckReorg ethBlockByNumber db genesis stored latestStoredBlock syncedBlock = .error (.state e) := by
  unfold newCheckReorg
  rcases newCheckReorgLoop_or_state ethBlockByNumber db genesis stored latestStoredBlock syncedBlock 0 with
    heq | ⟨e, herr⟩
  · rw [heq]
    exact .inl rfl
  · rw [herr]
    exact .inr ⟨e, rfl⟩

end ClientSynchronizer

namespace L1CheckBlock

open ClientSynchronizer

variable {α ε : Type} [DecidableEq α]

/-- `getMergedResults`: the result of the checker and of the pre-checker;
of two reorgs, the one at the lower block. -/
def getMergedResults (result preResult : Option IterationResult) : Option IterationResult :=
  match preResult, result with
  | none, _ => result
  | some pre, none => some pre
  | some pre, some res =>
    if res.reorgDetected && pre.reorgDetected then
      if res.blockNumber < pre.blockNumber then some res else some pre
    else if pre.reorgDetected then some pre else some res

/-- `GetPreviousBlockToBlockNumber`: the newest stored block below
`blockNumber`. -/
def getPreviousBlockToBlockNumber (stored : List (ClientSynchronizer.Block α)) (blockNumber : ℕ) :
    Option (ClientSynchronizer.Block α) :=
  stored.find? (·.blockNumber < blockNumber)

/-- `CheckReorgWrapper`: the search's answer, or the block before the bad
block of the background checkers when it is older. `lookupError` is the
database error of `GetPreviousBlockToBlockNumber`, if any. -/
def checkReorgWrapper (lookupError : Option ε) (stored : List (ClientSynchronizer.Block α))
    (result preResult : Option IterationResult) (reorg : Except (ReorgError ε) (Option (ClientSynchronizer.Block α))) :
    Except (ReorgError ε) (Option (ClientSynchronizer.Block α)) :=
  match getMergedResults result preResult with
  | some resultBackground =>
    if resultBackground.reorgDetected then
      match lookupError, getPreviousBlockToBlockNumber stored resultBackground.blockNumber with
      -- the lookup failed, by a database error or by `ErrNotFound`: the values of the reorg function
      | some _, _ => reorg
      | none, none => reorg
      | none, some firstOkBlockBackgroundCheck =>
        match reorg with
        | .ok (some reorgFirstBlockOk) =>
          if firstOkBlockBackgroundCheck.blockNumber < reorgFirstBlockOk.blockNumber then
            .ok (some firstOkBlockBackgroundCheck)
          else reorg
        | _ => .ok (some firstOkBlockBackgroundCheck)
    else reorg
  | none => reorg

/-- The checker or the pre-checker reports a reorg in `r`. -/
def Reports (result preResult : Option IterationResult) (r : IterationResult) : Prop :=
  (result = some r ∨ preResult = some r) ∧ r.reorgDetected = true

/-- Of the results that report a reorg, `getMergedResults` keeps one at the
lowest block. -/
theorem getMergedResults_lowest {result preResult : Option IterationResult} {r : IterationResult}
    (hr : Reports result preResult r) :
    ∃ m, getMergedResults result preResult = some m ∧ m.reorgDetected = true ∧
      ∀ r', Reports result preResult r' → m.blockNumber ≤ r'.blockNumber := by
  obtain ⟨hsome, hbad⟩ := hr
  rcases result with _ | res <;> rcases preResult with _ | pre
  · simp at hsome
  · -- only the pre-checker has a result
    obtain rfl : pre = r := by simpa using hsome
    refine ⟨_, rfl, hbad, ?_⟩
    rintro r' ⟨hr', -⟩
    simp_all
  · obtain rfl : res = r := by simpa using hsome
    refine ⟨_, rfl, hbad, ?_⟩
    rintro r' ⟨hr', -⟩
    simp_all
  · -- both have a result: the lower of two reorgs, or the one reorg
    simp only [Reports, Option.some.injEq] at hsome ⊢
    unfold getMergedResults
    by_cases hres : res.reorgDetected = true <;> by_cases hpre : pre.reorgDetected = true
    · by_cases hlt : res.blockNumber < pre.blockNumber
      · refine ⟨res, by simp [hres, hpre, hlt], hres, ?_⟩
        rintro r' ⟨rfl | rfl, -⟩ <;> omega
      · refine ⟨pre, by simp [hres, hpre, hlt], hpre, ?_⟩
        rintro r' ⟨rfl | rfl, -⟩ <;> omega
    · refine ⟨res, by simp [hres, hpre], hres, ?_⟩
      rintro r' ⟨rfl | rfl, hr'⟩
      · exact Nat.le_refl _
      · exact absurd hr' hpre
    · refine ⟨pre, by simp [hres, hpre], hpre, ?_⟩
      rintro r' ⟨rfl | rfl, hr'⟩
      · exact absurd hr' hres
      · exact Nat.le_refl _
    · rcases hsome with rfl | rfl
      · exact absurd hbad hres
      · exact absurd hbad hpre

omit [DecidableEq α] in
/-- **Below the background reports**: when a checker reports a reorg and the
lookup of the block before it succeeds, `CheckReorgWrapper` returns a block
below every block a checker reports bad, whatever the search returned. -/
theorem checkReorgWrapper_below {lookupError : Option ε} {stored : List (ClientSynchronizer.Block α)}
    {result preResult : Option IterationResult}
    (hr : ∃ r, Reports result preResult r) (hlookupError : lookupError = none)
    (hlookup : ∀ m, getMergedResults result preResult = some m →
      (getPreviousBlockToBlockNumber stored m.blockNumber).isSome)
    (reorg : Except (ReorgError ε) (Option (ClientSynchronizer.Block α))) :
    ∃ b, checkReorgWrapper lookupError stored result preResult reorg = .ok (some b) ∧
      ∀ r, Reports result preResult r → b.blockNumber < r.blockNumber := by
  obtain ⟨r, hr⟩ := hr
  obtain ⟨m, hm, hbad, hlowest⟩ := getMergedResults_lowest hr
  obtain ⟨f, hf⟩ := Option.isSome_iff_exists.mp (hlookup m hm)
  -- the lookup's block is below the merged report
  have hfm : f.blockNumber < m.blockNumber := by
    unfold getPreviousBlockToBlockNumber at hf
    simpa using List.find?_some hf
  have hbelow : ∀ b : ClientSynchronizer.Block α, b.blockNumber ≤ f.blockNumber →
      ∀ r', Reports result preResult r' → b.blockNumber < r'.blockNumber :=
    fun b hb r' hr' => by have := hlowest r' hr'; omega
  unfold checkReorgWrapper
  rw [hm]
  dsimp only
  rw [if_pos hbad, hlookupError, hf]
  dsimp only
  split
  · next b =>
    -- the search found a block: the older of the two
    split_ifs with hlt
    · exact ⟨f, rfl, hbelow f (Nat.le_refl _)⟩
    · exact ⟨b, rfl, hbelow b (by omega)⟩
  · exact ⟨f, rfl, hbelow f (Nat.le_refl _)⟩

end L1CheckBlock

namespace ClientSynchronizer

variable {α ε : Type} [DecidableEq α]

/-- `checkReorg`: the search, passed through `CheckReorgWrapper` when
background checkers run (given by their last results). -/
def checkReorg (ethBlockByNumber : ℕ → Except ε (Block α)) (db : DbErrors ε) (genesis : ℕ)
    (stored : List (Block α))
    (asyncL1BlockChecker : Option (Option L1CheckBlock.IterationResult × Option L1CheckBlock.IterationResult))
    (latestBlock : Block α) (syncedBlock : Option (Block α)) : Except (ReorgError ε) (Option (Block α)) :=
  match asyncL1BlockChecker with
  | some (result, preResult) =>
    L1CheckBlock.checkReorgWrapper db.getPreviousBlockToBlockNumber stored result preResult
      (newCheckReorg ethBlockByNumber db genesis stored latestBlock syncedBlock)
  | none => newCheckReorg ethBlockByNumber db genesis stored latestBlock syncedBlock

/-! ## The walk -/

section Walk

variable (l1 : ℕ → Block α) (genesis : ℕ)

/-- L1 confirms the stored block, or it is at or below the genesis block. -/
def confirmed (b : Block α) : Bool := !isBad genesis (l1 b.blockNumber) b

variable {l1 genesis} {stored : List (Block α)} {db : DbErrors ε}

omit [DecidableEq α] in
theorem l1Block_none (hl1 : ∀ n, (l1 n).blockNumber = n) (reorgedBlock : Block α) :
    l1Block (fun n => .ok (l1 n) : ℕ → Except ε (Block α)) reorgedBlock none = .ok (l1 reorgedBlock.blockNumber) := by
  simp [l1Block, hl1]

variable (l1 genesis) in
/-- Where a walk over `blocks` stops: at the first block L1 confirms, or,
when there is none, at the last block. -/
def WalkStops (blocks : List (Block α)) (x : LoopExit α) : Prop :=
  (x.isMatched = true ∧ blocks.find? (confirmed l1 genesis) = some x.block) ∨
    (x.isMatched = false ∧ blocks.find? (confirmed l1 genesis) = none ∧ blocks.getLast? = some x.block)

/-- A walk stops where another stops that confirms the same first block and
ends with the same block. -/
theorem WalkStops.congr {blocks blocks' : List (Block α)} {x : LoopExit α}
    (hfind : blocks.find? (confirmed l1 genesis) = blocks'.find? (confirmed l1 genesis))
    (hlast : blocks.getLast? = blocks'.getLast?) (h : WalkStops l1 genesis blocks' x) : WalkStops l1 genesis blocks x := by
  unfold WalkStops
  rw [hfind, hlast]
  exact h

/-- **The walk**: with an L1 that answers, the loop from `reorgedBlock` at
`depth` checks `reorgedBlock` and then the stored blocks after the offset
`depth`, and stops at the first one L1 confirms, or at the last. -/
theorem newCheckReorgLoop_spec (hl1 : ∀ n, (l1 n).blockNumber = n) (hdb : db.Answers) (reorgedBlock : Block α)
    (depth : ℕ) :
    ∃ x, newCheckReorgLoop (fun n => .ok (l1 n) : ℕ → Except ε (Block α)) db genesis stored reorgedBlock none depth =
        .ok x ∧
      WalkStops l1 genesis (reorgedBlock :: stored.drop (depth + 1)) x ∧ x.depth ≤ max (depth + 1) stored.length := by
  induction hmeasure : stored.length - depth using Nat.strongRecOn generalizing reorgedBlock depth with
  | ind n ih =>
    -- the database answers: the step reads the stored block at the next offset
    rw [newCheckReorgLoop_eq, l1Block_none hl1, previousBlock_of_answers hdb]
    dsimp only
    by_cases hbad : isBad genesis (l1 reorgedBlock.blockNumber) reorgedBlock
    · -- the block is bad: the walk goes on from the next stored block
      have hnot : ¬ confirmed l1 genesis reorgedBlock = true := by simp [confirmed, hbad]
      rw [if_pos hbad]
      cases hnext : stored[depth + 1]? with
      | none =>
        have hdrop : stored.drop (depth + 1) = [] := List.drop_eq_nil_of_le (List.getElem?_eq_none_iff.mp hnext)
        refine ⟨_, rfl, .inr ⟨rfl, ?_, ?_⟩, ?_⟩
        · rw [hdrop, List.find?_cons_of_neg hnot]
          rfl
        · rw [hdrop]
          rfl
        · simp only [LoopExit.depth]
          omega
      | some lb =>
        obtain ⟨hlt, rfl⟩ := List.getElem?_eq_some_iff.mp hnext
        obtain ⟨x, hx, hstops, hdepth⟩ := ih (stored.length - (depth + 1)) (by omega) stored[depth + 1]
          (depth + 1) rfl
        refine ⟨x, hx, hstops.congr ?_ ?_, by omega⟩
        · rw [List.drop_eq_getElem_cons hlt, List.find?_cons_of_neg hnot]
        · rw [List.drop_eq_getElem_cons hlt, List.getLast?_cons_cons]
    · -- the block is confirmed: the walk stops here
      have hyes : confirmed l1 genesis reorgedBlock = true := by simp [confirmed, hbad]
      rw [if_neg hbad]
      refine ⟨_, rfl, .inl ⟨rfl, List.find?_cons_of_pos hyes⟩, ?_⟩
      simp only [LoopExit.depth]
      omega

variable (l1 genesis) in
/-- What the search answers for a walk from `latest`: nothing when the first
block L1 confirms has the hash of `latest`, that block otherwise, and the
last block of the walk when L1 confirms none. -/
def walkAnswer (latest : Block α) (blocks : List (Block α)) : Option (Block α) :=
  match blocks.find? (confirmed l1 genesis) with
  | some b => if latest.blockHash ≠ b.blockHash then some b else none
  | none => blocks.getLast?

/-- **`newCheckReorg` answers for the walk** from `latestStoredBlock` over
the stored blocks from the second newest on. -/
theorem newCheckReorg_eq_walkAnswer (hl1 : ∀ n, (l1 n).blockNumber = n) (hdb : db.Answers)
    (latestStoredBlock : Block α) :
    newCheckReorg (fun n => .ok (l1 n) : ℕ → Except ε (Block α)) db genesis stored latestStoredBlock none =
      .ok (walkAnswer l1 genesis latestStoredBlock (latestStoredBlock :: stored.drop 1)) := by
  obtain ⟨x, hx, hstops, -⟩ := @newCheckReorgLoop_spec α ε _ l1 genesis stored db hl1 hdb latestStoredBlock 0
  rw [newCheckReorg, hx]
  -- the exit of the loop is the stop of the walk
  rcases hstops with ⟨hmatched, hfind⟩ | ⟨hmatched, hfind, hlast⟩
  · cases x with
    | genesisReached b d => cases hmatched
    | matched b d =>
      simp only [walkAnswer, hfind, LoopExit.block]
      exact (apply_ite Except.ok _ _ _).symm
  · cases x with
    | genesisReached b d =>
      simp only [walkAnswer, hfind, hlast, LoopExit.block]
    | matched b d => cases hmatched

/-- `walkAnswer` reads the first confirmed block and the last block of the
walk only. -/
theorem walkAnswer_congr {latest : Block α} {blocks blocks' : List (Block α)}
    (hfind : blocks.find? (confirmed l1 genesis) = blocks'.find? (confirmed l1 genesis))
    (hlast : blocks.getLast? = blocks'.getLast?) :
    walkAnswer l1 genesis latest blocks = walkAnswer l1 genesis latest blocks' := by
  unfold walkAnswer
  rw [hfind, hlast]

/-- When L1 confirms neither the newest stored block nor the block the walk
starts from, the walk answers as the walk over the whole table. -/
theorem walkAnswer_of_unconfirmed {latest newest : Block α} {rest : List (Block α)}
    (hlatest : latest ∈ newest :: rest) (hnewest : ¬ confirmed l1 genesis newest = true)
    (hnot : ¬ confirmed l1 genesis latest = true) :
    walkAnswer l1 genesis latest (latest :: rest) = walkAnswer l1 genesis latest (newest :: rest) := by
  apply walkAnswer_congr
  · rw [List.find?_cons_of_neg hnot, List.find?_cons_of_neg hnewest]
  · cases rest with
    | nil => rw [List.mem_singleton.mp hlatest]
    | cons b bs => rw [List.getLast?_cons_cons, List.getLast?_cons_cons]

end Walk

/-! ## Parent-linked blocks -/

section Linked

variable {l1 : ℕ → Block α} {genesis : ℕ} {stored : List (Block α)}

/-- The stored blocks, newest first as `GetPreviousBlock` reads them: the
parent hash of each one is the hash of the next, which has a lower number. -/
def ParentLinked (stored : List (Block α)) : Prop :=
  stored.IsChain fun a b => a.parentHash = b.blockHash ∧ b.blockNumber < a.blockNumber

variable (l1) in
/-- A hash names one block among the stored blocks and L1's. -/
def HashesUnique (stored : List (Block α)) : Prop :=
  ∀ b c, (b ∈ stored ∨ ∃ n, b = l1 n) → (c ∈ stored ∨ ∃ n, c = l1 n) → b.blockHash = c.blockHash → b = c

omit [DecidableEq α] in
theorem HashesUnique.eq_l1 (h : HashesUnique l1 stored) {b : Block α} (hb : b ∈ stored) (n : ℕ)
    (hhash : (l1 n).blockHash = b.blockHash) : b = l1 n :=
  h b (l1 n) (.inl hb) (.inr ⟨n, rfl⟩) hhash.symm

omit [DecidableEq α] in
/-- The numbers of parent-linked blocks fall along the table. -/
theorem ParentLinked.pairwise (h : ParentLinked stored) :
    stored.Pairwise fun a b => b.blockNumber < a.blockNumber := by
  have hnums : (stored.map (·.blockNumber)).IsChain (· > ·) :=
    (List.isChain_map _).mpr (h.imp fun _ _ hab => hab.2)
  exact List.pairwise_map.mp hnums.pairwise

/-- **One step down the chain**: the block a confirmed block names as its
parent is confirmed. Above the genesis block the confirmed block is L1's, so
its parent hash is the hash of L1's block below, which is that block. -/
theorem confirmed_of_parent (hl1 : ∀ n, (l1 n).blockNumber = n)
    (hl1chain : ∀ n, (l1 (n + 1)).parentHash = (l1 n).blockHash) {a b : Block α}
    (hb : ∀ n, (l1 n).blockHash = b.blockHash → b = l1 n)
    (hab : a.parentHash = b.blockHash ∧ b.blockNumber < a.blockNumber)
    (ha : confirmed l1 genesis a = true) : confirmed l1 genesis b = true := by
  by_cases hgen : genesis < a.blockNumber
  · -- `a` is L1's block of its number, whose parent is L1's block below
    have hmatch : (l1 a.blockNumber).blockHash = a.blockHash ∧ (l1 a.blockNumber).parentHash = a.parentHash := by
      simpa [confirmed, isBad, hgen] using ha
    obtain ⟨m, hm⟩ : ∃ m, a.blockNumber = m + 1 := ⟨a.blockNumber - 1, by omega⟩
    have hbl1 : b = l1 m := hb m (by rw [← hl1chain m, ← hm, hmatch.2, hab.1])
    simp [confirmed, isBad, hbl1, hl1]
  · -- at or below the genesis block, and so is the block below
    have hbgen : ¬ genesis < b.blockNumber := by omega
    simp [confirmed, isBad, hbgen]

/-- **Confirmation runs down the chain**: when L1 confirms the newest of
parent-linked stored blocks, it confirms all of them. -/
theorem confirmed_of_confirmed_newest (hl1 : ∀ n, (l1 n).blockNumber = n)
    (hl1chain : ∀ n, (l1 (n + 1)).parentHash = (l1 n).blockHash) :
    ∀ {newest : Block α} {rest : List (Block α)}, ParentLinked (newest :: rest) →
      (∀ b ∈ rest, ∀ n, (l1 n).blockHash = b.blockHash → b = l1 n) →
      confirmed l1 genesis newest = true → ∀ c ∈ newest :: rest, confirmed l1 genesis c = true
  | _, [], _, _, hnewest, _, hc => by rw [List.mem_singleton.mp hc]; exact hnewest
  | newest, b :: bs, hchain, huniq, hnewest, c, hc => by
    rw [ParentLinked, List.isChain_cons_cons] at hchain
    have hb : confirmed l1 genesis b = true :=
      confirmed_of_parent hl1 hl1chain (huniq b List.mem_cons_self) hchain.1 hnewest
    rcases List.mem_cons.mp hc with rfl | hc
    · exact hnewest
    · exact confirmed_of_confirmed_newest hl1 hl1chain hchain.2
        (fun b' hb' => huniq b' (List.mem_cons_of_mem _ hb')) hb c hc

omit [DecidableEq α] in
/-- The first block a search down parent-linked blocks finds is the newest
one it could find. -/
theorem ParentLinked.le_of_find? (h : ParentLinked stored) {p : Block α → Bool} {b : Block α}
    (hb : stored.find? p = some b) {c : Block α} (hc : c ∈ stored) (hpc : p c = true) :
    c.blockNumber ≤ b.blockNumber := by
  obtain ⟨-, as, bs, rfl, has⟩ := List.find?_eq_some_iff_append.mp hb
  have hpair := h.pairwise
  rw [List.pairwise_append] at hpair
  rcases List.mem_append.mp hc with hc | hc
  · simpa [hpc] using has c hc
  · rcases List.mem_cons.mp hc with rfl | hc
    · exact Nat.le_refl _
    · exact Nat.le_of_lt (List.rel_of_pairwise_cons hpair.2.1 hc)

omit [DecidableEq α] in
/-- The oldest of parent-linked blocks has the lowest number. -/
theorem ParentLinked.le_of_getLast? (h : ParentLinked stored) {c : Block α} (hc : stored.getLast? = some c)
    {b : Block α} (hb : b ∈ stored) : c.blockNumber ≤ b.blockNumber := by
  obtain ⟨ys, rfl⟩ := List.getLast?_eq_some_iff.mp hc
  have hpair := h.pairwise
  rw [List.pairwise_append] at hpair
  rcases List.mem_append.mp hb with hb | hb
  · exact Nat.le_of_lt (hpair.2.2 b hb c List.mem_cons_self)
  · rw [List.mem_singleton.mp hb]

end Linked

/-! ## The reset block -/

section Reset

variable {l1 : ℕ → Block α} {genesis : ℕ} {stored : List (Block α)} {db : DbErrors ε}

/-- **The reset block**: over parent-linked stored blocks whose hashes name
single blocks, the search from any stored block answers nothing when L1
confirms that block, and otherwise the first stored block L1 confirms, or
the oldest one when L1 confirms none. -/
theorem newCheckReorg_eq_first_confirmed (hl1 : ∀ n, (l1 n).blockNumber = n)
    (hl1chain : ∀ n, (l1 (n + 1)).parentHash = (l1 n).blockHash) (hchain : ParentLinked stored)
    (huniq : HashesUnique l1 stored) (hdb : db.Answers) {latest : Block α} (hlatest : latest ∈ stored) :
    newCheckReorg (fun n => .ok (l1 n) : ℕ → Except ε (Block α)) db genesis stored latest none =
      .ok (if confirmed l1 genesis latest then none
        else (stored.find? (confirmed l1 genesis)).or stored.getLast?) := by
  rw [newCheckReorg_eq_walkAnswer hl1 hdb]
  obtain ⟨newest, rest, rfl⟩ := List.exists_cons_of_ne_nil (List.ne_nil_of_mem hlatest)
  rw [List.drop_one, List.tail_cons]
  by_cases hconf : confirmed l1 genesis latest = true
  · -- the walk stops at once, at the block it started from
    simp [walkAnswer, hconf]
  · -- L1 confirms no block above `latest`, the newest included
    have hnewest : ¬ confirmed l1 genesis newest = true := fun h =>
      hconf (confirmed_of_confirmed_newest hl1 hl1chain hchain
        (fun b hb n => huniq.eq_l1 (List.mem_cons_of_mem _ hb) n) h latest hlatest)
    rw [walkAnswer_of_unconfirmed hlatest hnewest hconf, if_neg hconf]
    unfold walkAnswer
    split
    · next b hb =>
      -- the block found is confirmed, so it is not `latest`, and its hash differs
      have hne : latest ≠ b := fun h => hconf (h ▸ List.find?_some hb)
      have hhash : latest.blockHash ≠ b.blockHash := fun h =>
        hne (huniq latest b (.inl hlatest) (.inl (List.mem_of_find?_eq_some hb)) h)
      rw [if_pos hhash, hb, Option.some_or]
    · next hnone => rw [hnone, Option.none_or]

/-- **The search resets to the newest valid block.** Over parent-linked
stored blocks and a parent-linked L1 whose hashes name single blocks, and a
database that answers, the search from any stored block makes at most one
L1 query more than there are stored blocks; it answers nothing exactly when
L1 confirms that block, and otherwise a stored block that L1 confirms, or
the oldest, with no such block above it. With background checkers, once a
checker reports a reorg and the block before it is found, `checkReorg`
returns a block below every reported bad block. -/
theorem checkReorg_resets_to_newest_valid (hl1 : ∀ n, (l1 n).blockNumber = n)
    (hl1chain : ∀ n, (l1 (n + 1)).parentHash = (l1 n).blockHash) (hchain : ParentLinked stored)
    (huniq : HashesUnique l1 stored) (hdb : db.Answers) {latest : Block α} (hlatest : latest ∈ stored) :
    (∃ x, newCheckReorgLoop (fun n => .ok (l1 n) : ℕ → Except ε (Block α)) db genesis stored latest none 0 = .ok x ∧
        x.queries ≤ stored.length + 1) ∧
    (∃ res, newCheckReorg (fun n => .ok (l1 n) : ℕ → Except ε (Block α)) db genesis stored latest none = .ok res ∧
      (res = none ↔ confirmed l1 genesis latest = true) ∧
      ∀ b, res = some b → b ∈ stored ∧ (confirmed l1 genesis b = true ∨ stored.getLast? = some b) ∧
        ∀ c ∈ stored, (confirmed l1 genesis c = true ∨ stored.getLast? = some c) →
          c.blockNumber ≤ b.blockNumber) ∧
    ∀ result preResult, (∃ r, L1CheckBlock.Reports result preResult r) →
      (∀ m, L1CheckBlock.getMergedResults result preResult = some m →
        (L1CheckBlock.getPreviousBlockToBlockNumber stored m.blockNumber).isSome) →
      ∃ b, checkReorg (fun n => .ok (l1 n) : ℕ → Except ε (Block α)) db genesis stored (some (result, preResult))
          latest none = .ok (some b) ∧
        ∀ r, L1CheckBlock.Reports result preResult r → b.blockNumber < r.blockNumber := by
  have hlen : 0 < stored.length := List.length_pos_of_mem hlatest
  refine ⟨?_, ⟨_, newCheckReorg_eq_first_confirmed hl1 hl1chain hchain huniq hdb hlatest, ?_, ?_⟩, ?_⟩
  · -- one query for the block the walk starts from and one for each stored block after it
    obtain ⟨x, hx, -, hdepth⟩ := @newCheckReorgLoop_spec α ε _ l1 genesis stored db hl1 hdb latest 0
    have hqueries := x.queries_le_depth_add_one
    exact ⟨x, hx, by omega⟩
  · by_cases hconf : confirmed l1 genesis latest = true
    · simp [hconf]
    · have hlast : stored.getLast? ≠ none := by
        rw [Ne, List.getLast?_eq_none_iff]
        exact List.ne_nil_of_mem hlatest
      rw [if_neg hconf]
      constructor
      · intro hnone
        exact absurd (Option.or_eq_none_iff.mp hnone).2 hlast
      · intro h
        exact absurd h hconf
  · intro b hb
    by_cases hconf : confirmed l1 genesis latest = true
    · simp [hconf] at hb
    rw [if_neg hconf] at hb
    rcases hfind : stored.find? (confirmed l1 genesis) with _ | f
    · -- L1 confirms no stored block: the oldest one
      rw [hfind, Option.none_or] at hb
      refine ⟨List.mem_of_getLast? hb, .inr hb, ?_⟩
      rintro c hc (hcc | hcl)
      · exact absurd hcc (List.find?_eq_none.mp hfind c hc)
      · exact hchain.le_of_getLast? hcl (List.mem_of_getLast? hb)
    · -- the first stored block L1 confirms
      rw [hfind, Option.some_or, Option.some.injEq] at hb
      subst hb
      refine ⟨List.mem_of_find?_eq_some hfind, .inl (List.find?_some hfind), ?_⟩
      rintro c hc (hcc | hcl)
      · exact hchain.le_of_find? hfind hc hcc
      · exact hchain.le_of_getLast? hcl (List.mem_of_find?_eq_some hfind)
  · intro result preResult hr hlookup
    exact L1CheckBlock.checkReorgWrapper_below hr hdb.2 hlookup _

/-- L1 whose block `n` has the hash `10 n`. -/
def l1Chain (n : ℕ) : Block ℕ := ⟨n, 10 * n, 10 * (n - 1)⟩

theorem l1Chain_parentHash (n : ℕ) : (l1Chain (n + 1)).parentHash = (l1Chain n).blockHash := by
  simp [l1Chain]

/-- Stored blocks after a reorg of blocks 2 and 3: block 1 is L1's. -/
def reorgedStored : List (Block ℕ) := [⟨3, 31, 21⟩, ⟨2, 21, 10⟩, ⟨1, 10, 0⟩]

theorem mem_reorgedStored {b : Block ℕ} :
    b ∈ reorgedStored ↔ b = ⟨3, 31, 21⟩ ∨ b = ⟨2, 21, 10⟩ ∨ b = ⟨1, 10, 0⟩ := by
  simp [reorgedStored]

/-- The stored hashes 31 and 21 are no hash of L1, and 10 is the hash of
L1's block 1, which is stored. -/
theorem hashesUnique_reorgedStored : HashesUnique l1Chain reorgedStored := by
  rintro b c (hb | ⟨n, rfl⟩) (hc | ⟨m, rfl⟩) hbc
  · rw [mem_reorgedStored] at hb hc
    rcases hb with rfl | rfl | rfl <;> rcases hc with rfl | rfl | rfl <;> simp_all
  · rw [mem_reorgedStored] at hb
    rcases hb with rfl | rfl | rfl <;> simp [l1Chain] at hbc ⊢ <;> omega
  · rw [mem_reorgedStored] at hc
    rcases hc with rfl | rfl | rfl <;> simp [l1Chain] at hbc ⊢ <;> omega
  · simp [l1Chain] at hbc ⊢
    omega

theorem checkReorg_resets_reorgedStored :
    ParentLinked reorgedStored ∧ HashesUnique l1Chain reorgedStored ∧ (DbErrors.none : DbErrors Unit).Answers ∧
    ((∃ x, newCheckReorgLoop (fun n => .ok (l1Chain n) : ℕ → Except Unit (Block ℕ)) .none 0 reorgedStored
          ⟨3, 31, 21⟩ none 0 = .ok x ∧ x.queries ≤ reorgedStored.length + 1) ∧
      (∃ res, newCheckReorg (fun n => .ok (l1Chain n) : ℕ → Except Unit (Block ℕ)) .none 0 reorgedStored
          ⟨3, 31, 21⟩ none = .ok res ∧
        (res = none ↔ confirmed l1Chain 0 ⟨3, 31, 21⟩ = true) ∧
        ∀ b, res = some b → b ∈ reorgedStored ∧ (confirmed l1Chain 0 b = true ∨ reorgedStored.getLast? = some b) ∧
          ∀ c ∈ reorgedStored, (confirmed l1Chain 0 c = true ∨ reorgedStored.getLast? = some c) →
            c.blockNumber ≤ b.blockNumber) ∧
      ∀ result preResult, (∃ r, L1CheckBlock.Reports result preResult r) →
        (∀ m, L1CheckBlock.getMergedResults result preResult = some m →
          (L1CheckBlock.getPreviousBlockToBlockNumber reorgedStored m.blockNumber).isSome) →
        ∃ b, checkReorg (fun n => .ok (l1Chain n) : ℕ → Except Unit (Block ℕ)) .none 0 reorgedStored
            (some (result, preResult)) ⟨3, 31, 21⟩ none = .ok (some b) ∧
          ∀ r, L1CheckBlock.Reports result preResult r → b.blockNumber < r.blockNumber) := by
  have hchain : ParentLinked reorgedStored := by
    simp [ParentLinked, reorgedStored]
  exact ⟨hchain, hashesUnique_reorgedStored, DbErrors.answers_none,
    checkReorg_resets_to_newest_valid (fun _ => rfl) l1Chain_parentHash hchain hashesUnique_reorgedStored
      DbErrors.answers_none (by simp [reorgedStored])⟩

end Reset


end ClientSynchronizer

end Synchronizer

end XLayerNode
