import XLayerNode.Common.Outcome
import Mathlib.Data.List.Sort
/-!
# The L1 block-hash checker

`CheckL1BlockHash.Step` walks the blocks of `state.block` that are not
checked yet, from the oldest, up to the safe L1 block: for each it asks L1
for the header at its number, reports a reorg when the hashes differ, and
marks it checked otherwise. `doAllBlocks` finds the next block with
`GetFirstUncheckedBlock` from the number of the one it just checked.

The storage is the table and the outcomes of its calls: each call of
`GetFirstUncheckedBlock` or `UpdateCheckedBlockByNumber` takes the next
entry of `faults`, an error or nothing, and does its work when it takes
nothing (or the list is empty). L1 is a header oracle, a hash, a nil
header or an error for each number.

On any error of `GetFirstUncheckedBlock` but not-found, the storage
returns a zero-filled block with the error, and `doAllBlocks` does not
look at the error: it checks block 0. A reorg is then reported at block 0,
which need not be in the table, and the error of the database is lost
(`doAllBlocks_checks_zero_block_on_error`).
-/

namespace XLayerNode

namespace Synchronizer

namespace L1CheckBlock

variable {α : Type}

/-- `state.Block`: number, hash and checked flag. -/
structure Block (α : Type) where
  blockNumber : ℕ
  blockHash : α
  checked : Bool
  deriving DecidableEq, Repr

/-- The errors of the storage. -/
inductive DbError where
  /-- `state.ErrNotFound`. -/
  | notFound
  /-- Any other error of a query. -/
  | other (code : ℕ)
  deriving DecidableEq, Repr

/-- The errors `Step` returns. -/
inductive CheckError where
  | db (e : DbError)
  /-- An error of `HeaderByNumber` or of `GetSafeBlockNumber`. -/
  | l1 (code : ℕ)
  /-- "request of block: %d to L1 returns a nil" -/
  | nilHeader (blockNumber : ℕ)
  /-- `common.NewReorgError` at a block. -/
  | reorg (blockNumber : ℕ)
  deriving DecidableEq, Repr

/-- `state.block` and the outcomes of the calls to come. -/
structure Storage (α : Type) where
  blocks : List (Block α)
  faults : List (Option ℕ)
  deriving DecidableEq, Repr

variable (zeroHash : α)

/-- The `state.Block` a failed `Scan` leaves: every field zero. -/
def zeroBlock : Block α := ⟨0, zeroHash, false⟩

namespace Storage

/-- The outcome of the next call, and the storage after taking it. -/
def takeFault (p : Storage α) : Option ℕ × Storage α :=
  match p.faults with
  | [] => (none, p)
  | f :: faults => (f, { p with faults := faults })

/-- `SELECT … FROM state.block WHERE block_num >= $1 AND checked = false
ORDER BY block_num LIMIT 1`. -/
def firstUnchecked (p : Storage α) (fromBlockNumber : ℕ) : Option (Block α) :=
  ((p.blocks.filter fun b => fromBlockNumber ≤ b.blockNumber && !b.checked).insertionSort
    fun a b => a.blockNumber ≤ b.blockNumber).head?

/-- `GetFirstUncheckedBlock`: the block and the error it returns; with
`ErrNotFound` the block is nil and never read, with another error it is
the zero-filled one. -/
def getFirstUncheckedBlock (p : Storage α) (fromBlockNumber : ℕ) :
    Storage α × Block α × Option DbError :=
  match p.takeFault with
  | (some code, p) => (p, zeroBlock zeroHash, some (.other code))
  | (none, p) =>
    match p.firstUnchecked fromBlockNumber with
    | some block => (p, block, none)
    | none => (p, zeroBlock zeroHash, some .notFound)

/-- `UPDATE state.block SET checked = $1 WHERE block_num = $2`. -/
def updateCheckedBlockByNumber (p : Storage α) (blockNumber : ℕ) (newCheckedStatus : Bool) :
    Storage α × Option DbError :=
  match p.takeFault with
  | (some code, p) => (p, some (.other code))
  | (none, p) =>
    ({ p with blocks := p.blocks.map fun b =>
        if b.blockNumber = blockNumber then { b with checked := newCheckedStatus } else b }, none)

end Storage

variable [DecidableEq α] (headerByNumber : ℕ → Except ℕ (Option α))

/-- `CheckBlockHash`: the header of L1 at the block's number against the
block's hash. -/
def checkBlockHash (stateBlock : Block α) : Option CheckError :=
  match headerByNumber stateBlock.blockNumber with
  | .error code => some (.l1 code)
  | .ok none => some (.nilHeader stateBlock.blockNumber)
  | .ok (some l1BlockHash) =>
    if l1BlockHash ≠ stateBlock.blockHash then some (.reorg stateBlock.blockNumber) else none

/-- `doBlock`: check the block, then mark it checked. -/
def doBlock (p : Storage α) (stateBlock : Block α) : Storage α × Option CheckError :=
  match checkBlockHash headerByNumber stateBlock with
  | some err => (p, some err)
  | none =>
    match p.updateCheckedBlockByNumber stateBlock.blockNumber true with
    | (p, some e) => (p, some (.db e))
    | (p, none) => (p, none)

/-- `doAllBlocks`, with fuel for its loop; none when the fuel runs out. -/
def doAllBlocks (safeBlockNumber : ℕ) :
    ℕ → Storage α → Block α → Option (Storage α × Option CheckError)
  | 0, _, _ => none
  | fuel + 1, p, stateBlock =>
    let lastStateBlockNumber := stateBlock.blockNumber
    if stateBlock.blockNumber > safeBlockNumber then some (p, none)
    else
      match doBlock headerByNumber p stateBlock with
      | (p, some err) => some (p, some err)
      | (p, none) =>
        match p.getFirstUncheckedBlock zeroHash lastStateBlockNumber with
        | (p, _, some .notFound) => some (p, none)
        -- any other error is not looked at: the loop goes on with the block returned
        | (p, stateBlock, _) => doAllBlocks safeBlockNumber fuel p stateBlock

/-- `Step`, given what `GetSafeBlockNumber` returns. -/
def step (safeBlockNumber : Except ℕ ℕ) (fuel : ℕ) (p : Storage α) :
    Option (Storage α × Option CheckError) :=
  match p.getFirstUncheckedBlock zeroHash 0 with
  | (p, _, some .notFound) => some (p, none)
  | (p, _, some e) => some (p, some (.db e))
  | (p, stateBlock, none) =>
    match safeBlockNumber with
    | .error code => some (p, some (.l1 code))
    | .ok safeBlockNumber => doAllBlocks zeroHash headerByNumber safeBlockNumber fuel p stateBlock

/-! ## An error of the query -/

section

variable {zeroHash headerByNumber}

theorem checkBlockHash_zeroBlock {l1BlockHash : α} (hzero : headerByNumber 0 = .ok (some l1BlockHash))
    (hne : l1BlockHash ≠ zeroHash) :
    checkBlockHash headerByNumber (zeroBlock zeroHash) = some (.reorg 0) := by
  simp [checkBlockHash, zeroBlock, hzero, hne]

/-- **An error of `GetFirstUncheckedBlock` turns into a check of block
0**: after a block is checked and marked, if the query for the next one
fails with an error other than not-found, `doAllBlocks` goes on with the
zero-filled block; with L1's hash at 0 other than the zero hash it returns
a reorg at block 0, and not the error of the database. -/
theorem doAllBlocks_checks_zero_block_on_error (p : Storage α) (stateBlock : Block α)
    (safeBlockNumber fuel code : ℕ) (l1BlockHash : α)
    (hsafe : stateBlock.blockNumber ≤ safeBlockNumber)
    (hcheck : checkBlockHash headerByNumber stateBlock = none)
    (hfaults : p.faults = [none, some code])
    (hzero : headerByNumber 0 = .ok (some l1BlockHash)) (hne : l1BlockHash ≠ zeroHash) :
    (doAllBlocks zeroHash headerByNumber safeBlockNumber (fuel + 2) p stateBlock).map Prod.snd =
      some (some (.reorg 0)) := by
  have htake : p.takeFault = (none, { p with faults := [some code] }) := by
    simp [Storage.takeFault, hfaults]
  rw [doAllBlocks, if_neg (Nat.not_lt.mpr hsafe)]
  simp only [doBlock, hcheck, Storage.updateCheckedBlockByNumber, htake]
  simp only [Storage.getFirstUncheckedBlock, Storage.takeFault]
  rw [doAllBlocks, if_neg (by simp [zeroBlock])]
  simp only [doBlock, checkBlockHash_zeroBlock hzero hne]
  rfl

/-- **`Step` reports a reorg at block 0 for an error of the database**:
when the first unchecked block is safe and matches L1, and the query for
the next one fails, `Step` returns a reorg at block 0, whether or not
block 0 is in the table, and never the error. -/
theorem step_reports_reorg_at_zero_on_error (p : Storage α) (stateBlock : Block α)
    (safeBlockNumber fuel code : ℕ) (l1BlockHash : α)
    (hfirst : p.firstUnchecked 0 = some stateBlock)
    (hsafe : stateBlock.blockNumber ≤ safeBlockNumber)
    (hcheck : checkBlockHash headerByNumber stateBlock = none)
    (hfaults : p.faults = [none, none, some code])
    (hzero : headerByNumber 0 = .ok (some l1BlockHash)) (hne : l1BlockHash ≠ zeroHash) :
    (step zeroHash headerByNumber (.ok safeBlockNumber) (fuel + 2) p).map Prod.snd =
      some (some (.reorg 0)) := by
  have htake : p.takeFault = (none, { p with faults := [none, some code] }) := by
    simp [Storage.takeFault, hfaults]
  have hfirst' : Storage.firstUnchecked { p with faults := [none, some code] } 0 = some stateBlock :=
    hfirst
  simp only [step, Storage.getFirstUncheckedBlock, htake, hfirst']
  exact doAllBlocks_checks_zero_block_on_error _ stateBlock safeBlockNumber fuel code l1BlockHash
    hsafe hcheck rfl hzero hne

end

/-- A table of one unchecked block, 5, whose hash 7 L1 confirms; L1's
block 0 has hash 9. The first query and the update succeed, the next query
fails. -/
def oneBlockStorage : Storage ℕ := ⟨[⟨5, 7, false⟩], [none, none, some 1]⟩

/-- On `oneBlockStorage`, `Step` returns a reorg at block 0, which is not
in the table, instead of the database error. -/
theorem step_reports_reorg_at_zero_on_error_oneBlockStorage :
    (step 0 (fun n => .ok (some (if n = 5 then 7 else 9))) (.ok 10) 2 oneBlockStorage).map Prod.snd =
      some (some (.reorg 0)) ∧ ∀ b ∈ oneBlockStorage.blocks, b.blockNumber ≠ 0 :=
  ⟨step_reports_reorg_at_zero_on_error oneBlockStorage ⟨5, 7, false⟩ 10 0 1 9 (by decide)
    (by decide) (by decide) rfl rfl (by decide), by decide⟩

end L1CheckBlock

end Synchronizer

end XLayerNode
