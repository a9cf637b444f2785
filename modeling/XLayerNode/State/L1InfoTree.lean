import XLayerNode.L1InfoTree.Incremental
import Mathlib.Data.List.Sort
/-!
# The L1 info tree cache of the state

`State` keeps the L1 info tree of the leaves of `state.exit_root` as a
cache, `l1InfoTree`. `buildL1InfoTreeCacheIfNeed` builds it from the table
when it is missing, `AddL1InfoTreeLeaf` adds a leaf to it before the row
goes to the table, and `ResetL1InfoTree` drops it: on a `Reset`, and on
the rollback of a `StateTx` that added a leaf.

The table is its rows with an L1 info tree index. A call reads and writes
them through a `StateTx`, whose view becomes the table on commit, or, with
no transaction, on the table itself. The insert of
`AddL1InfoRootToExitRoot` may fail, and whether it does is an argument,
`insertFails`. The other queries are taken to succeed.

The cache agrees with rows when it is missing or tracks their leaves in
index order (`CacheAgrees`). Without a transaction, a failed insert leaves
a leaf in the cache that is in no row: from then on every
`AddL1InfoTreeLeaf` fails (`addL1InfoTreeLeaf_without_tx_keeps_failed_leaf`).
-/

namespace XLayerNode

namespace State

/-- `state.GlobalExitRoot`. -/
structure GlobalExitRoot (α : Type) where
  blockNumber : ℕ
  timestamp : ℕ
  mainnetExitRoot : α
  rollupExitRoot : α
  globalExitRoot : α
  deriving DecidableEq, Repr

/-- `state.L1InfoTreeLeaf`. -/
structure L1InfoTreeLeaf (α : Type) where
  globalExitRoot : GlobalExitRoot α
  previousBlockHash : α
  deriving DecidableEq, Repr

/-- `state.L1InfoTreeExitRootStorageEntry`, a row of `state.exit_root`
with an L1 info tree index. -/
structure L1InfoTreeExitRootStorageEntry (α : Type) where
  l1InfoTreeLeaf : L1InfoTreeLeaf α
  l1InfoTreeRoot : α
  l1InfoTreeIndex : ℕ
  deriving DecidableEq, Repr

/-- `state.StateTx`: the rows as the transaction sees them, and whether a
leaf was added to the cache in it. -/
structure StateTx (α : Type) where
  exitRoot : List (L1InfoTreeExitRootStorageEntry α)
  l1InfoTreeModified : Bool
  deriving DecidableEq, Repr

/-- The errors of `AddL1InfoTreeLeaf` and `GetCurrentL1InfoRoot`. -/
inductive L1InfoStateError (α : Type) where
  /-- An error of the tree. -/
  | l1InfoTree (e : L1InfoTreeError α)
  /-- The insert of `AddL1InfoRootToExitRoot` failed. -/
  | addL1InfoRootToExitRoot
  deriving DecidableEq, Repr

end State

/-- `state.State`, the part the L1 info tree uses: the rows of the table
and the cache. -/
structure State (α : Type) where
  exitRoot : List (State.L1InfoTreeExitRootStorageEntry α)
  l1InfoTree : Option (L1InfoTree α)
  deriving DecidableEq, Repr

namespace State

open L1InfoTree MerkleTree

variable {α : Type}

/-! ## The code -/

/-- `L1InfoTreeLeaf.Hash`: `HashLeafData` of the global exit root, the
previous block hash and the timestamp. -/
def L1InfoTreeLeaf.hash (l : L1InfoTreeLeaf α) (hashLeafData : α → α → ℕ → α) : α :=
  hashLeafData l.globalExitRoot.globalExitRoot l.previousBlockHash l.globalExitRoot.timestamp

variable (hash : α → α → α) (zero : α) (hashLeafData : α → α → ℕ → α)

/-- `GetLatestIndex`: the largest index, none for `ErrNotFound`. -/
def getLatestIndex (rows : List (L1InfoTreeExitRootStorageEntry α)) : Option ℕ :=
  (rows.map (·.l1InfoTreeIndex)).max?

/-- `GetAllL1InfoRootEntries`: the rows `ORDER BY l1_info_tree_index`. -/
def getAllL1InfoRootEntries (rows : List (L1InfoTreeExitRootStorageEntry α)) :
    List (L1InfoTreeExitRootStorageEntry α) :=
  rows.insertionSort fun a b => a.l1InfoTreeIndex ≤ b.l1InfoTreeIndex

/-- `StateTx.SetL1InfoTreeModified`. -/
def StateTx.setL1InfoTreeModified (tx : StateTx α) : StateTx α :=
  { tx with l1InfoTreeModified := true }

/-- `BeginStateTransaction`. -/
def beginStateTransaction (s : State α) : StateTx α := ⟨s.exitRoot, false⟩

/-- The transaction's `Commit`: its rows become the table's. -/
def StateTx.commit (tx : StateTx α) (s : State α) : State α := { s with exitRoot := tx.exitRoot }

/-- `State.ResetL1InfoTree`: the cache is dropped. -/
def resetL1InfoTree (s : State α) : State α := { s with l1InfoTree := none }

/-- `StateTx.Rollback`: the transaction's rows are dropped, and the cache
too if a leaf was added to it. -/
def StateTx.rollback (tx : StateTx α) (s : State α) : State α :=
  if tx.l1InfoTreeModified then s.resetL1InfoTree else s

/-- The rows a call sees: its transaction's, or the table's. -/
def view (s : State α) : Option (StateTx α) → List (L1InfoTreeExitRootStorageEntry α)
  | some tx => tx.exitRoot
  | none => s.exitRoot

/-- `AddL1InfoRootToExitRoot` when the insert succeeds. -/
def addL1InfoRootToExitRoot (s : State α) (entry : L1InfoTreeExitRootStorageEntry α) :
    Option (StateTx α) → State α × Option (StateTx α)
  | some tx => (s, some { tx with exitRoot := tx.exitRoot ++ [entry] })
  | none => ({ s with exitRoot := s.exitRoot ++ [entry] }, none)

/-- `buildL1InfoTreeCacheIfNeed`. `s.l1InfoTree.ResetL1InfoTree` is called
on the nil cache, which it does not read. -/
def buildL1InfoTreeCacheIfNeed (s : State α) (dbTx : Option (StateTx α)) :
    Outcome (L1InfoStateError α) (State α) :=
  match s.l1InfoTree with
  | some _ => pure s
  | none => do
    let leaves := (getAllL1InfoRootEntries (s.view dbTx)).map (·.l1InfoTreeLeaf.hash hashLeafData)
    let mt ← (L1InfoTree.resetL1InfoTree hash zero s.l1InfoTree leaves).mapErr .l1InfoTree
    pure { s with l1InfoTree := some mt }

/-- `AddL1InfoTreeLeaf`: the state and the transaction after it, and the
entry it adds. -/
def addL1InfoTreeLeaf (s : State α) (l1InfoTreeLeaf : L1InfoTreeLeaf α)
    (dbTx : Option (StateTx α)) (insertFails : Bool) :
    State α × Option (StateTx α) × Outcome (L1InfoStateError α) (L1InfoTreeExitRootStorageEntry α) :=
  let newIndex := match getLatestIndex (s.view dbTx) with
    | some gerIndex => (gerIndex + 1) % 2 ^ 32
    | none => 0
  match s.buildL1InfoTreeCacheIfNeed hash zero hashLeafData dbTx with
  | .err e => (s, dbTx, .err e)
  | .panic => (s, dbTx, .panic)
  | .ok s =>
    match s.l1InfoTree with
    | none => (s, dbTx, .panic)
    | some mt =>
      match mt.addLeaf hash newIndex (l1InfoTreeLeaf.hash hashLeafData) with
      | .err e => (s, dbTx, .err (.l1InfoTree e))
      | .panic => (s, dbTx, .panic)
      | .ok (root, mt) =>
        -- the cache has the leaf before the row is inserted
        let s := { s with l1InfoTree := some mt }
        let dbTx := dbTx.map StateTx.setL1InfoTreeModified
        let entry : L1InfoTreeExitRootStorageEntry α := ⟨l1InfoTreeLeaf, root, newIndex⟩
        if insertFails then (s, dbTx, .err .addL1InfoRootToExitRoot)
        else
          let r := s.addL1InfoRootToExitRoot entry dbTx
          (r.1, r.2, .ok entry)

/-- `GetCurrentL1InfoRoot`. -/
def getCurrentL1InfoRoot (s : State α) (dbTx : Option (StateTx α)) :
    State α × Outcome (L1InfoStateError α) α :=
  match s.buildL1InfoTreeCacheIfNeed hash zero hashLeafData dbTx with
  | .err e => (s, .err e)
  | .panic => (s, .panic)
  | .ok s =>
    match s.l1InfoTree with
    | none => (s, .panic)
    | some mt => (s, .ok mt.getCurrentRootCountAndSiblings.1)

/-- `Reset` to an L1 block: `ResetToL1BlockNumber` deletes the blocks
after it, and with them their rows; then `ResetL1InfoTree`. -/
def reset (s : State α) (blockNumber : ℕ) :
    Option (StateTx α) → State α × Option (StateTx α)
  | some tx => (s.resetL1InfoTree, some { tx with
      exitRoot := tx.exitRoot.filter (·.l1InfoTreeLeaf.globalExitRoot.blockNumber ≤ blockNumber) })
  | none => ({ s with
      exitRoot := s.exitRoot.filter (·.l1InfoTreeLeaf.globalExitRoot.blockNumber ≤ blockNumber),
      l1InfoTree := none }, none)

/-! ## Agreement of the cache with rows -/

/-- The leaves of rows: their hashes in index order. -/
def leavesOf (rows : List (L1InfoTreeExitRootStorageEntry α)) : List α :=
  (getAllL1InfoRootEntries rows).map (·.l1InfoTreeLeaf.hash hashLeafData)

/-- The cache agrees with rows: there is none, or it tracks their leaves. -/
def CacheAgrees (s : State α) (rows : List (L1InfoTreeExitRootStorageEntry α)) : Prop :=
  ∀ mt, s.l1InfoTree = some mt → Tracks hash zero mt (leavesOf hashLeafData rows)

variable {hash zero hashLeafData}

theorem length_leavesOf (rows : List (L1InfoTreeExitRootStorageEntry α)) :
    (leavesOf hashLeafData rows).length = rows.length := by
  simp [leavesOf, getAllL1InfoRootEntries, (List.perm_insertionSort _ _).length_eq]

/-! ## The calls -/

variable {s : State α} {dbTx : Option (StateTx α)}

theorem buildL1InfoTreeCacheIfNeed_of_some {mt : L1InfoTree α} (h : s.l1InfoTree = some mt) :
    s.buildL1InfoTreeCacheIfNeed hash zero hashLeafData dbTx = .ok s := by
  rw [buildL1InfoTreeCacheIfNeed, h]
  rfl

variable (hash zero hashLeafData) in
/-- **A missing cache is built from the rows the call sees**, when they are
fewer than `2 ^ 32`. -/
theorem buildL1InfoTreeCacheIfNeed_of_none (h : s.l1InfoTree = none)
    (hlen : (s.view dbTx).length < 2 ^ 32) :
    ∃ mt, s.buildL1InfoTreeCacheIfNeed hash zero hashLeafData dbTx =
        .ok { s with l1InfoTree := some mt } ∧ mt.height = 32 ∧
      Tracks hash zero mt (leavesOf hashLeafData (s.view dbTx)) := by
  obtain ⟨mt, hnew, hheight, ht⟩ := newL1InfoTree_tracks hash zero (by norm_num) le_rfl
    (L := leavesOf hashLeafData (s.view dbTx)) (by rw [length_leavesOf]; exact hlen)
  refine ⟨mt, ?_, hheight, ht⟩
  rw [buildL1InfoTreeCacheIfNeed, h]
  simp only [L1InfoTree.resetL1InfoTree]
  rw [show (getAllL1InfoRootEntries (s.view dbTx)).map (·.l1InfoTreeLeaf.hash hashLeafData) =
    leavesOf hashLeafData (s.view dbTx) from rfl, hnew]
  rfl

/-- **After `buildL1InfoTreeCacheIfNeed` there is a cache, and it agrees
with the rows the call sees** when it did before. -/
theorem buildL1InfoTreeCacheIfNeed_tracks (hagree : CacheAgrees hash zero hashLeafData s (s.view dbTx))
    (hlen : (s.view dbTx).length < 2 ^ 32) :
    ∃ mt, s.buildL1InfoTreeCacheIfNeed hash zero hashLeafData dbTx =
        .ok { s with l1InfoTree := some mt } ∧
      Tracks hash zero mt (leavesOf hashLeafData (s.view dbTx)) := by
  cases hcache : s.l1InfoTree with
  | some mt =>
    refine ⟨mt, ?_, hagree mt hcache⟩
    rw [buildL1InfoTreeCacheIfNeed_of_some hcache, ← hcache]
  | none =>
    obtain ⟨mt, hbuild, -, ht⟩ := buildL1InfoTreeCacheIfNeed_of_none hash zero hashLeafData hcache hlen
    exact ⟨mt, hbuild, ht⟩

/-! ## Without a transaction -/

/-- **Without a transaction, a failed insert leaves its leaf in the cache**:
from an empty table, `AddL1InfoTreeLeaf` with the insert failing returns
its error with no row added and a cache of one leaf; after it, an
`AddL1InfoTreeLeaf` whose insert succeeds fails with a mismatched leaf
count, index 0 against count 1, and so does every later one. -/
theorem addL1InfoTreeLeaf_without_tx_keeps_failed_leaf (leaf₁ leaf₂ : L1InfoTreeLeaf α) :
    let r₁ := (State.mk [] none).addL1InfoTreeLeaf hash zero hashLeafData leaf₁ none true
    r₁.2.2 = .err .addL1InfoRootToExitRoot ∧ r₁.1.exitRoot = [] ∧
      (∃ mt, r₁.1.l1InfoTree = some mt ∧ mt.count = 1) ∧
      (r₁.1.addL1InfoTreeLeaf hash zero hashLeafData leaf₂ none false).2.2 =
        .err (.l1InfoTree (.mismatchedLeafCount 0 1)) := by
  intro r₁
  obtain ⟨mt₀, hbuild, hheight, ht₀⟩ := State.buildL1InfoTreeCacheIfNeed_of_none hash zero hashLeafData
    (show (State.mk [] none : State α).l1InfoTree = none from rfl)
    (show ((State.mk [] none : State α).view none).length < 2 ^ 32 by simp [State.view])
  have hcount₀ : mt₀.count = 0 := by rw [ht₀.count_eq]; rfl
  obtain ⟨mt₁, hadd, -, ht₁⟩ := ht₀.addLeaf (leaf₁.hash hashLeafData)
    (by rw [hheight]; simp [State.view, leavesOf, getAllL1InfoRootEntries])
  rw [hcount₀] at hadd
  have hr₁ : r₁ = (State.mk [] (some mt₁), none, .err .addL1InfoRootToExitRoot) := by
    show State.addL1InfoTreeLeaf hash zero hashLeafData (State.mk [] none) leaf₁ none true = _
    rw [State.addL1InfoTreeLeaf]
    simp only [State.view, getLatestIndex, List.map_nil, List.max?_nil]
    rw [hbuild]
    simp only [hadd]
    rfl
  have hcount₁ : mt₁.count = 1 := by rw [ht₁.count_eq]; simp [State.view, leavesOf, getAllL1InfoRootEntries]
  refine ⟨by rw [hr₁], by rw [hr₁], ⟨mt₁, by rw [hr₁], hcount₁⟩, ?_⟩
  rw [hr₁, State.addL1InfoTreeLeaf]
  simp only [State.view, getLatestIndex, List.map_nil, List.max?_nil]
  rw [State.buildL1InfoTreeCacheIfNeed_of_some rfl]
  simp only [L1InfoTree.addLeaf, hcount₁]
  rfl

end State

end XLayerNode
