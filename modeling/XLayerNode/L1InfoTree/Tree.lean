import XLayerNode.Common.Outcome
import XLayerNode.Common.MerkleTree
/-!
# The L1 info tree

`L1InfoTree` is a Merkle tree of fixed height over the L1 info leaves. It
keeps the number of leaves, the current root, and one node per level,
`siblings`, from which `AddLeaf` computes the next root without the leaves.
`BuildL1InfoRoot` and `ComputeMerkleProof` compute from all the leaves, one
level at a time, padding an odd level with the zero node of its height.

`Hash` of two values (keccak in the code) is a parameter `hash`, and the
empty leaf `common.Hash{}` a parameter `zero`, so every result holds for
every hash. The `uint32` count and index are numbers below `2 ^ 32`, and
`uint32(len(…))` is `% 2 ^ 32`.

Against the tree of `MerkleTree.node`, a level of the computation is
`IsLevel`: the nodes of one level of the tree of the leaves, as many as the
leaves reach. A round keeps it (`IsLevel.padLevel`,
`IsLevel.buildIntermediate`), so `BuildL1InfoRoot` returns the root when
the leaves fit and an error when they do not (`buildL1InfoRoot_eq`,
`buildL1InfoRoot_of_lt`), and `ComputeMerkleProof` returns the root with
the Merkle proof of its index (`computeMerkleProof_eq`). Neither panics.
The proof is right only while `uint32(len(leaves))` does not wrap, which
it does on `2 ^ 32 - 1` leaves: the leaf level, padded to `2 ^ 32`, reads
as empty, and its sibling is taken for a zero leaf.
-/

namespace XLayerNode

open MerkleTree

/-- The errors of the tree. -/
inductive L1InfoTreeError (α : Type) where
  /-- "error: more than one root detected: %+v", with the nodes of every
  level (`BuildL1InfoRoot`). -/
  | moreThanOneRoot (nodes : List (List (α × α × α)))
  /-- "error: more than one root detected: %+v", with the nodes of the last
  level (`ComputeMerkleProof`). -/
  | moreThanOneRootAtTop (ns : List (α × α × α))
  /-- "mismatched leaf count: %d, expected: %d" -/
  | mismatchedLeafCount (index expected : ℕ)
  /-- "error: mt.count and initialLeaves length mismatch" -/
  | countLengthMismatch
  deriving DecidableEq, Repr

/-- `l1infotree.L1InfoTree`. -/
structure L1InfoTree (α : Type) where
  height : ℕ
  zeroHashes : List α
  count : ℕ
  siblings : List α
  currentRoot : α
  deriving DecidableEq, Repr

namespace L1InfoTree

variable {α ε : Type} (hash : α → α → α) (zero : α)

/-! ## The code -/

/-- `generateZeroHashes`: `common.Hash{}`, then `height` more, each the hash
of the previous one (`zeroHashes[i-1]`, the last so far) with itself. -/
def generateZeroHashes (height : ℕ) : List α :=
  (List.range height).foldl
    (fun zeroHashes _ => zeroHashes ++ [hash (zeroHashes.getLastD zero) (zeroHashes.getLastD zero)])
    [zero]

/-- `buildIntermediate`: each pair of adjacent leaves as the node
`(hash, left, right)`, and its hash; on an odd last leaf `leaves[right]`
panics. -/
def buildIntermediate : List α → Outcome ε (List (α × α × α) × List α)
  | [] => pure ([], [])
  | [_] => .panic
  | left :: right :: rest => do
    let (nodes, hashes) ← buildIntermediate rest
    pure ((hash left right, left, right) :: nodes, hash left right :: hashes)

/-- The first lines of `BuildL1InfoRoot` and `ComputeMerkleProof`: no
leaves are one zero leaf. -/
def firstLevel (zeroHashes leaves : List α) : Outcome ε (List α) :=
  if leaves = [] then do
    let z ← Outcome.index zeroHashes 0
    pure [z]
  else pure leaves

/-- How `BuildL1InfoRoot` and `ComputeMerkleProof` start the round of
level `h`: an odd level gets the zero node of its height. -/
def padLevel (zeroHashes : List α) (h : ℕ) (leaves : List α) : Outcome ε (List α) :=
  if leaves.length % 2 = 1 then do
    let z ← Outcome.index zeroHashes h
    pure (leaves ++ [z])
  else pure leaves

/-- The loop of `BuildL1InfoRoot` from level `h`, `n` rounds to go, with
the nodes of every level so far and of the last. -/
def buildL1InfoRootLoop (zeroHashes : List α) (h : ℕ) :
    ℕ → List α → List (List (α × α × α)) → List (α × α × α) →
      Outcome (L1InfoTreeError α) (List (List (α × α × α)) × List (α × α × α))
  | 0, _, nodes, ns => pure (nodes, ns)
  | n + 1, leaves, nodes, _ => do
    let leaves ← padLevel zeroHashes h leaves
    let (ns, leaves) ← buildIntermediate hash leaves
    buildL1InfoRootLoop zeroHashes (h + 1) n leaves (nodes ++ [ns]) ns

/-- `BuildL1InfoRoot`. -/
def buildL1InfoRoot (mt : L1InfoTree α) (leaves : List α) : Outcome (L1InfoTreeError α) α := do
  let leaves ← firstLevel mt.zeroHashes leaves
  let (nodes, ns) ← buildL1InfoRootLoop hash mt.zeroHashes 0 mt.height leaves [] []
  match ns with
  | [(root, _, _)] => pure root
  | _ => throw (.moreThanOneRoot nodes)

/-- The sibling `ComputeMerkleProof` records at level `h` for the position
`index` of the padded level `leaves`. -/
def proofSibling (zeroHashes : List α) (h : ℕ) (leaves : List α) (index : ℕ) : Outcome ε α :=
  if index ≥ leaves.length % 2 ^ 32 then Outcome.index zeroHashes h
  else if index % 2 = 1 then Outcome.index leaves (index - 1)
  else Outcome.index leaves (index + 1)

/-- The loop of `ComputeMerkleProof` from level `h`, `n` rounds to go. The
code repeats the loop of `buildIntermediate` inline. `uint32(float64(index)
/ 2)` is `index / 2`: the float holds every `uint32` exactly. -/
def computeMerkleProofLoop (zeroHashes : List α) (h : ℕ) :
    ℕ → List α → List α → ℕ → List (α × α × α) →
      Outcome (L1InfoTreeError α) (List α × List (α × α × α))
  | 0, _, siblings, _, ns => pure (siblings, ns)
  | n + 1, leaves, siblings, index, _ => do
    let leaves ← padLevel zeroHashes h leaves
    let s ← proofSibling zeroHashes h leaves index
    let (nsi, hashes) ← buildIntermediate hash leaves
    computeMerkleProofLoop zeroHashes (h + 1) n hashes (siblings ++ [s]) (index / 2) nsi

/-- `ComputeMerkleProof`. -/
def computeMerkleProof (mt : L1InfoTree α) (gerIndex : ℕ) (leaves : List α) :
    Outcome (L1InfoTreeError α) (List α × α) := do
  let leaves ← firstLevel mt.zeroHashes leaves
  let (siblings, ns) ← computeMerkleProofLoop hash mt.zeroHashes 0 mt.height leaves [] gerIndex []
  match ns with
  | [(root, _, _)] => pure (siblings, root)
  | _ => throw (.moreThanOneRootAtTop ns)

/-- The loop of `AddLeaf` from level `h`, `n` rounds to go. `1<<h` is a
`uint32`, zero from `h = 32` on. The first level whose bit is 0 stores the
current node as its sibling, and every level from there on is no longer
`isFilledSubTree`. -/
def addLeafLoop (zeroHashes : List α) (index : ℕ) (h : ℕ) :
    ℕ → α → Bool → List α → Outcome (L1InfoTreeError α) (α × List α)
  | 0, cur, _, siblings => pure (cur, siblings)
  | n + 1, cur, isFilledSubTree, siblings =>
    if (index &&& (1 <<< h) % 2 ^ 32) > 0 then do
      let s ← Outcome.index siblings h
      addLeafLoop zeroHashes index (h + 1) n (hash s cur) isFilledSubTree siblings
    else do
      let siblings ← if isFilledSubTree then Outcome.set siblings h cur else pure siblings
      let z ← Outcome.index zeroHashes h
      addLeafLoop zeroHashes index (h + 1) n (hash cur z) false siblings

/-- `AddLeaf`: the new root and the tree after it. -/
def addLeaf (mt : L1InfoTree α) (index : ℕ) (leaf : α) :
    Outcome (L1InfoTreeError α) (α × L1InfoTree α) :=
  if index ≠ mt.count then throw (.mismatchedLeafCount index mt.count)
  else do
    let (cur, siblings) ← addLeafLoop hash mt.zeroHashes index 0 mt.height leaf true mt.siblings
    pure (cur, { mt with siblings, currentRoot := cur, count := (mt.count + 1) % 2 ^ 32 })

/-- `initSiblings`. -/
def initSiblings (mt : L1InfoTree α) (initialLeaves : List α) :
    Outcome (L1InfoTreeError α) (List α × α) :=
  if mt.count ≠ initialLeaves.length % 2 ^ 32 then throw .countLengthMismatch
  else if mt.count = 0 then do
    let siblings ← (List.range mt.height).mapM fun h => Outcome.index mt.zeroHashes h
    let root ← mt.buildL1InfoRoot hash initialLeaves
    pure (siblings, root)
  else mt.computeMerkleProof hash mt.count initialLeaves

/-- `NewL1InfoTree`. -/
def newL1InfoTree (height : ℕ) (initialLeaves : List α) : Outcome (L1InfoTreeError α) (L1InfoTree α) := do
  let mt : L1InfoTree α :=
    { height, zeroHashes := generateZeroHashes hash zero height,
      count := initialLeaves.length % 2 ^ 32, siblings := [], currentRoot := zero }
  let (siblings, currentRoot) ← mt.initSiblings hash initialLeaves
  pure { mt with siblings, currentRoot }

/-- `ResetL1InfoTree`: a new tree of height 32. The receiver, which may be
nil, is not read. -/
def resetL1InfoTree (_mt : Option (L1InfoTree α)) (initialLeaves : List α) :
    Outcome (L1InfoTreeError α) (L1InfoTree α) :=
  newL1InfoTree hash zero 32 initialLeaves

/-- `GetCurrentRootCountAndSiblings`. -/
def getCurrentRootCountAndSiblings (mt : L1InfoTree α) : α × ℕ × List α :=
  (mt.currentRoot, mt.count, mt.siblings)

/-! ## The zero hashes -/

variable {hash zero}

theorem generateZeroHashes_eq (height : ℕ) :
    generateZeroHashes hash zero height = (List.range (height + 1)).map (zeroHash hash zero) := by
  induction height with
  | zero => rfl
  | succ n ih =>
    have hstep : generateZeroHashes hash zero (n + 1) = generateZeroHashes hash zero n ++
        [hash ((generateZeroHashes hash zero n).getLastD zero)
          ((generateZeroHashes hash zero n).getLastD zero)] := by
      simp only [generateZeroHashes, List.range_succ, List.foldl_append, List.foldl_cons,
        List.foldl_nil]
    have hlast : ((List.range (n + 1)).map (zeroHash hash zero)).getLastD zero = zeroHash hash zero n := by
      simp [List.getLastD_eq_getLast?, List.range_succ]
    rw [hstep, ih, hlast]
    conv_rhs => rw [List.range_succ, List.map_append, List.map_singleton]
    rfl

theorem getElem?_generateZeroHashes {height h : ℕ} (hh : h ≤ height) :
    (generateZeroHashes hash zero height)[h]? = some (zeroHash hash zero h) := by
  rw [generateZeroHashes_eq, List.getElem?_map, List.getElem?_range (by omega)]
  rfl

theorem length_generateZeroHashes (height : ℕ) :
    (generateZeroHashes hash zero height).length = height + 1 := by
  simp [generateZeroHashes_eq]

/-- `NewL1InfoTree` is the tree `initSiblings` completes. -/
theorem newL1InfoTree_of_initSiblings {height : ℕ} {L siblings : List α} {root : α}
    (h : initSiblings hash ⟨height, generateZeroHashes hash zero height, L.length % 2 ^ 32, [], zero⟩ L =
      .ok (siblings, root)) :
    newL1InfoTree hash zero height L =
      .ok ⟨height, generateZeroHashes hash zero height, L.length % 2 ^ 32, siblings, root⟩ := by
  rw [newL1InfoTree]
  dsimp only
  rw [h, Outcome.ok_bind]
  rfl

/-! ## Rounds -/

variable (hash) in
theorem buildIntermediate_of_even :
    ∀ leaves : List α, leaves.length % 2 = 0 →
      ∃ nodes, (buildIntermediate hash leaves : Outcome (L1InfoTreeError α) _) =
        .ok (nodes, hashPairs hash leaves) ∧ nodes.map Prod.fst = hashPairs hash leaves
  | [], _ => ⟨[], rfl, rfl⟩
  | [_], h => by simp at h
  | left :: right :: rest, h => by
    obtain ⟨nodes, hrest, hfst⟩ := buildIntermediate_of_even rest
      (by simp only [List.length_cons] at h; omega)
    refine ⟨(hash left right, left, right) :: nodes, ?_, ?_⟩
    · rw [buildIntermediate, hrest, Outcome.ok_bind, hashPairs]
      rfl
    · rw [List.map_cons, hfst, hashPairs]

variable (hash zero)

/-- `leaves` are the first nodes of level `h` of the tree of `L`, as many
as the leaves of `L` (or one zero leaf) reach. -/
structure IsLevel (L : List α) (h : ℕ) (leaves : List α) : Prop where
  eq_map : leaves = (List.range leaves.length).map (node hash zero L h)
  length_pos : 0 < leaves.length
  covers : max L.length 1 ≤ leaves.length * 2 ^ h
  tight : (leaves.length - 1) * 2 ^ h < max L.length 1

variable {hash zero}

variable {L : List α} {zeroHashes : List α}

variable (hash) in
theorem isLevel_firstLevel (hz : zeroHashes[0]? = some zero) :
    ∃ leaves, (firstLevel zeroHashes L : Outcome (L1InfoTreeError α) _) = .ok leaves ∧
      IsLevel hash zero L 0 leaves := by
  by_cases hL : L = []
  · subst hL
    refine ⟨[zero], ?_, ⟨rfl, by simp, by simp, by simp⟩⟩
    simp [firstLevel, Outcome.index_of_getElem? hz]
  · have hpos : 0 < L.length := List.length_pos_iff.mpr hL
    refine ⟨L, if_neg hL, ⟨?_, hpos, by simp; omega, by simp; omega⟩⟩
    refine List.ext_getElem (by simp) fun i h₁ _ => ?_
    simp [List.getElem?_eq_getElem h₁]

/-- The nodes of a level, as many as the leaves reach: no more than the
leaves, or one. -/
theorem IsLevel.length_le {h : ℕ} {leaves : List α} (hl : IsLevel hash zero L h leaves) :
    leaves.length ≤ max L.length 1 := by
  have : leaves.length - 1 ≤ (leaves.length - 1) * 2 ^ h := Nat.le_mul_of_pos_right _ (Nat.two_pow_pos h)
  have := hl.tight
  omega

/-- The round's padding: the level with the zero node after an odd one. -/
theorem IsLevel.padLevel {h : ℕ} {leaves : List α} (hl : IsLevel hash zero L h leaves)
    (hz : zeroHashes[h]? = some (zeroHash hash zero h)) :
    (padLevel zeroHashes h leaves : Outcome (L1InfoTreeError α) _) =
      .ok ((List.range (leaves.length + leaves.length % 2)).map (node hash zero L h)) := by
  unfold L1InfoTree.padLevel
  split_ifs with hodd
  · -- the zero node is the node just after the level
    have hnext : node hash zero L h leaves.length = zeroHash hash zero h :=
      node_of_length_le h _ (le_trans (le_max_left _ _) hl.covers)
    rw [Outcome.index_of_getElem? hz, Outcome.ok_bind, hodd, List.range_succ, List.map_append,
      List.map_singleton, hnext, ← hl.eq_map]
    rfl
  · rw [show leaves.length % 2 = 0 by omega, Nat.add_zero, ← hl.eq_map]
    rfl

/-- **A round makes the next level.** -/
theorem IsLevel.buildIntermediate {h : ℕ} {leaves : List α} (hl : IsLevel hash zero L h leaves) :
    ∃ ns, (L1InfoTree.buildIntermediate hash
        ((List.range (leaves.length + leaves.length % 2)).map (node hash zero L h)) :
          Outcome (L1InfoTreeError α) _) =
        .ok (ns, ns.map Prod.fst) ∧ IsLevel hash zero L (h + 1) (ns.map Prod.fst) := by
  set m := leaves.length
  set k := (m + m % 2) / 2
  have hk : m + m % 2 = 2 * k := by omega
  obtain ⟨ns, hbi, hfst⟩ := buildIntermediate_of_even hash
    ((List.range (m + m % 2)).map (node hash zero L h)) (by simp; omega)
  rw [hk, hashPairs_nodes] at hfst
  refine ⟨ns, by rw [hbi, hk, hashPairs_nodes, hfst], ?_⟩
  have hlen : (ns.map Prod.fst).length = k := by rw [hfst, List.length_map, List.length_range]
  have hpow : k * 2 ^ (h + 1) = 2 * k * 2 ^ h := by ring
  refine ⟨by rw [hlen, hfst], by have := hl.length_pos; omega, ?_, ?_⟩
  · calc max L.length 1 ≤ m * 2 ^ h := hl.covers
      _ ≤ 2 * k * 2 ^ h := Nat.mul_le_mul_right _ (by omega)
      _ = (ns.map Prod.fst).length * 2 ^ (h + 1) := by rw [hlen, hpow]
  · calc ((ns.map Prod.fst).length - 1) * 2 ^ (h + 1) = 2 * (k - 1) * 2 ^ h := by rw [hlen]; ring
      _ ≤ (m - 1) * 2 ^ h := Nat.mul_le_mul_right _ (by have := hl.length_pos; omega)
      _ < max L.length 1 := hl.tight

/-- At a level that holds all the leaves, one node: the root. -/
theorem IsLevel.eq_singleton {h : ℕ} {top : List α} (hl : IsLevel hash zero L h top)
    (hfit : L.length ≤ 2 ^ h) : top = [node hash zero L h 0] := by
  have hlt : (top.length - 1) * 2 ^ h < 1 * 2 ^ h := by
    have := hl.tight
    have : max L.length 1 ≤ 2 ^ h := max_le hfit (Nat.one_le_two_pow)
    omega
  have hone : top.length = 1 := by
    have := Nat.lt_of_mul_lt_mul_right hlt
    have := hl.length_pos
    omega
  rw [hl.eq_map, hone]
  rfl

theorem IsLevel.one_lt_length {h : ℕ} {top : List α} (hl : IsLevel hash zero L h top)
    (hbig : 2 ^ h < L.length) : 1 < top.length := by
  by_contra hle
  have : top.length * 2 ^ h ≤ 1 * 2 ^ h := Nat.mul_le_mul_right _ (by omega)
  have := hl.covers
  have : L.length ≤ max L.length 1 := le_max_left _ _
  omega

/-! ## `BuildL1InfoRoot` -/

/-- The loop of `BuildL1InfoRoot`, `n + 1` rounds from a level: its last
nodes are the level `n + 1` further up. -/
theorem buildL1InfoRootLoop_of_isLevel :
    ∀ n h (leaves : List α) nodes ns, IsLevel hash zero L h leaves →
      (∀ j, h ≤ j → j ≤ h + n → zeroHashes[j]? = some (zeroHash hash zero j)) →
      ∃ nodes' ns', buildL1InfoRootLoop hash zeroHashes h (n + 1) leaves nodes ns = .ok (nodes', ns') ∧
        IsLevel hash zero L (h + n + 1) (ns'.map Prod.fst)
  | n, h, leaves, nodes, ns, hl, hz => by
    obtain ⟨ns₁, hbi, hl₁⟩ := hl.buildIntermediate
    have hround : buildL1InfoRootLoop hash zeroHashes h (n + 1) leaves nodes ns =
        buildL1InfoRootLoop hash zeroHashes (h + 1) n (ns₁.map Prod.fst) (nodes ++ [ns₁]) ns₁ := by
      rw [buildL1InfoRootLoop, hl.padLevel (hz h le_rfl (by omega)), Outcome.ok_bind, hbi,
        Outcome.ok_bind]
    rw [hround]
    cases n with
    | zero => exact ⟨nodes ++ [ns₁], ns₁, rfl, hl₁⟩
    | succ n =>
      obtain ⟨nodes', ns', hloop, htop⟩ := buildL1InfoRootLoop_of_isLevel n (h + 1) _ _ _ hl₁
        fun j hj₁ hj₂ => hz j (by omega) (by omega)
      exact ⟨nodes', ns', hloop, by rwa [show h + (n + 1) + 1 = h + 1 + n + 1 by omega]⟩

/-- The nodes `BuildL1InfoRoot` ends with: the top level of the tree. -/
theorem buildL1InfoRoot_top {mt : L1InfoTree α}
    (hzh : mt.zeroHashes = generateZeroHashes hash zero mt.height) (hh : 0 < mt.height) :
    ∃ leaves nodes ns, (firstLevel mt.zeroHashes L : Outcome (L1InfoTreeError α) _) = .ok leaves ∧
      buildL1InfoRootLoop hash mt.zeroHashes 0 mt.height leaves [] [] = .ok (nodes, ns) ∧
      IsLevel hash zero L mt.height (ns.map Prod.fst) := by
  have hz : ∀ j, j ≤ mt.height → mt.zeroHashes[j]? = some (zeroHash hash zero j) :=
    fun j hj => by rw [hzh]; exact getElem?_generateZeroHashes hj
  obtain ⟨leaves, hfirst, hl⟩ := isLevel_firstLevel hash (L := L) (hz 0 (Nat.zero_le _))
  obtain ⟨n, hn⟩ : ∃ n, mt.height = n + 1 := ⟨mt.height - 1, by omega⟩
  obtain ⟨nodes, ns, hloop, htop⟩ := buildL1InfoRootLoop_of_isLevel n 0 leaves [] [] hl
    fun j _ hj => hz j (by omega)
  exact ⟨leaves, nodes, ns, hfirst, by rw [hn]; exact hloop, by rwa [hn, ← Nat.zero_add n]⟩

/-- **`BuildL1InfoRoot` returns the root of the tree of the leaves** when
they fit in it. -/
theorem buildL1InfoRoot_eq {mt : L1InfoTree α}
    (hzh : mt.zeroHashes = generateZeroHashes hash zero mt.height) (hh : 0 < mt.height)
    (hfit : L.length ≤ 2 ^ mt.height) :
    mt.buildL1InfoRoot hash L = .ok (node hash zero L mt.height 0) := by
  obtain ⟨leaves, nodes, ns, hfirst, hloop, htop⟩ := buildL1InfoRoot_top (L := L) hzh hh
  have hone := htop.eq_singleton hfit
  obtain ⟨⟨r, l, r'⟩, rfl⟩ : ∃ x, ns = [x] :=
    List.length_eq_one_iff.mp (by simpa using congrArg List.length hone)
  simp only [List.map_cons, List.map_nil, List.cons.injEq, and_true] at hone
  rw [buildL1InfoRoot, hfirst, Outcome.ok_bind, hloop, Outcome.ok_bind]
  simp only [hone, Outcome.pure_def]

/-- **Leaves that do not fit are an error.** -/
theorem buildL1InfoRoot_of_lt {mt : L1InfoTree α}
    (hzh : mt.zeroHashes = generateZeroHashes hash zero mt.height) (hh : 0 < mt.height)
    (hbig : 2 ^ mt.height < L.length) :
    ∃ nodes, mt.buildL1InfoRoot hash L = .err (.moreThanOneRoot nodes) := by
  obtain ⟨leaves, nodes, ns, hfirst, hloop, htop⟩ := buildL1InfoRoot_top (L := L) hzh hh
  have hlen := htop.one_lt_length hbig
  refine ⟨nodes, ?_⟩
  rw [buildL1InfoRoot, hfirst, Outcome.ok_bind, hloop, Outcome.ok_bind]
  match ns, hlen with
  | _ :: _ :: _, _ => rfl

/-! ## `ComputeMerkleProof` -/

/-- The sibling recorded at a level never panics, and it is the node
beside the index's, inside the level or past it, where nodes are zero;
unless `uint32(len(leaves))` wraps to a smaller number. -/
theorem proofSibling_ok {h p : ℕ} (index : ℕ) (hp : p % 2 = 0) (hcover : L.length ≤ p * 2 ^ h)
    (hz : zeroHashes[h]? = some (zeroHash hash zero h)) :
    ∃ s, (proofSibling zeroHashes h ((List.range p).map (node hash zero L h)) index :
        Outcome (L1InfoTreeError α) _) = .ok s ∧
      (p < 2 ^ 32 → s = node hash zero L h (sibling index)) := by
  unfold proofSibling
  rw [List.length_map, List.length_range]
  split_ifs with hpast hodd
  · refine ⟨zeroHash hash zero h, Outcome.index_of_getElem? hz, fun hp32 => ?_⟩
    -- past the level: so is the sibling
    rw [Nat.mod_eq_of_lt hp32] at hpast
    have hsib : p ≤ sibling index := by unfold sibling; split_ifs <;> omega
    exact (node_of_length_le h _ (le_trans hcover (Nat.mul_le_mul_right _ hsib))).symm
  · have : index < p := lt_of_lt_of_le (not_le.mp hpast) (Nat.mod_le _ _)
    refine ⟨_, Outcome.index_of_lt (by simp; omega), fun _ => ?_⟩
    simp [sibling, hodd]
  · have : index < p := lt_of_lt_of_le (not_le.mp hpast) (Nat.mod_le _ _)
    refine ⟨_, Outcome.index_of_lt (by simp; omega), fun _ => ?_⟩
    simp [sibling, hodd]

/-- The loop of `ComputeMerkleProof`, `n + 1` rounds from a level: it
appends one sibling a level, the siblings of the index's nodes when one
more leaf fits in a `uint32` count. -/
theorem computeMerkleProofLoop_of_isLevel (gerIndex : ℕ) :
    ∀ n h (leaves : List α) siblings ns, IsLevel hash zero L h leaves →
      (∀ j, h ≤ j → j ≤ h + n → zeroHashes[j]? = some (zeroHash hash zero j)) →
      ∃ proof ns', computeMerkleProofLoop hash zeroHashes h (n + 1) leaves siblings
          (gerIndex / 2 ^ h) ns = .ok (siblings ++ proof, ns') ∧ proof.length = n + 1 ∧
        (L.length + 1 < 2 ^ 32 → proof = (List.range' h (n + 1)).map fun j =>
          node hash zero L j (sibling (gerIndex / 2 ^ j))) ∧
        IsLevel hash zero L (h + n + 1) (ns'.map Prod.fst)
  | n, h, leaves, siblings, ns, hl, hz => by
    obtain ⟨ns₁, hbi, hl₁⟩ := hl.buildIntermediate
    have hlen := hl.length_le
    obtain ⟨s, hsib, hs⟩ := proofSibling_ok (L := L) (h := h)
      (p := leaves.length + leaves.length % 2) (gerIndex / 2 ^ h) (by omega)
      (le_trans (le_max_left _ _) (le_trans hl.covers (Nat.mul_le_mul_right _ (by omega))))
      (hz h le_rfl (by omega))
    -- the padded level fits a `uint32` length when one more leaf does
    have hs' : L.length + 1 < 2 ^ 32 → s = node hash zero L h (sibling (gerIndex / 2 ^ h)) :=
      fun hL32 => hs (by omega)
    have hround : computeMerkleProofLoop hash zeroHashes h (n + 1) leaves siblings
        (gerIndex / 2 ^ h) ns =
        computeMerkleProofLoop hash zeroHashes (h + 1) n (ns₁.map Prod.fst) (siblings ++ [s])
          (gerIndex / 2 ^ (h + 1)) ns₁ := by
      rw [computeMerkleProofLoop, hl.padLevel (hz h le_rfl (by omega)), Outcome.ok_bind, hsib,
        Outcome.ok_bind, hbi, Outcome.ok_bind, div_two_pow_succ]
    rw [hround]
    cases n with
    | zero =>
      refine ⟨[s], ns₁, rfl, rfl, fun hL32 => ?_, hl₁⟩
      rw [hs' hL32]
      rfl
    | succ n =>
      obtain ⟨proof, ns', hloop, hlen', hproof, htop⟩ := computeMerkleProofLoop_of_isLevel gerIndex
        n (h + 1) _ _ _ hl₁ fun j hj₁ hj₂ => hz j (by omega) (by omega)
      refine ⟨s :: proof, ns', by rw [hloop, List.append_assoc]; rfl, by simp [hlen'],
        fun hL32 => ?_, by rwa [show h + (n + 1) + 1 = h + 1 + n + 1 by omega]⟩
      rw [hs' hL32, hproof hL32, List.range'_succ (s := h), List.map_cons]

/-- **`ComputeMerkleProof` returns the root and one sibling a level**, the
Merkle proof of its index when one more leaf fits in a `uint32` count,
whenever the leaves fit in the tree. -/
theorem computeMerkleProof_eq {mt : L1InfoTree α}
    (hzh : mt.zeroHashes = generateZeroHashes hash zero mt.height) (hh : 0 < mt.height)
    (hfit : L.length ≤ 2 ^ mt.height) (gerIndex : ℕ) :
    ∃ proof, mt.computeMerkleProof hash gerIndex L = .ok (proof, node hash zero L mt.height 0) ∧
      proof.length = mt.height ∧
      (L.length + 1 < 2 ^ 32 →
        proof = (List.range mt.height).map fun j => node hash zero L j (sibling (gerIndex / 2 ^ j))) := by
  have hz : ∀ j, j ≤ mt.height → mt.zeroHashes[j]? = some (zeroHash hash zero j) :=
    fun j hj => by rw [hzh]; exact getElem?_generateZeroHashes hj
  obtain ⟨leaves, hfirst, hl⟩ := isLevel_firstLevel hash (L := L) (hz 0 (Nat.zero_le _))
  obtain ⟨n, hn⟩ : ∃ n, mt.height = n + 1 := ⟨mt.height - 1, by omega⟩
  obtain ⟨proof, ns, hloop, hlen, hproof, htop⟩ := computeMerkleProofLoop_of_isLevel gerIndex n 0
    leaves [] [] hl fun j _ hj => hz j (by omega)
  simp only [pow_zero, Nat.div_one, List.nil_append, ← List.range_eq_range'] at hloop hproof
  rw [Nat.zero_add, ← hn] at htop
  have hone := htop.eq_singleton hfit
  obtain ⟨⟨r, l, r'⟩, rfl⟩ : ∃ x, ns = [x] :=
    List.length_eq_one_iff.mp (by simpa using congrArg List.length hone)
  simp only [List.map_cons, List.map_nil, List.cons.injEq, and_true] at hone
  refine ⟨proof, ?_, by rw [hn, hlen], by rw [hn]; exact hproof⟩
  rw [computeMerkleProof, hfirst, Outcome.ok_bind, hn, hloop, Outcome.ok_bind, ← hn, hone]
  rfl

/-- **The proof `ComputeMerkleProof` returns verifies**: climbing from the
leaf at the index with it, on the side each bit of the index says, gives
the root it returns, which is `BuildL1InfoRoot` of the leaves. -/
theorem computeMerkleProof_verifies {mt : L1InfoTree α}
    (hzh : mt.zeroHashes = generateZeroHashes hash zero mt.height) (hh : 0 < mt.height)
    (hfit : L.length ≤ 2 ^ mt.height) (hL32 : L.length + 1 < 2 ^ 32) {gerIndex : ℕ}
    (hidx : gerIndex < 2 ^ mt.height) :
    ∃ proof root, mt.computeMerkleProof hash gerIndex L = .ok (proof, root) ∧
      mt.buildL1InfoRoot hash L = .ok root ∧
      climb hash (fun j => proof.getD j zero) gerIndex (L.getD gerIndex zero) mt.height = root := by
  obtain ⟨proof, hproof, hlen, heq⟩ := computeMerkleProof_eq hzh hh hfit gerIndex
  refine ⟨proof, _, hproof, buildL1InfoRoot_eq hzh hh hfit, ?_⟩
  have hpath : ∀ j < mt.height, proof.getD j zero = node hash zero L j (sibling (gerIndex / 2 ^ j)) := by
    intro j hj
    rw [heq hL32, List.getD_eq_getElem _ _ (by simpa using hj), List.getElem_map, List.getElem_range]
  rw [← node_zero, climb_eq_node mt.height hpath, Nat.div_eq_of_lt hidx]

/-- **A Merkle proof of `ComputeMerkleProof` verifies**, for a tree of
positive height whose leaves fit, with fewer than `2 ^ 32 - 1` of them:
one sibling a level, and the leaf at the index climbs with them to the
root it returns, which is `BuildL1InfoRoot` of the leaves. -/
theorem computeMerkleProof_siblings_climb {mt : L1InfoTree α}
    (hzh : mt.zeroHashes = generateZeroHashes hash zero mt.height) (hh : 0 < mt.height)
    (hfit : L.length ≤ 2 ^ mt.height) (hL32 : L.length + 1 < 2 ^ 32) {gerIndex : ℕ}
    (hidx : gerIndex < 2 ^ mt.height) :
    ∃ proof root, mt.computeMerkleProof hash gerIndex L = .ok (proof, root) ∧ proof.length = mt.height ∧
      mt.buildL1InfoRoot hash L = .ok root ∧
      climb hash (fun j => proof.getD j zero) gerIndex (L.getD gerIndex zero) mt.height = root := by
  obtain ⟨proof, root, hproof, hbuild, hclimb⟩ := computeMerkleProof_verifies hzh hh hfit hL32 hidx
  obtain ⟨proof', hproof', hlen, -⟩ := computeMerkleProof_eq hzh hh hfit gerIndex
  -- the two lemmas describe the one run
  rw [hproof] at hproof'
  obtain ⟨rfl, -⟩ := Prod.mk.inj (Outcome.ok.inj hproof')
  exact ⟨proof, root, hproof, hlen, hbuild, hclimb⟩

/-- The proof of the second leaf of three in a tree of height 2, over
addition. -/
theorem computeMerkleProof_siblings_climb_threeLeaves :
    (⟨2, generateZeroHashes (· + ·) 0 2, 3, [], 0⟩ : L1InfoTree ℕ).zeroHashes =
        generateZeroHashes (· + ·) 0 2 ∧ 0 < 2 ∧ [5, 6, 7].length ≤ 2 ^ 2 ∧ [5, 6, 7].length + 1 < 2 ^ 32 ∧
      1 < 2 ^ 2 ∧
      ∃ proof root, (⟨2, generateZeroHashes (· + ·) 0 2, 3, [], 0⟩ : L1InfoTree ℕ).computeMerkleProof (· + ·) 1
          [5, 6, 7] = .ok (proof, root) ∧ proof.length = 2 ∧
        (⟨2, generateZeroHashes (· + ·) 0 2, 3, [], 0⟩ : L1InfoTree ℕ).buildL1InfoRoot (· + ·) [5, 6, 7] =
          .ok root ∧
        climb (· + ·) (fun j => proof.getD j 0) 1 ([5, 6, 7].getD 1 0) 2 = root :=
  ⟨rfl, by decide, by decide, by decide, by decide,
    @computeMerkleProof_siblings_climb ℕ (· + ·) 0 [5, 6, 7] ⟨2, generateZeroHashes (· + ·) 0 2, 3, [], 0⟩
      rfl (by decide) (by decide) (by decide) 1 (by decide)⟩

/-- A tree of height 0 makes no round, and `ComputeMerkleProof` finds no
root even for one leaf. -/
theorem computeMerkleProof_height_zero :
    (⟨0, generateZeroHashes (· + ·) 0 0, 1, [], 0⟩ : L1InfoTree ℕ).computeMerkleProof (· + ·) 0 [1] =
      .err (.moreThanOneRootAtTop []) := by
  decide

end L1InfoTree

end XLayerNode
