import Mathlib.Data.Nat.Bitwise
import Mathlib.Data.Nat.Pairing
import XLayerNode.L1InfoTree.Tree
/-!
# Adding leaves to the L1 info tree

`AddLeaf` computes the next root from the new leaf alone. Up each level it
hashes the current node with the stored sibling where the index's bit is
1, and with the zero node of the level where it is 0; and it stores the
current node as the sibling of the first level whose bit is 0, which is
the lowest level whose bit is 1 in the new count.

`Tracks mt L` is what the tree keeps of its leaves `L`: the count, the
root, and, while another leaf fits, the sibling of every level whose bit
is 1 in the count: the node left of the path to the next leaf.
`NewL1InfoTree` makes it (`newL1InfoTree_tracks`) and `AddLeaf` keeps it
(`Tracks.addLeaf`). One round of the loop of `AddLeaf` keeps the loop's
invariant: the current node is the node of the new tree on the path, the
flag says whether the subtree below is full, and the siblings above are
in place (`addLeafLoop_spec`). So over a run of `AddLeaf` calls, each
returns the root `BuildL1InfoRoot` computes from all the leaves
(`newL1InfoTree_addLeaves`).
-/

namespace XLayerNode

namespace L1InfoTree

open MerkleTree

variable {α : Type} {hash : α → α → α} {zero : α}

/-! ## One round of `AddLeaf` -/

/-- The bit test of `AddLeaf`, below level 32: `1<<h` is `2 ^ h`. -/
theorem and_shiftLeft_pos_iff {index h : ℕ} (hh : h < 32) :
    (index &&& (1 <<< h) % 2 ^ 32) > 0 ↔ index / 2 ^ h % 2 = 1 := by
  rw [Nat.one_shiftLeft, Nat.mod_eq_of_lt (Nat.pow_lt_pow_right (by norm_num) hh),
    Nat.and_two_pow, Nat.testBit_eq_decide_div_mod_eq]
  by_cases hbit : index / 2 ^ h % 2 = 1
  · simp [hbit]
  · simp [hbit]

theorem addLeafLoop_of_bit {zeroHashes siblings : List α} {index h n : ℕ} {cur s : α} {f : Bool}
    (hh : h < 32) (hbit : index / 2 ^ h % 2 = 1) (hs : siblings[h]? = some s) :
    addLeafLoop hash zeroHashes index h (n + 1) cur f siblings =
      addLeafLoop hash zeroHashes index (h + 1) n (hash s cur) f siblings := by
  rw [addLeafLoop, if_pos ((and_shiftLeft_pos_iff hh).mpr hbit), Outcome.index_of_getElem? hs,
    Outcome.ok_bind]

theorem addLeafLoop_of_not_bit {zeroHashes siblings : List α} {index h n : ℕ} {cur z : α}
    {f : Bool} (hh : h < 32) (hbit : index / 2 ^ h % 2 = 0) (hlt : h < siblings.length)
    (hz : zeroHashes[h]? = some z) :
    addLeafLoop hash zeroHashes index h (n + 1) cur f siblings =
      addLeafLoop hash zeroHashes index (h + 1) n (hash cur z) false
        (if f then siblings.set h cur else siblings) := by
  rw [addLeafLoop, if_neg (by rw [and_shiftLeft_pos_iff hh]; omega)]
  cases f with
  | false =>
    simp only [Bool.false_eq_true, ↓reduceIte, Outcome.pure_def, Outcome.ok_bind,
      Outcome.index_of_getElem? hz]
  | true =>
    simp only [↓reduceIte, Outcome.set_of_lt cur hlt, Outcome.ok_bind,
      Outcome.index_of_getElem? hz]

section Loop

variable {zeroHashes L' : List α} {c height : ℕ}

/-- **The loop of `AddLeaf`**, adding leaf `c` of the leaves `L'`, from
level `h`: the current node is the node above the new leaf, the flag
`isFilledSubTree` says whether the subtree below is full, and the
siblings from `h` up are those of count `c`. It climbs to the root of
`L'`, leaves the siblings below `h` as they are, and leaves those from
`h` up the ones of count `c + 1`. -/
theorem addLeafLoop_spec (hheight : height ≤ 32) (hlen : L'.length = c + 1)
    (hz : ∀ j < height, zeroHashes[j]? = some (zeroHash hash zero j)) :
    ∀ n h cur (siblings : List α), h + n = height → height ≤ siblings.length →
      cur = node hash zero L' h (c / 2 ^ h) →
      (∀ j, h ≤ j → j < height → c / 2 ^ j % 2 = 1 →
        siblings[j]? = some (node hash zero L' j (c / 2 ^ j - 1))) →
      ∃ siblings', addLeafLoop hash zeroHashes c h n cur (decide (c % 2 ^ h = 2 ^ h - 1))
          siblings = .ok (node hash zero L' height (c / 2 ^ height), siblings') ∧
        siblings'.length = siblings.length ∧ (∀ j < h, siblings'[j]? = siblings[j]?) ∧
        ∀ j, h ≤ j → j < height → (c + 1) / 2 ^ j % 2 = 1 →
          siblings'[j]? = some (node hash zero L' j ((c + 1) / 2 ^ j - 1))
  | 0, h, cur, siblings, hn, _, hcur, _ => by
    subst hn hcur
    exact ⟨siblings, rfl, rfl, fun _ _ => rfl, fun j hj₁ hj₂ => by omega⟩
  | n + 1, h, cur, siblings, hn, hlen', hcur, hsib => by
    have hh : h < 32 := by omega
    by_cases hbit : c / 2 ^ h % 2 = 1
    · -- bit 1: the stored sibling is the left child, and the flag carries on
      have hs := hsib h le_rfl (by omega) hbit
      have hcur' : hash (node hash zero L' h (c / 2 ^ h - 1)) cur =
          node hash zero L' (h + 1) (c / 2 ^ (h + 1)) := by
        rw [hcur, div_two_pow_succ, node_succ_half, if_pos hbit]
        simp only [sibling, hbit, ↓reduceIte]
      have hflag : decide (c % 2 ^ h = 2 ^ h - 1) = decide (c % 2 ^ (h + 1) = 2 ^ (h + 1) - 1) :=
        decide_eq_decide.mpr (mod_two_pow_succ_full_iff hbit).symm
      obtain ⟨siblings', hloop, hlen'', hlow, hhigh⟩ := addLeafLoop_spec hheight hlen hz n (h + 1)
        _ siblings (by omega) hlen' hcur' fun j hj₁ hj₂ hb => hsib j (by omega) hj₂ hb
      refine ⟨siblings', by rw [addLeafLoop_of_bit hh hbit hs, hflag, hloop], hlen'',
        fun j hj => hlow j (by omega), fun j hj₁ hj₂ hb => ?_⟩
      rcases Nat.eq_or_lt_of_le hj₁ with rfl | hj
      · -- the subtree below was not full: the sibling stays
        rw [hlow h (by omega), hs, succ_div_two_pow_of_odd hbit hb]
      · exact hhigh j hj hj₂ hb
    · -- bit 0: the zero node is the right child, and a full subtree stores its root
      have hbit0 : c / 2 ^ h % 2 = 0 := by omega
      have hzero : zeroHash hash zero h = node hash zero L' h (c / 2 ^ h + 1) :=
        (node_of_length_le h _ (by rw [hlen]; exact lt_succ_div_mul c h)).symm
      have hcur' : hash cur (zeroHash hash zero h) = node hash zero L' (h + 1) (c / 2 ^ (h + 1)) := by
        rw [hcur, hzero, div_two_pow_succ, node_succ_half, if_neg (by omega)]
        simp only [sibling, hbit, ↓reduceIte]
      have hflag : false = decide (c % 2 ^ (h + 1) = 2 ^ (h + 1) - 1) :=
        (decide_eq_false (mod_two_pow_succ_not_full hbit0)).symm
      set siblings₁ := if decide (c % 2 ^ h = 2 ^ h - 1) then siblings.set h cur else siblings
        with hsiblings₁
      have hlen₁ : siblings₁.length = siblings.length := by
        rw [hsiblings₁]; split <;> simp
      have hsame : ∀ j, j ≠ h → siblings₁[j]? = siblings[j]? := by
        intro j hj
        rw [hsiblings₁]
        split
        · exact List.getElem?_set_ne (Ne.symm hj)
        · rfl
      obtain ⟨siblings', hloop, hlen'', hlow, hhigh⟩ := addLeafLoop_spec hheight hlen hz n (h + 1)
        _ siblings₁ (by omega) (by omega) hcur' fun j hj₁ hj₂ hb => by
          rw [hsame j (by omega)]; exact hsib j (by omega) hj₂ hb
      refine ⟨siblings', by
          rw [addLeafLoop_of_not_bit hh hbit0 (by omega) (hz h (by omega)), hflag, hloop],
        hlen''.trans hlen₁, fun j hj => by rw [hlow j (by omega), hsame j (by omega)],
        fun j hj₁ hj₂ hb => ?_⟩
      rcases Nat.eq_or_lt_of_le hj₁ with rfl | hj
      · -- the subtree below was full: its root is the new sibling
        obtain ⟨hfull, hpos⟩ := succ_div_two_pow_of_even hbit0 hb
        rw [hlow h (by omega), hsiblings₁, if_pos (decide_eq_true hfull),
          List.getElem?_set_self (by omega), hcur, hpos]
      · exact hhigh j hj hj₂ hb

end Loop

/-! ## What the tree keeps -/

variable (hash zero)

/-- The tree holds the leaves `L`: it has the zero hashes of its height, at
most 32, counts `L` and has its root; and while another leaf fits, the
sibling of each level whose bit of the count is 1 is the node left of
the path to the next leaf. -/
structure Tracks (mt : L1InfoTree α) (L : List α) : Prop where
  zeroHashes_eq : mt.zeroHashes = generateZeroHashes hash zero mt.height
  height_pos : 0 < mt.height
  height_le : mt.height ≤ 32
  count_eq : mt.count = L.length
  fits : L.length < 2 ^ mt.height
  currentRoot_eq : mt.currentRoot = node hash zero L mt.height 0
  siblings_length : mt.siblings.length = mt.height
  siblings_eq : L.length + 1 < 2 ^ mt.height → ∀ j < mt.height, L.length / 2 ^ j % 2 = 1 →
    mt.siblings[j]? = some (node hash zero L j (L.length / 2 ^ j - 1))

variable {hash zero}

/-- **`AddLeaf` of the next leaf returns the root of the leaves with it and
keeps the tree tracking them**, while they fit. -/
theorem Tracks.addLeaf {mt : L1InfoTree α} {L : List α} (ht : Tracks hash zero mt L) (leaf : α)
    (hroom : L.length + 1 < 2 ^ mt.height) :
    ∃ mt', mt.addLeaf hash mt.count leaf = .ok (node hash zero (L ++ [leaf]) mt.height 0, mt') ∧
      mt'.height = mt.height ∧ Tracks hash zero mt' (L ++ [leaf]) := by
  have hpow : 2 ^ mt.height ≤ 2 ^ 32 := Nat.pow_le_pow_right (by norm_num) ht.height_le
  have hlen : (L ++ [leaf]).length = L.length + 1 := by simp
  have hz : ∀ j < mt.height, mt.zeroHashes[j]? = some (zeroHash hash zero j) :=
    fun j hj => by rw [ht.zeroHashes_eq]; exact getElem?_generateZeroHashes (by omega)
  -- the stored siblings are nodes of the old leaves, the same in the new tree
  have hsib : ∀ j, 0 ≤ j → j < mt.height → L.length / 2 ^ j % 2 = 1 →
      mt.siblings[j]? = some (node hash zero (L ++ [leaf]) j (L.length / 2 ^ j - 1)) := by
    intro j _ hj hb
    have hq : 1 ≤ L.length / 2 ^ j := by
      generalize L.length / 2 ^ j = q at hb
      omega
    rw [ht.siblings_eq hroom j hj hb, node_append]
    rw [Nat.sub_add_cancel hq]
    exact div_mul_le L.length j
  have hleaf : leaf = node hash zero (L ++ [leaf]) 0 (L.length / 2 ^ 0) := by simp
  obtain ⟨siblings', hloop, hlen', -, hhigh⟩ := addLeafLoop_spec ht.height_le hlen hz mt.height 0
    leaf mt.siblings (Nat.zero_add _) (by rw [ht.siblings_length]) hleaf hsib
  have hroot : L.length / 2 ^ mt.height = 0 := Nat.div_eq_of_lt ht.fits
  rw [hroot] at hloop
  refine ⟨{ mt with
      siblings := siblings'
      currentRoot := node hash zero (L ++ [leaf]) mt.height 0
      count := (mt.count + 1) % 2 ^ 32 }, ?_, rfl, ?_⟩
  · have hflag : decide (L.length % 2 ^ 0 = 2 ^ 0 - 1) = true := by simp [Nat.mod_one]
    rw [hflag] at hloop
    rw [L1InfoTree.addLeaf, if_neg (not_not.mpr rfl), ht.count_eq, hloop, Outcome.ok_bind]
    rfl
  · refine ⟨ht.zeroHashes_eq, ht.height_pos, ht.height_le, ?_, by rw [hlen]; exact hroom, rfl,
      by rw [hlen', ht.siblings_length], fun _ j hj hb => ?_⟩
    · show (mt.count + 1) % 2 ^ 32 = (L ++ [leaf]).length
      rw [ht.count_eq, hlen, Nat.mod_eq_of_lt (by omega)]
    · rw [hlen] at hb ⊢
      exact hhigh j (Nat.zero_le _) hj hb

variable (hash zero) in
/-- **`NewL1InfoTree` tracks its leaves** when they fit in its height, from
1 to 32. -/
theorem newL1InfoTree_tracks {height : ℕ} {L : List α} (hpos : 0 < height) (h32 : height ≤ 32)
    (hfit : L.length < 2 ^ height) :
    ∃ mt, newL1InfoTree hash zero height L = .ok mt ∧ mt.height = height ∧ Tracks hash zero mt L := by
  have hpow : 2 ^ height ≤ 2 ^ 32 := Nat.pow_le_pow_right (by norm_num) h32
  have hcount : L.length % 2 ^ 32 = L.length := Nat.mod_eq_of_lt (by omega)
  set mt₀ : L1InfoTree α :=
    ⟨height, generateZeroHashes hash zero height, L.length % 2 ^ 32, [], zero⟩
  have hzh : mt₀.zeroHashes = generateZeroHashes hash zero mt₀.height := rfl
  have hfit' : L.length ≤ 2 ^ mt₀.height := Nat.le_of_lt hfit
  have hcount₀ : mt₀.count = L.length := hcount
  by_cases hL : L.length = 0
  · -- no leaves: the zero hashes stand as siblings, and no level reads them
    have hsiblings : (List.range height).mapM (fun h => Outcome.index mt₀.zeroHashes h) =
        (.ok ((List.range height).map (zeroHash hash zero)) : Outcome (L1InfoTreeError α) _) :=
      Outcome.mapM_index_eq fun h hh => getElem?_generateZeroHashes (by simp at hh; omega)
    have hinit : mt₀.initSiblings hash L =
        .ok ((List.range height).map (zeroHash hash zero), node hash zero L height 0) := by
      rw [initSiblings, if_neg (not_not.mpr rfl), if_pos (by rw [hcount₀]; exact hL), hsiblings, Outcome.ok_bind, buildL1InfoRoot_eq hzh hpos hfit', Outcome.ok_bind]
      rfl
    exact ⟨_, newL1InfoTree_of_initSiblings hinit, rfl,
      ⟨rfl, hpos, h32, hcount, hfit, rfl, by simp, fun _ j _ hb => by simp [hL] at hb⟩⟩
  · -- leaves: the Merkle proof of the next leaf
    obtain ⟨proof, hproof, hlen, heq⟩ := computeMerkleProof_eq hzh hpos hfit' L.length
    have hinit : mt₀.initSiblings hash L = .ok (proof, node hash zero L height 0) := by
      rw [initSiblings, if_neg (not_not.mpr rfl), if_neg (by rw [hcount₀]; exact hL), hcount₀]
      exact hproof
    refine ⟨_, newL1InfoTree_of_initSiblings hinit, rfl,
      ⟨rfl, hpos, h32, hcount, hfit, rfl, hlen, fun hroom j hj hb => ?_⟩⟩
    have hroom' : L.length + 1 < 2 ^ 32 := lt_of_lt_of_le hroom hpow
    rw [heq hroom', List.getElem?_map, List.getElem?_range hj]
    simp [sibling, hb]

/-! ## Runs of `AddLeaf` -/

variable (hash)

/-- `AddLeaf(count, leaf)` on each leaf in turn, with the count
`GetCurrentRootCountAndSiblings` reads, as `TestAddLeaf` drives the tree;
the tree after them and the roots they return. -/
def addLeaves (mt : L1InfoTree α) : List α → Outcome (L1InfoTreeError α) (L1InfoTree α × List α)
  | [] => pure (mt, [])
  | leaf :: leaves => do
    let (_, count, _) := mt.getCurrentRootCountAndSiblings
    let (root, mt) ← mt.addLeaf hash count leaf
    let (mt, roots) ← addLeaves mt leaves
    pure (mt, root :: roots)

variable {hash}

/-- **A run of `AddLeaf` calls returns the root of every prefix of the
leaves**, and the tree tracks all of them after it, while they fit. -/
theorem Tracks.addLeaves {mt : L1InfoTree α} {L : List α} (ht : Tracks hash zero mt L) :
    ∀ xs : List α, L.length + xs.length < 2 ^ mt.height →
      ∃ mt' roots, addLeaves hash mt xs = .ok (mt', roots) ∧ mt'.height = mt.height ∧
        Tracks hash zero mt' (L ++ xs) ∧
        roots = (List.range xs.length).map fun i => node hash zero (L ++ xs.take (i + 1)) mt.height 0
  | [], _ => ⟨mt, [], rfl, rfl, by simpa using ht, rfl⟩
  | x :: xs, hfit => by
    obtain ⟨mt₁, hadd, hheight, ht₁⟩ := ht.addLeaf x (by simp at hfit; omega)
    obtain ⟨mt', roots, hrun, hheight', ht', hroots⟩ := ht₁.addLeaves xs
      (by rw [hheight]; simp at hfit ⊢; omega)
    refine ⟨mt', node hash zero (L ++ [x]) mt.height 0 :: roots, ?_, hheight'.trans hheight,
      by simpa using ht', ?_⟩
    · rw [L1InfoTree.addLeaves]
      simp only [getCurrentRootCountAndSiblings]
      rw [hadd, Outcome.ok_bind, hrun, Outcome.ok_bind]
      rfl
    · rw [hroots, hheight, List.length_cons, List.range_succ_eq_map, List.map_cons, List.map_map]
      congr 1
      refine List.map_congr_left fun i _ => ?_
      simp

variable (hash zero) in
/-- **From `NewL1InfoTree`, every `AddLeaf` call succeeds and returns the
root `BuildL1InfoRoot` computes from all the leaves so far**, for every
height from 1 to 32 and every hash, while the leaves fit; and the root
the new tree starts with is `BuildL1InfoRoot` of its leaves. -/
theorem newL1InfoTree_addLeaves (height : ℕ) (hpos : 0 < height) (h32 : height ≤ 32)
    (L xs : List α) (hfit : L.length + xs.length < 2 ^ height) :
    ∃ mt, newL1InfoTree hash zero height L = .ok mt ∧ mt.buildL1InfoRoot hash L = .ok mt.currentRoot ∧
      ∃ mt' roots, addLeaves hash mt xs = .ok (mt', roots) ∧
        roots.map Outcome.ok = (List.range xs.length).map fun i => mt.buildL1InfoRoot hash (L ++ xs.take (i + 1)) := by
  obtain ⟨mt, hnew, hheight, ht⟩ := newL1InfoTree_tracks hash zero hpos h32 (L := L) (by omega)
  obtain ⟨mt', roots, hrun, -, -, hroots⟩ := ht.addLeaves xs (by rw [hheight]; exact hfit)
  have hbuild : ∀ i < xs.length + 1, mt.buildL1InfoRoot hash (L ++ xs.take i) =
      .ok (node hash zero (L ++ xs.take i) mt.height 0) := fun i _ =>
    buildL1InfoRoot_eq ht.zeroHashes_eq ht.height_pos (by rw [hheight]; simp; omega)
  have hroot : mt.buildL1InfoRoot hash L = .ok mt.currentRoot := by
    rw [ht.currentRoot_eq]
    exact buildL1InfoRoot_eq ht.zeroHashes_eq ht.height_pos (Nat.le_of_lt ht.fits)
  refine ⟨mt, hnew, hroot, mt', roots, hrun, ?_⟩
  rw [hroots, List.map_map]
  refine List.map_congr_left fun i hi => ?_
  rw [Function.comp_apply, hbuild (i + 1) (by simp at hi; omega)]

theorem newL1InfoTree_addLeaves_pair :
    0 < 2 ∧ 2 ≤ 32 ∧ [5].length + [6, 7].length < 2 ^ 2 ∧
      ∃ mt, newL1InfoTree Nat.pair 0 2 [5] = .ok mt ∧
        mt.buildL1InfoRoot Nat.pair [5] = .ok mt.currentRoot ∧
        ∃ mt' roots, addLeaves Nat.pair mt [6, 7] = .ok (mt', roots) ∧
          roots.map Outcome.ok = (List.range [6, 7].length).map fun i =>
            mt.buildL1InfoRoot Nat.pair ([5] ++ [6, 7].take (i + 1)) :=
  ⟨by decide, by decide, by decide,
    newL1InfoTree_addLeaves Nat.pair 0 2 (by decide) (by decide) [5] [6, 7] (by decide)⟩

end L1InfoTree

end XLayerNode
