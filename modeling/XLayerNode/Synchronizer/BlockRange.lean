import Mathlib
/-!
# Block ranges, and the lists of live ones

The parallel L1 synchronizer asks its workers for ranges of L1 blocks.
`BlockRange` is such a range, with `latestBlockNumber` (`2 ^ 64 - 1`) as
the end of a range that runs to whatever the last block turns out to be.
`addBlockRange` keeps a list of live ranges free of overlaps, and
`removeBlockRange` takes a range out of one.

A valid range stands for the set of its blocks (`BlockRange.blocks`), and
two valid ranges overlap exactly when their sets meet
(`overlaps_eq_false_iff_disjoint`): a list that `addBlockRange` builds is a
family of pairwise disjoint sets of blocks.
-/

namespace XLayerNode

namespace Synchronizer

/-- `latestBlockNumber`: `^uint64(0)`. -/
def latestBlockNumber : ℕ := 2 ^ 64 - 1

/-- `invalidBlockNumber`. -/
def invalidBlockNumber : ℕ := 0

/-- The errors of block ranges and of the lists of live ones. A nil range,
`errBlockRangeInvalidIsNil`, does not arise: every range here is a
value. -/
inductive RangeError where
  /-- `errBlockRangeInvalidIsZero` -/
  | invalidIsZero
  /-- `errBlockRangeInvalidIsWrong` -/
  | invalidIsWrong
  /-- `errBlockRangeInvalidOverlap` -/
  | invalidOverlap
  /-- `errBlockRangeNotFound` -/
  | notFound
  /-- `errBlockRangeIsEmpty` -/
  | isEmpty
  deriving DecidableEq, Repr

/-- `blockRange`: the blocks from `fromBlock` to `toBlock`, both included. -/
structure BlockRange where
  fromBlock : ℕ
  toBlock : ℕ
  deriving DecidableEq, Repr

namespace BlockRange

/-- `blockRange.isValid`. -/
def isValid (b : BlockRange) : Except RangeError Unit :=
  if b.fromBlock = invalidBlockNumber ∨ b.toBlock = invalidBlockNumber then .error .invalidIsZero
  else if b.fromBlock > b.toBlock then .error .invalidIsWrong
  else .ok ()

/-- `blockRange.overlaps`. -/
def overlaps (b br : BlockRange) : Bool :=
  decide (b.fromBlock ≤ br.toBlock ∧ br.fromBlock ≤ b.toBlock)

/-- A range `isValid` accepts. -/
structure Valid (b : BlockRange) : Prop where
  fromBlock_pos : 0 < b.fromBlock
  le : b.fromBlock ≤ b.toBlock

/-- The blocks of a range. -/
def blocks (b : BlockRange) : Set ℕ := Set.Icc b.fromBlock b.toBlock

theorem isValid_eq_ok_iff {b : BlockRange} : b.isValid = .ok () ↔ b.Valid := by
  unfold isValid invalidBlockNumber
  constructor
  · intro h
    split_ifs at h with h1 h2
    exact ⟨by omega, by omega⟩
  · rintro ⟨h1, h2⟩
    rw [if_neg (by omega), if_neg (by omega)]

theorem overlaps_comm (b br : BlockRange) : b.overlaps br = br.overlaps b := by
  rw [overlaps, overlaps, decide_eq_decide]
  exact And.comm

/-- **Two valid ranges overlap exactly when they share a block.** -/
theorem overlaps_eq_false_iff_disjoint {b br : BlockRange} (hb : b.Valid) (hbr : br.Valid) :
    b.overlaps br = false ↔ Disjoint b.blocks br.blocks := by
  rw [overlaps, decide_eq_false_iff_not, Set.disjoint_left]
  simp only [blocks, Set.mem_Icc, not_and, not_le]
  have := hb.le
  have := hbr.le
  constructor
  · intro h n hn hn'
    omega
  · intro h h1
    by_contra h2
    -- the later start lies in both ranges
    have := h (show b.fromBlock ≤ max b.fromBlock br.fromBlock ∧
      max b.fromBlock br.fromBlock ≤ b.toBlock by omega)
    omega

/-- A range after every block of another does not overlap it. -/
theorem overlaps_eq_false_of_lt {b br : BlockRange} (h : b.toBlock < br.fromBlock) :
    b.overlaps br = false := by
  rw [overlaps, decide_eq_false_iff_not]
  omega

end BlockRange

/-! ## Lists of live ranges -/

/-- `liveBlockRanges.overlaps`: some live range overlaps `br`. -/
def liveOverlaps (l : List BlockRange) (br : BlockRange) : Bool :=
  l.any fun r => r.overlaps br

/-- `liveBlockRanges.addBlockRange`: a valid range that overlaps none of the
live ones is appended. -/
def addBlockRange (l : List BlockRange) (br : BlockRange) : Except RangeError (List BlockRange) :=
  match br.isValid with
  | .error e => .error e
  | .ok () => if liveOverlaps l br then .error .invalidOverlap else .ok (l ++ [br])

/-- `liveBlockRanges.removeBlockRange`: the first live range equal to `br`
is taken out. -/
def removeBlockRange (l : List BlockRange) (br : BlockRange) : Except RangeError (List BlockRange) :=
  if br ∈ l then .ok (l.erase br) else .error .notFound

/-- `liveBlockRanges.getFirstBlockRange`. -/
def getFirstBlockRange (l : List BlockRange) : Except RangeError BlockRange :=
  match l with
  | [] => .error .isEmpty
  | br :: _ => .ok br

/-- Live ranges that pairwise do not overlap. -/
def NoOverlaps (l : List BlockRange) : Prop :=
  l.Pairwise fun a b => a.overlaps b = false

theorem liveOverlaps_eq_false_iff {l : List BlockRange} {br : BlockRange} :
    liveOverlaps l br = false ↔ ∀ r ∈ l, r.overlaps br = false := by
  simp [liveOverlaps]

/-- **`addBlockRange` accepts a valid range that overlaps no live one**, and
only such a range. -/
theorem addBlockRange_eq_ok_iff {l l' : List BlockRange} {br : BlockRange} :
    addBlockRange l br = .ok l' ↔
      br.Valid ∧ (∀ r ∈ l, r.overlaps br = false) ∧ l' = l ++ [br] := by
  unfold addBlockRange
  cases hv : br.isValid with
  | error e =>
    have : ¬ br.Valid := fun h => by rw [BlockRange.isValid_eq_ok_iff.2 h] at hv; cases hv
    simp [this]
  | ok u =>
    have hvalid : br.Valid := BlockRange.isValid_eq_ok_iff.1 hv
    cases hlive : liveOverlaps l br with
    | true =>
      have : ¬ ∀ r ∈ l, r.overlaps br = false := by
        rw [← liveOverlaps_eq_false_iff, hlive]
        decide
      simp [this]
    | false =>
      simp only [Bool.false_eq_true, ↓reduceIte, Except.ok.injEq, hvalid, true_and]
      have hall := liveOverlaps_eq_false_iff.1 hlive
      exact ⟨fun h => ⟨hall, h.symm⟩, fun h => h.2.symm⟩

theorem removeBlockRange_eq_ok_iff {l l' : List BlockRange} {br : BlockRange} :
    removeBlockRange l br = .ok l' ↔ br ∈ l ∧ l' = l.erase br := by
  unfold removeBlockRange
  split_ifs with h
  · simp [h, eq_comm]
  · simp [h]

/-- Adding a range to a list without overlaps keeps it so. -/
theorem NoOverlaps.append_singleton {l : List BlockRange} {br : BlockRange} (hl : NoOverlaps l)
    (hbr : ∀ r ∈ l, r.overlaps br = false) : NoOverlaps (l ++ [br]) := by
  unfold NoOverlaps
  rw [List.pairwise_append]
  exact ⟨hl, List.pairwise_singleton _ _, fun a ha b hb => by
    rw [List.mem_singleton] at hb
    rw [hb]
    exact hbr a ha⟩

/-- **The blocks of live ranges without overlaps are pairwise disjoint.** -/
theorem NoOverlaps.pairwise_disjoint {l : List BlockRange} (hl : NoOverlaps l)
    (hvalid : ∀ r ∈ l, r.Valid) :
    l.Pairwise fun a b => Disjoint a.blocks b.blocks := by
  refine List.Pairwise.imp_of_mem ?_ hl
  intro a b ha hb h
  exact (BlockRange.overlaps_eq_false_iff_disjoint (hvalid a ha) (hvalid b hb)).1 h

end Synchronizer

end XLayerNode
