import Mathlib.Data.List.Pairwise
import Mathlib.Data.List.Perm.Basic
import Mathlib.Data.List.Sort
/-!
# Go's sort.Slice and sort.Search

`sort.Slice(x, less)` sorts `x` with `less` and is not stable: it returns
some permutation of `x` in which no element is less than one before it,
and nothing fixes the order of two elements neither of which is less than
the other. `SliceSorter α` is any such sort, by a natural-number key.

What the specification does determine is the result on distinct keys: it
is the one permutation of the input whose keys increase
(`SliceSorter.sort_eq_of_pairwise_lt`).

`sort.Search(n, f)` is a binary search over `[0, n)`. When `f` is
monotone there, false and then true, it returns the first index where `f`
holds, or `n` (`search_spec`, `search_eq_of`).

A `range` loop over a map visits its keys in an order the runtime picks
anew for each loop: `MapOrder` is any such order.
-/

namespace XLayerNode

/-- A sort that `sort.Slice` may be: by a key, returning a permutation of
its input in which the keys do not decrease. -/
structure SliceSorter (α : Type*) where
  sort : (α → ℕ) → List α → List α
  perm : ∀ key l, List.Perm (sort key l) l
  sorted : ∀ key l, (sort key l).Pairwise fun a b => key a ≤ key b

namespace SliceSorter

variable {α : Type*} (sorter : SliceSorter α)

/-- **On distinct keys a `sort.Slice` result is determined**: it is the
permutation of the input whose keys increase. -/
theorem sort_eq_of_pairwise_lt {key : α → ℕ} {l l' : List α} (hperm : List.Perm l' l)
    (hlt : l'.Pairwise fun a b => key a < key b) : sorter.sort key l = l' := by
  have hperm' : List.Perm (sorter.sort key l) l' := (sorter.perm key l).trans hperm.symm
  refine List.Perm.eq_of_pairwise ?_ (sorter.sorted key l) (hlt.imp Nat.le_of_lt) hperm'
  intro a b ha hb hab hba
  -- two elements of `l'` with one key are one element
  have : Std.Symm fun a b : α => key a ≠ key b := ⟨fun _ _ h => Ne.symm h⟩
  by_contra hne
  exact (hlt.imp Nat.ne_of_lt).forall (hperm'.subset ha) hb hne (Nat.le_antisymm hab hba)

/-- Insertion sort by the key, which is what `sort.Slice` does on short
slices. -/
def insertion : SliceSorter α where
  sort key l := l.insertionSort fun a b => key a ≤ key b
  perm key l := List.perm_insertionSort _ l
  sorted key l := by
    have : Std.Total fun a b : α => key a ≤ key b := ⟨fun a b => Nat.le_total (key a) (key b)⟩
    have : IsTrans α fun a b => key a ≤ key b := ⟨fun _ _ _ => Nat.le_trans⟩
    exact List.pairwise_insertionSort _ l

end SliceSorter

/-- The order a `range` loop over a map visits its keys in: any
permutation of them. -/
def MapOrder (κ : Type*) : Type _ := (keys : List κ) → { order : List κ // order.Perm keys }

/-- The keys in the order they are given. -/
def MapOrder.given {κ : Type*} : MapOrder κ := fun keys => ⟨keys, List.Perm.refl keys⟩

/-! ## sort.Search -/

namespace GoSort

/-- The loop of `sort.Search` over `[i, j)`, with fuel for its turns. -/
def searchLoop (f : ℕ → Bool) : ℕ → ℕ → ℕ → ℕ
  | 0, i, _ => i
  | fuel + 1, i, j =>
    if i < j then
      let h := (i + j) / 2
      if !f h then searchLoop f fuel (h + 1) j else searchLoop f fuel i h
    else i

/-- `sort.Search(n, f)`: `n` turns are enough, each shortens `[i, j)`. -/
def search (n : ℕ) (f : ℕ → Bool) : ℕ := searchLoop f n 0 n

theorem searchLoop_le (f : ℕ → Bool) : ∀ fuel i j, i ≤ j → searchLoop f fuel i j ≤ j
  | 0, _, _, h => h
  | fuel + 1, i, j, h => by
    by_cases hij : i < j
    · cases hf : f ((i + j) / 2) with
      | false =>
        have hstep : searchLoop f (fuel + 1) i j = searchLoop f fuel ((i + j) / 2 + 1) j := by
          simp [searchLoop, hij, hf]
        rw [hstep]
        exact searchLoop_le f fuel _ j (by omega)
      | true =>
        have hstep : searchLoop f (fuel + 1) i j = searchLoop f fuel i ((i + j) / 2) := by
          simp [searchLoop, hij, hf]
        rw [hstep]
        exact (searchLoop_le f fuel i _ (by omega)).trans (by omega)
    · have hstep : searchLoop f (fuel + 1) i j = i := by simp [searchLoop, hij]
      rw [hstep]
      exact h

/-- `sort.Search` stays in `[0, n]`, whatever `f` is. -/
theorem search_le (n : ℕ) (f : ℕ → Bool) : search n f ≤ n :=
  searchLoop_le f n 0 n (Nat.zero_le n)

/-- `f` is false and then true on `[0, n)`. -/
def MonotoneBelow (n : ℕ) (f : ℕ → Bool) : Prop :=
  ∀ i j, i ≤ j → j < n → f i = true → f j = true

/-- The invariant of the loop: below `i` the answer is false, from `j` on
(up to `n`) it is true. -/
structure SearchInv (n : ℕ) (f : ℕ → Bool) (i j : ℕ) : Prop where
  le : i ≤ j
  le_n : j ≤ n
  below : ∀ k < i, f k = false
  above : ∀ k, j ≤ k → k < n → f k = true

variable {n : ℕ} {f : ℕ → Bool}

theorem SearchInv.init : SearchInv n f 0 n :=
  ⟨Nat.zero_le n, le_rfl, fun _ hk => absurd hk (Nat.not_lt_zero _), fun _ hk hn => absurd hn (by omega)⟩

/-- One turn keeps the invariant. -/
theorem SearchInv.go_right {i j : ℕ} (h : SearchInv n f i j) (hmono : MonotoneBelow n f) (hij : i < j)
    (hf : f ((i + j) / 2) = false) : SearchInv n f ((i + j) / 2 + 1) j := by
  refine ⟨by omega, h.le_n, fun k hk => ?_, h.above⟩
  by_cases hki : k < i
  · exact h.below k hki
  · -- a true answer at `k` would make the midpoint true
    by_contra hk'
    have := hmono k ((i + j) / 2) (by omega) (by have := h.le_n; omega) (by simpa using hk')
    simp [this] at hf

theorem SearchInv.go_left {i j : ℕ} (h : SearchInv n f i j) (hmono : MonotoneBelow n f) (hij : i < j)
    (hf : f ((i + j) / 2) = true) : SearchInv n f i ((i + j) / 2) := by
  refine ⟨by omega, by have := h.le_n; omega, h.below, fun k hk hkn => ?_⟩
  exact hmono ((i + j) / 2) k hk hkn hf

/-- **The loop ends on the boundary** when it has as many turns as the
length of its range. -/
theorem searchLoop_inv (hmono : MonotoneBelow n f) :
    ∀ fuel i j, SearchInv n f i j → j - i ≤ fuel →
      SearchInv n f (searchLoop f fuel i j) (searchLoop f fuel i j)
  | 0, i, j, h, hfuel => by
    obtain rfl : j = i := by have := h.le; omega
    exact h
  | fuel + 1, i, j, h, hfuel => by
    by_cases hij : i < j
    · cases hf : f ((i + j) / 2) with
      | false =>
        have hstep : searchLoop f (fuel + 1) i j = searchLoop f fuel ((i + j) / 2 + 1) j := by
          simp [searchLoop, hij, hf]
        rw [hstep]
        exact searchLoop_inv hmono fuel _ j (h.go_right hmono hij hf) (by omega)
      | true =>
        have hstep : searchLoop f (fuel + 1) i j = searchLoop f fuel i ((i + j) / 2) := by
          simp [searchLoop, hij, hf]
        rw [hstep]
        exact searchLoop_inv hmono fuel i _ (h.go_left hmono hij hf) (by omega)
    · have hstep : searchLoop f (fuel + 1) i j = i := by simp [searchLoop, hij]
      rw [hstep]
      obtain rfl : j = i := by have := h.le; omega
      exact h

/-- **`sort.Search` returns the first index where a monotone `f` holds**,
or `n` when there is none. -/
theorem search_spec (hmono : MonotoneBelow n f) :
    search n f ≤ n ∧ (∀ k < search n f, f k = false) ∧ (search n f < n → f (search n f) = true) := by
  have h := searchLoop_inv hmono n 0 n SearchInv.init (by omega)
  exact ⟨h.le_n, h.below, fun hlt => h.above _ le_rfl hlt⟩

/-- The first index where a monotone `f` holds is what `sort.Search`
returns. -/
theorem search_eq_of (hmono : MonotoneBelow n f) {r : ℕ} (hr : r ≤ n) (hbelow : ∀ k < r, f k = false)
    (hat : r < n → f r = true) : search n f = r := by
  obtain ⟨hle, hsbelow, hsat⟩ := search_spec hmono
  by_contra hne
  rcases Nat.lt_or_gt_of_ne hne with hlt | hlt
  · have := hbelow _ hlt
    rw [hsat (by omega)] at this
    exact Bool.noConfusion this
  · have := hsbelow r hlt
    rw [hat (by omega)] at this
    exact Bool.noConfusion this

end GoSort

end XLayerNode
