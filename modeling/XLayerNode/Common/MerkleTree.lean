import Mathlib.Algebra.Order.Group.Nat
import Mathlib.Data.List.GetD
import Mathlib.Tactic.Ring
/-!
# Merkle trees over padded leaves

A list of leaves, followed by as many copies of a `zero` leaf as it takes,
fills a complete binary tree of any height. `node leaves h i` is the node
at level `h` (the leaves are level 0) and position `i`: the hash of its
children `2 * i` and `2 * i + 1` one level down. A node over padding only
is `zeroHash h` (`node_of_length_le`), and a node depends only on the
leaves under it (`node_congr`), so appending leaves changes no node whose
leaves were all there (`node_append`).

Two ways of computing nodes follow. **Level by level**: hashing adjacent
pairs of the nodes of one level gives the next (`hashPairs_nodes`).
**Along a path**: from a leaf and the siblings of the nodes above it, its
Merkle proof, `climb` recomputes every node on the path (`climb_eq_node`).

Positions at level `h` above leaf `c` are `c / 2 ^ h`; the arithmetic of
those quotients is collected first.
-/

namespace XLayerNode

namespace MerkleTree

/-! ## Positions -/

theorem div_two_pow_succ (c h : ℕ) : c / 2 ^ (h + 1) = c / 2 ^ h / 2 := by
  rw [pow_succ, Nat.div_div_eq_div_mul]

/-- One more level of the remainder: bit `h` adds `2 ^ h` when it is set. -/
theorem mod_two_pow_succ (c h : ℕ) : c % 2 ^ (h + 1) = c % 2 ^ h + 2 ^ h * (c / 2 ^ h % 2) := by
  rw [pow_succ, Nat.mod_mul]

/-- Adding a leaf moves the position at level `h` on exactly when the
subtree below it was full. -/
theorem succ_div_two_pow (c h : ℕ) :
    (c + 1) / 2 ^ h = if c % 2 ^ h = 2 ^ h - 1 then c / 2 ^ h + 1 else c / 2 ^ h := by
  have hpos := Nat.two_pow_pos h
  have hmod := Nat.mod_lt c hpos
  have hsplit := Nat.div_add_mod c (2 ^ h)
  rw [Nat.succ_div]
  by_cases hfull : c % 2 ^ h = 2 ^ h - 1
  · have hdvd : 2 ^ h ∣ c + 1 := ⟨c / 2 ^ h + 1, by rw [Nat.mul_add, Nat.mul_one]; omega⟩
    simp [hfull, hdvd]
  · have hndvd : ¬ 2 ^ h ∣ c + 1 := by
      rintro ⟨k, hk⟩
      have hk' : (c + 1) % 2 ^ h = 0 := by rw [hk, Nat.mul_mod_right]
      have : (c + 1) % 2 ^ h = c % 2 ^ h + 1 := by
        rw [Nat.add_mod, Nat.one_mod_eq_one.mpr (by omega)]
        exact Nat.mod_eq_of_lt (by omega)
      omega
    simp [hfull, hndvd]

theorem lt_succ_div_mul (c h : ℕ) : c < (c / 2 ^ h + 1) * 2 ^ h := by
  have hsplit := Nat.div_add_mod c (2 ^ h)
  have hmod := Nat.mod_lt c (Nat.two_pow_pos h)
  rw [Nat.add_mul, Nat.one_mul, Nat.mul_comm]
  omega

theorem div_mul_le (c h : ℕ) : c / 2 ^ h * 2 ^ h ≤ c := Nat.div_mul_le_self c (2 ^ h)

/-- A set bit `h` stays set one leaf later exactly when the subtree under
it was not full, and then the position at level `h` stays. -/
theorem succ_div_two_pow_of_odd {c h : ℕ} (hbit : c / 2 ^ h % 2 = 1)
    (hbit' : (c + 1) / 2 ^ h % 2 = 1) : (c + 1) / 2 ^ h = c / 2 ^ h := by
  rw [succ_div_two_pow] at hbit' ⊢
  generalize c / 2 ^ h = q at hbit hbit' ⊢
  split_ifs at hbit' ⊢ with hfull
  · omega
  · rfl

/-- A clear bit `h` is set one leaf later exactly when the subtree under it
was full; the position at level `h` moves on by one. -/
theorem succ_div_two_pow_of_even {c h : ℕ} (hbit : c / 2 ^ h % 2 = 0)
    (hbit' : (c + 1) / 2 ^ h % 2 = 1) :
    c % 2 ^ h = 2 ^ h - 1 ∧ (c + 1) / 2 ^ h - 1 = c / 2 ^ h := by
  rw [succ_div_two_pow] at hbit' ⊢
  generalize c / 2 ^ h = q at hbit hbit' ⊢
  split_ifs at hbit' ⊢ with hfull
  · exact ⟨hfull, by omega⟩
  · omega

/-- The subtree under level `h + 1` is full when the one under level `h`
is and bit `h` is set. -/
theorem mod_two_pow_succ_full_iff {c h : ℕ} (hbit : c / 2 ^ h % 2 = 1) :
    c % 2 ^ (h + 1) = 2 ^ (h + 1) - 1 ↔ c % 2 ^ h = 2 ^ h - 1 := by
  rw [mod_two_pow_succ, hbit, pow_succ]
  have := Nat.two_pow_pos h
  omega

theorem mod_two_pow_succ_not_full {c h : ℕ} (hbit : c / 2 ^ h % 2 = 0) :
    ¬ c % 2 ^ (h + 1) = 2 ^ (h + 1) - 1 := by
  rw [mod_two_pow_succ, hbit, pow_succ]
  have := Nat.two_pow_pos h
  have := Nat.mod_lt c (Nat.two_pow_pos h)
  omega

/-- The leaves under position `i` at level `h + 1`, and under its two
children, in terms of `i * 2 ^ h`. -/
theorem children_mul_two_pow (i h : ℕ) :
    i * 2 ^ (h + 1) = 2 * (i * 2 ^ h) ∧ (i + 1) * 2 ^ (h + 1) = 2 * (i * 2 ^ h) + 2 * 2 ^ h ∧
      2 * i * 2 ^ h = 2 * (i * 2 ^ h) ∧ (2 * i + 1) * 2 ^ h = 2 * (i * 2 ^ h) + 2 ^ h ∧
      (2 * i + 1 + 1) * 2 ^ h = 2 * (i * 2 ^ h) + 2 * 2 ^ h := by
  refine ⟨?_, ?_, ?_, ?_, ?_⟩ <;> ring

variable {α : Type*} (hash : α → α → α) (zero : α)

/-! ## Nodes -/

/-- The root of a tree of height `h` of `zero` leaves. -/
def zeroHash : ℕ → α
  | 0 => zero
  | h + 1 => hash (zeroHash h) (zeroHash h)

/-- The node at level `h`, position `i`, of the tree of `leaves` padded
with `zero`. -/
def node (leaves : List α) : ℕ → ℕ → α
  | 0, i => leaves.getD i zero
  | h + 1, i => hash (node leaves h (2 * i)) (node leaves h (2 * i + 1))

/-- The position of the other child of the parent of position `i`. -/
def sibling (i : ℕ) : ℕ := if i % 2 = 1 then i - 1 else i + 1

/-- From a leaf at `index`, up `h` levels: at each level the current node
is hashed with the path's node on the side the index's bit says. -/
def climb (path : ℕ → α) (index : ℕ) (leaf : α) : ℕ → α
  | 0 => leaf
  | h + 1 =>
    if index / 2 ^ h % 2 = 1 then hash (path h) (climb path index leaf h)
    else hash (climb path index leaf h) (path h)

/-- Hash adjacent pairs; an odd last element is dropped. -/
def hashPairs : List α → List α
  | a :: b :: rest => hash a b :: hashPairs rest
  | _ => []

variable {hash zero}

@[simp] theorem node_zero (leaves : List α) (i : ℕ) :
    node hash zero leaves 0 i = leaves.getD i zero := rfl

theorem node_succ (leaves : List α) (h i : ℕ) :
    node hash zero leaves (h + 1) i =
      hash (node hash zero leaves h (2 * i)) (node hash zero leaves h (2 * i + 1)) := rfl

/-- A parent, from the child at `q`: the sibling is on the left when `q`
is odd. -/
theorem node_succ_half (leaves : List α) (h q : ℕ) :
    node hash zero leaves (h + 1) (q / 2) =
      if q % 2 = 1 then hash (node hash zero leaves h (sibling q)) (node hash zero leaves h q)
      else hash (node hash zero leaves h q) (node hash zero leaves h (sibling q)) := by
  rw [node_succ]
  by_cases hodd : q % 2 = 1
  · have hq : q = 2 * (q / 2) + 1 := by omega
    have hsib : sibling q = 2 * (q / 2) := by simp only [sibling, hodd, ↓reduceIte]; omega
    rw [if_pos hodd, hsib, ← hq]
  · have hq : q = 2 * (q / 2) := by omega
    have hsib : sibling q = 2 * (q / 2) + 1 := by simp only [sibling, hodd, ↓reduceIte]; omega
    rw [if_neg hodd, hsib, ← hq]

/-- **A node over padding only is the zero tree's root.** -/
theorem node_of_length_le {leaves : List α} :
    ∀ h i, leaves.length ≤ i * 2 ^ h → node hash zero leaves h i = zeroHash hash zero h
  | 0, i, hi => by
    simp only [pow_zero, Nat.mul_one] at hi
    simp [List.getElem?_eq_none hi, zeroHash]
  | h + 1, i, hi => by
    obtain ⟨h₁, -, h₃, h₄, -⟩ := children_mul_two_pow i h
    have hpos := Nat.two_pow_pos h
    rw [node_succ, node_of_length_le h (2 * i) (by omega),
      node_of_length_le h (2 * i + 1) (by omega), zeroHash]

/-- **A node depends only on the leaves under it.** -/
theorem node_congr {l₁ l₂ : List α} :
    ∀ h i, (∀ j, i * 2 ^ h ≤ j → j < (i + 1) * 2 ^ h → l₁.getD j zero = l₂.getD j zero) →
      node hash zero l₁ h i = node hash zero l₂ h i
  | 0, i, hl => by
    simp only [pow_zero, Nat.mul_one] at hl
    exact hl i le_rfl (Nat.lt_succ_self i)
  | h + 1, i, hl => by
    obtain ⟨h₁, h₂, h₃, h₄, h₅⟩ := children_mul_two_pow i h
    rw [node_succ, node_succ,
      node_congr h (2 * i) fun j hj₁ hj₂ => hl j (by omega) (by omega),
      node_congr h (2 * i + 1) fun j hj₁ hj₂ => hl j (by omega) (by omega)]

/-- Appending leaves leaves every node whose leaves were all there. -/
theorem node_append {l : List α} (more : List α) {h i : ℕ} (hi : (i + 1) * 2 ^ h ≤ l.length) :
    node hash zero (l ++ more) h i = node hash zero l h i := by
  refine node_congr h i fun j _ hj => ?_
  rw [List.getD_append _ _ _ _ (by omega)]

/-! ## Level by level -/

theorem hashPairs_map_range' (f : ℕ → α) :
    ∀ s k, hashPairs hash ((List.range' s (2 * k)).map f) =
      (List.range k).map fun i => hash (f (s + 2 * i)) (f (s + 2 * i + 1))
  | _, 0 => rfl
  | s, k + 1 => by
    rw [show 2 * (k + 1) = (2 * k + 1) + 1 by ring, List.range'_succ, List.range'_succ,
      List.map_cons, List.map_cons, hashPairs, hashPairs_map_range' f (s + 1 + 1) k,
      List.range_succ_eq_map, List.map_cons, List.map_map]
    congr 2
    funext i
    simp only [Function.comp]
    congr 2 <;> omega

/-- **Hashing the pairs of a level gives the next level.** -/
theorem hashPairs_nodes (leaves : List α) (h k : ℕ) :
    hashPairs hash ((List.range (2 * k)).map (node hash zero leaves h)) =
      (List.range k).map (node hash zero leaves (h + 1)) := by
  rw [List.range_eq_range', hashPairs_map_range']
  simp only [Nat.zero_add]
  rfl

/-! ## Along a path -/

/-- **A Merkle proof recomputes the path of its leaf**: when the path holds
the sibling of every node above the leaf, climbing `h` levels from it
gives the node at level `h` above it. -/
theorem climb_eq_node {leaves : List α} {path : ℕ → α} {index : ℕ} :
    ∀ h, (∀ j < h, path j = node hash zero leaves j (sibling (index / 2 ^ j))) →
      climb hash path index (node hash zero leaves 0 index) h =
        node hash zero leaves h (index / 2 ^ h)
  | 0, _ => by simp [climb]
  | h + 1, hpath => by
    rw [climb, climb_eq_node h fun j hj => hpath j (by omega), hpath h (by omega),
      div_two_pow_succ, node_succ_half]

end MerkleTree

end XLayerNode
