import XLayerNode.Common.GoSort
import Mathlib.Data.List.Perm.Basic
import Mathlib.Data.List.Nodup
/-!
# The sorted list of ready transactions

`txSortedList` keeps the ready transactions of the worker in `sorted`, by
gas price from the highest, and in `list`, a map by hash. `add` and
`delete` change both together, so `list` is the index of `sorted` by hash;
the model keeps `sorted` and reads `list` through it (`TxSortedList.list`).

`add` inserts a transaction whose hash is not there yet at the place
`sort.Search` finds, after the transactions of a gas price at least its
own. `delete` looks the stored transaction up by hash, searches for the
first transaction of a gas price at most its own and walks down the ones of
the same price to its hash.

On a list sorted by price with distinct hashes (`WF`), `add` inserts
(`mem_add`), `delete` removes the transaction of that hash (`mem_delete`),
and both keep the list sorted with distinct hashes (`WF.add`, `WF.delete`).
-/

namespace XLayerNode

namespace Sequencer

/-- `TxTracker`, the fields the worker reads: the hash (`HashStr`), the
sender (`FromStr`), the nonce, the gas price, the cost and the time it was
received. -/
structure TxTracker where
  hash : ℕ
  fromStr : ℕ
  nonce : ℕ
  gasPrice : ℕ
  cost : ℕ
  receivedAt : ℕ
  deriving DecidableEq, Repr

/-- `txSortedList`. -/
structure TxSortedList where
  sorted : List TxTracker
  deriving DecidableEq, Repr

namespace TxSortedList

/-- `e.list[hashStr]`. -/
def list (e : TxSortedList) (hashStr : ℕ) : Option TxTracker :=
  e.sorted.find? (·.hash == hashStr)

/-- `isGreaterThan`: a strictly higher gas price. -/
def isGreaterThan (tx1 tx2 : TxTracker) : Bool := decide (tx1.gasPrice > tx2.gasPrice)

/-- `isGreaterOrEqualThan`. -/
def isGreaterOrEqualThan (tx1 tx2 : TxTracker) : Bool := decide (tx1.gasPrice ≥ tx2.gasPrice)

/-- The predicate the two searches give `sort.Search`: `tx` against
`e.list[e.sorted[i].HashStr]`. For `i` in range that entry exists, as
`sorted[i]` is in `list`. -/
def compareAt (e : TxSortedList) (cmp : TxTracker → TxTracker → Bool) (tx : TxTracker) (i : ℕ) :
    Bool :=
  match e.sorted[i]?.bind fun s => e.list s.hash with
  | some t => cmp tx t
  | none => false

/-- `addSort`. -/
def addSort (e : TxSortedList) (tx : TxTracker) : TxSortedList :=
  let i := GoSort.search e.sorted.length (e.compareAt isGreaterThan tx)
  ⟨e.sorted.insertIdx i tx⟩

/-- `add`: false when the hash is there already. -/
def add (e : TxSortedList) (tx : TxTracker) : TxSortedList × Bool :=
  match e.list tx.hash with
  | none => (e.addSort tx, true)
  | some _ => (e, false)

/-- The loop of `delete` from index `i` over `sorted[i:]`: on while the gas
price is `tx`'s, until the hash is `tx`'s. -/
def deleteWalk (tx : TxTracker) : List TxTracker → ℕ → Option ℕ
  | [], _ => none
  | s :: rest, i =>
    if s.gasPrice ≠ tx.gasPrice then none
    else if s.hash = tx.hash then some i
    else deleteWalk tx rest (i + 1)

/-- `delete`: false when the hash is not there or the walk misses it. -/
def delete (e : TxSortedList) (tx : TxTracker) : TxSortedList × Bool :=
  match e.list tx.hash with
  | none => (e, false)
  | some tx =>
    let i := GoSort.search e.sorted.length (e.compareAt isGreaterOrEqualThan tx)
    match deleteWalk tx (e.sorted.drop i) i with
    | none => (e, false)
    | some i => (⟨e.sorted.eraseIdx i⟩, true)

/-- `len`. -/
def len (e : TxSortedList) : ℕ := e.sorted.length

/-! ## Sorted with distinct hashes -/

/-- What every list the worker builds is: sorted by gas price from the
highest, with distinct hashes. -/
structure WF (e : TxSortedList) : Prop where
  sorted : e.sorted.Pairwise fun a b => b.gasPrice ≤ a.gasPrice
  nodup : (e.sorted.map (·.hash)).Nodup

variable {e : TxSortedList} {tx t : TxTracker}

theorem WF.eq_of_hash_eq (h : e.WF) {a b : TxTracker} (ha : a ∈ e.sorted) (hb : b ∈ e.sorted)
    (hab : a.hash = b.hash) : a = b :=
  List.inj_on_of_nodup_map h.nodup ha hb hab

/-- **`list` finds a transaction by its hash.** -/
theorem WF.list_eq_some_iff (h : e.WF) {k : ℕ} : e.list k = some t ↔ t ∈ e.sorted ∧ t.hash = k := by
  constructor
  · intro hfind
    exact ⟨List.mem_of_find?_eq_some hfind, by simpa using List.find?_some hfind⟩
  · rintro ⟨ht, rfl⟩
    obtain ⟨s, hs⟩ : ∃ s, e.list t.hash = some s :=
      Option.isSome_iff_exists.mp (List.find?_isSome.mpr ⟨t, ht, by simp⟩)
    have hs' := (List.mem_of_find?_eq_some hs)
    have hhash : s.hash = t.hash := by simpa using List.find?_some hs
    rw [hs, h.eq_of_hash_eq hs' ht hhash]

theorem list_eq_none_iff {k : ℕ} : e.list k = none ↔ ∀ s ∈ e.sorted, s.hash ≠ k := by
  simp [list]

theorem WF.compareAt_of_lt (h : e.WF) (cmp : TxTracker → TxTracker → Bool) (tx : TxTracker) {i : ℕ}
    (hi : i < e.sorted.length) : e.compareAt cmp tx i = cmp tx e.sorted[i] := by
  have hlist : e.list e.sorted[i].hash = some e.sorted[i] :=
    h.list_eq_some_iff.2 ⟨List.getElem_mem hi, rfl⟩
  simp [compareAt, List.getElem?_eq_getElem hi, hlist]

/-- Positions in a sorted list: a later one has a price at most an earlier's. -/
theorem WF.le_of_le (h : e.WF) {i j : ℕ} (hij : i ≤ j) (hj : j < e.sorted.length) :
    e.sorted[j].gasPrice ≤ e.sorted[i].gasPrice := by
  rcases Nat.lt_or_eq_of_le hij with hlt | rfl
  · exact List.pairwise_iff_getElem.mp h.sorted i j (by omega) hj hlt
  · exact le_rfl

/-! ## `add` -/

theorem insertIdx_eq_take_drop {α : Type} (a : α) :
    ∀ (l : List α) (i : ℕ), i ≤ l.length → l.insertIdx i a = l.take i ++ a :: l.drop i
  | _, 0, _ => by simp
  | [], _ + 1, h => by simp at h
  | b :: l, i + 1, h => by
    rw [List.insertIdx_succ_cons, insertIdx_eq_take_drop a l i (by simpa using h)]
    simp

theorem WF.hash_ne_of_ne (h : e.WF) {i j : ℕ} (hi : i < e.sorted.length) (hj : j < e.sorted.length)
    (hij : i ≠ j) : e.sorted[i].hash ≠ e.sorted[j].hash := by
  intro heq
  have hi' : i < (e.sorted.map (·.hash)).length := by simpa using hi
  have hj' : j < (e.sorted.map (·.hash)).length := by simpa using hj
  have hmap : (e.sorted.map (·.hash))[i] = (e.sorted.map (·.hash))[j] := by
    simpa using heq
  exact hij ((List.Nodup.getElem_inj_iff h.nodup).1 hmap)

theorem WF.monotone_add (h : e.WF) (tx : TxTracker) :
    GoSort.MonotoneBelow e.sorted.length (e.compareAt isGreaterThan tx) := by
  intro i j hij hj hi
  rw [h.compareAt_of_lt _ _ (by omega)] at hi
  rw [h.compareAt_of_lt _ _ hj]
  simp only [isGreaterThan, decide_eq_true_eq] at hi ⊢
  have := h.le_of_le hij hj
  omega

/-- Before the place `add` finds, the prices are at least `tx`'s. -/
theorem WF.le_of_mem_take_add (h : e.WF) {a : TxTracker}
    (ha : a ∈ e.sorted.take (GoSort.search e.sorted.length (e.compareAt isGreaterThan tx))) :
    tx.gasPrice ≤ a.gasPrice := by
  obtain ⟨k, hk, rfl⟩ := List.mem_take_iff_getElem.mp ha
  have hf := (GoSort.search_spec (h.monotone_add tx)).2.1 k (by omega)
  rw [h.compareAt_of_lt _ _ (by omega)] at hf
  simpa [isGreaterThan] using hf

/-- From the place `add` finds on, the prices are below `tx`'s. -/
theorem WF.lt_of_mem_drop_add (h : e.WF) {b : TxTracker}
    (hb : b ∈ e.sorted.drop (GoSort.search e.sorted.length (e.compareAt isGreaterThan tx))) :
    b.gasPrice < tx.gasPrice := by
  obtain ⟨j, hj, rfl⟩ := List.mem_drop_iff_getElem.mp hb
  have hspec := GoSort.search_spec (h.monotone_add tx)
  have hf := h.monotone_add tx _ _ (Nat.le_add_right _ j) (by omega) (hspec.2.2 (by omega))
  rw [h.compareAt_of_lt _ _ (by omega)] at hf
  simpa [isGreaterThan] using hf

/-- `add` of a new hash inserts at the place `sort.Search` finds. -/
theorem add_of_list_eq_none (hnone : e.list tx.hash = none) :
    e.add tx = (⟨e.sorted.take (GoSort.search e.sorted.length (e.compareAt isGreaterThan tx)) ++
      tx :: e.sorted.drop (GoSort.search e.sorted.length (e.compareAt isGreaterThan tx))⟩, true) := by
  simp only [add, hnone, addSort, insertIdx_eq_take_drop tx _ _ (GoSort.search_le _ _)]

theorem add_of_list_eq_some {s : TxTracker} (hsome : e.list tx.hash = some s) : e.add tx = (e, false) := by
  simp only [add, hsome]

/-- **`add` inserts a new hash and keeps the rest.** -/
theorem mem_add {x : TxTracker} :
    x ∈ (e.add tx).1.sorted ↔ x ∈ e.sorted ∨ (x = tx ∧ e.list tx.hash = none) := by
  cases hlist : e.list tx.hash with
  | none =>
    rw [add_of_list_eq_none hlist]
    simp only [List.mem_append, List.mem_cons, and_true]
    constructor
    · rintro (hx | rfl | hx)
      · exact .inl (List.mem_of_mem_take hx)
      · exact .inr rfl
      · exact .inl (List.mem_of_mem_drop hx)
    · rintro (hx | rfl)
      · rw [← List.take_append_drop (GoSort.search e.sorted.length (e.compareAt isGreaterThan tx))
          e.sorted, List.mem_append] at hx
        exact hx.elim .inl fun hx => .inr (.inr hx)
      · exact .inr (.inl rfl)
  | some s =>
    rw [add_of_list_eq_some hlist]
    simp

/-- **`add` keeps the list sorted with distinct hashes.** -/
theorem WF.add (h : e.WF) : (e.add tx).1.WF := by
  cases hlist : e.list tx.hash with
  | none =>
    rw [add_of_list_eq_none hlist]
    set r := GoSort.search e.sorted.length (e.compareAt isGreaterThan tx)
    have hsplit := List.take_append_drop r e.sorted
    have hpair := h.sorted
    rw [← hsplit, List.pairwise_append] at hpair
    refine ⟨?_, ?_⟩
    · -- the prices before the new one are at least its own, those after below it
      refine List.pairwise_append.2 ⟨hpair.1, ?_, fun a ha b hb => ?_⟩
      · exact List.Pairwise.cons (fun b hb => Nat.le_of_lt (h.lt_of_mem_drop_add hb)) hpair.2.1
      · rcases List.mem_cons.mp hb with rfl | hb
        · exact h.le_of_mem_take_add ha
        · exact hpair.2.2 a ha b hb
    · have hperm : List.Perm (e.sorted.take r ++ tx :: e.sorted.drop r) (tx :: e.sorted) := by
        have hmid : List.Perm (e.sorted.take r ++ tx :: e.sorted.drop r)
            (tx :: (e.sorted.take r ++ e.sorted.drop r)) := List.perm_middle
        rwa [hsplit] at hmid
      refine (hperm.map (·.hash)).nodup_iff.2 (List.nodup_cons.2 ⟨?_, h.nodup⟩)
      simp only [List.mem_map, not_exists, not_and]
      exact fun s hs => list_eq_none_iff.1 hlist s hs
  | some s =>
    rw [add_of_list_eq_some hlist]
    exact h

/-! ## `delete` -/

/-- **The walk of `delete` stops at `tx`** when every transaction before it
from where it starts has `tx`'s price and another hash. -/
theorem deleteWalk_eq (tx : TxTracker) :
    ∀ (l : List TxTracker) (i k : ℕ) (hk : k < l.length), l[k].gasPrice = tx.gasPrice →
      l[k].hash = tx.hash → (∀ j (hj : j < k), l[j].gasPrice = tx.gasPrice ∧ l[j].hash ≠ tx.hash) →
      deleteWalk tx l i = some (i + k)
  | [], _, _, hk, _, _, _ => absurd hk (Nat.not_lt_zero _)
  | s :: rest, i, 0, _, hprice, hhash, _ => by
    simp only [List.getElem_cons_zero] at hprice hhash
    simp [deleteWalk, hprice, hhash]
  | s :: rest, i, k + 1, hk, hprice, hhash, hbefore => by
    obtain ⟨hsprice, hshash⟩ := hbefore 0 (Nat.zero_lt_succ k)
    simp only [List.getElem_cons_zero] at hsprice hshash
    have hrest := deleteWalk_eq tx rest (i + 1) k (by simpa using hk) hprice hhash
      fun j hj => hbefore (j + 1) (by omega)
    simp only [deleteWalk, hsprice, ne_eq, not_true_eq_false, if_false, hshash, hrest]
    congr 1
    omega

theorem WF.monotone_delete (h : e.WF) (t : TxTracker) :
    GoSort.MonotoneBelow e.sorted.length (e.compareAt isGreaterOrEqualThan t) := by
  intro i j hij hj hi
  rw [h.compareAt_of_lt _ _ (by omega)] at hi
  rw [h.compareAt_of_lt _ _ hj]
  simp only [isGreaterOrEqualThan, decide_eq_true_eq] at hi ⊢
  have := h.le_of_le hij hj
  omega

/-- **`delete` of a hash in the list removes its transaction**, at its
index. -/
theorem WF.delete_of_getElem (h : e.WF) {k : ℕ} (hk : k < e.sorted.length)
    (hhash : e.sorted[k].hash = tx.hash) : e.delete tx = (⟨e.sorted.eraseIdx k⟩, true) := by
  have hlist : e.list tx.hash = some e.sorted[k] := h.list_eq_some_iff.2 ⟨List.getElem_mem hk, hhash⟩
  set t := e.sorted[k] with ht
  set r := GoSort.search e.sorted.length (e.compareAt isGreaterOrEqualThan t) with hr
  have hspec := GoSort.search_spec (h.monotone_delete t)
  have hfk : e.compareAt isGreaterOrEqualThan t k = true := by
    simp [h.compareAt_of_lt _ _ hk, isGreaterOrEqualThan, ← ht]
  -- the search stops at or before `t`
  have hrk : r ≤ k := by
    by_contra hlt
    rw [hspec.2.1 k (by omega)] at hfk
    exact Bool.noConfusion hfk
  -- from there to `t` the prices are `t`'s and the hashes others
  have hbefore : ∀ j (hrj : r ≤ j) (hjk : j < k),
      e.sorted[j].gasPrice = t.gasPrice ∧ e.sorted[j].hash ≠ t.hash := by
    intro j hrj hjk
    have hf := (h.monotone_delete t) r j hrj (by omega) (hspec.2.2 (by omega))
    rw [h.compareAt_of_lt _ _ (by omega)] at hf
    simp only [isGreaterOrEqualThan, decide_eq_true_eq] at hf
    have hge := h.le_of_le (Nat.le_of_lt hjk) hk
    rw [← ht] at hge
    exact ⟨by omega, h.hash_ne_of_ne (by omega) hk (by omega)⟩
  have hwalk : deleteWalk t (e.sorted.drop r) r = some k := by
    have hlen : k - r < (e.sorted.drop r).length := by simp; omega
    have hat : (e.sorted.drop r)[k - r] = t := by
      simp only [List.getElem_drop, ht]
      congr 1
      omega
    have := deleteWalk_eq t (e.sorted.drop r) r (k - r) hlen (by rw [hat]) (by rw [hat])
      fun j hj => by simpa only [List.getElem_drop] using hbefore (r + j) (by omega) (by omega)
    rw [this]
    congr 1
    omega
  simp only [delete, hlist]
  rw [← hr, hwalk]

theorem delete_of_list_eq_none (hnone : e.list tx.hash = none) : e.delete tx = (e, false) := by
  simp only [delete, hnone]

/-- **`delete` removes the transaction of the hash, if any, and keeps the
rest.** -/
theorem WF.mem_delete (h : e.WF) {x : TxTracker} :
    x ∈ (e.delete tx).1.sorted ↔ x ∈ e.sorted ∧ x.hash ≠ tx.hash := by
  cases hlist : e.list tx.hash with
  | none =>
    rw [delete_of_list_eq_none hlist]
    exact ⟨fun hx => ⟨hx, list_eq_none_iff.1 hlist x hx⟩, fun hx => hx.1⟩
  | some t =>
    obtain ⟨ht, hhash⟩ := h.list_eq_some_iff.1 hlist
    obtain ⟨k, hk, rfl⟩ := List.mem_iff_getElem.mp ht
    rw [h.delete_of_getElem hk hhash, List.mem_eraseIdx_iff_getElem]
    constructor
    · rintro ⟨i, hi, hik, rfl⟩
      exact ⟨List.getElem_mem hi, hhash ▸ h.hash_ne_of_ne hi hk hik⟩
    · rintro ⟨hx, hxhash⟩
      obtain ⟨i, hi, rfl⟩ := List.mem_iff_getElem.mp hx
      exact ⟨i, hi, fun hik => hxhash (by subst hik; exact hhash), rfl⟩

/-- `delete` only ever drops one transaction, whatever the list. -/
theorem delete_sublist : (e.delete tx).1.sorted.Sublist e.sorted := by
  cases hlist : e.list tx.hash with
  | none =>
    rw [delete_of_list_eq_none hlist]
  | some t =>
    simp only [delete, hlist]
    split
    · exact List.Sublist.refl _
    · exact List.eraseIdx_sublist _ _

/-- **`delete` keeps the list sorted with distinct hashes.** -/
theorem WF.delete (h : e.WF) : (e.delete tx).1.WF :=
  ⟨h.sorted.sublist delete_sublist, h.nodup.sublist (delete_sublist.map _)⟩

theorem add_snd_eq_true_iff : (e.add tx).2 = true ↔ e.list tx.hash = none := by
  cases hlist : e.list tx.hash with
  | none => simp [add_of_list_eq_none hlist]
  | some s => simp [add_of_list_eq_some hlist]

/-- **`delete` of a stored hash removes exactly its transaction**, the one
`list` holds for it. -/
theorem WF.delete_of_list_eq_some (h : e.WF) (hlist : e.list tx.hash = some t) :
    ∃ (k : ℕ) (hk : k < e.sorted.length), e.sorted[k] = t ∧
      e.delete tx = (⟨e.sorted.eraseIdx k⟩, true) := by
  obtain ⟨ht, hhash⟩ := h.list_eq_some_iff.1 hlist
  obtain ⟨k, hk, rfl⟩ := List.mem_iff_getElem.mp ht
  exact ⟨k, hk, rfl, h.delete_of_getElem hk hhash⟩

theorem WF.delete_snd_eq_true_iff (h : e.WF) :
    (e.delete tx).2 = true ↔ ∃ t, e.list tx.hash = some t := by
  cases hlist : e.list tx.hash with
  | none => simp [delete_of_list_eq_none hlist]
  | some t =>
    obtain ⟨k, hk, -, hdel⟩ := h.delete_of_list_eq_some hlist
    simp [hdel]

/-! ## Runs of `add` and `delete`

The worker only ever calls `add` and `delete` on the list, from an empty
one. Ties in price are kept in the order the transactions came in; to say so
a run records, for each hash, the time of the call that last inserted it
(`Run.insertedAt`), the call's index in the run. -/

/-- A call the worker makes on the list. -/
inductive Call where
  | add (tx : TxTracker)
  | delete (tx : TxTracker)
  deriving DecidableEq, Repr

/-- The list after some calls, the number of calls made (`time`) and, for
each hash, the time of the call that last inserted it. -/
structure Run where
  e : TxSortedList
  insertedAt : ℕ → ℕ
  time : ℕ

/-- One call: an `add` that inserts stamps the hash with the call's time. -/
def Run.call (r : Run) : Call → Run
  | .add tx =>
    match r.e.add tx with
    | (e, added) =>
      ⟨e, if added then Function.update r.insertedAt tx.hash r.time else r.insertedAt, r.time + 1⟩
  | .delete tx => ⟨(r.e.delete tx).1, r.insertedAt, r.time + 1⟩

/-- The calls from `newTxSortedList`. -/
def runCalls (calls : List Call) : Run :=
  calls.foldl Run.call ⟨⟨[]⟩, fun _ => 0, 0⟩

/-- What holds after every run: the list is sorted with distinct hashes,
every hash in it was inserted before now, and of two of the same price the
earlier in the list was inserted first. -/
structure Run.Inv (r : Run) : Prop where
  wf : r.e.WF
  insertedAt_lt : ∀ s ∈ r.e.sorted, r.insertedAt s.hash < r.time
  ties : r.e.sorted.Pairwise fun a b =>
    a.gasPrice = b.gasPrice → r.insertedAt a.hash < r.insertedAt b.hash

theorem Run.inv_empty (stamp : ℕ → ℕ) (time : ℕ) : (Run.mk ⟨[]⟩ stamp time).Inv :=
  ⟨⟨List.Pairwise.nil, List.nodup_nil⟩, fun _ hs => absurd hs List.not_mem_nil, List.Pairwise.nil⟩

/-- An `add` that inserts: the new transaction goes after every one of a
price at least its own, so among its price it is the last, and its stamp,
the time of the call, is above every stamp in the list. -/
theorem Run.Inv.call_add_new {r : Run} (h : r.Inv) (hnone : r.e.list tx.hash = none) :
    (r.call (.add tx)).Inv := by
  set i := GoSort.search r.e.sorted.length (r.e.compareAt isGreaterThan tx)
  set stamp := Function.update r.insertedAt tx.hash r.time
  have hcall : r.call (.add tx) = ⟨⟨r.e.sorted.take i ++ tx :: r.e.sorted.drop i⟩, stamp, r.time + 1⟩ := by
    simp only [Run.call, add_of_list_eq_none hnone, if_true]
    rfl
  -- the old hashes keep their stamps
  have hold : ∀ s ∈ r.e.sorted, stamp s.hash = r.insertedAt s.hash := fun s hs =>
    Function.update_of_ne (list_eq_none_iff.1 hnone s hs) _ _
  have htx : stamp tx.hash = r.time := Function.update_self _ _ _
  have hwf : (r.e.add tx).1.WF := h.wf.add
  rw [add_of_list_eq_none hnone] at hwf
  have hties := (h.ties.imp_of_mem fun ha hb hab hprice => by
    rw [hold _ ha, hold _ hb]
    exact hab hprice :
    r.e.sorted.Pairwise fun a b => a.gasPrice = b.gasPrice → stamp a.hash < stamp b.hash)
  rw [← List.take_append_drop i r.e.sorted, List.pairwise_append] at hties
  rw [hcall]
  refine ⟨hwf, ?_, ?_⟩
  · intro s hs
    dsimp only
    simp only [List.mem_append, List.mem_cons] at hs
    rcases hs with hs | rfl | hs
    · rw [hold s (List.mem_of_mem_take hs)]
      exact Nat.lt_succ_of_lt (h.insertedAt_lt s (List.mem_of_mem_take hs))
    · rw [htx]
      exact Nat.lt_succ_self _
    · rw [hold s (List.mem_of_mem_drop hs)]
      exact Nat.lt_succ_of_lt (h.insertedAt_lt s (List.mem_of_mem_drop hs))
  · dsimp only
    refine List.pairwise_append.2 ⟨hties.1, ?_, fun a ha b hb hprice => ?_⟩
    · -- what comes after the new transaction has a lower price
      refine List.Pairwise.cons (fun b hb hprice => ?_) hties.2.1
      exact absurd hprice (Nat.ne_of_gt (h.wf.lt_of_mem_drop_add hb))
    · rcases List.mem_cons.mp hb with rfl | hb
      · rw [htx, hold a (List.mem_of_mem_take ha)]
        exact h.insertedAt_lt a (List.mem_of_mem_take ha)
      · exact hties.2.2 a ha b hb hprice

/-- **One call keeps the invariant.** -/
theorem Run.Inv.call {r : Run} (h : r.Inv) : ∀ c, (r.call c).Inv
  | .add tx => by
    cases hlist : r.e.list tx.hash with
    | none => exact h.call_add_new hlist
    | some s =>
      have hcall : r.call (.add tx) = ⟨r.e, r.insertedAt, r.time + 1⟩ := by
        simp only [Run.call, add_of_list_eq_some hlist]
        rfl
      rw [hcall]
      exact ⟨h.wf, fun s hs => Nat.lt_succ_of_lt (h.insertedAt_lt s hs), h.ties⟩
  | .delete tx =>
    ⟨h.wf.delete, fun s hs => Nat.lt_succ_of_lt (h.insertedAt_lt s (delete_sublist.subset hs)),
      h.ties.sublist delete_sublist⟩

/-- **Every run keeps the invariant**, by induction over the calls. -/
theorem Run.Inv.foldl {r : Run} (h : r.Inv) (calls : List Call) : (calls.foldl Run.call r).Inv := by
  induction calls generalizing r with
  | nil => exact h
  | cons c calls ih => exact ih (h.call c)

theorem runCalls_inv (calls : List Call) : (runCalls calls).Inv :=
  (Run.inv_empty _ _).foldl calls

/-- **The representation invariant of `txSortedList`.** After any calls
from an empty list, `list` finds exactly the transactions of `sorted` by
their hashes, the hashes are distinct, `sorted` goes down in price with ties
in the order of insertion, and the next call returns what it should: `add`
true iff the hash is new, `delete` true iff it is stored, and then it
removes exactly the stored transaction. -/
theorem runCalls_representation (calls : List Call) :
    let r := runCalls calls
    (∀ k t, r.e.list k = some t ↔ t ∈ r.e.sorted ∧ t.hash = k) ∧
      (r.e.sorted.map (·.hash)).Nodup ∧
      r.e.sorted.Pairwise (fun a b => b.gasPrice ≤ a.gasPrice ∧
        (a.gasPrice = b.gasPrice → r.insertedAt a.hash < r.insertedAt b.hash)) ∧
      ∀ tx, ((r.e.add tx).2 = true ↔ r.e.list tx.hash = none) ∧
        ((r.e.delete tx).2 = true ↔ ∃ t, r.e.list tx.hash = some t) ∧
        ∀ t, r.e.list tx.hash = some t → ∃ (k : ℕ) (hk : k < r.e.sorted.length),
          r.e.sorted[k] = t ∧ (r.e.delete tx).1.sorted = r.e.sorted.eraseIdx k := by
  intro r
  have hinv : r.Inv := runCalls_inv calls
  refine ⟨fun k t => hinv.wf.list_eq_some_iff, hinv.wf.nodup,
    List.Pairwise.and hinv.wf.sorted hinv.ties, fun tx => ⟨add_snd_eq_true_iff,
      hinv.wf.delete_snd_eq_true_iff, fun t ht => ?_⟩⟩
  obtain ⟨k, hk, hkt, hdel⟩ := hinv.wf.delete_of_list_eq_some ht
  exact ⟨k, hk, hkt, by rw [hdel]⟩

/- Hash 1 is deleted and added again, so among price 5 it now comes after 3. -/
example : (runCalls [.add ⟨1, 0, 0, 5, 0, 0⟩, .add ⟨2, 0, 0, 7, 0, 0⟩, .add ⟨3, 0, 0, 5, 0, 0⟩,
    .delete ⟨1, 0, 0, 0, 0, 0⟩, .add ⟨1, 0, 0, 5, 0, 0⟩]).e.sorted.map (·.hash) = [2, 3, 1] := by
  decide

end TxSortedList

end Sequencer

end XLayerNode
