import Mathlib.Logic.Function.Basic
import Mathlib.Data.Nat.Notation
import Mathlib.Tactic.SplitIfs
/-!
# Caches whose entries expire

`TtlCache K V` maps keys to values, each entry valid until a time. Writing
an entry, or reading a valid one, makes it live `timeOfLiveItems` from the
time the clock gives then; an entry read after its time is removed. The
clock is read by the caller, and every operation that reads it takes the
time as an argument.

What a caller needs is what can be in the cache. `AllValues P` says that
every entry's value satisfies `P` of its key. Every operation keeps it when
the values it writes do (`AllValues.set`, `AllValues.get`, and so on), and a
value `get` returns is one of the cache's (`AllValues.get_fst`).
-/

namespace XLayerNode

/-- An entry: its value and the time it is valid until. -/
structure CacheItem (V : Type) where
  value : V
  validTime : ℕ

/-- A map whose entries expire `timeOfLiveItems` after they were last
written or read. -/
structure TtlCache (K V : Type) where
  data : K → Option (CacheItem V)
  timeOfLiveItems : ℕ

namespace TtlCache

variable {K V : Type} [DecidableEq K]

/-- An empty cache. -/
def new (timeOfLiveItems : ℕ) : TtlCache K V := ⟨fun _ => none, timeOfLiveItems⟩

/-- Remove the entry of `key`. -/
def delete (c : TtlCache K V) (key : K) : TtlCache K V :=
  { c with data := Function.update c.data key none }

/-- Write `value` under `key`, valid until `now + timeOfLiveItems`. -/
def set (c : TtlCache K V) (key : K) (value : V) (now : ℕ) : TtlCache K V :=
  { c with data := Function.update c.data key (some ⟨value, now + c.timeOfLiveItems⟩) }

/-- Read `key` at `now`: an entry valid until before `now` is removed and
not returned; a valid one is returned and lives on from `now`. -/
def get (c : TtlCache K V) (key : K) (now : ℕ) : Option V × TtlCache K V :=
  match c.data key with
  | none => (none, c)
  | some item =>
    if item.validTime < now then (none, c.delete key)
    else (some item.value, c.set key item.value now)

/-- Read `key` at `now`, `defaultValue` when it has no valid entry. -/
def getOrDefault (c : TtlCache K V) (key : K) (defaultValue : V) (now : ℕ) : V × TtlCache K V :=
  ((c.get key now).1.getD defaultValue, (c.get key now).2)

/-- Remove every entry. -/
def clear (c : TtlCache K V) : TtlCache K V :=
  { c with data := fun _ => none }

/-- Remove every entry valid until before `now`. -/
def deleteOutdated (c : TtlCache K V) (now : ℕ) : TtlCache K V :=
  { c with data := fun k => (c.data k).filter fun item => !decide (item.validTime < now) }

omit [DecidableEq K] in
@[simp] theorem data_new (timeOfLiveItems : ℕ) (k : K) : (new timeOfLiveItems : TtlCache K V).data k = none :=
  rfl

@[simp] theorem data_delete (c : TtlCache K V) (key k : K) :
    (c.delete key).data k = if k = key then none else c.data k :=
  Function.update_apply c.data key none k

@[simp] theorem data_set (c : TtlCache K V) (key k : K) (value : V) (now : ℕ) :
    (c.set key value now).data k = if k = key then some ⟨value, now + c.timeOfLiveItems⟩ else c.data k :=
  Function.update_apply c.data key _ k

omit [DecidableEq K] in
@[simp] theorem data_clear (c : TtlCache K V) (k : K) : c.clear.data k = none := rfl

omit [DecidableEq K] in
@[simp] theorem data_deleteOutdated (c : TtlCache K V) (now : ℕ) (k : K) :
    (c.deleteOutdated now).data k = (c.data k).filter fun item => !decide (item.validTime < now) :=
  rfl

/-- A value read is the value of the key's entry. -/
theorem get_fst_eq_some {c : TtlCache K V} {key : K} {now : ℕ} {v : V} (h : (c.get key now).1 = some v) :
    ∃ item, c.data key = some item ∧ item.value = v := by
  unfold get at h
  split at h
  · cases h
  · rename_i item hitem
    split_ifs at h
    exact ⟨item, hitem, Option.some.inj h⟩

/-! ## What can be in the cache -/

/-- Every entry's value satisfies `P` of its key. -/
def AllValues (P : K → V → Prop) (c : TtlCache K V) : Prop :=
  ∀ k item, c.data k = some item → P k item.value

variable {P : K → V → Prop} {c : TtlCache K V}

omit [DecidableEq K] in
theorem allValues_new (timeOfLiveItems : ℕ) : AllValues P (new timeOfLiveItems : TtlCache K V) :=
  fun _ _ h => by cases h

theorem AllValues.delete (h : AllValues P c) (key : K) : AllValues P (c.delete key) := by
  intro k item hk
  rw [data_delete] at hk
  split_ifs at hk
  exact h k item hk

theorem AllValues.set (h : AllValues P c) {key : K} {value : V} (hv : P key value) (now : ℕ) :
    AllValues P (c.set key value now) := by
  intro k item hk
  rw [data_set] at hk
  split_ifs at hk with hkey
  · rw [← Option.some.inj hk, hkey]
    exact hv
  · exact h k item hk

omit [DecidableEq K] in
theorem allValues_clear (c : TtlCache K V) : AllValues P c.clear :=
  fun _ _ hk => by cases hk

omit [DecidableEq K] in
theorem AllValues.deleteOutdated (h : AllValues P c) (now : ℕ) : AllValues P (c.deleteOutdated now) := by
  intro k item hk
  rw [data_deleteOutdated] at hk
  exact h k item (Option.eq_some_of_filter_eq_some hk)

/-- A value read satisfies `P` of its key. -/
theorem AllValues.get_fst (h : AllValues P c) {key : K} {now : ℕ} {v : V} (hv : (c.get key now).1 = some v) :
    P key v := by
  obtain ⟨item, hitem, rfl⟩ := get_fst_eq_some hv
  exact h key item hitem

/-- Reading keeps the values: a read entry is written back unchanged. -/
theorem AllValues.get (h : AllValues P c) (key : K) (now : ℕ) : AllValues P (c.get key now).2 := by
  unfold TtlCache.get
  split
  · exact h
  · rename_i item hitem
    split_ifs
    · exact h.delete key
    · exact h.set (h key item hitem) now

/-- A value read with a default satisfies `P` when the default does. -/
theorem AllValues.getOrDefault_fst (h : AllValues P c) {key : K} {defaultValue : V} (hd : P key defaultValue)
    (now : ℕ) : P key (c.getOrDefault key defaultValue now).1 := by
  unfold TtlCache.getOrDefault
  cases hv : (c.get key now).1 with
  | none => exact hd
  | some v => exact h.get_fst hv

theorem AllValues.getOrDefault (h : AllValues P c) (key : K) (defaultValue : V) (now : ℕ) :
    AllValues P (c.getOrDefault key defaultValue now).2 :=
  h.get key now

end TtlCache

end XLayerNode
