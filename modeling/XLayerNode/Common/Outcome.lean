import Mathlib.Data.List.Forall2
import Mathlib.Data.List.Basic
import Mathlib.Tactic.Common
/-!
# Outcomes of a Go function: a value, an error, or a panic

A Go function hands back a value or an `error`; a slice expression or an
index out of range does neither and stops the program. `Outcome ε α` keeps
the three apart, so that "this decoder never panics" is a statement about
a value. `slice`, `index` and `set` are Go's `s[lo:hi]`, `s[i]` and
`s[i] = a`, checked against `len(s)`.

The rules proofs use are the inversion lemmas of `bind`
(`bind_eq_ok`, `bind_eq_panic`) and the bounds of a successful slice
(`slice_eq_ok`, `index_eq_ok`); nothing downstream unfolds `bind`.
-/

namespace XLayerNode

/-- What a call returns: a value, an error value, or a runtime panic. -/
inductive Outcome (ε α : Type) where
  | ok (a : α)
  | err (e : ε)
  | panic
  deriving DecidableEq, Repr

namespace Outcome

variable {ε α β : Type}

/-- Sequencing: an error or a panic stops the computation. -/
def bind : Outcome ε α → (α → Outcome ε β) → Outcome ε β
  | ok a, f => f a
  | err e, _ => err e
  | panic, _ => panic

instance : Monad (Outcome ε) where
  pure := ok
  bind := bind

instance : MonadExceptOf ε (Outcome ε) where
  throw := err
  tryCatch x h := match x with
    | err e => h e
    | x => x

@[simp] theorem pure_def (a : α) : (pure a : Outcome ε α) = ok a := rfl

@[simp] theorem throw_def (e : ε) : (throw e : Outcome ε α) = err e := rfl

@[simp] theorem ok_bind (a : α) (f : α → Outcome ε β) : (ok a >>= f) = f a := rfl

@[simp] theorem err_bind (e : ε) (f : α → Outcome ε β) : (err e >>= f) = err e := rfl

@[simp] theorem panic_bind (f : α → Outcome ε β) : (panic >>= f) = panic := rfl

@[simp] theorem map_ok (f : α → β) (a : α) : (f <$> ok a : Outcome ε β) = ok (f a) := rfl

@[simp] theorem map_err (f : α → β) (e : ε) : (f <$> err e : Outcome ε β) = err e := rfl

@[simp] theorem map_panic (f : α → β) : (f <$> (panic : Outcome ε α)) = panic := rfl

theorem map_eq_ok {f : α → β} {x : Outcome ε α} {b : β} :
    f <$> x = ok b ↔ ∃ a, x = ok a ∧ f a = b := by
  cases x <;> simp

instance : LawfulMonad (Outcome ε) :=
  LawfulMonad.mk' (Outcome ε) (fun x => by cases x <;> rfl) (fun _ _ => rfl)
    (fun x _ _ => by cases x <;> rfl)

/-- **Inversion of a successful bind**: both halves succeeded. -/
theorem bind_eq_ok {x : Outcome ε α} {f : α → Outcome ε β} {b : β} :
    (x >>= f) = ok b ↔ ∃ a, x = ok a ∧ f a = ok b := by
  cases x <;> simp

/-- A bind panics exactly when one of its halves does. -/
theorem bind_eq_panic {x : Outcome ε α} {f : α → Outcome ε β} :
    (x >>= f) = panic ↔ x = panic ∨ ∃ a, x = ok a ∧ f a = panic := by
  cases x <;> simp

/-- A bind fails with an error exactly when one of its halves does. -/
theorem bind_eq_err {x : Outcome ε α} {f : α → Outcome ε β} {e : ε} :
    (x >>= f) = err e ↔ x = err e ∨ ∃ a, x = ok a ∧ f a = err e := by
  cases x <;> simp

/-- No panic in a bind: the first half does not panic, and no value it
can return makes the second half panic. -/
theorem bind_ne_panic {x : Outcome ε α} {f : α → Outcome ε β}
    (hx : x ≠ panic) (hf : ∀ a, x = ok a → f a ≠ panic) : (x >>= f) ≠ panic := by
  rw [Ne, bind_eq_panic]
  rintro (h | ⟨a, ha, hfa⟩)
  · exact hx h
  · exact hf a ha hfa

/-- Lifting an `Except` (a call that cannot panic) into an outcome. -/
def ofExcept : Except ε α → Outcome ε α
  | .ok a => ok a
  | .error e => err e

@[simp] theorem ofExcept_ok (a : α) : ofExcept (.ok a : Except ε α) = ok a := rfl

@[simp] theorem ofExcept_error (e : ε) : ofExcept (.error e : Except ε α) = err e := rfl

theorem ofExcept_eq_ok {x : Except ε α} {a : α} : ofExcept x = ok a ↔ x = .ok a := by
  cases x <;> simp [ofExcept]

theorem ofExcept_ne_panic (x : Except ε α) : ofExcept x ≠ panic := by
  cases x <;> simp [ofExcept]

/-- Re-labelling the error of a call, as `fmt.Errorf("...: %w", err)` or a
sentinel returned in its place does. -/
def mapErr {ε' : Type} (g : ε → ε') : Outcome ε α → Outcome ε' α
  | ok a => ok a
  | err e => err (g e)
  | panic => panic

@[simp] theorem mapErr_ok {ε' : Type} (g : ε → ε') (a : α) : (ok a : Outcome ε α).mapErr g = ok a :=
  rfl

@[simp] theorem mapErr_err {ε' : Type} (g : ε → ε') (e : ε) :
    (err e : Outcome ε α).mapErr g = err (g e) := rfl

@[simp] theorem mapErr_panic {ε' : Type} (g : ε → ε') : (panic : Outcome ε α).mapErr g = panic :=
  rfl

/-! ## Go's slice expressions -/

/-- Go's `s[lo:hi]`: the elements at `lo, …, hi - 1`, or a panic unless
`lo ≤ hi ≤ len(s)`. -/
def slice (s : List α) (lo hi : ℕ) : Outcome ε (List α) :=
  if lo ≤ hi ∧ hi ≤ s.length then ok ((s.drop lo).take (hi - lo)) else panic

/-- Go's `s[i]`, or a panic unless `i < len(s)`. -/
def index (s : List α) (i : ℕ) : Outcome ε α :=
  if h : i < s.length then ok s[i] else panic

/-- **A slice that does not panic was in bounds.** -/
theorem slice_eq_ok {s r : List α} {lo hi : ℕ} :
    (slice s lo hi : Outcome ε (List α)) = ok r ↔
      lo ≤ hi ∧ hi ≤ s.length ∧ r = (s.drop lo).take (hi - lo) := by
  unfold slice
  split_ifs with h
  · simp only [ok.injEq]
    exact ⟨fun e => ⟨h.1, h.2, e.symm⟩, fun e => e.2.2.symm⟩
  · simp only [false_iff]
    exact fun e => h ⟨e.1, e.2.1⟩

theorem slice_eq_panic {s : List α} {lo hi : ℕ} :
    (slice s lo hi : Outcome ε (List α)) = panic ↔ ¬ (lo ≤ hi ∧ hi ≤ s.length) := by
  unfold slice
  split_ifs with h <;> simp [h]

theorem slice_of_le {s : List α} {lo hi : ℕ} (h : lo ≤ hi) (h' : hi ≤ s.length) :
    (slice s lo hi : Outcome ε (List α)) = ok ((s.drop lo).take (hi - lo)) :=
  slice_eq_ok.2 ⟨h, h', rfl⟩

theorem slice_ne_err {s : List α} {lo hi : ℕ} {e : ε} :
    (slice s lo hi : Outcome ε (List α)) ≠ err e := by
  unfold slice
  split_ifs <;> simp

theorem length_of_slice_eq_ok {s r : List α} {lo hi : ℕ}
    (h : (slice s lo hi : Outcome ε (List α)) = ok r) : r.length = hi - lo := by
  obtain ⟨h1, h2, rfl⟩ := slice_eq_ok.1 h
  simp only [List.length_take, List.length_drop]
  omega

/-- **An index that does not panic was in bounds.** -/
theorem index_eq_ok {s : List α} {i : ℕ} {a : α} :
    (index s i : Outcome ε α) = ok a ↔ ∃ h : i < s.length, s[i] = a := by
  unfold index
  split_ifs with h <;> simp [h]

theorem index_eq_panic {s : List α} {i : ℕ} :
    (index s i : Outcome ε α) = panic ↔ s.length ≤ i := by
  unfold index
  split_ifs with h
  · simp only [false_iff]
    omega
  · simp only [true_iff]
    omega

theorem index_of_lt {s : List α} {i : ℕ} (h : i < s.length) :
    (index s i : Outcome ε α) = ok s[i] := by
  simp [index, h]

theorem index_ne_err {s : List α} {i : ℕ} {e : ε} : (index s i : Outcome ε α) ≠ err e := by
  unfold index
  split_ifs <;> simp

theorem index_of_getElem? {s : List α} {i : ℕ} {a : α} (h : s[i]? = some a) :
    (index s i : Outcome ε α) = ok a := by
  obtain ⟨hi, rfl⟩ := List.getElem?_eq_some_iff.mp h
  exact index_of_lt hi

/-- Reading each index of a list of them: a panic unless all are in
bounds. -/
theorem mapM_index_eq {s : List α} {f : ℕ → α} :
    ∀ {l : List ℕ}, (∀ i ∈ l, s[i]? = some (f i)) →
      (l.mapM fun i => index s i : Outcome ε (List α)) = ok (l.map f)
  | [], _ => rfl
  | i :: l, h => by
    rw [List.mapM_cons, index_of_getElem? (h i List.mem_cons_self), ok_bind,
      mapM_index_eq fun j hj => h j (List.mem_cons_of_mem i hj), ok_bind]
    rfl

/-- A loop that folds `s[i]` into an accumulator for each index of a
list: no panic when all are in bounds. -/
theorem foldlM_index_eq {γ : Type} {s : List α} {f : ℕ → α} (g : γ → ℕ → α → γ) :
    ∀ {l : List ℕ} (c : γ), (∀ i ∈ l, s[i]? = some (f i)) →
      (l.foldlM (fun acc i => do let x ← index s i; pure (g acc i x)) c : Outcome ε γ) =
        ok (l.foldl (fun acc i => g acc i (f i)) c)
  | [], _, _ => rfl
  | i :: l, c, h => by
    rw [List.foldlM_cons, index_of_getElem? (h i List.mem_cons_self), ok_bind, pure_def, ok_bind,
      foldlM_index_eq g _ fun j hj => h j (List.mem_cons_of_mem i hj)]
    rfl

/-- **A loop that does not panic**, when no turn of it does. -/
theorem mapM_ne_panic {f : α → Outcome ε β} :
    ∀ {l : List α}, (∀ a ∈ l, f a ≠ panic) → l.mapM f ≠ panic
  | [], _ => by simp
  | a :: l, h => by
    rw [List.mapM_cons]
    refine bind_ne_panic (h a List.mem_cons_self) fun b _ => ?_
    refine bind_ne_panic (mapM_ne_panic fun a' ha' => h a' (List.mem_cons_of_mem a ha'))
      fun bs _ => ?_
    simp

/-- **A loop that returns ran every turn to a value**, in order. -/
theorem mapM_eq_ok {f : α → Outcome ε β} :
    ∀ {l : List α} {r : List β}, l.mapM f = ok r → List.Forall₂ (fun a b => f a = ok b) l r
  | [], r, h => by
    simp only [List.mapM_nil, pure_def, ok.injEq] at h
    subst h
    exact .nil
  | a :: l, r, h => by
    rw [List.mapM_cons] at h
    obtain ⟨b, hb, h⟩ := bind_eq_ok.1 h
    obtain ⟨bs, hbs, h⟩ := bind_eq_ok.1 h
    simp only [pure_def, ok.injEq] at h
    subst h
    exact .cons hb (mapM_eq_ok hbs)

/-- A loop that returns: what each value says of its turn, the whole list
says of the loop's list. -/
theorem map_of_mapM_eq_ok {γ : Type} {f : α → Outcome ε β} {g : β → γ} {h : α → γ}
    (hturn : ∀ a b, f a = ok b → g b = h a) {l : List α} {r : List β} (hm : l.mapM f = ok r) :
    r.map g = l.map h := by
  have hall := mapM_eq_ok hm
  clear hm
  induction hall with
  | nil => rfl
  | cons hab _ ih => rw [List.map_cons, List.map_cons, hturn _ _ hab, ih]

/-- A call that has no errors to return and does not panic returns a
value. -/
theorem exists_eq_ok_of_ne_panic {x : Outcome Empty α} (h : x ≠ panic) : ∃ a, x = ok a := by
  cases x with
  | ok a => exact ⟨a, rfl⟩
  | err e => exact e.elim
  | panic => exact absurd rfl h

/-- A loop over `0, …, n - 1` that returns: one value per index. -/
theorem mapM_range_eq_ok {f : ℕ → Outcome ε β} {n : ℕ} {r : List β}
    (h : (List.range n).mapM f = ok r) :
    r.length = n ∧ ∀ i (hi : i < r.length), f i = ok r[i] := by
  obtain ⟨hlen, hget⟩ := List.forall₂_iff_get.1 (mapM_eq_ok h)
  rw [List.length_range] at hlen
  refine ⟨hlen.symm, fun i hi => ?_⟩
  simpa using hget i (by simp only [List.length_range]; omega) hi

/-- A loop over `0, …, n - 1` whose turn `i`, when it returns, returns a
value that `g` takes to the `i`-th of `hs`: `g` takes what the loop
returns to `hs`. -/
theorem map_of_mapM_range_eq_ok {γ : Type} {f : ℕ → Outcome ε β} {g : β → γ} {n : ℕ}
    {hs : List γ} {r : List β} (hn : n = hs.length)
    (hturn : ∀ i < n, ∀ b, f i = ok b → hs[i]? = some (g b))
    (h : (List.range n).mapM f = ok r) : r.map g = hs := by
  obtain ⟨hlen, hget⟩ := mapM_range_eq_ok h
  refine List.ext_getElem? fun i => ?_
  rw [List.getElem?_map]
  by_cases hi : i < n
  · rw [List.getElem?_eq_getElem (by omega), Option.map_some]
    exact (hturn i hi _ (hget i (by omega))).symm
  · rw [List.getElem?_eq_none (by omega), List.getElem?_eq_none (by omega), Option.map_none]

/-- Go's `s[i] = a`, or a panic unless `i < len(s)`. -/
def set (s : List α) (i : ℕ) (a : α) : Outcome ε (List α) :=
  if i < s.length then ok (s.set i a) else panic

theorem set_of_lt {s : List α} {i : ℕ} (a : α) (h : i < s.length) :
    (set s i a : Outcome ε (List α)) = ok (s.set i a) := by
  simp [set, h]

/-- Slicing a slice at a known offset: the window of `p ++ s` that starts
after `p` is the window of `s`. -/
theorem slice_append_left (p s : List α) (lo hi : ℕ) :
    (slice (p ++ s) (p.length + lo) (p.length + hi) : Outcome ε (List α)) = slice s lo hi := by
  unfold slice
  simp only [List.length_append, Nat.add_le_add_iff_left, Nat.add_sub_add_left,
    List.drop_append, List.drop_eq_nil_of_le (Nat.le_add_right p.length lo), List.nil_append,
    Nat.add_sub_cancel_left]

theorem index_append_left (p s : List α) (i : ℕ) :
    (index (p ++ s) (p.length + i) : Outcome ε α) = index s i := by
  unfold index
  by_cases h : i < s.length
  · have h' : p.length + i < (p ++ s).length := by simp; omega
    simp [h, List.getElem_append_right]
  · have h' : ¬ p.length + i < (p ++ s).length := by simp; omega
    simp [h]

/-- A slice that is in bounds stays one when more follows. -/
theorem slice_append_right_of_eq_ok {s r : List α} {lo hi : ℕ} (t : List α)
    (h : (slice s lo hi : Outcome ε (List α)) = ok r) :
    (slice (s ++ t) lo hi : Outcome ε (List α)) = ok r := by
  obtain ⟨hlo, hhi, rfl⟩ := slice_eq_ok.1 h
  rw [slice_of_le hlo (by simp only [List.length_append]; omega), List.drop_append_of_le_length (by omega),
    List.take_append_of_le_length (by simp only [List.length_drop]; omega)]

theorem index_append_right_of_eq_ok {s : List α} {i : ℕ} {a : α} (t : List α)
    (h : (index s i : Outcome ε α) = ok a) : (index (s ++ t) i : Outcome ε α) = ok a := by
  obtain ⟨hi, rfl⟩ := index_eq_ok.1 h
  rw [index_of_lt (by simp only [List.length_append]; omega), List.getElem_append_left hi]

end Outcome

end XLayerNode
