import Mathlib.Data.List.Perm.Subperm
/-!
# Release buffers

A buffer takes items as they arrive and releases them one at a time, each
from wherever it sits in the buffer, except that an item of a marked kind
(`q`) leaves only from the front. `Reachable q H O P` says that after the
arrivals `H` the buffer can have released `O`, in that order, and hold `P`.

Two laws hold of every reachable triple. Nothing is lost or duplicated:
`O ++ P` is a permutation of `H` (`Reachable.perm`). And a marked item
never overtakes what arrived before it: it is either released after all of
it, or still held with all of it released or held in front of it
(`Reachable.marked`). Once the buffer is empty the second alternative is
gone (`Reachable.released_after`).
-/

namespace XLayerNode

namespace ReleaseBuffer

variable {α : Type*} (q : α → Prop)

/-- The arrivals, releases and held items a buffer can reach when an item
satisfying `q` is released only from the front. -/
inductive Reachable : List α → List α → List α → Prop
  | nil : Reachable [] [] []
  | arrive {H O P : List α} (x : α) : Reachable H O P → Reachable (H ++ [x]) O (P ++ [x])
  | release {H O P₁ P₂ : List α} (x : α) : Reachable H O (P₁ ++ x :: P₂) → (q x → P₁ = []) →
      Reachable H (O ++ [x]) (P₁ ++ P₂)

/-- Where a marked item `c` with the arrivals `H₁` before it stands: released
after all of them, or held with each of them released or held in front of it. -/
def Placed (H₁ : List α) (c : α) (O P : List α) : Prop :=
  (∃ O₁ O₂, O = O₁ ++ c :: O₂ ∧ List.Subperm H₁ O₁) ∨
    (∃ P₁ P₂, P = P₁ ++ c :: P₂ ∧ List.Subperm H₁ (O ++ P₁))

variable {q}

/-- **Nothing is lost or duplicated.** -/
theorem Reachable.perm {H O P : List α} (h : Reachable q H O P) : List.Perm (O ++ P) H := by
  induction h with
  | nil => exact List.Perm.refl []
  | arrive x _ ih =>
    rw [← List.append_assoc]
    exact ih.append_right [x]
  | @release H O P₁ P₂ x _ _ ih =>
    have : List.Perm (O ++ [x] ++ (P₁ ++ P₂)) (O ++ (P₁ ++ x :: P₂)) := by
      rw [List.append_assoc, List.singleton_append]
      exact List.Perm.append_left O List.perm_middle.symm
    exact this.trans ih

/-- A new arrival leaves every placed item placed. -/
theorem Placed.arrive {H₁ O P : List α} {c : α} (h : Placed H₁ c O P) (x : α) :
    Placed H₁ c O (P ++ [x]) := by
  rcases h with ⟨O₁, O₂, hO, hsub⟩ | ⟨P₁, P₂, hP, hsub⟩
  · exact .inl ⟨O₁, O₂, hO, hsub⟩
  · exact .inr ⟨P₁, P₂ ++ [x], by simp [hP], hsub⟩

/-- A release leaves every placed item placed. The release and the item are
two splits of what is held; the cases are the release in front of the
item, the item itself, and the release behind it. -/
theorem Placed.release {H₁ O P₁ P₂ : List α} {c x : α} (h : Placed H₁ c O (P₁ ++ x :: P₂))
    (hfront : c = x → P₁ = []) : Placed H₁ c (O ++ [x]) (P₁ ++ P₂) := by
  rcases h with ⟨O₁, O₂, hO, hsub⟩ | ⟨Q₁, Q₂, hP, hsub⟩
  · exact .inl ⟨O₁, O₂ ++ [x], by simp [hO], hsub⟩
  · rcases List.append_eq_append_iff.mp hP with ⟨R, hQ₁, hx⟩ | ⟨R, hP₁, hc⟩
    · -- the release is at or in front of the item
      rcases R with _ | ⟨y, R⟩
      · -- the item itself, released from the front
        simp only [List.append_nil, List.nil_append, List.cons.injEq] at hQ₁ hx
        subst hQ₁
        have hnil := hfront hx.1.symm
        subst hnil
        refine .inl ⟨O, [], by rw [hx.1], ?_⟩
        simpa using hsub
      · -- the release is in front of the item
        simp only [List.cons_append, List.cons.injEq] at hx
        obtain ⟨rfl, rfl⟩ := hx
        refine .inr ⟨P₁ ++ R, Q₂, by simp, ?_⟩
        have hperm : List.Perm (O ++ Q₁) (O ++ [x] ++ (P₁ ++ R)) := by
          rw [hQ₁, List.append_assoc]
          exact List.Perm.append_left O List.perm_middle
        exact hsub.trans hperm.subperm
    · -- the release is behind the item
      rcases R with _ | ⟨y, R⟩
      · simp only [List.append_nil, List.nil_append, List.cons.injEq] at hP₁ hc
        subst hP₁
        have hnil := hfront hc.1
        subst hnil
        refine .inl ⟨O, [], by rw [hc.1], ?_⟩
        simpa using hsub
      · simp only [List.cons_append, List.cons.injEq] at hc
        obtain ⟨rfl, rfl⟩ := hc
        refine .inr ⟨Q₁, R ++ P₂, by simp [hP₁], ?_⟩
        exact hsub.trans (List.Sublist.subperm (by simp))

/-- The splits of a list with one more item at its end: at that item, or
inside the list. -/
theorem eq_or_exists_of_append_singleton_eq {H H₁ H₂ : List α} {x c : α}
    (h : H ++ [x] = H₁ ++ c :: H₂) :
    (H₁ = H ∧ c = x ∧ H₂ = []) ∨ ∃ R, H = H₁ ++ c :: R ∧ H₂ = R ++ [x] := by
  rcases List.eq_nil_or_concat H₂ with rfl | ⟨R, y, rfl⟩
  · obtain ⟨hH, hx⟩ := List.append_inj' h rfl
    exact .inl ⟨hH.symm, (List.cons_eq_cons.mp hx).1.symm, rfl⟩
  · rw [List.concat_eq_append] at h ⊢
    rw [← List.cons_append, ← List.append_assoc] at h
    obtain ⟨hH, hx⟩ := List.append_inj' h rfl
    exact .inr ⟨R, hH, by rw [(List.cons_eq_cons.mp hx).1]⟩

/-- **A marked item never overtakes what arrived before it.** -/
theorem Reachable.marked {H O P : List α} (h : Reachable q H O P) :
    ∀ H₁ c H₂, H = H₁ ++ c :: H₂ → q c → Placed H₁ c O P := by
  induction h with
  | nil =>
    intro H₁ c H₂ hH
    simp at hH
  | @arrive H O P x hr ih =>
    intro H₁ c H₂ hH hc
    rcases eq_or_exists_of_append_singleton_eq hH with ⟨rfl, rfl, -⟩ | ⟨R, hH', -⟩
    · -- `c` is the new arrival, behind everything held
      exact .inr ⟨P, [], rfl, hr.perm.symm.subperm⟩
    · exact (ih H₁ c R hH' hc).arrive x
  | @release H O P₁ P₂ x _ hfront ih =>
    intro H₁ c H₂ hH hc
    exact (ih H₁ c H₂ hH hc).release fun hcx => hfront (hcx ▸ hc)

/-- **Once the buffer is empty, every marked item has been released after
everything that arrived before it.** -/
theorem Reachable.released_after {H O : List α} (h : Reachable q H O []) {H₁ H₂ : List α}
    {c : α} (hH : H = H₁ ++ c :: H₂) (hc : q c) :
    ∃ O₁ O₂, O = O₁ ++ c :: O₂ ∧ List.Subperm H₁ O₁ := by
  rcases h.marked H₁ c H₂ hH hc with hO | ⟨P₁, P₂, hP, -⟩
  · exact hO
  · simp at hP

end ReleaseBuffer

end XLayerNode
