import Mathlib.Logic.Basic
/-!
# Programs over a journal of calls

`Journal κ ε α` is a program that writes each call it makes (of type `κ`)
to a journal and may stop early with an exit of type `ε`. The answer of a
call is a function of the journal that ends with it, so one environment
gives every answer a call can get, each depending on all calls before it.

A program may also `read` the journal without a call (a clock's time is
such a reading), and `tryCatch` goes on after an exit, as Go code does
with the error a function returns.

`Triple P m Q` says that from a journal with `P`, the run of `m` ends with
`Q` of its result and of the journal after it. The rules below are the
ones a proof over a program of calls, early exits and a loop over a list
needs: `pure`, `exit`, `call`, `read`, `bind`, `tryCatch`, the
consequence rule, conjunction and `forM`.

Three tools read whole journals. `foldCalls` folds a function over the
calls, each with the journal that ends with it, so that the state of a
party the calls drive (a database transaction, say) is a function of the
journal. `EveryCall G` says that each call satisfies `G` with the journal
before it: a call that is made only after some answer, say.
`Effects S Q m` says what `m` does whatever the calls answer: it makes only
calls in `S` and ends with an outcome in `Q`. Such a program keeps every
journal property that the calls in `S` keep (`Effects.triple`).
-/

namespace XLayerNode

/-- A program that writes its calls to a journal and may exit early: from
the journal so far, a result or an exit, and the journal after. -/
def Journal (κ ε α : Type) : Type := List κ → Except ε α × List κ

namespace Journal

variable {κ ε α β : Type}

instance : Monad (Journal κ ε) where
  pure a j := (.ok a, j)
  bind m f j :=
    match m j with
    | (.ok a, j') => f a j'
    | (.error e, j') => (.error e, j')

/-- Stop with the exit `e`. -/
def exit (e : ε) : Journal κ ε α := fun j => (.error e, j)

/-- Make the call `c`: it is written to the journal, and `answer` gives
its result from the journal that ends with it. -/
def call (c : κ) (answer : List κ → β) : Journal κ ε β := fun j => (.ok (answer (j ++ [c])), j ++ [c])

/-- Read a value of the journal so far, without a call. -/
def read (f : List κ → β) : Journal κ ε β := fun j => (.ok (f j), j)

/-- Run `m` and, on an exit `e`, go on with `handler e` from the journal
`m` left. -/
def tryCatch (m : Journal κ ε α) (handler : ε → Journal κ ε α) : Journal κ ε α := fun j =>
  match m j with
  | (.ok a, j') => (.ok a, j')
  | (.error e, j') => handler e j'

@[simp] theorem pure_apply (a : α) (j : List κ) : (pure a : Journal κ ε α) j = (.ok a, j) := rfl

@[simp] theorem bind_apply (m : Journal κ ε α) (f : α → Journal κ ε β) (j : List κ) :
    (m >>= f) j = match m j with
      | (.ok a, j') => f a j'
      | (.error e, j') => (.error e, j') := rfl

@[simp] theorem exit_apply (e : ε) (j : List κ) : (exit e : Journal κ ε α) j = (.error e, j) := rfl

@[simp] theorem call_apply (c : κ) (answer : List κ → β) (j : List κ) :
    (call c answer : Journal κ ε β) j = (.ok (answer (j ++ [c])), j ++ [c]) := rfl

@[simp] theorem call_bind_apply (c : κ) (answer : List κ → β) (f : β → Journal κ ε α) (j : List κ) :
    (call c answer >>= f) j = f (answer (j ++ [c])) (j ++ [c]) := rfl

@[simp] theorem read_bind_apply (g : List κ → β) (f : β → Journal κ ε α) (j : List κ) :
    (read g >>= f) j = f (g j) j := rfl

/-- Binds associate. -/
theorem bind_bind {γ : Type} (m : Journal κ ε α) (f : α → Journal κ ε β) (g : β → Journal κ ε γ) :
    (m >>= f) >>= g = m >>= fun a => f a >>= g := by
  funext j
  simp only [bind_apply]
  rcases m j with ⟨_ | a, j'⟩ <;> rfl

/-- A call whose answer does not depend on the journal passes that answer
on. -/
theorem call_const_bind (c : κ) (b : β) (f : β → Journal κ ε α) :
    (call c (fun _ => b) >>= f) = (call c (fun _ => b) >>= fun _ => f b) := rfl

@[simp] theorem read_apply (f : List κ → β) (j : List κ) : (read f : Journal κ ε β) j = (.ok (f j), j) := rfl

@[simp] theorem tryCatch_apply (m : Journal κ ε α) (handler : ε → Journal κ ε α) (j : List κ) :
    tryCatch m handler j = match m j with
      | (.ok a, j') => (.ok a, j')
      | (.error e, j') => handler e j' := rfl

theorem forM_nil (f : α → Journal κ ε PUnit) : ([] : List α).forM f = pure ⟨⟩ := rfl

theorem forM_cons (f : α → Journal κ ε PUnit) (a : α) (l : List α) :
    (a :: l).forM f = f a >>= fun _ => l.forM f := rfl

/-- A loop over two lists is the loop over the first, then over the
second. -/
theorem forM_append (f : α → Journal κ ε PUnit) :
    ∀ l l' : List α, (l ++ l').forM f = l.forM f >>= fun _ => l'.forM f
  | [], l' => rfl
  | a :: l, l' => by
    rw [List.cons_append, forM_cons, forM_cons, forM_append f l l', bind_bind]

/-! ## Triples -/

/-- A postcondition that asks `I` of the journal after a result and `E`
of the exit and the journal after an exit. -/
def Ends (I : List κ → Prop) (E : ε → List κ → Prop) : Except ε α → List κ → Prop
  | .ok _, j => I j
  | .error e, j => E e j

/-- From a journal with `P`, the run of `m` ends with `Q` of its result
and of the journal after it. -/
def Triple (P : List κ → Prop) (m : Journal κ ε α) (Q : Except ε α → List κ → Prop) : Prop :=
  ∀ j, P j → Q (m j).1 (m j).2

namespace Triple

variable {P P' : List κ → Prop} {Q Q' : Except ε α → List κ → Prop}

theorem conseq {m : Journal κ ε α} (h : Triple P m Q) (hP : ∀ j, P' j → P j) (hQ : ∀ r j, Q r j → Q' r j) :
    Triple P' m Q' :=
  fun j hj => hQ _ _ (h j (hP j hj))

theorem pure (a : α) : Triple (Q (.ok a)) (Pure.pure a : Journal κ ε α) Q :=
  fun _ hj => hj

theorem exit (e : ε) : Triple (Q (.error e)) (Journal.exit e : Journal κ ε α) Q :=
  fun _ hj => hj

theorem call (c : κ) (answer : List κ → α) :
    Triple (fun j => Q (.ok (answer (j ++ [c]))) (j ++ [c])) (Journal.call c answer) Q :=
  fun _ hj => hj

/-- Sequencing: the result of `m` is the precondition of its continuation,
and an exit of `m` is an exit of the whole. -/
theorem bind {R : Except ε α → List κ → Prop} {Q : Except ε β → List κ → Prop} {m : Journal κ ε α}
    {f : α → Journal κ ε β} (hm : Triple P m R) (hf : ∀ a, Triple (R (.ok a)) (f a) Q)
    (hexit : ∀ e j, R (.error e) j → Q (.error e) j) : Triple P (m >>= f) Q := by
  intro j hj
  have hr := hm j hj
  rw [bind_apply]
  revert hr
  rcases m j with ⟨_ | a, j'⟩
  · exact hexit _ _
  · exact hf a j'

theorem read (f : List κ → α) : Triple (fun j => Q (.ok (f j)) j) (Journal.read f) Q :=
  fun _ hj => hj

/-- Handling an exit: a result of `m` is a result of the whole, and an
exit of `m` is the precondition of its handler. -/
theorem tryCatch {R : Except ε α → List κ → Prop} {m : Journal κ ε α} {handler : ε → Journal κ ε α}
    (hm : Triple P m R) (hh : ∀ e, Triple (R (.error e)) (handler e) Q)
    (hok : ∀ a j, R (.ok a) j → Q (.ok a) j) : Triple P (Journal.tryCatch m handler) Q := by
  intro j hj
  have hr := hm j hj
  rw [tryCatch_apply]
  revert hr
  rcases m j with ⟨_ | a, j'⟩
  · exact hh _ j'
  · exact hok a j'

/-- A call and what follows it, run from the journal that ends with the
call. -/
theorem call_bind {c : κ} {answer : List κ → β} {f : β → Journal κ ε α}
    (h : ∀ j, P j → Triple (fun j' => j' = j ++ [c]) (f (answer (j ++ [c]))) Q) :
    Triple P (Journal.call c answer >>= f) Q := by
  intro j hj
  rw [call_bind_apply]
  exact h j hj _ rfl

/-- A reading and what follows it, whatever it reads. -/
theorem read_bind {g : List κ → β} {f : β → Journal κ ε α} (h : ∀ b, Triple P (f b) Q) :
    Triple P (Journal.read g >>= f) Q := by
  intro j hj
  rw [read_bind_apply]
  exact h (g j) j hj

theorem and {m : Journal κ ε α} (h : Triple P m Q) (h' : Triple P m Q') :
    Triple P m (fun r j => Q r j ∧ Q' r j) :=
  fun j hj => ⟨h j hj, h' j hj⟩

section Invariant

variable {I : List κ → Prop} {E : ε → List κ → Prop}

/-- A result keeps an invariant. -/
theorem pure_ends (a : α) : Triple I (Pure.pure a : Journal κ ε α) (Ends I E) :=
  fun _ hj => hj

/-- Sequencing for an invariant: when `m` and each continuation keep `I`
or exit with `E`, so does the whole. -/
theorem bind_ends {m : Journal κ ε α} {f : α → Journal κ ε β} (hm : Triple I m (Ends I E))
    (hf : ∀ a, Triple I (f a) (Ends I E)) : Triple I (m >>= f) (Ends I E) :=
  bind hm hf fun _ _ he => he

/-- A loop over a list keeps an invariant `I` when each of its bodies
does, or exits with `E`. -/
theorem forM {f : α → Journal κ ε PUnit} :
    ∀ l : List α, (∀ a ∈ l, Triple I (f a) (Ends I E)) → Triple I (l.forM f) (Ends I E)
  | [], _ => by
    rw [forM_nil]
    exact pure_ends _
  | a :: l, hf => by
    rw [forM_cons]
    exact bind_ends (hf a List.mem_cons_self) fun _ => forM l fun b hb => hf b (List.mem_cons_of_mem a hb)

end Invariant

end Triple

/-! ## Reading whole journals -/

section Fold

variable {σ : Type}

/-- `f` folded over the journal call by call, each call with the journal
that ends with it. -/
def foldCalls (f : σ → List κ → κ → σ) (init : σ) (j : List κ) : σ :=
  (j.foldl (fun acc c => (acc.1 ++ [c], f acc.2 (acc.1 ++ [c]) c)) (([] : List κ), init)).2

/-- The fold keeps the journal it has read. -/
theorem foldl_calls_fst (f : σ → List κ → κ → σ) :
    ∀ (j p : List κ) (s : σ), (j.foldl (fun acc c => (acc.1 ++ [c], f acc.2 (acc.1 ++ [c]) c)) (p, s)).1 = p ++ j
  | [], p, _ => (List.append_nil p).symm
  | c :: j, p, s => by
    rw [List.foldl_cons, foldl_calls_fst f j (p ++ [c])]
    simp

@[simp] theorem foldCalls_nil (f : σ → List κ → κ → σ) (init : σ) : foldCalls f init [] = init := rfl

@[simp] theorem foldCalls_append_singleton (f : σ → List κ → κ → σ) (init : σ) (j : List κ) (c : κ) :
    foldCalls f init (j ++ [c]) = f (foldCalls f init j) (j ++ [c]) c := by
  unfold foldCalls
  rw [List.foldl_append, List.foldl_cons, List.foldl_nil, foldl_calls_fst, List.nil_append]

/-- Every call of the journal satisfies `G` with the journal before it. -/
def EveryCall (G : List κ → κ → Prop) (j : List κ) : Prop :=
  ∀ pre c post, j = pre ++ c :: post → G pre c

theorem everyCall_nil (G : List κ → κ → Prop) : EveryCall G [] := by
  intro pre c post h
  exact absurd h.symm (by simp)

/-- A call added to the journal satisfies `G` with the journal before
it. -/
theorem everyCall_append_singleton {G : List κ → κ → Prop} {j : List κ} {c : κ} :
    EveryCall G (j ++ [c]) ↔ EveryCall G j ∧ G j c := by
  constructor
  · intro h
    exact ⟨fun pre c' post hj => h pre c' (post ++ [c]) (by rw [hj]; simp), h j c [] rfl⟩
  · rintro ⟨h, hc⟩ pre c' post hj
    rcases List.eq_nil_or_concat post with rfl | ⟨post', d, rfl⟩
    · -- the call is the new one
      obtain ⟨rfl, hcc⟩ := List.append_inj' hj rfl
      rwa [← List.singleton_inj.mp hcc]
    · -- the call is one of the journal's
      rw [List.concat_eq_append, ← List.cons_append, ← List.append_assoc] at hj
      exact h pre c' post' (List.append_inj' hj rfl).1

theorem EveryCall.mono {G G' : List κ → κ → Prop} {j : List κ} (h : EveryCall G j)
    (hG : ∀ pre c, G pre c → G' pre c) : EveryCall G' j :=
  fun pre c post hj => hG pre c (h pre c post hj)

end Fold

section Effects

/-- What `m` can do whatever the calls answer: from any journal, its run
adds only calls in `S` and ends with an outcome satisfying `Q`. -/
def Effects (S : κ → Prop) (Q : Except ε α → Prop) (m : Journal κ ε α) : Prop :=
  ∀ j, ∃ new, (m j).2 = j ++ new ∧ (∀ c ∈ new, S c) ∧ Q (m j).1

/-- An outcome that is a result, or an exit in `X`. -/
def ExitsIn (X : ε → Prop) : Except ε α → Prop
  | .ok _ => True
  | .error e => X e

namespace Effects

variable {S S' : κ → Prop} {Q Q' : Except ε α → Prop}

theorem pure {a : α} (h : Q (.ok a)) : Effects S Q (Pure.pure a : Journal κ ε α) :=
  fun j => ⟨[], (List.append_nil j).symm, (fun _ hc => nomatch hc), h⟩

theorem exit {e : ε} (h : Q (.error e)) : Effects S Q (Journal.exit e : Journal κ ε α) :=
  fun j => ⟨[], (List.append_nil j).symm, (fun _ hc => nomatch hc), h⟩

theorem read {f : List κ → α} (h : ∀ j, Q (.ok (f j))) : Effects S Q (Journal.read f) :=
  fun j => ⟨[], (List.append_nil j).symm, (fun _ hc => nomatch hc), h j⟩

theorem call {c : κ} (hc : S c) {answer : List κ → α} (h : ∀ j, Q (.ok (answer j))) :
    Effects S Q (Journal.call c answer) :=
  fun _ => ⟨[c], rfl, fun _ hc' => (List.mem_singleton.mp hc') ▸ hc, h _⟩

/-- A call and what follows it, with the answer the call gets. -/
theorem call_bind_answer {c : κ} (hc : S c) {answer : List κ → β} {f : β → Journal κ ε α}
    (hf : ∀ j, Effects S Q (f (answer (j ++ [c])))) : Effects S Q (Journal.call c answer >>= f) := by
  intro j
  obtain ⟨new, hj, hnew, hq⟩ := hf j (j ++ [c])
  rw [call_bind_apply]
  refine ⟨c :: new, by rw [hj, List.append_assoc, List.singleton_append], fun c' hc' => ?_, hq⟩
  rcases List.mem_cons.mp hc' with rfl | hc'
  · exact hc
  · exact hnew c' hc'

/-- A call and what follows it, whatever the answer. -/
theorem call_bind {c : κ} (hc : S c) {answer : List κ → β} {f : β → Journal κ ε α}
    (hf : ∀ b, Effects S Q (f b)) : Effects S Q (Journal.call c answer >>= f) :=
  call_bind_answer hc fun j => hf (answer (j ++ [c]))

/-- A reading and what follows it, whatever it reads. -/
theorem read_bind {g : List κ → β} {f : β → Journal κ ε α} (hf : ∀ b, Effects S Q (f b)) :
    Effects S Q (Journal.read g >>= f) := by
  intro j
  rw [read_bind_apply]
  exact hf (g j) j

/-- Two runs one after the other add the calls of both. -/
theorem append_calls {new new' : List κ} (hnew : ∀ c ∈ new, S c) (hnew' : ∀ c ∈ new', S c) :
    ∀ c ∈ new ++ new', S c := by
  intro c hc
  rcases List.mem_append.mp hc with hc | hc
  · exact hnew c hc
  · exact hnew' c hc

/-- Sequencing: the outcome of `m` is what its continuation starts from,
and an exit of `m` is an exit of the whole. -/
theorem bind {R : Except ε α → Prop} {Q : Except ε β → Prop} {m : Journal κ ε α} {f : α → Journal κ ε β}
    (hm : Effects S R m) (hf : ∀ a, R (.ok a) → Effects S Q (f a)) (hexit : ∀ e, R (.error e) → Q (.error e)) :
    Effects S Q (m >>= f) := by
  intro j
  obtain ⟨new, hj, hnew, hr⟩ := hm j
  rw [bind_apply]
  revert hj hr
  rcases m j with ⟨_ | a, j'⟩
  · rintro (rfl : j' = j ++ new) hr
    exact ⟨new, rfl, hnew, hexit _ hr⟩
  · rintro (rfl : j' = j ++ new) hr
    obtain ⟨new', hj', hnew', hq⟩ := hf a hr (j ++ new)
    exact ⟨new ++ new', by rw [hj', List.append_assoc], append_calls hnew hnew', hq⟩

/-- Handling an exit: a result of `m` is a result of the whole, and an
exit of `m` is what its handler starts from. -/
theorem tryCatch {R : Except ε α → Prop} {m : Journal κ ε α} {handler : ε → Journal κ ε α}
    (hm : Effects S R m) (hh : ∀ e, R (.error e) → Effects S Q (handler e)) (hok : ∀ a, R (.ok a) → Q (.ok a)) :
    Effects S Q (Journal.tryCatch m handler) := by
  intro j
  obtain ⟨new, hj, hnew, hr⟩ := hm j
  rw [tryCatch_apply]
  revert hj hr
  rcases m j with ⟨_ | a, j'⟩
  · rintro (rfl : j' = j ++ new) hr
    obtain ⟨new', hj', hnew', hq⟩ := hh _ hr (j ++ new)
    exact ⟨new ++ new', by rw [hj', List.append_assoc], append_calls hnew hnew', hq⟩
  · rintro (rfl : j' = j ++ new) hr
    exact ⟨new, rfl, hnew, hok a hr⟩

theorem mono {m : Journal κ ε α} (h : Effects S Q m) (hS : ∀ c, S c → S' c) (hQ : ∀ r, Q r → Q' r) :
    Effects S' Q' m :=
  fun j => (h j).imp fun _ ⟨hj, hnew, hq⟩ => ⟨hj, fun c hc => hS c (hnew c hc), hQ _ hq⟩

/-- A loop over a list whose bodies make calls in `S` and exit in `X`
does the same. -/
theorem forM {X : ε → Prop} {f : α → Journal κ ε PUnit} :
    ∀ l : List α, (∀ a ∈ l, Effects S (ExitsIn X) (f a)) → Effects S (ExitsIn X) (l.forM f)
  | [], _ => by
    rw [forM_nil]
    exact pure trivial
  | a :: l, hf => by
    rw [forM_cons]
    exact bind (hf a List.mem_cons_self) (fun _ _ => forM l fun b hb => hf b (List.mem_cons_of_mem a hb))
      fun _ he => he

/-- A journal property that every call in `S` keeps is kept by the calls
of a run. -/
theorem append {I : List κ → Prop} (hI : ∀ j c, S c → I j → I (j ++ [c])) :
    ∀ (new j : List κ), (∀ c ∈ new, S c) → I j → I (j ++ new)
  | [], j, _, hj => by rwa [List.append_nil]
  | c :: new, j, hnew, hj => by
    have hc : I (j ++ [c]) := hI j c (hnew c List.mem_cons_self) hj
    rw [← List.singleton_append, ← List.append_assoc]
    exact append hI new (j ++ [c]) (fun c' hc' => hnew c' (List.mem_cons_of_mem c hc')) hc

/-- **A program keeps every journal property its calls keep**, whether it
returns or exits, and its outcome is one of `Q`. -/
theorem triple {I : List κ → Prop} {m : Journal κ ε α} (h : Effects S Q m)
    (hI : ∀ j c, S c → I j → I (j ++ [c])) : Triple I m (fun r j => I j ∧ Q r) := by
  intro j hj
  obtain ⟨new, hj', hnew, hq⟩ := h j
  rw [hj']
  exact ⟨append hI new j hnew hj, hq⟩

end Effects

end Effects

end Journal

end XLayerNode
