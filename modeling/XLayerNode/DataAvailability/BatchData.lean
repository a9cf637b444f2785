import XLayerNode.DataAvailability.DataCommittee
import XLayerNode.Synchronizer.SequenceBatches
import XLayerNode.State.Helper
/-!
# Validium batch data: from L1's hash to the data

A validium sequence on L1 carries, for each batch, the hash of its
transactions only. `decodeSequencedBatches` asks the data availability
layer for the data of those hashes: first the local database, then the
trusted sequencer, then the data committee. Each level checks the
`Keccak256Hash` of what it got, so whatever the three answer, the data
returned for batch `i` hashes to the `TransactionsHash` of entry `i`
(`decodeSequencedBatches_validium`).

The committee backend asks one member at a time, from the member it
selected last, around the committee once (`getBatchL2DataLoop_eq_tryMembers`:
the loop with its modular cursor and its break is "try the members of
the rotation in turn"). Its cursor is in range in every state a run
reaches from `Init` (`Backend.Reachable.valid`), so it never indexes out
of range.
-/

namespace XLayerNode

namespace DataAvailability

open Outcome State

/-! ## The committee backend -/

/-- `DataCommitteeBackend`: the members `Init` cached and the member
selected, `-1` for none. -/
structure Backend where
  committeeMembers : List DataCommitteeMember
  selectedCommitteeMember : ℤ

/-- What one call of the backend meets: the committee
`getCurrentDataCommittee` reads from L1 (`none` for an error), `rand.Intn`,
which draws below a positive bound, and each member's `GetOffChainData`
for a hash (`none` for an error). -/
structure BackendEnv where
  getCurrentDataCommittee : Option (List DataCommitteeMember)
  intn : (n : ℕ) → 0 < n → Fin n
  getOffChainData : DataCommitteeMember → ℕ → Option (List UInt8)

/-- `Init`: caches the members and selects one at random, or none if there
are no members. On an error it changes nothing, and the caller keeps its
backend. -/
def init (env : BackendEnv) : Option Backend :=
  env.getCurrentDataCommittee.map fun members =>
    ⟨members, if h : 0 < members.length then (env.intn members.length h : ℕ) else -1⟩

/-- How the member loop of `GetBatchL2Data` ends: with data of the hash,
or broken off. -/
inductive LoopExit where
  | found (data : List UInt8)
  | exhausted
  deriving DecidableEq

/-- The loop of `GetBatchL2Data` from the member `selected` on: how it
ends, the member selected then, and the positions of the members asked, in
order. An answer counts when its `Keccak256Hash` is `hash`. `fuel` bounds
the turns; the loop breaks off before it runs out
(`getBatchL2DataLoop_eq_tryMembers`). -/
def getBatchL2DataLoop (members : List DataCommitteeMember)
    (getOffChainData : DataCommitteeMember → Option (List UInt8)) (keccak : List UInt8 → ℕ)
    (hash : ℕ) (intialMember : ℤ) : ℕ → ℤ → Outcome Empty (LoopExit × ℤ × List ℤ)
  | 0, selected => .ok (.exhausted, selected, [])
  | fuel + 1, selected => do
    -- `d.committeeMembers[d.selectedCommitteeMember]`: a negative index panics too
    let member ← if 0 ≤ selected then index members selected.toNat else .panic
    match (getOffChainData member).filter fun data => keccak data = hash with
    | some data => .ok (.found data, selected, [selected])
    | none =>
      -- Go's `%` truncates; past the index, `selected` is not negative and `len > 0`
      let next := (selected + 1) % (members.length : ℤ)
      if next = intialMember then .ok (.exhausted, next, [selected])
      else (fun r => (r.1, r.2.1, selected :: r.2.2)) <$>
        getBatchL2DataLoop members getOffChainData keccak hash intialMember fuel next

/-- Why `GetBatchL2Data` fails. -/
inductive BackendError where
  /-- "error loading data committee: %s" -/
  | loadingCommittee
  /-- "couldn't get the data from any committee member" -/
  | notFound
  deriving DecidableEq

/-- After the loop finds nothing, `GetBatchL2Data` runs `Init` again and
fails. -/
def Backend.reinit (env : BackendEnv) (d : Backend) : Except BackendError (List UInt8) × Backend :=
  match init env with
  | none => (.error .loadingCommittee, d)
  | some d' => (.error .notFound, d')

/-- `GetBatchL2Data`: the data, the backend after, and the positions of
the members asked. -/
def Backend.getBatchL2Data (env : BackendEnv) (keccak : List UInt8 → ℕ) (hash : ℕ)
    (d : Backend) : Outcome Empty (Except BackendError (List UInt8) × Backend × List ℤ) :=
  let intialMember := d.selectedCommitteeMember
  if intialMember = -1 then .ok ((d.reinit env).1, (d.reinit env).2, [])
  else do
    let r ← getBatchL2DataLoop d.committeeMembers (env.getOffChainData · hash) keccak hash
      intialMember d.committeeMembers.length intialMember
    let d := { d with selectedCommitteeMember := r.2.1 }
    match r.1 with
    | .found data => .ok (.ok data, d, r.2.2)
    | .exhausted => .ok ((d.reinit env).1, (d.reinit env).2, r.2.2)

/-- `GetSequence`: `GetBatchL2Data` for each hash in turn, the `k`-th call
meeting `envs k`, stopping at the first error. -/
def Backend.getSequence (envs : ℕ → BackendEnv) (keccak : List UInt8 → ℕ) :
    List ℕ → ℕ → List (List UInt8) → Backend →
      Outcome Empty (Except BackendError (List (List UInt8)) × Backend)
  | [], _, batchData, d => .ok (.ok batchData, d)
  | h :: hashes, k, batchData, d => do
    let r ← d.getBatchL2Data (envs k) keccak h
    match r.1 with
    | .error e => .ok (.error e, r.2.1)
    | .ok data => getSequence envs keccak hashes (k + 1) (batchData ++ [data]) r.2.1

/-! ## The loop asks around the committee once

`tryMembers` is the loop without its cursor: ask at the positions of a list
in turn, and stop at the first answer. The loop of `GetBatchL2Data` is
`tryMembers` over the positions from the selected member on, around the
committee once (`getBatchL2DataLoop_start`). -/

section Rotation

variable {ι α : Type*}

/-- Asking at the positions `l` in turn until one answers: where the answer
came from and what it is, and the positions asked. -/
def tryMembers (answer : ι → Option α) : List ι → Option (ι × α) × List ι
  | [] => (none, [])
  | i :: rest =>
    match answer i with
    | some a => (some (i, a), [i])
    | none => ((tryMembers answer rest).1, i :: (tryMembers answer rest).2)

theorem tryMembers_asked_prefix (answer : ι → Option α) :
    ∀ l : List ι, (tryMembers answer l).2 <+: l
  | [] => List.prefix_rfl
  | i :: rest => by
    cases h : answer i with
    | some a => simp [tryMembers, h]
    | none => simpa [tryMembers, h] using tryMembers_asked_prefix answer rest

theorem tryMembers_head? (answer : ι → Option α) :
    ∀ l : List ι, (tryMembers answer l).2.head? = l.head?
  | [] => rfl
  | i :: rest => by
    cases h : answer i <;> simp [tryMembers, h]

/-- An answer came from a position of the list. -/
theorem tryMembers_found {answer : ι → Option α} {i : ι} {a : α} :
    ∀ {l : List ι}, (tryMembers answer l).1 = some (i, a) → i ∈ l ∧ answer i = some a
  | [], h => by cases h
  | j :: rest, h => by
    cases hj : answer j with
    | some b =>
      simp only [tryMembers, hj, Option.some.injEq, Prod.mk.injEq] at h
      obtain ⟨rfl, rfl⟩ := h
      exact ⟨List.mem_cons_self, hj⟩
    | none =>
      simp only [tryMembers, hj] at h
      exact (tryMembers_found h).imp_left (List.mem_cons_of_mem j)

/-- No answer: every position was asked, and none answered. -/
theorem tryMembers_eq_none {answer : ι → Option α} :
    ∀ {l : List ι}, (tryMembers answer l).1 = none →
      (∀ i ∈ l, answer i = none) ∧ (tryMembers answer l).2 = l
  | [], _ => ⟨by simp, rfl⟩
  | j :: rest, h => by
    cases hj : answer j with
    | some b => simp [tryMembers, hj] at h
    | none =>
      simp only [tryMembers, hj] at h ⊢
      obtain ⟨hnone, hasked⟩ := tryMembers_eq_none h
      exact ⟨by simpa [hj] using hnone, by rw [hasked]⟩

end Rotation

/-- The positions of a committee of `len` members from `s` on, around it
once. -/
def rotation (len s : ℕ) : List ℕ := (List.range len).rotate s

theorem rotation_nodup (len s : ℕ) : (rotation len s).Nodup :=
  List.nodup_rotate.2 List.nodup_range

@[simp] theorem mem_rotation {len s i : ℕ} : i ∈ rotation len s ↔ i < len := by
  simp [rotation, List.mem_rotate]

@[simp] theorem length_rotation (len s : ℕ) : (rotation len s).length = len := by
  simp [rotation]

theorem getElem_rotation {len s j : ℕ} (h : j < (rotation len s).length) :
    (rotation len s)[j] = (s + j) % len := by
  have hlen : 0 < len := by simp only [length_rotation] at h; omega
  simp [rotation, List.getElem_rotate, Nat.add_comm j s]

/-- From the `j`-th turn on, the loop asks at `(s + j) % len` and then
goes on around. -/
theorem rotation_drop {len s j : ℕ} (hj : j < len) :
    (rotation len s).drop j = (s + j) % len :: (rotation len s).drop (j + 1) := by
  rw [List.drop_eq_getElem_cons (by simpa using hj), getElem_rotation]

theorem rotation_head? {len s : ℕ} (hs : s < len) : (rotation len s).head? = some s := by
  have h := @rotation_drop len s 0 (by omega)
  rw [List.drop_zero, Nat.add_zero, Nat.mod_eq_of_lt hs] at h
  rw [h, List.head?_cons]

/-- Going once around a committee comes back to the start only at the
end. -/
theorem add_mod_ne_self {len s j : ℕ} (hs : s < len) (hj : 0 < j) (hj' : j < len) :
    (s + j) % len ≠ s := by
  rcases lt_or_ge (s + j) len with h | h
  · rw [Nat.mod_eq_of_lt h]
    omega
  · rw [Nat.mod_eq_sub_mod h, Nat.mod_eq_of_lt (by omega)]
    omega

section Loop

variable {members : List DataCommitteeMember}
  {getOffChainData : DataCommitteeMember → Option (List UInt8)} {keccak : List UInt8 → ℕ}
  {hash : ℕ}

/-- What the member at position `i` answers that counts: data of the
hash. -/
def memberAnswer (members : List DataCommitteeMember)
    (getOffChainData : DataCommitteeMember → Option (List UInt8)) (keccak : List UInt8 → ℕ)
    (hash : ℕ) (i : ℕ) : Option (List UInt8) :=
  members[i]?.bind fun member => (getOffChainData member).filter fun data => keccak data = hash

theorem memberAnswer_eq_some {i : ℕ} {data : List UInt8} :
    memberAnswer members getOffChainData keccak hash i = some data ↔
      (∃ h : i < members.length, getOffChainData members[i] = some data) ∧ keccak data = hash := by
  unfold memberAnswer
  by_cases hi : i < members.length
  · rw [List.getElem?_eq_getElem hi, Option.bind_some, Option.filter_eq_some_iff]
    simp [hi]
  · rw [List.getElem?_eq_none (by omega)]
    simp [hi]

/-- The loop's result, read off `tryMembers`: broken off at `s` when no
member answered. -/
def loopExitOf (s : ℕ) : Option (ℕ × List UInt8) × List ℕ → LoopExit × ℤ × List ℤ
  | (some (i, data), asked) => (.found data, i, asked.map (↑))
  | (none, asked) => (.exhausted, s, asked.map (↑))

theorem loopExitOf_cons (s i : ℕ) (r : Option (ℕ × List UInt8) × List ℕ) :
    loopExitOf s (r.1, i :: r.2) =
      ((loopExitOf s r).1, (loopExitOf s r).2.1, (i : ℤ) :: (loopExitOf s r).2.2) := by
  obtain ⟨_ | ⟨j, data⟩, asked⟩ := r <;> rfl

/-- **One turn of the loop** at the member `i`. -/
theorem getBatchL2DataLoop_succ {i : ℕ} (hi : i < members.length) (t : ℤ) (fuel : ℕ) :
    getBatchL2DataLoop members getOffChainData keccak hash t (fuel + 1) i =
      match memberAnswer members getOffChainData keccak hash i with
      | some data => .ok (.found data, i, [i])
      | none =>
        if (((i + 1) % members.length : ℕ) : ℤ) = t then
          .ok (.exhausted, ((i + 1) % members.length : ℕ), [i])
        else (fun r => (r.1, r.2.1, (i : ℤ) :: r.2.2)) <$>
          getBatchL2DataLoop members getOffChainData keccak hash t fuel
            ((i + 1) % members.length : ℕ) := by
  have hnext : ((i : ℤ) + 1) % (members.length : ℤ) = (((i + 1) % members.length : ℕ) : ℤ) := by
    push_cast
    rfl
  simp only [getBatchL2DataLoop, Nat.cast_nonneg, if_true, Int.toNat_natCast, index_of_lt hi,
    ok_bind, memberAnswer, List.getElem?_eq_getElem hi, Option.bind_some, hnext]

/-- **The loop refines `tryMembers`**: from the `j`-th turn on, it asks
the rest of the rotation from `s`, and breaks off at `s` after the last
member. -/
theorem getBatchL2DataLoop_eq_tryMembers {s : ℕ} (hs : s < members.length) :
    ∀ fuel j, j + (fuel + 1) = members.length →
      getBatchL2DataLoop members getOffChainData keccak hash s (fuel + 1)
          ((s + j) % members.length : ℕ) =
        .ok (loopExitOf s (tryMembers (memberAnswer members getOffChainData keccak hash)
          ((rotation members.length s).drop j))) := by
  intro fuel
  induction fuel with
  | zero =>
    -- the last turn: the next member is `s` again
    intro j hj
    have hi : (s + j) % members.length < members.length := Nat.mod_lt _ (by omega)
    have hnext : ((s + j) % members.length + 1) % members.length = s := by
      rw [Nat.mod_add_mod, show s + j + 1 = s + members.length by omega, Nat.add_mod_right,
        Nat.mod_eq_of_lt hs]
    rw [getBatchL2DataLoop_succ hi, rotation_drop (by omega),
      List.drop_eq_nil_of_le (by simp only [length_rotation]; omega)]
    cases h : memberAnswer members getOffChainData keccak hash ((s + j) % members.length) <;>
      simp [tryMembers, h, hnext, loopExitOf]
  | succ fuel ih =>
    intro j hj
    have hi : (s + j) % members.length < members.length := Nat.mod_lt _ (by omega)
    have hnext : ((s + j) % members.length + 1) % members.length = (s + (j + 1)) % members.length :=
      Nat.mod_add_mod _ _ _
    have hne : (((s + (j + 1)) % members.length : ℕ) : ℤ) ≠ s := by
      exact_mod_cast add_mod_ne_self hs (Nat.succ_pos j) (by omega)
    rw [getBatchL2DataLoop_succ hi, rotation_drop (by omega)]
    cases h : memberAnswer members getOffChainData keccak hash ((s + j) % members.length) with
    | some data => simp [tryMembers, h, loopExitOf]
    | none =>
      rw [hnext, if_neg hne, ih (j + 1) (by omega), map_ok]
      simp only [tryMembers, h, loopExitOf_cons]

/-- The whole loop from the selected member `s`. -/
theorem getBatchL2DataLoop_start {s : ℕ} (hs : s < members.length) :
    getBatchL2DataLoop members getOffChainData keccak hash s members.length s =
      .ok (loopExitOf s (tryMembers (memberAnswer members getOffChainData keccak hash)
        (rotation members.length s))) := by
  obtain ⟨fuel, hfuel⟩ : ∃ fuel, members.length = fuel + 1 := ⟨members.length - 1, by omega⟩
  have h := @getBatchL2DataLoop_eq_tryMembers members getOffChainData keccak hash s hs fuel 0
    (by omega)
  simp only [Nat.add_zero, Nat.mod_eq_of_lt hs, List.drop_zero] at h
  rw [← hfuel] at h
  exact h

/-- A round that finds nothing asked every member: none has data of the
hash. -/
theorem no_member_data_of_tryMembers_eq_none {s : ℕ}
    (h : (tryMembers (memberAnswer members getOffChainData keccak hash)
      (rotation members.length s)).1 = none) :
    ¬ ∃ member ∈ members, ∃ data, getOffChainData member = some data ∧ keccak data = hash := by
  rintro ⟨member, hmem, data, hdata, hkeccak⟩
  obtain ⟨k, hk, rfl⟩ := List.getElem_of_mem hmem
  have hsome : memberAnswer members getOffChainData keccak hash k = some data :=
    memberAnswer_eq_some.2 ⟨⟨hk, hdata⟩, hkeccak⟩
  rw [(tryMembers_eq_none h).1 k (mem_rotation.2 hk)] at hsome
  cases hsome

end Loop

/-! ## A call of `GetBatchL2Data`, and the backends a run reaches -/

/-- The cursor is in range: `-1` for a committee without members, else a
member's position. -/
def Backend.Valid (d : Backend) : Prop :=
  (d.selectedCommitteeMember = -1 ∧ d.committeeMembers = []) ∨
    ∃ s < d.committeeMembers.length, d.selectedCommitteeMember = s

theorem init_valid {env : BackendEnv} {d : Backend} (h : init env = some d) : d.Valid := by
  obtain ⟨members, -, rfl⟩ := Option.map_eq_some_iff.1 h
  by_cases hlen : 0 < members.length
  · exact .inr ⟨_, (env.intn _ hlen).isLt, by simp [hlen]⟩
  · exact .inl ⟨by simp [hlen], show members = [] from List.eq_nil_of_length_eq_zero (by omega)⟩

theorem Backend.reinit_valid {d : Backend} (env : BackendEnv) (hv : d.Valid) :
    (d.reinit env).2.Valid := by
  unfold reinit
  cases h : init env with
  | none => exact hv
  | some d' => exact init_valid h

theorem Backend.reinit_ne_ok (d : Backend) (env : BackendEnv) (data : List UInt8) :
    (d.reinit env).1 ≠ .ok data := by
  unfold reinit
  cases init env <;> simp

section Call

variable {env : BackendEnv} {keccak : List UInt8 → ℕ} {hash : ℕ}

/-- **One call of `GetBatchL2Data`**, from a backend whose cursor is in
range: it does not panic and leaves the cursor in range; it asks members at
distinct positions, from the one selected; it returns only data of the
hash, and fails only when no member has data of the hash. -/
theorem Backend.getBatchL2Data_spec {d : Backend} (hv : d.Valid) :
    ∃ r d' asked, d.getBatchL2Data env keccak hash = .ok (r, d', asked) ∧ d'.Valid ∧
      asked.Nodup ∧ (∀ k ∈ asked, 0 ≤ k ∧ k < d.committeeMembers.length) ∧
      (d.committeeMembers ≠ [] → asked.head? = some d.selectedCommitteeMember) ∧
      (∀ data, r = .ok data → keccak data = hash) ∧
      ((∃ member ∈ d.committeeMembers, ∃ data,
          env.getOffChainData member hash = some data ∧ keccak data = hash) →
        ∃ data, r = .ok data) := by
  rcases hv with ⟨hsel, hnil⟩ | ⟨s, hs, hsel⟩
  · -- no members: no loop, `Init` again
    refine ⟨(d.reinit env).1, (d.reinit env).2, [], by simp [getBatchL2Data, hsel],
      reinit_valid env (.inl ⟨hsel, hnil⟩), List.nodup_nil, by simp, fun h => absurd hnil h,
      fun data h => absurd h (reinit_ne_ok d env data), ?_⟩
    rintro ⟨member, hmem, -⟩
    simp [hnil] at hmem
  · set answer := memberAnswer d.committeeMembers (env.getOffChainData · hash) keccak hash
    have hloop := @getBatchL2DataLoop_start d.committeeMembers (env.getOffChainData · hash)
      keccak hash s hs
    -- what is asked is a prefix of the rotation from `s`
    have hpre := tryMembers_asked_prefix answer (rotation d.committeeMembers.length s)
    have hnodup : ((tryMembers answer (rotation d.committeeMembers.length s)).2.map
        (fun i : ℕ => (i : ℤ))).Nodup :=
      ((rotation_nodup _ s).sublist hpre.sublist).map Nat.cast_injective
    have hrange : ∀ k ∈ (tryMembers answer (rotation d.committeeMembers.length s)).2.map
        (fun i : ℕ => (i : ℤ)), 0 ≤ k ∧ k < d.committeeMembers.length := by
      intro k hk
      obtain ⟨i, hi, rfl⟩ := List.mem_map.1 hk
      exact ⟨Nat.cast_nonneg i, by exact_mod_cast mem_rotation.1 (hpre.subset hi)⟩
    have hhead : d.committeeMembers ≠ [] →
        ((tryMembers answer (rotation d.committeeMembers.length s)).2.map
          (fun i : ℕ => (i : ℤ))).head? = some d.selectedCommitteeMember := by
      intro _
      rw [List.head?_map, tryMembers_head?, rotation_head? hs, hsel]
      rfl
    cases ht : tryMembers answer (rotation d.committeeMembers.length s) with
    | mk found asked =>
    rw [ht] at hloop hnodup hrange hhead
    cases found with
    | some p =>
      obtain ⟨i, data⟩ := p
      obtain ⟨hi, hanswer⟩ := tryMembers_found (by rw [ht])
      obtain ⟨⟨hlt, -⟩, hkeccak⟩ := memberAnswer_eq_some.1 hanswer
      refine ⟨.ok data, { d with selectedCommitteeMember := i }, asked.map (↑), ?_,
        .inr ⟨i, hlt, rfl⟩, hnodup, hrange, hhead, ?_, fun _ => ⟨data, rfl⟩⟩
      · simp [getBatchL2Data, hsel, hloop, loopExitOf]
      · rintro _ ⟨⟩
        exact hkeccak
    | none =>
      have hasked := (@tryMembers_eq_none _ _ answer
        (rotation d.committeeMembers.length s) (by rw [ht])).2
      rw [ht] at hasked
      subst hasked
      -- a member with data of the hash would have answered
      have hnodata := @no_member_data_of_tryMembers_eq_none d.committeeMembers
        (env.getOffChainData · hash) keccak hash s (by rw [ht])
      refine ⟨(Backend.reinit env { d with selectedCommitteeMember := s }).1,
        (Backend.reinit env { d with selectedCommitteeMember := s }).2,
        (rotation d.committeeMembers.length s).map (↑), ?_,
        reinit_valid env (.inr ⟨s, hs, rfl⟩), hnodup, hrange, hhead,
        fun data h => absurd h (reinit_ne_ok _ env data), fun hex => absurd hex hnodata⟩
      simp [getBatchL2Data, hsel, hloop, loopExitOf]

end Call

/-- The backends a node runs with: what `Init` returns when the node
starts (it stops when that fails), and what each `GetBatchL2Data` leaves. -/
inductive Backend.Reachable : Backend → Prop
  | init {env : BackendEnv} {d : Backend} : init env = some d → Backend.Reachable d
  | getBatchL2Data {env : BackendEnv} {keccak : List UInt8 → ℕ} {hash : ℕ}
      {d d' : Backend} {r : Except BackendError (List UInt8)} {asked : List ℤ} :
      Backend.Reachable d → d.getBatchL2Data env keccak hash = .ok (r, d', asked) →
        Backend.Reachable d'

/-- **The cursor is in range in every backend a run reaches.** -/
theorem Backend.Reachable.valid {d : Backend} : d.Reachable → d.Valid
  | .init h => init_valid h
  | @Reachable.getBatchL2Data env keccak hash _ _ _ _ hd h => by
    obtain ⟨r, d', asked, h', hv', -⟩ := @getBatchL2Data_spec env keccak hash _ hd.valid
    rw [h] at h'
    cases h'
    exact hv'

/-- **`GetSequence` returns data of each hash, in order**, from a backend
a run reaches, and leaves one. -/
theorem Backend.getSequence_spec (envs : ℕ → BackendEnv) (keccak : List UInt8 → ℕ) :
    ∀ (hashes : List ℕ) (k : ℕ) (batchData : List (List UInt8)) (d : Backend), d.Reachable →
      ∃ r d', d.getSequence envs keccak hashes k batchData = .ok (r, d') ∧ d'.Reachable ∧
        ∀ datas, r = .ok datas → ∃ rest, datas = batchData ++ rest ∧ rest.map keccak = hashes
  | [], _, batchData, d, hd => ⟨.ok batchData, d, rfl, hd, fun datas h => ⟨[], by cases h; simp, rfl⟩⟩
  | h :: hashes, k, batchData, d, hd => by
    obtain ⟨r, d', asked, hcall, -, -, -, -, hkeccak, -⟩ :=
      @getBatchL2Data_spec (envs k) keccak h _ hd.valid
    have hd' : d'.Reachable := .getBatchL2Data hd hcall
    cases r with
    | error e =>
      exact ⟨.error e, d', by simp [getSequence, hcall], hd', fun _ h => by cases h⟩
    | ok data =>
      obtain ⟨r', d'', hrest, hd'', hdatas⟩ :=
        getSequence_spec envs keccak hashes (k + 1) (batchData ++ [data]) d' hd'
      refine ⟨r', d'', by simp [getSequence, hcall, hrest], hd'', fun datas hr => ?_⟩
      obtain ⟨rest, rfl, hmap⟩ := hdatas datas hr
      exact ⟨data :: rest, by simp, by simp [hkeccak data rfl, hmap]⟩

/-! ## The data availability layer -/

end DataAvailability

/-- `DataAvailability`: whether this node is the trusted sequencer, and
its backend. -/
structure DataAvailability where
  isTrustedSequencer : Bool
  backend : DataAvailability.Backend

namespace DataAvailability

open Outcome State

/-- What the trusted sequencer's `zkevm_getBatchDataByNumbers` answers the
client's `BatchesByNumbers`: an error, the `null` result it sends when it
holds none of the batches, or the list of `data`, each entry `null` or a
batch with its `BatchL2Data`. -/
inductive BatchDataAnswer where
  | error
  | null
  | data (batches : List (Option (List UInt8)))

/-- `BatchesByNumbers`: `result.Data` of the `*BatchDataResult` the answer
unmarshals into, which is `nil` for a `null` result. -/
def batchesByNumbers : BatchDataAnswer → Outcome Unit (List (Option (List UInt8)))
  | .error => .err ()
  | .null => .panic
  | .data batches => .ok batches

/-- The answer has no `null` where the data availability layer reads
through a pointer: neither the result nor an entry of it. -/
def BatchDataAnswer.noNull : BatchDataAnswer → Bool
  | .error => true
  | .null => false
  | .data batches => batches.all Option.isSome

/-- What one call of `GetBatchL2Data` meets: the local database's
`GetBatchL2DataByNumbers` (`none` for an error), the trusted sequencer's
answer, and the backend's environment for its `k`-th call. -/
structure DAEnv where
  getBatchL2DataByNumbers : Option (UInt64 → Option (List UInt8))
  batchesByNumbers : BatchDataAnswer
  backend : ℕ → BackendEnv

/-- `localData`: each batch from the local database, each with the hash
expected. Its errors are logged and never returned, so they carry
nothing. -/
def localData (keccak : List UInt8 → ℕ)
    (getBatchL2DataByNumbers : Option (UInt64 → Option (List UInt8))) (numbers : List UInt64)
    (hashes : List ℕ) : Outcome Unit (List (List UInt8)) :=
  match getBatchL2DataByNumbers with
  | none => .err ()
  | some data =>
    (List.range numbers.length).mapM fun i => do
      let batchNumber ← index numbers i
      let expectedHash ← index hashes i
      match data batchNumber with
      | none => .err ()
      | some batchData => if keccak batchData ≠ expectedHash then .err () else pure batchData

/-- `trustedSequencerData`: the batches from the trusted sequencer, as many
as asked for, each with the hash expected. -/
def trustedSequencerData (keccak : List UInt8 → ℕ)
    (answer : BatchDataAnswer) (batchNums : List UInt64)
    (expectedHashes : List ℕ) : Outcome Unit (List (List UInt8)) :=
  if batchNums.length ≠ expectedHashes.length then .err ()
  else do
    let batchData ← batchesByNumbers answer
    if batchData.length ≠ batchNums.length then .err ()
    else
      (List.range batchNums.length).mapM fun i => do
        let batch ← index batchData i
        let expectedTransactionsHash ← index expectedHashes i
        match batch with
        -- `batch.BatchL2Data` of a `null` entry
        | none => .panic
        | some batchL2Data =>
          if expectedTransactionsHash ≠ keccak batchL2Data then .err () else pure batchL2Data

/-- Why `DataAvailability.GetBatchL2Data` fails. -/
inductive DAError where
  /-- "invalid L2 batch data retrieval arguments, %d != %d" -/
  | invalidArguments (batchNums batchHashes : ℕ)
  | backend (e : BackendError)
  deriving DecidableEq

/-- `DataAvailability.GetBatchL2Data`: from the local database, else (on a
node that is not the trusted sequencer) from the trusted sequencer, else
from the backend. -/
def getBatchL2Data (env : DAEnv) (keccak : List UInt8 → ℕ)
    (batchNums : List UInt64) (batchHashes : List ℕ) (d : DataAvailability) :
    Outcome Empty (Except DAError (List (List UInt8)) × DataAvailability) :=
  if batchNums.length ≠ batchHashes.length then
    .ok (.error (.invalidArguments batchNums.length batchHashes.length), d)
  else
    match localData keccak env.getBatchL2DataByNumbers batchNums batchHashes with
    | .ok data => .ok (.ok data, d)
    | .panic => .panic
    | .err () =>
      let trusted := if !d.isTrustedSequencer then
          trustedSequencerData keccak env.batchesByNumbers batchNums batchHashes
        else .err ()
      match trusted with
      | .ok data => .ok (.ok data, d)
      | .panic => .panic
      | .err () => do
        let r ← d.backend.getSequence env.backend keccak batchHashes 0 []
        .ok (r.1.mapError .backend, { d with backend := r.2 })

section Levels

variable {keccak : List UInt8 → ℕ}

/-- **The local database's batches are those of the hashes**, and reading
them does not panic when there are as many hashes as batches. -/
theorem localData_spec {db : Option (UInt64 → Option (List UInt8))} {numbers : List UInt64}
    {hashes : List ℕ} (hlen : numbers.length = hashes.length) :
    localData keccak db numbers hashes ≠ .panic ∧
      ∀ datas, localData keccak db numbers hashes = .ok datas → datas.map keccak = hashes := by
  cases db with
  | none => simp [localData]
  | some data =>
    simp only [localData]
    constructor
    · refine mapM_ne_panic fun i hi => ?_
      have hi : i < numbers.length := List.mem_range.1 hi
      rw [index_of_lt hi, ok_bind, index_of_lt (show i < hashes.length by omega), ok_bind]
      cases data numbers[i] with
      | none => simp
      | some batchData => by_cases hk : keccak batchData = hashes[i] <;> simp [hk]
    · refine fun datas h => map_of_mapM_range_eq_ok hlen (fun i hi b hturn => ?_) h
      rw [index_of_lt hi, ok_bind, index_of_lt (show i < hashes.length by omega), ok_bind] at hturn
      rw [List.getElem?_eq_getElem (by omega)]
      cases hd : data numbers[i] with
      | none => simp [hd] at hturn
      | some batchData =>
        by_cases hk : keccak batchData = hashes[i]
        · simp only [hd, hk, ne_eq, not_true_eq_false, if_false, pure_def, ok.injEq] at hturn
          simp [← hturn, hk]
        · simp [hd, hk] at hturn

/-- **The trusted sequencer's batches are those of the hashes**, whatever
it answers; reading them panics only on a `null` in its answer. -/
theorem trustedSequencerData_spec {answer : BatchDataAnswer}
    {batchNums : List UInt64} {expectedHashes : List ℕ} :
    (answer.noNull = true → trustedSequencerData keccak answer batchNums expectedHashes ≠ .panic) ∧
      ∀ datas, trustedSequencerData keccak answer batchNums expectedHashes = .ok datas →
        datas.map keccak = expectedHashes := by
  unfold trustedSequencerData
  by_cases hlen : batchNums.length = expectedHashes.length
  · rw [if_neg (not_not.2 hlen)]
    cases answer with
    | error => simp [batchesByNumbers]
    | null => simp [batchesByNumbers, BatchDataAnswer.noNull]
    | data batchData =>
      rw [batchesByNumbers, ok_bind]
      by_cases hlen' : batchData.length = batchNums.length
      · simp only [hlen', ne_eq, not_true_eq_false, if_false]
        constructor
        · intro hnull
          refine mapM_ne_panic fun i hi => ?_
          have hi : i < batchNums.length := List.mem_range.1 hi
          rw [index_of_lt (show i < batchData.length by omega), ok_bind,
            index_of_lt (show i < expectedHashes.length by omega), ok_bind]
          -- no entry of the answer is `null`
          obtain ⟨batchL2Data, hb⟩ := Option.isSome_iff_exists.mp
            (List.all_eq_true.mp hnull _ (List.getElem_mem (show i < batchData.length by omega)))
          rw [hb]
          by_cases hk : expectedHashes[i] = keccak batchL2Data <;> simp [hk]
        · refine fun datas h => map_of_mapM_range_eq_ok hlen (fun i hi b hturn => ?_) h
          rw [index_of_lt (show i < batchData.length by omega), ok_bind,
            index_of_lt (show i < expectedHashes.length by omega), ok_bind] at hturn
          rw [List.getElem?_eq_getElem (by omega)]
          cases hb : batchData[i] with
          | none =>
            rw [hb] at hturn
            cases hturn
          | some batchL2Data =>
            rw [hb] at hturn
            by_cases hk : expectedHashes[i] = keccak batchL2Data
            · simp only [hk, not_true_eq_false, if_false, pure_def, ok.injEq] at hturn
              simp [← hturn, hk]
            · simp [hk] at hturn
      · simp [hlen']
  · simp [hlen]

/-- **Whatever level answers, `GetBatchL2Data` returns data of the hashes
asked for**, from a backend a run reaches; it does not panic when the
trusted sequencer's answer has no `null`, and leaves a backend a run
reaches. -/
theorem getBatchL2Data_spec {env : DAEnv} {d : DataAvailability} (hd : d.backend.Reachable)
    (hnull : env.batchesByNumbers.noNull = true) (batchNums : List UInt64) (batchHashes : List ℕ) :
    ∃ r d', d.getBatchL2Data env keccak batchNums batchHashes = .ok (r, d') ∧
      d'.backend.Reachable ∧ ∀ datas, r = .ok datas → datas.map keccak = batchHashes := by
  -- the last level, the committee, which both fallbacks reach
  have hbackend : ∃ r d', (do
      let r ← d.backend.getSequence env.backend keccak batchHashes 0 []
      .ok (r.1.mapError .backend, { d with backend := r.2 }) :
        Outcome Empty (Except DAError (List (List UInt8)) × DataAvailability)) = .ok (r, d') ∧
      d'.backend.Reachable ∧ ∀ datas, r = .ok datas → datas.map keccak = batchHashes := by
    obtain ⟨r, b, hseq, hb, hdatas⟩ :=
      Backend.getSequence_spec env.backend keccak batchHashes 0 [] d.backend hd
    refine ⟨r.mapError .backend, { d with backend := b }, by rw [hseq, ok_bind], hb,
      fun datas h => ?_⟩
    cases r with
    | error e => cases h
    | ok datas' =>
      cases h
      obtain ⟨rest, rfl, hmap⟩ := hdatas datas rfl
      simpa using hmap
  unfold getBatchL2Data
  by_cases hlen : batchNums.length = batchHashes.length
  · rw [if_neg (not_not.2 hlen)]
    obtain ⟨hlocal_np, hlocal⟩ :=
      @localData_spec keccak env.getBatchL2DataByNumbers batchNums batchHashes hlen
    cases hl : localData keccak env.getBatchL2DataByNumbers batchNums batchHashes with
    | ok data => exact ⟨.ok data, d, rfl, hd, fun datas h => by cases h; exact hlocal data hl⟩
    | panic => exact absurd hl hlocal_np
    | err u =>
      obtain ⟨htrusted_np, htrusted⟩ :=
        @trustedSequencerData_spec keccak env.batchesByNumbers batchNums batchHashes
      dsimp only
      by_cases hts : d.isTrustedSequencer = true
      · rw [if_neg (by simp [hts])]
        exact hbackend
      · -- a node that is not the trusted sequencer asks it
        rw [if_pos (by simpa using hts)]
        cases ht : trustedSequencerData keccak env.batchesByNumbers batchNums batchHashes with
        | ok data => exact ⟨.ok data, d, rfl, hd, fun datas h => by cases h; exact htrusted data ht⟩
        | panic => exact absurd ht (htrusted_np hnull)
        | err u' => exact hbackend
  · rw [if_pos hlen]
    exact ⟨_, d, rfl, hd, fun _ h => by cases h⟩

end Levels

/-! ## `decodeSequencedBatches` -/

/-- `PolygonRollupBaseEtrogBatchData`. -/
structure EtrogBatchData where
  transactions : List UInt8
  forcedGlobalExitRoot : ℕ
  forcedTimestamp : ℕ
  forcedBlockHashL1 : ℕ

/-- `PolygonValidiumEtrogValidiumBatchData`: the hash of the transactions
in place of them. -/
structure ValidiumBatchData where
  transactionsHash : ℕ
  forcedGlobalExitRoot : ℕ
  forcedTimestamp : ℕ
  forcedBlockHashL1 : ℕ

/-- The call a sequencing transaction makes, with its inputs unpacked:
`coinbase` and `dataAvailabilityMsg` are what the fork's method carries in
them. -/
inductive SequenceCall where
  | sequenceBatches (sequences : List EtrogBatchData) (coinbase : ℕ)
  | sequenceBatchesValidium (sequencesValidium : List ValidiumBatchData) (coinbase : ℕ)
      (dataAvailabilityMsg : List UInt8)
  | other (rawName : String)

/-- Why `decodeSequencedBatches` fails, past unpacking the call. -/
inductive DecodeError where
  | dataAvailability (e : DAError)
  /-- "unexpected method called in sequence batches transaction: %s" -/
  | unexpectedMethod (rawName : String)
  deriving DecidableEq

/-- `bn := lastBatchNumber - uint64(len(sequences)-(i+1))`: the `i`-th of
`n` batches that end at `lastBatchNumber`. -/
def sequencedBatchNumber (lastBatchNumber : UInt64) (n i : ℕ) : UInt64 :=
  lastBatchNumber - UInt64.ofNat (n - (i + 1))

/-- The coinbase: read from the inputs at Etrog and Elderberry only. -/
def sequenceCoinbase (forkID coinbase : ℕ) : ℕ :=
  if forkID = forkIdEtrog ∨ forkID = forkIdElderberry then coinbase else 0

/-- The `SequencedBatch` both branches build, from the batch's number and
its `PolygonRollupBaseEtrogBatchData`. -/
def sequencedBatch (bn : UInt64) (txHash coinbase sequencer l1InfoRoot : ℕ) (s : EtrogBatchData) :
    Synchronizer.Etrog.SequencedBatch where
  batchNumber := bn.toNat
  txHash := txHash
  coinbase := coinbase
  sequencerAddr := sequencer
  l1InfoRoot := l1InfoRoot
  transactions := s.transactions
  forcedGlobalExitRoot := s.forcedGlobalExitRoot
  forcedTimestamp := s.forcedTimestamp
  forcedBlockHashL1 := s.forcedBlockHashL1

/-- A turn of the second loop of the validium branch: batch `i`, numbered
`bn`, from the data returned and the entry. -/
def validiumSequencedBatch (txHash coinbase sequencer l1InfoRoot : ℕ)
    (batchL2Data : List (List UInt8)) (sequencesValidium : List ValidiumBatchData) (bn : UInt64)
    (i : ℕ) : Outcome Empty Synchronizer.Etrog.SequencedBatch := do
  let transactions ← index batchL2Data i
  let seq ← index sequencesValidium i
  pure (sequencedBatch bn txHash coinbase sequencer l1InfoRoot
    ⟨transactions, seq.forcedGlobalExitRoot, seq.forcedTimestamp, seq.forcedBlockHashL1⟩)

/-- `decodeSequencedBatches`, past unpacking the call, with the data
availability layer after. -/
def decodeSequencedBatches (env : DAEnv) (keccak : List UInt8 → ℕ) (call : SequenceCall)
    (forkID : ℕ) (lastBatchNumber : UInt64) (sequencer txHash l1InfoRoot : ℕ)
    (da : DataAvailability) :
    Outcome Empty (Except DecodeError (List Synchronizer.Etrog.SequencedBatch) × DataAvailability) :=
  match call with
  | .sequenceBatches sequences coinbase =>
    .ok (.ok (sequences.zipIdx.map fun p =>
      sequencedBatch (sequencedBatchNumber lastBatchNumber sequences.length p.2) txHash
        (sequenceCoinbase forkID coinbase) sequencer l1InfoRoot p.1), da)
  | .sequenceBatchesValidium sequencesValidium coinbase _ => do
    let batchNums := sequencesValidium.zipIdx.map fun p =>
      sequencedBatchNumber lastBatchNumber sequencesValidium.length p.2
    let hashes := sequencesValidium.map (·.transactionsHash)
    let r ← da.getBatchL2Data env keccak batchNums hashes
    match r.1 with
    | .error e => .ok (.error (.dataAvailability e), r.2)
    | .ok batchL2Data =>
      let batches ← batchNums.zipIdx.mapM fun p =>
        validiumSequencedBatch txHash (sequenceCoinbase forkID coinbase) sequencer l1InfoRoot
          batchL2Data sequencesValidium p.1 p.2
      .ok (.ok batches, r.2)
  | .other rawName => .ok (.error (.unexpectedMethod rawName), da)

theorem validiumSequencedBatch_of_lt {txHash coinbase sequencer l1InfoRoot : ℕ}
    {batchL2Data : List (List UInt8)} {sequencesValidium : List ValidiumBatchData} {bn : UInt64}
    {i : ℕ} (h : i < batchL2Data.length) (h' : i < sequencesValidium.length) :
    validiumSequencedBatch txHash coinbase sequencer l1InfoRoot batchL2Data sequencesValidium bn i =
      .ok (sequencedBatch bn txHash coinbase sequencer l1InfoRoot
        ⟨batchL2Data[i], sequencesValidium[i].forcedGlobalExitRoot,
          sequencesValidium[i].forcedTimestamp, sequencesValidium[i].forcedBlockHashL1⟩) := by
  rw [validiumSequencedBatch, index_of_lt h, ok_bind, index_of_lt h', ok_bind, pure_def]

theorem sequencedBatchNumber_toNat {lastBatchNumber : UInt64} {n i : ℕ} (hi : i < n)
    (hlast : n - 1 ≤ lastBatchNumber.toNat) :
    (sequencedBatchNumber lastBatchNumber n i).toNat = lastBatchNumber.toNat - (n - 1 - i) := by
  have hlt := lastBatchNumber.toNat_lt
  have hof : (UInt64.ofNat (n - (i + 1))).toNat = n - (i + 1) := by
    rw [UInt64.toNat_ofNat']
    exact Nat.mod_eq_of_lt (by omega)
  unfold sequencedBatchNumber
  rw [UInt64.toNat_sub_of_le _ _ (by rw [UInt64.le_iff_toNat_le, hof]; omega), hof]
  omega

/-- **Validium batches are bound to their hashes.** For a validium
sequence of `n` entries, a `lastBatchNumber` of at least `n - 1`, any
answers of the local database, the trusted sequencer and the committee,
and a backend a run reaches, `decodeSequencedBatches` does not panic when
the trusted sequencer's answer has no `null`, leaves a backend a run
reaches, and returns an error or exactly `n` batches: batch `i` numbered
`lastBatchNumber - (n - 1 - i)`, with transactions of entry `i`'s hash and
entry `i`'s forced fields. -/
theorem decodeSequencedBatches_validium_spec {env : DAEnv} {keccak : List UInt8 → ℕ}
    {da : DataAvailability} (hda : da.backend.Reachable) (hnull : env.batchesByNumbers.noNull = true)
    (sequencesValidium : List ValidiumBatchData) (coinbase : ℕ) (dataAvailabilityMsg : List UInt8)
    (forkID : ℕ) (lastBatchNumber : UInt64) (sequencer txHash l1InfoRoot : ℕ)
    (hlast : sequencesValidium.length - 1 ≤ lastBatchNumber.toNat) :
    ∃ r da', decodeSequencedBatches env keccak
        (.sequenceBatchesValidium sequencesValidium coinbase dataAvailabilityMsg) forkID
        lastBatchNumber sequencer txHash l1InfoRoot da = .ok (r, da') ∧ da'.backend.Reachable ∧
      ∀ batches, r = .ok batches → batches.length = sequencesValidium.length ∧
        ∀ i (h : i < batches.length) (h' : i < sequencesValidium.length),
          batches[i].batchNumber = lastBatchNumber.toNat - (sequencesValidium.length - 1 - i) ∧
          keccak batches[i].transactions = sequencesValidium[i].transactionsHash ∧
          batches[i].forcedGlobalExitRoot = sequencesValidium[i].forcedGlobalExitRoot ∧
          batches[i].forcedTimestamp = sequencesValidium[i].forcedTimestamp ∧
          batches[i].forcedBlockHashL1 = sequencesValidium[i].forcedBlockHashL1 := by
  set batchNums := sequencesValidium.zipIdx.map fun p : ValidiumBatchData × ℕ =>
    sequencedBatchNumber lastBatchNumber sequencesValidium.length p.2 with hbatchNums
  have hnums : batchNums.length = sequencesValidium.length := by simp [batchNums]
  obtain ⟨r, da', hcall, hreach, hdatas⟩ := @getBatchL2Data_spec keccak env da hda hnull batchNums
    (sequencesValidium.map (·.transactionsHash))
  simp only [decodeSequencedBatches, ← hbatchNums, hcall, ok_bind]
  cases r with
  | error e => exact ⟨_, da', rfl, hreach, fun _ h => by cases h⟩
  | ok datas =>
    have hmap := hdatas datas rfl
    have hlen : datas.length = sequencesValidium.length := by
      simpa using congrArg List.length hmap
    -- every turn of the loop reads in range
    set turn := fun p : UInt64 × ℕ => validiumSequencedBatch txHash (sequenceCoinbase forkID coinbase)
      sequencer l1InfoRoot datas sequencesValidium p.1 p.2 with hturn
    have hnp : batchNums.zipIdx.mapM turn ≠ .panic := mapM_ne_panic fun p hp => by
      have hi := (List.mem_zipIdx hp).2.1
      rw [hturn]
      dsimp only
      rw [validiumSequencedBatch_of_lt (by omega) (by omega)]
      simp
    obtain ⟨batches, hbatches⟩ := exists_eq_ok_of_ne_panic hnp
    refine ⟨.ok batches, da', by dsimp only; rw [← hturn, hbatches, ok_bind], hreach,
      fun batches' hb => ?_⟩
    cases hb
    -- batch `i` is the turn at `(batchNums[i], i)`
    obtain ⟨hlen', hget⟩ := List.forall₂_iff_get.1 (mapM_eq_ok hbatches)
    have hblen : batches.length = sequencesValidium.length := by
      simp only [List.length_zipIdx] at hlen'
      omega
    refine ⟨hblen, fun i h h' => ?_⟩
    have hturn_i := hget i (by simp only [List.length_zipIdx]; omega) h
    simp only [List.get_eq_getElem, List.getElem_zipIdx, hturn, Nat.zero_add] at hturn_i
    rw [validiumSequencedBatch_of_lt (show i < datas.length by omega) h', ok.injEq] at hturn_i
    have hk : keccak datas[i] = sequencesValidium[i].transactionsHash := by
      have h := @List.getElem_of_eq _ _ _ hmap i (by simp only [List.length_map]; omega)
      rwa [List.getElem_map, List.getElem_map] at h
    simp [← hturn_i, sequencedBatch, hbatchNums, sequencedBatchNumber_toNat h' hlast, hk]

/-- **Validium batch data is bound to the hash on L1.** Whatever the local
database and each committee member answer, whatever the trusted sequencer
answers short of a `null`, and from every backend a run reaches:
`decodeSequencedBatches` of a validium sequence of `n` entries, with
`lastBatchNumber ≥ n - 1`, never panics and returns an error or exactly `n`
batches, batch `i` numbered `lastBatchNumber - (n - 1 - i)`, with
transactions whose hash is entry `i`'s and entry `i`'s forced fields; and
one call of the backend's `GetBatchL2Data` asks each member at most once,
from the one selected before, and fails only when no member has data of the
hash. -/
theorem validium_batch_data_bound_to_hash :
    (∀ (env : DAEnv) (keccak : List UInt8 → ℕ) (da : DataAvailability), da.backend.Reachable →
      env.batchesByNumbers.noNull = true →
      ∀ (sequencesValidium : List ValidiumBatchData) (coinbase : ℕ)
        (dataAvailabilityMsg : List UInt8) (forkID : ℕ) (lastBatchNumber : UInt64)
        (sequencer txHash l1InfoRoot : ℕ),
        sequencesValidium.length - 1 ≤ lastBatchNumber.toNat →
        ∃ r da', decodeSequencedBatches env keccak
            (.sequenceBatchesValidium sequencesValidium coinbase dataAvailabilityMsg) forkID
            lastBatchNumber sequencer txHash l1InfoRoot da = .ok (r, da') ∧
          ∀ batches, r = .ok batches → batches.length = sequencesValidium.length ∧
            ∀ i (h : i < batches.length) (h' : i < sequencesValidium.length),
              batches[i].batchNumber = lastBatchNumber.toNat - (sequencesValidium.length - 1 - i) ∧
              keccak batches[i].transactions = sequencesValidium[i].transactionsHash ∧
              batches[i].forcedGlobalExitRoot = sequencesValidium[i].forcedGlobalExitRoot ∧
              batches[i].forcedTimestamp = sequencesValidium[i].forcedTimestamp ∧
              batches[i].forcedBlockHashL1 = sequencesValidium[i].forcedBlockHashL1) ∧
    (∀ (d : Backend) (env : BackendEnv) (keccak : List UInt8 → ℕ) (hash : ℕ), d.Reachable →
      ∃ r d' asked, d.getBatchL2Data env keccak hash = .ok (r, d', asked) ∧
        asked.Nodup ∧ (∀ k ∈ asked, 0 ≤ k ∧ k < d.committeeMembers.length) ∧
        (d.committeeMembers ≠ [] → asked.head? = some d.selectedCommitteeMember) ∧
        (∀ data, r = .ok data → keccak data = hash) ∧
        ((∃ member ∈ d.committeeMembers, ∃ data,
            env.getOffChainData member hash = some data ∧ keccak data = hash) →
          ∃ data, r = .ok data)) := by
  refine ⟨fun env keccak da hda hnull sequencesValidium coinbase dataAvailabilityMsg forkID
      lastBatchNumber sequencer txHash l1InfoRoot hlast => ?_,
    fun d env keccak hash hd => ?_⟩
  · obtain ⟨r, da', hdecode, -, hbatches⟩ := decodeSequencedBatches_validium_spec hda hnull
      sequencesValidium coinbase dataAvailabilityMsg forkID lastBatchNumber sequencer txHash
      l1InfoRoot hlast
    exact ⟨r, da', hdecode, hbatches⟩
  · obtain ⟨r, d', asked, hcall, -, hasked⟩ := @Backend.getBatchL2Data_spec env keccak hash d hd.valid
    exact ⟨r, d', asked, hcall, hasked⟩

/-- A committee of one member that has the data, for the witness below. -/
def oneMemberEnv : BackendEnv where
  getCurrentDataCommittee := some [⟨signingAddr, ""⟩]
  intn _ h := ⟨0, h⟩
  getOffChainData _ _ := some [1, 2, 3]

/-- A node with no local data, whose trusted sequencer answers data of
another hash, and a committee of `oneMemberEnv`. -/
def wrongTrustedDataEnv : DAEnv := ⟨none, .data [some [9, 9]], fun _ => oneMemberEnv⟩

theorem validium_batch_data_bound_to_hash_oneMember :
    init oneMemberEnv = some ⟨[⟨signingAddr, ""⟩], 0⟩ ∧
      (∃ r da', decodeSequencedBatches wrongTrustedDataEnv List.length
          (.sequenceBatchesValidium [⟨3, 0, 0, 0⟩] 0 []) forkIdEtrog 5 0 0 0
          ⟨false, ⟨[⟨signingAddr, ""⟩], 0⟩⟩ = .ok (r, da') ∧
        ∀ batches, r = .ok batches → batches.length = 1) ∧
      ∃ r d' asked, Backend.getBatchL2Data oneMemberEnv List.length 3
          ⟨[⟨signingAddr, ""⟩], 0⟩ = .ok (r, d', asked) ∧ asked.Nodup := by
  have hinit : init oneMemberEnv = some ⟨[⟨signingAddr, ""⟩], 0⟩ := rfl
  obtain ⟨r, da', hdecode, hbatches⟩ := validium_batch_data_bound_to_hash.1
    wrongTrustedDataEnv List.length ⟨false, ⟨[⟨signingAddr, ""⟩], 0⟩⟩
    (.init hinit) rfl [⟨3, 0, 0, 0⟩] 0 [] forkIdEtrog 5 0 0 0 (by decide)
  obtain ⟨r', d', asked, hcall, hnodup, -⟩ := validium_batch_data_bound_to_hash.2
    ⟨[⟨signingAddr, ""⟩], 0⟩ oneMemberEnv List.length 3 (.init hinit)
  exact ⟨hinit, ⟨r, da', hdecode, fun batches h => (hbatches batches h).1⟩,
    r', d', asked, hcall, hnodup⟩

/-- **A `null` from the trusted sequencer panics the decoder.** A node that
is not the trusted sequencer and has no local data asks the trusted
sequencer; when it holds none of the batches it answers `null`, and the
client reads `result.Data` through the `nil` result; an answer with a
`null` entry panics at `batch.BatchL2Data`. Either way
`decodeSequencedBatches` panics, although a committee member has the
data. -/
theorem decodeSequencedBatches_panics_on_null_answer :
    decodeSequencedBatches ⟨none, .null, fun _ => oneMemberEnv⟩ List.length
        (.sequenceBatchesValidium [⟨3, 0, 0, 0⟩] 0 []) forkIdEtrog 5 0 0 0
        ⟨false, ⟨[⟨signingAddr, ""⟩], 0⟩⟩ = .panic ∧
      decodeSequencedBatches ⟨none, .data [none], fun _ => oneMemberEnv⟩ List.length
        (.sequenceBatchesValidium [⟨3, 0, 0, 0⟩] 0 []) forkIdEtrog 5 0 0 0
        ⟨false, ⟨[⟨signingAddr, ""⟩], 0⟩⟩ = .panic ∧
      oneMemberEnv.getOffChainData ⟨signingAddr, ""⟩ 3 = some [1, 2, 3] :=
  ⟨rfl, rfl, rfl⟩

end DataAvailability

end XLayerNode
