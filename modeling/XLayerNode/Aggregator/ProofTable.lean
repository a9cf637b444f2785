import Mathlib.Data.List.AList
import Mathlib.Data.List.Sort
/-!
# The table of generated proofs

The aggregator keeps the recursive proofs of ranges of batches in
`state.proof`, keyed by the range; a row is locked while its
`generating_since` is set. Provers run concurrently, each through steps
that the statements of `proof.go` make atomic:

* `getAndLockBatchToProve` adds the locked range `[n, n]` of the lowest
  virtual batch no row covers; the prover then stores the proof and unlocks
  the row, or deletes the rows inside `[n, n]`;
* `getAndLockProofsToAggregate` locks two adjacent generated rows
  `[a, b]` and `[b + 1, c]`; the prover then deletes the rows inside
  `[a, c]` and adds `[a, c]` locked, or unlocks the two;
* the final proof locks the row that starts after the last verified batch;
* `CleanupGeneratedProofs` deletes the rows up to a verified batch, and
  the periodic `CleanupLockedProofs` the rows locked before a time.

Deleting the rows inside a range and adding the range keeps the ranges
disjoint exactly when no row straddles the range (`disjoint_aggregate_iff`),
which holds when the two rows are locked (`noStraddle_getProofsToAggregate`).
A locked pair can be deleted by `CleanupLockedProofs` while its prover
works: its batches are proved again by other provers, one of them is
aggregated with a batch after the pair, and the first prover's aggregate
then overlaps that row (`straddleRun_overlaps`).
-/

namespace XLayerNode

namespace Aggregator

/-- A row of `state.proof`: its range of batches, the recursive proof once
generated, and since when it is locked (`generating_since`). -/
structure Proof where
  batchNumber : ℕ
  batchNumberFinal : ℕ
  proof : Option ℕ
  generatingSince : Option ℕ
  deriving DecidableEq, Repr

namespace Proof

/-- The range of the row holds batch `n`. -/
def Covers (p : Proof) (n : ℕ) : Prop := p.batchNumber ≤ n ∧ n ≤ p.batchNumberFinal

instance (p : Proof) (n : ℕ) : Decidable (p.Covers n) := inferInstanceAs (Decidable (_ ∧ _))

/-- The range of the row lies inside `[batchNumber, batchNumberFinal]`. -/
def Inside (p : Proof) (batchNumber batchNumberFinal : ℕ) : Prop :=
  batchNumber ≤ p.batchNumber ∧ p.batchNumberFinal ≤ batchNumberFinal

instance (p : Proof) (a c : ℕ) : Decidable (p.Inside a c) := inferInstanceAs (Decidable (_ ∧ _))

/-- Two rows share no batch. -/
def Apart (p q : Proof) : Prop := ∀ n, p.Covers n → ¬ q.Covers n

/-- The row is the same range as `proof`, the key of the table. -/
def SameKey (p proof : Proof) : Prop :=
  p.batchNumber = proof.batchNumber ∧ p.batchNumberFinal = proof.batchNumberFinal

instance (p proof : Proof) : Decidable (p.SameKey proof) := inferInstanceAs (Decidable (_ ∧ _))

end Proof

/-- The tables the aggregator reads: `state.proof`, `state.sequences`, the
virtual batches with their L1 block, and the last verified batch. -/
structure Db where
  proofs : List Proof
  sequences : List (ℕ × ℕ)
  virtualBatches : List (ℕ × ℕ)
  lastVerifiedBatch : ℕ
  deriving DecidableEq, Repr

namespace Db

/-- `GetVirtualBatchToProve`: the lowest virtual batch after
`lastVerfiedBatchNumber`, of an L1 block at most `maxL1Block`, that no row
covers. -/
def getVirtualBatchToProve (db : Db) (lastVerfiedBatchNumber maxL1Block : ℕ) : Option ℕ :=
  ((db.virtualBatches.filter fun v =>
      lastVerfiedBatchNumber < v.1 ∧ v.2 ≤ maxL1Block ∧ ¬ db.proofs.any fun p => p.Covers v.1).map
    (·.1)).min?

/-- The condition of `GetProofsToAggregate` on the sequences: both rows in
one sequence, or each starting and ending a sequence. -/
def sequencesAllow (db : Db) (p1 p2 : Proof) : Bool :=
  (db.sequences.any fun s =>
      s.1 ≤ p1.batchNumber ∧ p1.batchNumber ≤ s.2 ∧ s.1 ≤ p1.batchNumberFinal ∧ p1.batchNumberFinal ≤ s.2 ∧
        s.1 ≤ p2.batchNumber ∧ p2.batchNumber ≤ s.2 ∧ s.1 ≤ p2.batchNumberFinal ∧ p2.batchNumberFinal ≤ s.2) ||
    ((db.sequences.any (·.1 = p1.batchNumber)) && (db.sequences.any (·.2 = p1.batchNumberFinal)) &&
      (db.sequences.any (·.1 = p2.batchNumber)) && (db.sequences.any (·.2 = p2.batchNumberFinal)))

/-- Two rows `GetProofsToAggregate` may return: adjacent, unlocked and
generated. -/
def aggregable (db : Db) (p1 p2 : Proof) : Bool :=
  p1.batchNumberFinal + 1 = p2.batchNumber && p1.generatingSince.isNone && p2.generatingSince.isNone &&
    p1.proof.isSome && p2.proof.isSome && db.sequencesAllow p1 p2

/-- `GetProofsToAggregate`: the first pair by the batch of the first row. -/
def getProofsToAggregate (db : Db) : Option (Proof × Proof) :=
  ((db.proofs.flatMap fun p1 => (db.proofs.filter (db.aggregable p1)).map (p1, ·)).insertionSort
    fun x y => x.1.batchNumber ≤ y.1.batchNumber).head?

/-- `GetProofReadyToVerify`: the unlocked row that starts after the last
verified batch and covers whole sequences. -/
def getProofReadyToVerify (db : Db) (lastVerfiedBatchNumber : ℕ) : Option Proof :=
  db.proofs.find? fun p =>
    p.batchNumber = lastVerfiedBatchNumber + 1 ∧ p.generatingSince = none ∧
      (db.sequences.any (·.1 = p.batchNumber)) ∧ (db.sequences.any (·.2 = p.batchNumberFinal))

/-- `AddGeneratedProof`: none when a row of the same range exists, the
key of the table. -/
def addGeneratedProof (db : Db) (proof : Proof) : Option Db :=
  if db.proofs.any fun p => p.SameKey proof then none
  else some { db with proofs := db.proofs ++ [proof] }

/-- `UpdateGeneratedProof`: the row of the range of `proof` takes its proof
and lock. -/
def updateGeneratedProof (db : Db) (proof : Proof) : Db :=
  { db with proofs := db.proofs.map fun p => if p.SameKey proof then proof else p }

/-- `DeleteGeneratedProofs`: the rows inside the range. -/
def deleteGeneratedProofs (db : Db) (batchNumber batchNumberFinal : ℕ) : Db :=
  { db with proofs := db.proofs.filter fun p => ¬ p.Inside batchNumber batchNumberFinal }

/-- `CleanupGeneratedProofs`: the rows up to `batchNumber`. -/
def cleanupGeneratedProofs (db : Db) (batchNumber : ℕ) : Db :=
  { db with proofs := db.proofs.filter fun p => ¬ p.batchNumberFinal ≤ batchNumber }

/-- `CleanupLockedProofs`: the rows locked before `cutoff`, which is `NOW()`
less the threshold. -/
def cleanupLockedProofs (db : Db) (cutoff : ℕ) : Db :=
  { db with proofs := db.proofs.filter fun p => ¬ p.generatingSince.any (· < cutoff) }

/-- `unlockProofsToAggregate`. -/
def unlockProofsToAggregate (db : Db) (proof1 proof2 : Proof) : Db :=
  (db.updateGeneratedProof { proof1 with generatingSince := none }).updateGeneratedProof
    { proof2 with generatingSince := none }

end Db

/-- What a prover is doing. -/
inductive Job where
  /-- Proving the batch of the row it added. -/
  | batch (proof : Proof)
  /-- Aggregating the two rows it locked. -/
  | aggregate (proof1 proof2 : Proof)
  /-- Holding the aggregated row it added locked. -/
  | aggregated (proof : Proof)
  /-- Holding a locked row for the final proof. -/
  | verify (proof : Proof)
  deriving DecidableEq, Repr

/-- The aggregator: the tables and what each prover is doing. -/
structure AggState where
  db : Db
  jobs : AList fun _ : ℕ => Job

/-- The steps of the provers and of the aggregator, with what the clock,
L1 and the provers return. -/
inductive Event where
  /-- `getAndLockBatchToProve` at `now`, with the highest L1 block to
  prove and the answer of the profitability check. -/
  | lockBatch (prover now maxL1Block : ℕ) (isProfitable : Bool)
  /-- The prover returned the batch proof; `finalProofBuilt` when
  `tryBuildFinalProof` took it. -/
  | batchProved (prover proof : ℕ) (finalProofBuilt : Bool)
  /-- The batch proof failed: the deferred `DeleteGeneratedProofs`. -/
  | batchFailed (prover : ℕ)
  /-- `getAndLockProofsToAggregate` at `now`. -/
  | lockAggregate (prover now : ℕ)
  /-- The prover returned the aggregated proof: the transaction of
  `DeleteGeneratedProofs` and `AddGeneratedProof` at `now`. -/
  | aggregateProved (prover proof now : ℕ)
  /-- The aggregation failed before that transaction: `unlockProofsToAggregate`. -/
  | aggregateFailed (prover : ℕ)
  /-- The aggregated row is unlocked, or kept for the final proof. -/
  | aggregatedStored (prover : ℕ) (finalProofBuilt : Bool)
  /-- `getAndLockProofReadyToVerify` at `now`. -/
  | lockProofReadyToVerify (prover now : ℕ)
  /-- The final proof was not sent: the row is unlocked. -/
  | finalProofFailed (prover : ℕ)
  /-- The final proof was sent. -/
  | finalProofSent (prover : ℕ)
  /-- `CleanupGeneratedProofs` after a verification. -/
  | cleanupGeneratedProofs (batchNumber : ℕ)
  /-- The periodic `CleanupLockedProofs`. -/
  | cleanupLockedProofs (cutoff : ℕ)
  /-- The synchronizer reaches a verified batch. -/
  | verifiedBatch (batchNumber : ℕ)

namespace AggState

/-- One step. -/
def event (s : AggState) : Event → AggState
  | .lockBatch prover now maxL1Block isProfitable =>
    match s.db.getVirtualBatchToProve s.db.lastVerifiedBatch maxL1Block with
    | some n =>
      if isProfitable then
        match s.db.addGeneratedProof ⟨n, n, none, some now⟩ with
        | some db => ⟨db, s.jobs.insert prover (.batch ⟨n, n, none, some now⟩)⟩
        | none => s
      else s
    | none => s
  | .batchProved prover proof finalProofBuilt =>
    match s.jobs.lookup prover with
    | some (.batch p) =>
      if finalProofBuilt then ⟨s.db, s.jobs.insert prover (.verify { p with proof := some proof })⟩
      else ⟨s.db.updateGeneratedProof { p with proof := some proof, generatingSince := none }, s.jobs.erase prover⟩
    | _ => s
  | .batchFailed prover =>
    match s.jobs.lookup prover with
    | some (.batch p) => ⟨s.db.deleteGeneratedProofs p.batchNumber p.batchNumberFinal, s.jobs.erase prover⟩
    | _ => s
  | .lockAggregate prover now =>
    match s.db.getProofsToAggregate with
    | some (proof1, proof2) =>
      ⟨(s.db.updateGeneratedProof { proof1 with generatingSince := some now }).updateGeneratedProof
          { proof2 with generatingSince := some now },
        s.jobs.insert prover
          (.aggregate { proof1 with generatingSince := some now } { proof2 with generatingSince := some now })⟩
    | none => s
  | .aggregateProved prover proof now =>
    match s.jobs.lookup prover with
    | some (.aggregate proof1 proof2) =>
      match (s.db.deleteGeneratedProofs proof1.batchNumber proof2.batchNumberFinal).addGeneratedProof
          ⟨proof1.batchNumber, proof2.batchNumberFinal, some proof, some now⟩ with
      | some db =>
        ⟨db, s.jobs.insert prover (.aggregated ⟨proof1.batchNumber, proof2.batchNumberFinal, some proof, some now⟩)⟩
      -- the transaction rolls back, and the deferred unlock releases the pair
      | none => ⟨s.db.unlockProofsToAggregate proof1 proof2, s.jobs.erase prover⟩
    | _ => s
  | .aggregateFailed prover =>
    match s.jobs.lookup prover with
    | some (.aggregate proof1 proof2) => ⟨s.db.unlockProofsToAggregate proof1 proof2, s.jobs.erase prover⟩
    | _ => s
  | .aggregatedStored prover finalProofBuilt =>
    match s.jobs.lookup prover with
    | some (.aggregated p) =>
      if finalProofBuilt then ⟨s.db, s.jobs.insert prover (.verify p)⟩
      else ⟨s.db.updateGeneratedProof { p with generatingSince := none }, s.jobs.erase prover⟩
    | _ => s
  | .lockProofReadyToVerify prover now =>
    match s.db.getProofReadyToVerify s.db.lastVerifiedBatch with
    | some p =>
      ⟨s.db.updateGeneratedProof { p with generatingSince := some now },
        s.jobs.insert prover (.verify { p with generatingSince := some now })⟩
    | none => s
  | .finalProofFailed prover =>
    match s.jobs.lookup prover with
    | some (.verify p) => ⟨s.db.updateGeneratedProof { p with generatingSince := none }, s.jobs.erase prover⟩
    | _ => s
  | .finalProofSent prover =>
    match s.jobs.lookup prover with
    | some (.verify _) => ⟨s.db, s.jobs.erase prover⟩
    | _ => s
  | .cleanupGeneratedProofs batchNumber => ⟨s.db.cleanupGeneratedProofs batchNumber, s.jobs⟩
  | .cleanupLockedProofs cutoff => ⟨s.db.cleanupLockedProofs cutoff, s.jobs⟩
  | .verifiedBatch batchNumber => ⟨{ s.db with lastVerifiedBatch := batchNumber }, s.jobs⟩

/-- The aggregator after a sequence of steps. -/
def runEvents (s : AggState) (es : List Event) : AggState := es.foldl event s

end AggState

/-! ## Disjoint ranges -/

/-- The rows of the table share no batch. -/
def Disjoint (proofs : List Proof) : Prop := proofs.Pairwise Proof.Apart

/-- A row overlaps the range `[a, c]` without lying inside it. -/
def Straddles (p : Proof) (a c : ℕ) : Prop := (∃ n, p.Covers n ∧ a ≤ n ∧ n ≤ c) ∧ ¬ p.Inside a c

/-- A table that only loses rows stays disjoint. -/
theorem Disjoint.filter {proofs : List Proof} (h : Disjoint proofs) (keep : Proof → Bool) :
    Disjoint (proofs.filter keep) :=
  List.Pairwise.filter _ h

/-- `UpdateGeneratedProof` changes no range. -/
theorem Disjoint.updateGeneratedProof {db : Db} (h : Disjoint db.proofs) (proof : Proof) :
    Disjoint (db.updateGeneratedProof proof).proofs := by
  unfold Disjoint Db.updateGeneratedProof
  refine List.pairwise_map.mpr (h.imp_of_mem fun {p q} _ _ hpq n hp hq => ?_)
  -- an updated row keeps the range of the row it replaces
  have hcov : ∀ r : Proof, (if r.SameKey proof then proof else r).Covers n → r.Covers n := by
    intro r hr
    split_ifs at hr with hkey
    · obtain ⟨h1, h2⟩ := hkey
      exact ⟨h1 ▸ hr.1, h2 ▸ hr.2⟩
    · exact hr
  exact hpq n (hcov p hp) (hcov q hq)

theorem Disjoint.unlockProofsToAggregate {db : Db} (h : Disjoint db.proofs) (proof1 proof2 : Proof) :
    Disjoint (db.unlockProofsToAggregate proof1 proof2).proofs :=
  (h.updateGeneratedProof _).updateGeneratedProof _

/-- `getAndLockBatchToProve` adds the range of a batch no row covers. -/
theorem Disjoint.append_batch {proofs : List Proof} (h : Disjoint proofs) {n : ℕ} (hfree : ∀ p ∈ proofs, ¬ p.Covers n)
    (proof : Proof) (hn : proof.batchNumber = n) (hfinal : proof.batchNumberFinal = n) :
    Disjoint (proofs ++ [proof]) := by
  refine List.pairwise_append.mpr ⟨h, List.pairwise_singleton _ _, fun p hp q hq m hpm hqm => ?_⟩
  rw [List.mem_singleton] at hq
  subst hq
  have hm : m = n := by
    have := hqm.1
    have := hqm.2
    omega
  exact hfree p hp (hm ▸ hpm)

/-- **Replacing the rows inside a range by the range keeps the table
disjoint exactly when no row straddles the range.** -/
theorem disjoint_aggregate_iff {proofs : List Proof} (h : Disjoint proofs) (proof : Proof) :
    Disjoint (proofs.filter (fun p => ¬ p.Inside proof.batchNumber proof.batchNumberFinal) ++ [proof]) ↔
      ∀ p ∈ proofs, ¬ Straddles p proof.batchNumber proof.batchNumberFinal := by
  have hkept : ∀ keep : Proof → Bool, (proofs.filter keep).Pairwise Proof.Apart := h.filter
  unfold Disjoint
  simp only [List.pairwise_append, hkept, List.pairwise_singleton, true_and, List.mem_filter,
    List.mem_singleton, decide_eq_true_eq, forall_eq]
  constructor
  · -- a straddling row is kept and shares a batch with the range
    rintro hapart p hp ⟨⟨n, hpn, han, hnc⟩, hins⟩
    exact hapart p ⟨hp, hins⟩ n hpn ⟨han, hnc⟩
  · -- a kept row that shares a batch with the range straddles it
    rintro hnone p ⟨hp, hins⟩ n hpn hqn
    exact hnone p hp ⟨⟨n, hpn, hqn.1, hqn.2⟩, hins⟩

/-- Two rows of a disjoint table that share a batch are the same row. -/
theorem Disjoint.eq_of_covers {proofs : List Proof} (h : Disjoint proofs) {p q : Proof} (hp : p ∈ proofs)
    (hq : q ∈ proofs) {n : ℕ} (hpn : p.Covers n) (hqn : q.Covers n) : p = q := by
  induction proofs with
  | nil => exact absurd hp List.not_mem_nil
  | cons r rs ih =>
    rw [Disjoint, List.pairwise_cons] at h
    rcases List.mem_cons.mp hp with rfl | hp' <;> rcases List.mem_cons.mp hq with rfl | hq'
    · rfl
    · exact absurd hqn (h.1 q hq' n hpn)
    · exact absurd hpn (h.1 p hp' n hqn)
    · exact ih h.2 hp' hq'

namespace Db

variable {db : Db}

theorem uncovered_of_getVirtualBatchToProve {lastVerfiedBatchNumber maxL1Block n : ℕ}
    (hget : db.getVirtualBatchToProve lastVerfiedBatchNumber maxL1Block = some n) : ∀ p ∈ db.proofs, ¬ p.Covers n := by
  have hmem := List.min?_mem hget
  simp only [List.mem_map, List.mem_filter, decide_eq_true_eq] at hmem
  obtain ⟨v, ⟨_, _, _, hfree⟩, rfl⟩ := hmem
  simpa using hfree

theorem addGeneratedProof_proofs {proof : Proof} {db' : Db} (hadd : db.addGeneratedProof proof = some db') :
    db'.proofs = db.proofs ++ [proof] := by
  unfold addGeneratedProof at hadd
  split_ifs at hadd
  cases hadd
  rfl

/-- The insert after `DeleteGeneratedProofs` of the same range never meets
its key: the row of that key lies inside the range and is gone. -/
theorem addGeneratedProof_deleteGeneratedProofs (a c : ℕ) (proof generatingSince : Option ℕ) :
    (db.deleteGeneratedProofs a c).addGeneratedProof ⟨a, c, proof, generatingSince⟩ =
      some { db with proofs := (db.deleteGeneratedProofs a c).proofs ++ [⟨a, c, proof, generatingSince⟩] } := by
  unfold addGeneratedProof
  rw [if_neg]
  · rfl
  simp only [deleteGeneratedProofs, List.any_filter, List.any_eq_true, Bool.and_eq_true, decide_eq_true_eq,
    not_exists, not_and]
  intro p _ hout hkey
  exact hout ⟨hkey.1.ge, hkey.2.le⟩

theorem getProofsToAggregate_spec {proof1 proof2 : Proof} (hget : db.getProofsToAggregate = some (proof1, proof2)) :
    proof1 ∈ db.proofs ∧ proof2 ∈ db.proofs ∧ proof1.batchNumberFinal + 1 = proof2.batchNumber := by
  have hmem : (proof1, proof2) ∈ db.proofs.flatMap fun p1 => (db.proofs.filter (db.aggregable p1)).map (p1, ·) :=
    (List.perm_insertionSort _ _).mem_iff.mp (List.mem_of_mem_head? hget)
  simp only [List.mem_flatMap, List.mem_map, List.mem_filter, Prod.mk.injEq] at hmem
  obtain ⟨p1, hp1, p2, ⟨hp2, hagg⟩, rfl, rfl⟩ := hmem
  simp only [aggregable, Bool.and_eq_true, decide_eq_true_eq] at hagg
  exact ⟨hp1, hp2, hagg.1.1.1.1.1⟩

end Db

/-- **The aggregated range is the union of the two ranges** it replaces,
for adjacent rows with nonempty ranges. -/
theorem covers_aggregate_iff {proof1 proof2 : Proof} (hadj : proof1.batchNumberFinal + 1 = proof2.batchNumber)
    (hwf1 : proof1.batchNumber ≤ proof1.batchNumberFinal) (hwf2 : proof2.batchNumber ≤ proof2.batchNumberFinal)
    (n : ℕ) :
    Proof.Covers ⟨proof1.batchNumber, proof2.batchNumberFinal, none, none⟩ n ↔ proof1.Covers n ∨ proof2.Covers n := by
  unfold Proof.Covers
  dsimp only
  omega

/-- **The range `getProofsToAggregate` returns has no straddling row** on a
disjoint table of nonempty ranges: a row sharing a batch with it shares one
with one of the two rows, so it is one of them. -/
theorem noStraddle_getProofsToAggregate {db : Db} (h : Disjoint db.proofs)
    (hwf : ∀ p ∈ db.proofs, p.batchNumber ≤ p.batchNumberFinal) {proof1 proof2 : Proof}
    (hget : db.getProofsToAggregate = some (proof1, proof2)) :
    ∀ p ∈ db.proofs, ¬ Straddles p proof1.batchNumber proof2.batchNumberFinal := by
  obtain ⟨hp1, hp2, hadj⟩ := Db.getProofsToAggregate_spec hget
  have hwf1 := hwf _ hp1
  have hwf2 := hwf _ hp2
  rintro p hp ⟨⟨n, hpn, han, hnc⟩, hins⟩
  rcases (covers_aggregate_iff hadj hwf1 hwf2 n).mp ⟨han, hnc⟩ with h1 | h2
  · obtain rfl := h.eq_of_covers hp hp1 hpn h1
    exact hins ⟨le_refl _, by omega⟩
  · obtain rfl := h.eq_of_covers hp hp2 hpn h2
    exact hins ⟨by omega, le_refl _⟩

namespace AggState

variable {s : AggState}

/-- **Every step but the store of an aggregated proof keeps the table
disjoint**: the others update rows in place, delete rows, or add the range
of a batch no row covers. -/
theorem disjoint_event (h : Disjoint s.db.proofs) (e : Event)
    (he : ∀ prover proof now, e ≠ .aggregateProved prover proof now) : Disjoint (s.event e).db.proofs := by
  cases e with
  | lockBatch prover now maxL1Block isProfitable =>
    simp only [event]
    split
    · next n hn =>
      split_ifs
      · split
        · next db hadd =>
          rw [Db.addGeneratedProof_proofs hadd]
          exact h.append_batch (Db.uncovered_of_getVirtualBatchToProve hn) _ rfl rfl
        · exact h
      · exact h
    · exact h
  | batchProved prover proof finalProofBuilt =>
    simp only [event]
    split
    · split_ifs
      · exact h
      · exact h.updateGeneratedProof _
    · exact h
  | batchFailed prover =>
    simp only [event]
    split
    · exact h.filter _
    · exact h
  | lockAggregate prover now =>
    simp only [event]
    split
    · exact (h.updateGeneratedProof _).updateGeneratedProof _
    · exact h
  | aggregateProved prover proof now => exact absurd rfl (he prover proof now)
  | aggregateFailed prover =>
    simp only [event]
    split
    · exact h.unlockProofsToAggregate _ _
    · exact h
  | aggregatedStored prover finalProofBuilt =>
    simp only [event]
    split
    · split_ifs
      · exact h
      · exact h.updateGeneratedProof _
    · exact h
  | lockProofReadyToVerify prover now =>
    simp only [event]
    split
    · exact h.updateGeneratedProof _
    · exact h
  | finalProofFailed prover =>
    simp only [event]
    split
    · exact h.updateGeneratedProof _
    · exact h
  | finalProofSent prover =>
    simp only [event]
    split
    · exact h
    · exact h
  | cleanupGeneratedProofs batchNumber => exact h.filter _
  | cleanupLockedProofs cutoff => exact h.filter _
  | verifiedBatch batchNumber => exact h

/-- **Storing an aggregated proof keeps the table disjoint exactly when no
row straddles its range**; the insert after the delete always succeeds. -/
theorem disjoint_aggregateProved_iff (h : Disjoint s.db.proofs) {prover proof now : ℕ} {proof1 proof2 : Proof}
    (hjob : s.jobs.lookup prover = some (.aggregate proof1 proof2)) :
    Disjoint (s.event (.aggregateProved prover proof now)).db.proofs ↔
      ∀ p ∈ s.db.proofs, ¬ Straddles p proof1.batchNumber proof2.batchNumberFinal := by
  simp only [event, hjob]
  rw [Db.addGeneratedProof_deleteGeneratedProofs]
  exact disjoint_aggregate_iff h ⟨proof1.batchNumber, proof2.batchNumberFinal, some proof, some now⟩

end AggState

/-! ## A straddling aggregate -/

/-- Three virtual batches of one sequence, nothing proved yet. -/
def threeBatches : AggState := ⟨⟨[], [(1, 3)], [(1, 0), (2, 0), (3, 0)], 0⟩, ∅⟩

/-- Prover 1 proves batches 1 and 2 and locks them to aggregate; the
cleanup deletes them while it works. Prover 2 locks batch 1 again, prover 3
proves batches 2 and 3 and aggregates them into `[2, 3]`. Prover 1 then
stores `[1, 2]`. -/
def straddleRun : List Event :=
  [.lockBatch 1 10 5 true, .batchProved 1 100 false,
    .lockBatch 1 11 5 true, .batchProved 1 101 false,
    .lockAggregate 1 20,
    .cleanupLockedProofs 30,
    .lockBatch 2 31 5 true,
    .lockBatch 3 32 5 true, .batchProved 3 102 false,
    .lockBatch 3 33 5 true, .batchProved 3 103 false,
    .lockAggregate 3 34, .aggregateProved 3 104 35, .aggregatedStored 3 false,
    .aggregateProved 1 105 36]

/-- **A locked pair deleted by the cleanup leads to overlapping rows**: after
`straddleRun`, the table holds `[2, 3]` and `[1, 2]`, which share batch 2;
`[1, 2]` replaced `[1, 1]` and `[2, 2]` and covers their union, but
`[2, 3]` straddled it. -/
theorem straddleRun_overlaps :
    ((threeBatches.runEvents straddleRun).db.proofs.map fun p => (p.batchNumber, p.batchNumberFinal)) =
        [(2, 3), (1, 2)] ∧
      ¬ Disjoint (threeBatches.runEvents straddleRun).db.proofs := by
  have hrows : (threeBatches.runEvents straddleRun).db.proofs =
      [⟨2, 3, some 104, none⟩, ⟨1, 2, some 105, some 36⟩] := by
    decide
  rw [hrows]
  refine ⟨rfl, fun h => ?_⟩
  -- both rows cover batch 2
  have hapart : Proof.Apart ⟨2, 3, some 104, none⟩ ⟨1, 2, some 105, some 36⟩ :=
    List.rel_of_pairwise_cons h List.mem_cons_self
  exact hapart 2 ⟨by decide, by decide⟩ ⟨by decide, by decide⟩

end Aggregator

end XLayerNode
