import XLayerNode.State.Transaction
import Mathlib.Data.List.Lex
import Mathlib.Data.Char
/-!
# The data availability committee: collecting signatures

`PostSequence` asks every member of the committee, in parallel, to sign the
sequence, and reads the replies off one channel in the order they arrive:
any order, so the model takes the replies as any permutation of one reply
per member. It counts the valid signatures and the failures, gives up as
soon as too few members are left to reach `RequiredSignatures`, and stops
at exactly that many valid signatures. The messages it read, failures
included, are sorted by address and their signatures written out, then
the addresses of all members.

A failed reply carries no signature, so what is written is the valid
signatures read, sorted (`postSequence_sound`): an error comes exactly when
fewer than `RequiredSignatures` members sign, and the loop never waits on
the channel once `RequiredSignatures` is at most the committee's size.
-/

namespace XLayerNode

/-- `strings.ToUpper(addr.Hex())`: `Hex` spells the address in hex with a
checksum casing, which upper-casing erases. -/
def State.Address.hexUpper (a : State.Address) : List Char :=
  '0' :: 'X' :: (GoHex.encodeToString a.bytes).map Char.toUpper

namespace DataAvailability

open State (Address)

/-- `DataCommitteeMember`. -/
structure DataCommitteeMember where
  addr : Address
  url : String
  deriving DecidableEq

/-- `DataCommittee`. -/
structure DataCommittee where
  members : List DataCommitteeMember
  requiredSignatures : ℕ

/-- `signatureMsg`; `err` is whether its error is set. -/
structure SignatureMsg where
  addr : Address
  signature : List UInt8
  err : Bool
  deriving DecidableEq

/-- `signatureMsgs.Less`: by the upper-cased hex spelling of the address. -/
def SignatureMsg.less (a b : SignatureMsg) : Prop := a.addr.hexUpper < b.addr.hexUpper

/-- `requestSignatureFromMember`: the member's reply on the channel.
`signSequence` is the member's answer to `SignSequence` (`none` for an
error), and `signer` the address `Signer()` recovers from the signed
sequence with a signature (`none` for an error). -/
def requestSignatureFromMember (signSequence : DataCommitteeMember → Option (List UInt8))
    (signer : List UInt8 → Option Address) (member : DataCommitteeMember) : SignatureMsg :=
  match signSequence member with
  | none => ⟨member.addr, [], true⟩
  | some signature =>
    match signer signature with
    | none => ⟨member.addr, [], true⟩
    | some s => if s ≠ member.addr then ⟨member.addr, [], true⟩ else ⟨member.addr, signature, false⟩

/-- How the collecting loop of `PostSequence` ends: with the messages read,
on too many failures, or waiting on the channel for a reply that never
comes. -/
inductive Collected where
  | enough (msgs : List SignatureMsg)
  | tooManyFailed
  | waiting
  deriving DecidableEq

/-- The collecting loop of `PostSequence`, over the replies still on the
channel, with the counts of signatures and failures and the messages read. -/
def collectSignatures (numMembers requiredSignatures : ℕ) :
    List SignatureMsg → ℕ → ℕ → List SignatureMsg → Collected
  | ch, collectedSignatures, failedToCollect, msgs =>
    if collectedSignatures < requiredSignatures then
      match ch with
      | [] => .waiting
      | msg :: ch =>
        if msg.err then
          if (numMembers : ℤ) - (failedToCollect + 1 : ℕ) < requiredSignatures then .tooManyFailed
          else
            collectSignatures numMembers requiredSignatures ch collectedSignatures
              (failedToCollect + 1) (msgs ++ [msg])
        else
          collectSignatures numMembers requiredSignatures ch (collectedSignatures + 1)
            failedToCollect (msgs ++ [msg])
    else .enough msgs

/-- `buildSignaturesAndAddrs`, with `sort.Sort` played by `sortSigs`. -/
def buildSignaturesAndAddrs (sortSigs : List SignatureMsg → List SignatureMsg)
    (sigs : List SignatureMsg) (members : List DataCommitteeMember) : List UInt8 :=
  (sortSigs sigs).flatMap (·.signature) ++ members.flatMap (·.addr.bytes)

/-- What `PostSequence` returns once it has the committee and has signed the
sequence. -/
inductive PostSequenceResult where
  | ok (dataAvailabilityMessage : List UInt8)
  | tooManyFailed
  | waiting
  deriving DecidableEq

/-- `PostSequence`, with the replies `ch` in the order they arrive. -/
def postSequence (sortSigs : List SignatureMsg → List SignatureMsg) (committee : DataCommittee)
    (ch : List SignatureMsg) : PostSequenceResult :=
  match collectSignatures committee.members.length committee.requiredSignatures ch 0 0 [] with
  | .enough msgs => .ok (buildSignaturesAndAddrs sortSigs msgs committee.members)
  | .tooManyFailed => .tooManyFailed
  | .waiting => .waiting

/-- What `sort.Sort` promises: a permutation in which no later message is
`Less` than an earlier one. -/
def SortsByAddr (sortSigs : List SignatureMsg → List SignatureMsg) : Prop :=
  ∀ l, (sortSigs l).Perm l ∧ (sortSigs l).Pairwise fun a b => ¬ b.less a

/-! ## The collecting loop -/

section Collect

variable {numMembers requiredSignatures : ℕ}

/-- **Enough valid replies, and failures within the margin**: the loop
stops at a prefix of the channel holding exactly the signatures still
needed. -/
theorem collectSignatures_enough :
    ∀ (ch : List SignatureMsg) (collected failed : ℕ) (msgs : List SignatureMsg),
      collected ≤ requiredSignatures →
      failed + ch.countP (·.err) + requiredSignatures ≤ numMembers →
      requiredSignatures ≤ collected + ch.countP (!·.err) →
      ∃ prefix_, prefix_ <+: ch ∧ collected + prefix_.countP (!·.err) = requiredSignatures ∧
        collectSignatures numMembers requiredSignatures ch collected failed msgs =
          .enough (msgs ++ prefix_)
  | ch, collected, failed, msgs, hle, hmargin, henough => by
    unfold collectSignatures
    by_cases hlt : collected < requiredSignatures
    · rw [if_pos hlt]
      cases ch with
      | nil => simp at henough; omega
      | cons msg rest =>
        dsimp only
        by_cases herr : msg.err = true
        · -- a failure within the margin: the loop goes on
          have hcount : (msg :: rest).countP (·.err) = rest.countP (·.err) + 1 :=
            List.countP_cons_of_pos herr
          have hvalid : (msg :: rest).countP (!·.err) = rest.countP (!·.err) :=
            List.countP_cons_of_neg (by simp [herr])
          rw [if_pos herr, if_neg (by omega)]
          obtain ⟨prefix_, hpre, hcnt, hrun⟩ := collectSignatures_enough rest collected (failed + 1)
            (msgs ++ [msg]) hle (by omega) (by omega)
          refine ⟨msg :: prefix_, (List.prefix_cons_inj msg).2 hpre, ?_, by rw [hrun]; simp⟩
          rw [List.countP_cons_of_neg (by simp [herr])]
          exact hcnt
        · have hvalid : (msg :: rest).countP (!·.err) = rest.countP (!·.err) + 1 :=
            List.countP_cons_of_pos (by simpa using herr)
          have hcount : (msg :: rest).countP (·.err) = rest.countP (·.err) :=
            List.countP_cons_of_neg herr
          rw [if_neg herr]
          obtain ⟨prefix_, hpre, hcnt, hrun⟩ := collectSignatures_enough rest (collected + 1) failed
            (msgs ++ [msg]) (by omega) (by omega) (by omega)
          refine ⟨msg :: prefix_, (List.prefix_cons_inj msg).2 hpre, ?_, by rw [hrun]; simp⟩
          rw [List.countP_cons_of_pos (by simpa using herr)]
          omega
    · rw [if_neg hlt]
      exact ⟨[], List.nil_prefix, by simp; omega, by simp⟩

/-- **Too few valid replies**: the failures run past the margin before the
signatures are all in, and the loop gives up. -/
theorem collectSignatures_tooManyFailed :
    ∀ (ch : List SignatureMsg) (collected failed : ℕ) (msgs : List SignatureMsg),
      failed + requiredSignatures ≤ numMembers →
      collected + ch.countP (!·.err) < requiredSignatures →
      numMembers < failed + ch.countP (·.err) + requiredSignatures →
      collectSignatures numMembers requiredSignatures ch collected failed msgs = .tooManyFailed
  | ch, collected, failed, msgs, hmargin, hshort, hover => by
    unfold collectSignatures
    rw [if_pos (by omega)]
    cases ch with
    | nil => simp at hover; omega
    | cons msg rest =>
      dsimp only
      by_cases herr : msg.err = true
      · have hcount : (msg :: rest).countP (·.err) = rest.countP (·.err) + 1 :=
          List.countP_cons_of_pos herr
        have hvalid : (msg :: rest).countP (!·.err) = rest.countP (!·.err) :=
          List.countP_cons_of_neg (by simp [herr])
        rw [if_pos herr]
        split_ifs with habort
        · rfl
        · exact collectSignatures_tooManyFailed rest collected (failed + 1) (msgs ++ [msg])
            (by omega) (by omega) (by omega)
      · have hvalid : (msg :: rest).countP (!·.err) = rest.countP (!·.err) + 1 :=
          List.countP_cons_of_pos (by simpa using herr)
        have hcount : (msg :: rest).countP (·.err) = rest.countP (·.err) :=
          List.countP_cons_of_neg herr
        rw [if_neg herr]
        exact collectSignatures_tooManyFailed rest (collected + 1) failed (msgs ++ [msg])
          hmargin (by omega) (by omega)

theorem countP_err_add_countP_not_err :
    ∀ ch : List SignatureMsg, ch.countP (·.err) + ch.countP (!·.err) = ch.length
  | [] => rfl
  | msg :: ch => by
    have := countP_err_add_countP_not_err ch
    cases h : msg.err <;> simp [h] <;> omega

end Collect

/-! ## `PostSequence` -/

section Post

variable {signSequence : DataCommitteeMember → Option (List UInt8)}
  {signer : List UInt8 → Option Address}

/-- **What a member's reply is**: from the member's address; a failure
carries no signature, and a valid reply carries the signature the member
gave, whose signer is the member. -/
theorem requestSignatureFromMember_spec (member : DataCommitteeMember) :
    (requestSignatureFromMember signSequence signer member).addr = member.addr ∧
      ((requestSignatureFromMember signSequence signer member).err = true →
        (requestSignatureFromMember signSequence signer member).signature = []) ∧
      ((requestSignatureFromMember signSequence signer member).err = false →
        signSequence member = some (requestSignatureFromMember signSequence signer member).signature ∧
        signer (requestSignatureFromMember signSequence signer member).signature = some member.addr) := by
  unfold requestSignatureFromMember
  cases hsign : signSequence member with
  | none => simp
  | some signature =>
    cases hs : signer signature with
    | none => simp [hs]
    | some s =>
      by_cases heq : s = member.addr
      · simp [heq, hs]
      · simp [heq, hs]

/-- The signatures of failed replies are empty, so writing out the
signatures of all messages read writes out those of the valid ones. -/
theorem flatMap_signature_eq_filter :
    ∀ l : List SignatureMsg, (∀ msg ∈ l, msg.err = true → msg.signature = []) →
      l.flatMap (·.signature) = (l.filter (!·.err)).flatMap (·.signature)
  | [], _ => rfl
  | msg :: l, h => by
    have ih := flatMap_signature_eq_filter l fun m hm => h m (List.mem_cons_of_mem msg hm)
    cases herr : msg.err
    · simp [herr, ih]
    · simp [herr, ih, h msg List.mem_cons_self herr]

/-- **`PostSequence` is sound for every order of the replies.** With
`RequiredSignatures` at most the committee's size, it fails iff fewer
members than that reply with a valid signature, never waits on the
channel, and otherwise writes exactly `RequiredSignatures` signatures of
distinct members whose replies were valid, each 65 bytes, in the order of
their addresses, then the addresses of all members. The signer recovers
addresses from 65-byte signatures only, as `Ecrecover` does. -/
theorem postSequence_sound {sortSigs : List SignatureMsg → List SignatureMsg}
    (hsort : SortsByAddr sortSigs)
    (hsigner : ∀ signature a, signer signature = some a → signature.length = 65)
    (committee : DataCommittee) (hM : committee.requiredSignatures ≤ committee.members.length)
    (ch : List SignatureMsg)
    (hch : ch.Perm (committee.members.map (requestSignatureFromMember signSequence signer))) :
    (postSequence sortSigs committee ch = .tooManyFailed ↔
        ch.countP (!·.err) < committee.requiredSignatures) ∧
      postSequence sortSigs committee ch ≠ .waiting ∧
      ∀ data, postSequence sortSigs committee ch = .ok data →
        ∃ sigs : List SignatureMsg,
          data = sigs.flatMap (·.signature) ++ committee.members.flatMap (·.addr.bytes) ∧
          sigs.length = committee.requiredSignatures ∧
          sigs.Subperm (ch.filter (!·.err)) ∧
          (sigs.map (·.addr)).Subperm (committee.members.map (·.addr)) ∧
          sigs.Pairwise (fun a b => ¬ b.less a) ∧
          ∀ msg ∈ sigs, msg.signature.length = 65 ∧ ∃ member ∈ committee.members,
            msg.addr = member.addr ∧ signSequence member = some msg.signature ∧
            signer msg.signature = some member.addr := by
  have hlen : ch.length = committee.members.length := by rw [hch.length_eq, List.length_map]
  have hcount := countP_err_add_countP_not_err ch
  -- every message on the channel is some member's reply
  have hreply : ∀ msg ∈ ch, ∃ member ∈ committee.members,
      msg = requestSignatureFromMember signSequence signer member := by
    intro msg hmsg
    obtain ⟨member, hmem, rfl⟩ := List.mem_map.1 (hch.subset hmsg)
    exact ⟨member, hmem, rfl⟩
  by_cases henough : committee.requiredSignatures ≤ ch.countP (!·.err)
  · obtain ⟨prefix_, hpre, hcnt, hrun⟩ :=
      @collectSignatures_enough committee.members.length committee.requiredSignatures ch 0 0 []
        (Nat.zero_le _) (by omega) (by omega)
    have hpost : postSequence sortSigs committee ch =
        .ok (buildSignaturesAndAddrs sortSigs prefix_ committee.members) := by
      simp [postSequence, hrun]
    refine ⟨by rw [hpost]; simp only [reduceCtorEq, false_iff]; omega, by rw [hpost]; simp,
      fun data hdata => ?_⟩
    rw [hpost, PostSequenceResult.ok.injEq] at hdata
    subst hdata
    obtain ⟨hperm, hsorted⟩ := hsort prefix_
    have hin : ∀ msg ∈ sortSigs prefix_, msg ∈ ch := fun msg hmsg =>
      hpre.sublist.subset (hperm.subset hmsg)
    have hsub : ((sortSigs prefix_).filter (!·.err)).Subperm (ch.filter (!·.err)) :=
      ⟨prefix_.filter (!·.err), (hperm.filter _).symm, hpre.sublist.filter _⟩
    -- the replies carry the members' addresses, one each
    have haddrs : (ch.map (·.addr)).Perm (committee.members.map (·.addr)) := by
      refine (hch.map _).trans ?_
      rw [List.map_map]
      exact .of_eq (List.map_congr_left fun member _ =>
        (@requestSignatureFromMember_spec signSequence signer member).1)
    have hsubAddrs : (((sortSigs prefix_).filter (!·.err)).map (·.addr)).Subperm
        (ch.map (·.addr)) := by
      obtain ⟨l, hl, hls⟩ := hsub
      exact ⟨l.map (·.addr), hl.map _, (hls.trans List.filter_sublist).map _⟩
    refine ⟨(sortSigs prefix_).filter (!·.err), ?_, ?_, hsub, hsubAddrs.trans haddrs.subperm,
      hsorted.filter _, ?_⟩
    · rw [buildSignaturesAndAddrs, flatMap_signature_eq_filter]
      intro msg hmsg herr
      obtain ⟨member, -, rfl⟩ := hreply msg (hin msg hmsg)
      exact (requestSignatureFromMember_spec member).2.1 herr
    · rw [← List.countP_eq_length_filter, hperm.countP_eq]
      omega
    · intro msg hmsg
      obtain ⟨hmsg, herr⟩ := List.mem_filter.1 hmsg
      obtain ⟨member, hmember, rfl⟩ := hreply msg (hin msg hmsg)
      obtain ⟨haddr, -, hvalid⟩ := @requestSignatureFromMember_spec signSequence signer member
      obtain ⟨hgave, hsigned⟩ := hvalid (by simpa using herr)
      exact ⟨hsigner _ _ hsigned, member, hmember, haddr, hgave, hsigned⟩
  · have hrun := @collectSignatures_tooManyFailed committee.members.length
      committee.requiredSignatures ch 0 0 [] (by omega) (by omega) (by omega)
    have hpost : postSequence sortSigs committee ch = .tooManyFailed := by
      simp [postSequence, hrun]
    rw [hpost]
    exact ⟨iff_of_true rfl (by omega), by simp, fun data h => by cases h⟩

/-- One sort that keeps the contract of `sort.Sort`: a merge sort on the
upper-cased hex spelling of the address. -/
def sortByAddr (l : List SignatureMsg) : List SignatureMsg :=
  l.mergeSort fun a b => decide (a.addr.hexUpper ≤ b.addr.hexUpper)

theorem sortsByAddr_sortByAddr : SortsByAddr sortByAddr := by
  intro l
  refine ⟨List.mergeSort_perm _ _, ?_⟩
  have hsorted := @List.pairwise_mergeSort _
    (fun a b : SignatureMsg => decide (a.addr.hexUpper ≤ b.addr.hexUpper))
    (fun a b c hab hbc => by simp only [decide_eq_true_eq] at *; exact le_trans hab hbc)
    (fun a b => by simpa using le_total a.addr.hexUpper b.addr.hexUpper) l
  exact hsorted.imp fun hab => by simpa [SignatureMsg.less] using hab

/-- The address of the one member that signs in the committee below. -/
def signingAddr : Address := ⟨List.replicate 20 0xAA, rfl⟩

/-- Two members, one of them signing, and one signature required. -/
def oneOfTwo : DataCommittee :=
  ⟨[⟨signingAddr, ""⟩, ⟨⟨List.replicate 20 0xBB, rfl⟩, ""⟩], 1⟩

theorem postSequence_sound_oneOfTwo :
    SortsByAddr sortByAddr ∧
      (∀ (signature : List UInt8) a,
        (if signature.length = 65 then some signingAddr else none) = some a →
          signature.length = 65) ∧
      oneOfTwo.requiredSignatures ≤ oneOfTwo.members.length ∧
      (postSequence sortByAddr oneOfTwo (oneOfTwo.members.map (requestSignatureFromMember
          (fun m => if m.addr = signingAddr then some (List.replicate 65 1) else none)
          (fun signature : List UInt8 => if signature.length = 65 then some signingAddr else none))) =
          .tooManyFailed ↔
        (oneOfTwo.members.map (requestSignatureFromMember
          (fun m => if m.addr = signingAddr then some (List.replicate 65 1) else none)
          (fun signature : List UInt8 => if signature.length = 65 then some signingAddr else none))).countP
            (!·.err) < oneOfTwo.requiredSignatures) ∧
      postSequence sortByAddr oneOfTwo (oneOfTwo.members.map (requestSignatureFromMember
          (fun m => if m.addr = signingAddr then some (List.replicate 65 1) else none)
          (fun signature : List UInt8 => if signature.length = 65 then some signingAddr else none))) ≠
        .waiting := by
  have hsigner : ∀ (signature : List UInt8) a,
      (if signature.length = 65 then some signingAddr else none) = some a →
        signature.length = 65 := by
    intro signature a h
    by_contra hlen
    simp [hlen] at h
  have h := postSequence_sound sortsByAddr_sortByAddr hsigner oneOfTwo (by decide)
    (oneOfTwo.members.map (requestSignatureFromMember
      (fun m => if m.addr = signingAddr then some (List.replicate 65 1) else none)
      (fun signature : List UInt8 => if signature.length = 65 then some signingAddr else none)))
    (List.Perm.refl _)
  exact ⟨sortsByAddr_sortByAddr, hsigner, by decide, h.1, h.2.1⟩

end Post

end DataAvailability

end XLayerNode
