import AgenticPay.Tally
import AgenticPay.MultisigVotes

/-!
# Executions and rejections against the present signers

A vote stays on its list when the voter is removed from the wallet, and each vote
looks at its own list only. So an execution is backed by a quorum of present signers
exactly when the voters before it are still signers, a rejection blocks when those
who rejected are, and nobody is on both lists exactly when nobody votes both ways.
-/
namespace AgenticPayContract

open Soroban Contract Transaction Registry Quorum

/-- A proposal the call moves to executed has a quorum of present signers behind it. -/
def QuorumExecutes (w : World) (i : Invocation) : Prop :=
  ∀ id p p' wallet, w.storage.multisigProposal id = some p → p.status ≠ .executed →
    (commit contract w i).storage.multisigProposal id = some p' → p'.status = .executed →
    (commit contract w i).storage.multisigWallet p'.walletId = some wallet →
    wallet.threshold ≤ support wallet.signers p'.approvals

/-- An approval that completes the count finds every earlier approver still a signer;
where one approval is enough, it needs no earlier ones. -/
def ApproversPresent (w : World) (i : Invocation) : Prop :=
  ∀ signer id p wallet, i.call = .approveMultisigProposal signer id →
    Approves i.env w signer id p wallet → wallet.threshold ≤ p.approvals.length + 1 →
    wallet.threshold = 1 ∨ ∀ a ∈ p.approvals, a ∈ wallet.signers

/-- A proposal the call moves to rejected could no longer have got its quorum. -/
def RejectionBlocks (w : World) (i : Invocation) : Prop :=
  ∀ id p p' wallet, w.storage.multisigProposal id = some p → p.status ≠ .rejected →
    (commit contract w i).storage.multisigProposal id = some p' → p'.status = .rejected →
    (commit contract w i).storage.multisigWallet p'.walletId = some wallet →
    remaining wallet.signers p'.rejections < wallet.threshold

/-- A rejection that completes the count finds every earlier rejecter still a signer. -/
def RejectersPresent (w : World) (i : Invocation) : Prop :=
  ∀ signer id p wallet, i.call = .rejectMultisigProposal signer id →
    Rejects i.env w signer id p wallet → wallet.blocking ≤ p.rejections.length + 1 →
    ∀ a ∈ p.rejections, a ∈ wallet.signers

/-- Nobody is on both lists of a proposal. -/
def VotesDisjoint (w : World) : Prop :=
  ∀ id p, w.storage.multisigProposal id = some p → ∀ a ∈ p.approvals, a ∉ p.rejections

/-- A vote that is taken down is not the second, opposite one of its voter. -/
def VotesOneWay (w : World) (i : Invocation) : Prop :=
  (∀ signer id p wallet, i.call = .approveMultisigProposal signer id →
    Approves i.env w signer id p wallet → signer ∉ p.rejections) ∧
  ∀ signer id p wallet, i.call = .rejectMultisigProposal signer id →
    Rejects i.env w signer id p wallet → signer ∉ p.approvals

/-! ## Executions -/

/-- What an approval that completes the count has behind it. -/
theorem quorum_iff {w : World} {env : Env} {signer : Address} {id : Nat} {p : MultisigProposal}
    {wallet : MultisigWallet} (hv : Voting w) (happ : Approves env w signer id p wallet)
    (hle : wallet.threshold ≤ p.approvals.length + 1) :
    wallet.threshold ≤ support wallet.signers (p.approve wallet.threshold signer).approvals ↔
      wallet.threshold = 1 ∨ ∀ a ∈ p.approvals, a ∈ wallet.signers := by
  obtain ⟨⟨wallet₀, hw₀, _, hpending⟩, _, hnodup, _⟩ := hv.tallied id p happ.found
  obtain rfl := Option.some.inj (happ.stored.symm.trans hw₀)
  rw [MultisigProposal.approve_approvals]
  by_cases hone : wallet.threshold = 1
  · have hsupport := support_pos happ.member
      (List.mem_append_right p.approvals (List.mem_singleton_self signer))
    rw [hone]
    exact iff_of_true hsupport (.inl rfl)
  · have hlt := (hpending happ.pending).resolve_right hone
    have hlen : p.approvals.length + 1 = wallet.threshold := by omega
    rw [threshold_le_support_concat_iff hnodup happ.first happ.member hlen]
    exact (or_iff_right hone).symm

theorem quorumExecutes_iff {w : World} {i : Invocation} (hv : Voting w) :
    QuorumExecutes w i ↔ ApproversPresent w i := by
  constructor
  · intro hquorum signer id p wallet hcall happ hle
    have hnot : p.status ≠ .executed := by simp [happ.pending]
    have hexec : (p.approve wallet.threshold signer).status = .executed := if_pos hle
    refine (quorum_iff hv happ hle).mp (hquorum id p _ wallet happ.found hnot ?_ hexec ?_)
    · rw [commit_approves hcall happ]
      exact Function.update_self ..
    · rw [commit_approves hcall happ]
      exact happ.stored
  · intro hpresent id p p' wallet' hp hnot hp' hexec hw'
    obtain ⟨q, hq, hmoves⟩ := (commit_ballot id w i).moves hv.registered hp
    obtain rfl := Option.some.inj (hq.symm.trans hp')
    obtain ⟨signer, wallet, hcall, happ, hle, rfl⟩ := hmoves.executed hnot hexec
    rw [commit_approves hcall happ] at hw'
    obtain rfl := Option.some.inj (happ.stored.symm.trans hw')
    exact (quorum_iff hv happ hle).mpr (hpresent signer id p wallet hcall happ hle)

/-- In every run, each execution is backed by a quorum of present signers exactly
when each completing approval finds the approvers before it still among the signers. -/
theorem executions_have_quorum (is : List Invocation) :
    Along contract QuorumExecutes deployed is ↔ Along contract ApproversPresent deployed is := by
  constructor
  · intro h
    exact along_of_invariant (I := Voting) (fun _ i hv _ => commit_voting hv i) voting_deployed h
      fun _ _ hv => (quorumExecutes_iff hv).mp
  · intro h
    exact along_of_invariant (I := Voting) (fun _ i hv _ => commit_voting hv i) voting_deployed h
      fun _ _ hv => (quorumExecutes_iff hv).mpr

/-- The proposer is removed from a wallet of three before the second approval. -/
def proposerLeaves : List Invocation :=
  proposal [⟨1⟩, ⟨2⟩, ⟨3⟩] 2 ++ [invokedBy ⟨2⟩ 2 (.removeMultisigSigner ⟨2⟩ 1 ⟨1⟩)]

/-- The second approval executes the proposal with one present signer behind it. -/
theorem removed_proposer_counts :
    ∃ p wallet,
      (run contract deployed (proposerLeaves ++
        [invokedBy ⟨2⟩ 3 (.approveMultisigProposal ⟨2⟩ 1)])).storage.multisigProposal 1 = some p ∧
      p.status = .executed ∧
      (run contract deployed proposerLeaves).storage.multisigWallet p.walletId = some wallet ∧
      support wallet.signers p.approvals = 1 ∧ wallet.threshold = 2 ∧
      ¬ QuorumExecutes (run contract deployed proposerLeaves)
        (invokedBy ⟨2⟩ 3 (.approveMultisigProposal ⟨2⟩ 1)) := by
  refine ⟨_, _, rfl, rfl, rfl, by decide, rfl, fun hquorum => ?_⟩
  have hsupport := hquorum 1 _ _ _ rfl (by decide) rfl rfl rfl
  revert hsupport
  decide

/-! ## Rejections -/

theorem blocks_of_rejectersPresent {w : World} {i : Invocation} (hv : Voting w)
    (hpresent : RejectersPresent w i) : RejectionBlocks w i := by
  intro id p p' wallet' hp hnot hp' hrej hw'
  obtain ⟨q, hq, hmoves⟩ := (commit_ballot id w i).moves hv.registered hp
  obtain rfl := Option.some.inj (hq.symm.trans hp')
  obtain ⟨signer, wallet, hcall, hrejects, hle, rfl⟩ := hmoves.refused hnot hrej
  rw [commit_rejects hcall hrejects] at hw'
  obtain rfl := Option.some.inj (hrejects.stored.symm.trans hw')
  obtain ⟨_, _, _, hnodup⟩ := hv.tallied id p hrejects.found
  refine remaining_lt (nodup_vote hnodup hrejects.first) ?_ ?_
  · have hall := hpresent signer id p wallet hcall hrejects hle
    exact List.forall_mem_append.mpr ⟨hall, List.forall_mem_singleton.mpr hrejects.member⟩
  · rw [MultisigProposal.reject_rejections, List.length_append, List.length_singleton]
    exact hle

/-! ## Votes both ways -/

/-- One step keeps the lists of a proposal disjoint if nobody votes both ways. -/
theorem Ballot.disjoint {id : Nat} {env : Env} {w w' : World} {call : Call}
    {p' : MultisigProposal} (h : Ballot id env w w' call) (hd : VotesDisjoint w)
    (hone : VotesOneWay w ⟨env, call⟩) (hp' : w'.storage.multisigProposal id = some p') :
    ∀ a ∈ p'.approvals, a ∉ p'.rejections := by
  cases h with
  | kept same => exact hd id p' (same ▸ hp')
  | proposed _ _ _ stored =>
    obtain rfl := Option.some.inj (stored.symm.trans hp')
    exact fun _ _ => List.not_mem_nil
  | @moved _ p _ found stored moves =>
    obtain rfl := Option.some.inj (stored.symm.trans hp')
    have hold := hd id p found
    cases moves with
    | stays => exact hold
    | approved votes =>
      refine List.forall_mem_append.mpr ⟨hold, List.forall_mem_singleton.mpr ?_⟩
      exact hone.1 _ id p _ rfl votes
    | rejected votes =>
      intro a ha hin
      rcases List.mem_append.mp hin with hin | hin
      · exact hold a ha hin
      · rw [List.mem_singleton.mp hin] at ha
        exact hone.2 _ id p _ rfl votes ha
    | cancelled _ => exact hold
    | expired _ _ => exact hold

theorem commit_votesDisjoint {w : World} {i : Invocation} (hd : VotesDisjoint w)
    (hone : VotesOneWay w i) : VotesDisjoint (commit contract w i) :=
  fun id _ hp' => (commit_ballot id w i).disjoint hd hone hp'

theorem votesOneWay_of_disjoint {w : World} {i : Invocation}
    (h : VotesDisjoint (commit contract w i)) : VotesOneWay w i := by
  refine ⟨fun signer id p wallet hcall happ => ?_, fun signer id p wallet hcall hrej hin => ?_⟩
  · rw [commit_approves hcall happ] at h
    exact h id _ (Function.update_self ..) signer
      (List.mem_append_right _ (List.mem_singleton_self signer))
  · rw [commit_rejects hcall hrej] at h
    exact h id _ (Function.update_self ..) signer hin
      (List.mem_append_right _ (List.mem_singleton_self signer))

/-- In every run, no address is ever on both lists of a proposal exactly when no vote
is taken down from an address on the opposite list; and when each completing rejection
finds the rejecters before it still among the signers, each proposal it rejects has too
few signers left for its quorum. -/
theorem rejections_block (is : List Invocation) :
    ((∀ mid, mid <+: is → VotesDisjoint (run contract deployed mid)) ↔
      Along contract VotesOneWay deployed is) ∧
    (Along contract RejectersPresent deployed is → Along contract RejectionBlocks deployed is) := by
  refine ⟨⟨fun h => ?_, fun h mid hmid => ?_⟩, fun h => ?_⟩
  · refine along_iff_initial.mpr fun mid i hmid => ?_
    have hdisjoint := h (mid ++ [i]) hmid
    rw [run_snoc] at hdisjoint
    exact votesOneWay_of_disjoint hdisjoint
  · refine run_invariant (fun _ _ => commit_votesDisjoint) ?_ (h.initial hmid)
    intro id p hp
    contradiction
  · exact along_of_invariant (I := Voting) (fun _ i hv _ => commit_voting hv i) voting_deployed h
      fun _ _ => blocks_of_rejectersPresent

theorem rejections_block_one :
    Along contract RejectionBlocks deployed
      (proposal [⟨1⟩, ⟨2⟩] 2 ++ [invokedBy ⟨2⟩ 2 (.rejectMultisigProposal ⟨2⟩ 1)]) := by
  refine (rejections_block _).2 ⟨fun _ _ _ _ hcall => ?_, fun _ _ _ _ hcall => ?_,
    fun signer id p wallet hcall hrej _ a ha => ?_, trivial⟩
  · contradiction
  · contradiction
  · cases hcall
    cases hrej.found
    contradiction

/-- One of four signers rejects and is removed, and a second one rejects. -/
def rejecterLeaves : List Invocation :=
  proposal [⟨1⟩, ⟨2⟩, ⟨3⟩, ⟨4⟩] 2 ++ [invokedBy ⟨2⟩ 2 (.rejectMultisigProposal ⟨2⟩ 1),
    invokedBy ⟨3⟩ 3 (.removeMultisigSigner ⟨3⟩ 1 ⟨2⟩)]

/-- The proposer can reject its own proposal and is on both lists; and two rejections,
one from a signer that has left, reject a proposal that the two signers left could
have executed. -/
theorem votes_both_ways :
    ¬ VotesDisjoint (run contract deployed
      (proposal [⟨1⟩, ⟨2⟩] 2 ++ [invokedBy ⟨1⟩ 2 (.rejectMultisigProposal ⟨1⟩ 1)])) ∧
    ¬ RejectionBlocks (run contract deployed rejecterLeaves)
      (invokedBy ⟨3⟩ 4 (.rejectMultisigProposal ⟨3⟩ 1)) := by
  constructor
  · intro hdisjoint
    have hnot := hdisjoint 1 _ rfl ⟨1⟩ (by decide)
    revert hnot
    decide
  · intro hblocks
    have hlt := hblocks 1 _ _ _ rfl (by decide) rfl rfl rfl
    revert hlt
    decide

end AgenticPayContract
