import AgenticPay.TreasuryProposals

/-!
# Votes on a treasury proposal

The counters of a proposal beside its vote maps, and what the votes on it and its
status come to once it is decided. `reject` and `approve` refuse a second vote
and a decided proposal; `emergency_cancel` refuses only an executed one.
-/
namespace TreasuryContract

open Soroban Contract Transaction KeyedMap PastTime

variable {config : TreasuryConfig} {env : Env} {w w' : World} {id : Nat} {p p' : Proposal}
  {call : Call} {i : Submission Call}

/-! ## Counters and maps -/

/-- The counters are the numbers of keys, and no more than there are signers. -/
structure Counted (config : TreasuryConfig) (p : Proposal) : Prop where
  approvals : p.approvalCount = size p.approvals
  rejections : p.rejectionCount = size p.rejections
  approvals_le : p.approvalCount ≤ config.signers.length
  rejections_le : p.rejectionCount ≤ config.signers.length

theorem Ballot.counted_iff (hb : Ballot config p) :
    Counted config p ↔ p.rejectionCount = size p.rejections := by
  refine ⟨fun h => h.rejections, fun h => ⟨hb.counted, h, ?_, ?_⟩⟩
  · rw [hb.counted]
    exact size_le_of_subset hb.approvers
  · rw [h]
    exact size_le_of_subset hb.rejecters

/-- A signer's `emergency_cancel` of a proposal that records its rejection already. -/
def Repeats (config : TreasuryConfig) (w : World) (i : Submission Call) : Prop :=
  ∃ caller id p, i.call = .emergencyCancel caller id ∧ caller ∈ i.env.auths ∧
    caller ∈ config.signers ∧ w.storage.proposal id = some p ∧ p.status ≠ .executed ∧
    caller ∈ p.rejections

/-- What an accepted emergency cancellation leaves of the proposal. -/
theorem commit_emergencyCancel (hs : Sound config w) {caller : Address}
    (hcall : i.call = .emergencyCancel caller id) (hsigned : caller ∈ i.env.auths)
    (hmember : caller ∈ config.signers) (hp : w.storage.proposal id = some p)
    (hlive : p.status ≠ .executed) (hfits : p.rejectionCount + 1 < u32Bound) :
    (commit contract w i).storage.proposal id = some (p.emergencyCancel config caller) := by
  have hready : w.storage.init ≠ none := by simp [hs.ready]
  have hret : emergencyCancel caller id i.env w = .ok ((), _) :=
    (emergencyCancel_ok (u := ())).mpr
      ⟨hready, hsigned, config, hs.configured, hmember, p, hp, hlive, hfits, rfl⟩
  rw [contract, commit_returning (by rw [hcall]; rfl) hret]
  simp [Storage.putProposal]

/-- Every vote but a repeated one is counted once. -/
theorem Proposal.Moves.rejections_counted (h : Proposal.Moves config env id call p p')
    (hp : p.rejectionCount = size p.rejections)
    (hfirst : ∀ caller, call = .emergencyCancel caller id → caller ∈ env.auths →
      caller ∈ config.signers → p.status ≠ .executed → caller ∉ p.rejections) :
    p'.rejectionCount = size p'.rejections := by
  cases h with
  | rejected _ _ _ fresh =>
    have hsize := size_insert_of_notMem fresh.2 true
    simp only [Proposal.reject]
    rw [hsize, hp]
  | emergencyCancelled signed member live _ =>
    have hsize := size_insert_of_notMem (hfirst _ rfl signed member live) true
    simp only [Proposal.emergencyCancel]
    rw [hsize, hp]
  | _ => exact hp

/-- The counters of every stored proposal are right. -/
def AllCounted (config : TreasuryConfig) (w : World) : Prop :=
  ∀ id p, w.storage.proposal id = some p → Counted config p

theorem allCounted_commit (hs : Sound config w) (hcounted : AllCounted config w)
    (hfirst : ¬ Repeats config w i) : AllCounted config (commit contract w i) := by
  intro id p' hp'
  rw [((hs.commit i).ballots id p' hp').counted_iff]
  rcases commit_origin hs hp' with ⟨_, hborn⟩ | ⟨p, hp, hmoves⟩
  · rw [hborn.uncounted.2, hborn.rejections, size_empty]
  · refine hmoves.rejections_counted (hcounted id p hp).rejections ?_
    intro caller hcall hsigned hmember hlive hin
    exact hfirst ⟨caller, id, p, hcall, hsigned, hmember, hp, hlive, hin⟩

/-- A repeated rejection raises the counter and not the map. -/
theorem not_allCounted_of_repeats (hs : Sound config w) (hvalid : config.Valid)
    (hcounted : AllCounted config w) (hrepeat : Repeats config w i) :
    ¬ AllCounted config (commit contract w i) := by
  obtain ⟨caller, id, p, hcall, hsigned, hmember, hp, hlive, hin⟩ := hrepeat
  have hc := hcounted id p hp
  have hfits : p.rejectionCount + 1 < u32Bound := by
    have hle := hc.rejections_le
    have hmax := hvalid.signers.2
    simp only [maxSigners] at hmax
    simp only [u32Bound]
    omega
  intro hall
  have hnext := hall id _ (commit_emergencyCancel hs hcall hsigned hmember hp hlive hfits)
  have hsize := size_insert_of_mem hin true
  have hcount : p.rejectionCount + 1 = size (p.rejections.insert caller true) := hnext.rejections
  rw [hsize, ← hc.rejections] at hcount
  omega

/-- An emergency cancellation that cancels has met its threshold. -/
theorem emergency_threshold (hs : Sound config w) {caller : Address}
    (hcall : i.call = .emergencyCancel caller id)
    (h : Becomes .cancelled w (commit contract w i) id) :
    ∃ p', (commit contract w i).storage.proposal id = some p' ∧
      config.emergencyCancelThreshold ≤ p'.rejectionCount := by
  obtain ⟨⟨p', hp', hstatus⟩, hbefore⟩ := h
  refine ⟨p', hp', ?_⟩
  rcases commit_origin hs hp' with ⟨_, hborn⟩ | ⟨p, hp, hmoves⟩
  · rw [hborn.pending] at hstatus
    contradiction
  · rw [hcall] at hmoves
    cases hmoves with
    | kept => exact absurd hstatus (hbefore _ hp)
    | emergencyCancelled _ _ _ _ =>
      simp only [Proposal.emergencyCancel] at hstatus ⊢
      split at hstatus
      · assumption
      · exact absurd hstatus (hbefore p hp)

/-- A submission by which `signer` votes against the proposal. -/
def Rejects (signer : Address) (id : Nat) (_ : World) (i : Submission Call) : Prop :=
  (i.call = .reject signer id ∨ i.call = .emergencyCancel signer id) ∧ signer ∈ i.env.auths

theorem rejections_cast (hinit : Initialized config w) (cs : List (Submission Call))
    (hp : (run contract w cs).storage.proposal id = some p) :
    ∀ a ∈ p.rejections, Once contract (Rejects a id) w cs := by
  refine votes_cast hinit (fun p h => h.rejections) ?_ cs id p hp
  intro v i id p p' hmoves a ha
  unfold Rejects
  generalize i.call = call at hmoves ⊢
  cases hmoves with
  | rejected signed _ _ _ =>
    rcases (AList.mem_insert _).mp ha with rfl | ha
    · exact .inr ⟨.inl rfl, signed⟩
    · exact .inl ha
  | emergencyCancelled signed _ _ _ =>
    rcases (AList.mem_insert _).mp ha with rfl | ha
    · exact .inr ⟨.inr rfl, signed⟩
    · exact .inl ha
  | _ => exact .inl ha

/-- The counters are right in every state of a run exactly when no signer repeats its
rejection through an emergency cancellation; and then an emergency cancellation has as
many distinct signers behind it as it needs. -/
theorem votes_counted_iff (hinit : Initialized config w) (cs : List (Submission Call)) :
    (Along contract (fun v i => ¬ Repeats config v i) w cs ↔
      ∀ mid, mid <+: cs → AllCounted config (run contract w mid)) ∧
    (Along contract (fun v i => ¬ Repeats config v i) w cs →
      ∀ mid i caller id, mid ++ [i] <+: cs → i.call = .emergencyCancel caller id →
        Becomes .cancelled (run contract w mid) (run contract w (mid ++ [i])) id →
        ∃ voters : List Address, voters.Nodup ∧
          config.emergencyCancelThreshold ≤ voters.length ∧
          ∀ a ∈ voters, a ∈ config.signers ∧
            Once contract (Rejects a id) w (mid ++ [i])) := by
  have hcounted : Along contract (fun v i => ¬ Repeats config v i) w cs →
      ∀ mid, mid <+: cs → AllCounted config (run contract w mid) := by
    intro hfirst mid hmid
    have hinv : Sound config (run contract w mid) ∧ AllCounted config (run contract w mid) :=
      run_invariant (I := fun v => Sound config v ∧ AllCounted config v)
        (fun v i hv hi => ⟨hv.1.commit i, allCounted_commit hv.1 hv.2 hi⟩)
        ⟨hinit.sound, fun id p hp => by rw [hinit.empty id] at hp; contradiction⟩
        (hfirst.initial hmid)
    exact hinv.2
  refine ⟨⟨hcounted, fun hall => ?_⟩, fun hfirst mid i caller id hmid hcall hbecomes => ?_⟩
  · rw [along_iff_initial]
    intro mid i hmid hrepeat
    refine not_allCounted_of_repeats (hinit.sound.run mid) hinit.storage.1
      (hall mid ((List.prefix_append mid [i]).trans hmid)) hrepeat ?_
    rw [← run_snoc]
    exact hall _ hmid
  · have hs := hinit.sound.run mid
    have hnext := hcounted hfirst _ hmid
    rw [run_snoc] at hbecomes
    obtain ⟨p', hp', hle⟩ := emergency_threshold hs hcall hbecomes
    rw [← run_snoc] at hp'
    have hkeys := (hnext id p' hp').rejections
    refine ⟨p'.rejections.keys, p'.rejections.keys_nodup, ?_, fun a ha => ?_⟩
    · rwa [hkeys, size] at hle
    · have hmem : a ∈ p'.rejections := AList.mem_keys.mpr ha
      have hsound := hinit.sound.run (mid ++ [i])
      exact ⟨(hsound.ballots id p' hp').rejecters a hmem, rejections_cast hinit _ hp' a hmem⟩

/-- A proposal that the signer `⟨3⟩` emergency-cancels three times. -/
def cancelledByOne : List (Submission Call) :=
  [signedBy [⟨2⟩] 10 (.propose ⟨2⟩ "payout" ⟨7⟩ 1000 none []),
    signedBy [⟨3⟩] 20 (.emergencyCancel ⟨3⟩ 1), signedBy [⟨3⟩] 21 (.emergencyCancel ⟨3⟩ 1),
    signedBy [⟨3⟩] 22 (.emergencyCancel ⟨3⟩ 1)]

theorem votes_counted_iff_approvedByTwo :
    (Along contract (fun v i => ¬ Repeats threeSigners v i) treasury approvedByTwo ↔
      ∀ mid, mid <+: approvedByTwo → AllCounted threeSigners (run contract treasury mid)) ∧
    (Along contract (fun v i => ¬ Repeats threeSigners v i) treasury approvedByTwo →
      ∀ mid i caller id, mid ++ [i] <+: approvedByTwo → i.call = .emergencyCancel caller id →
        Becomes .cancelled (run contract treasury mid) (run contract treasury (mid ++ [i])) id →
        ∃ voters : List Address, voters.Nodup ∧ 3 ≤ voters.length ∧
          ∀ a ∈ voters, a ∈ threeSigners.signers ∧
            Once contract (Rejects a id) treasury (mid ++ [i])) :=
  votes_counted_iff initialized_treasury approvedByTwo

/-- One signer reaches the emergency threshold of three alone. -/
theorem one_signer_cancels_alone :
    Initialized threeSigners treasury ∧ threeSigners.emergencyCancelThreshold = 3 ∧
    ∃ p, (run contract treasury cancelledByOne).storage.proposal 1 = some p ∧
      p.status = .cancelled ∧ p.rejections.keys = [⟨3⟩] ∧ p.rejectionCount = 3 ∧
      ¬ Counted threeSigners p := by
  refine ⟨initialized_treasury, rfl, _, rfl, rfl, rfl, rfl, fun h => ?_⟩
  have hcount := h.rejections
  revert hcount
  decide

/-! ## Decided proposals -/

/-- The proposal is Rejected, Cancelled or Executed. -/
def Proposal.Final (p : Proposal) : Prop :=
  p.status = .rejected ∨ p.status = .cancelled ∨ p.status = .executed

/-- The status and everything recorded of the votes agree. -/
structure SameVotes (p p' : Proposal) : Prop where
  status : p'.status = p.status
  approvals : p'.approvals = p.approvals ∧ p'.approvalCount = p.approvalCount
  rejections : p'.rejections = p.rejections ∧ p'.rejectionCount = p.rejectionCount

/-- A proposer's `cancel` of its Rejected proposal, or a signer's `emergency_cancel` of a
Rejected or Cancelled one, as long as the rejection counter has room. -/
def Reopens (config : TreasuryConfig) (w : World) (i : Submission Call) : Prop :=
  ∃ caller id p, w.storage.proposal id = some p ∧ caller ∈ i.env.auths ∧
    (i.call = .cancel caller id ∧ p.status = .rejected ∧ p.proposer = caller ∨
      i.call = .emergencyCancel caller id ∧ caller ∈ config.signers ∧
        (p.status = .rejected ∨ p.status = .cancelled) ∧ p.rejectionCount + 1 < u32Bound)

/-- The five functions leave a decided proposal alone but for the two that reopen it. -/
theorem Proposal.Moves.final_stays (h : Proposal.Moves config i.env id i.call p p')
    (hp : w.storage.proposal id = some p) (hfinal : p.Final) (hclosed : ¬ Reopens config w i) :
    p' = p := by
  unfold Reopens at hclosed
  generalize i.call = call at h hclosed
  cases h with
  | kept => rfl
  | approved _ _ pending _ =>
    rcases hfinal with hf | hf | hf <;> rw [hf] at pending <;> contradiction
  | rejected _ _ undecided _ =>
    rcases hfinal with hf | hf | hf <;> rcases undecided with hu | hu <;> rw [hf] at hu <;>
      contradiction
  | executed approved _ =>
    rcases hfinal with hf | hf | hf <;> rw [hf] at approved <;> contradiction
  | @cancelled caller _ signed live entitled =>
    rcases hfinal with hf | hf | hf
    · rcases entitled with hown | ⟨_, hpending⟩
      · exact absurd ⟨caller, id, p, hp, signed, .inl ⟨rfl, hf, hown⟩⟩ hclosed
      · rw [hf] at hpending
        contradiction
    · exact absurd hf live.2
    · exact absurd hf live.1
  | @emergencyCancelled caller _ signed member live fits =>
    rcases hfinal with hf | hf | hf
    · exact absurd ⟨caller, id, p, hp, signed, .inr ⟨rfl, member, .inl hf, fits⟩⟩ hclosed
    · exact absurd ⟨caller, id, p, hp, signed, .inr ⟨rfl, member, .inr hf, fits⟩⟩ hclosed
    · exact absurd hf live

/-- What an accepted cancellation leaves of the proposal. -/
theorem commit_cancel (hs : Sound config w) {caller : Address}
    (hcall : i.call = .cancel caller id) (hsigned : caller ∈ i.env.auths)
    (hp : w.storage.proposal id = some p) (hlive : p.status ≠ .executed ∧ p.status ≠ .cancelled)
    (howner : p.proposer = caller) :
    (commit contract w i).storage.proposal id = some { p with status := .cancelled } := by
  have hready : w.storage.init ≠ none := by simp [hs.ready]
  have hret : cancel caller id i.env w = .ok ((), _) :=
    (cancel_ok (u := ())).mpr
      ⟨hready, hsigned, p, hp, hlive, config, hs.configured, .inl howner, rfl⟩
  rw [contract, commit_returning (by rw [hcall]; rfl) hret]
  simp [Storage.putProposal]

/-- A call that reopens a decided proposal changes its status or its votes. -/
theorem reopened_changes (hs : Sound config w) (h : Reopens config w i) :
    ∃ id p, w.storage.proposal id = some p ∧ p.Final ∧
      ∀ p', (commit contract w i).storage.proposal id = some p' → ¬ SameVotes p p' := by
  obtain ⟨caller, id, p, hp, hsigned,
    ⟨hcall, hrejected, howner⟩ | ⟨hcall, hmember, hdead, hfits⟩⟩ := h
  · refine ⟨id, p, hp, .inl hrejected, fun p' hp' hsame => ?_⟩
    have hlive : p.status ≠ .executed ∧ p.status ≠ .cancelled := by simp [hrejected]
    rw [commit_cancel hs hcall hsigned hp hlive howner] at hp'
    obtain rfl := Option.some.inj hp'
    have hstatus := hsame.status
    rw [hrejected] at hstatus
    contradiction
  · have hfinal : p.Final := hdead.imp_right .inl
    refine ⟨id, p, hp, hfinal, fun p' hp' hsame => ?_⟩
    have hlive : p.status ≠ .executed := by
      rcases hdead with hd | hd <;> simp [hd]
    rw [commit_emergencyCancel hs hcall hsigned hmember hp hlive hfits] at hp'
    obtain rfl := Option.some.inj hp'
    have hcount := hsame.rejections.2
    simp only [Proposal.emergencyCancel] at hcount
    omega

/-- A run leaves every decided proposal its status and votes exactly when no call of it
reopens one. -/
theorem decided_proposals_fixed_iff (hinit : Initialized config w) (cs : List (Submission Call)) :
    (∀ mid ds, mid ++ ds <+: cs → ∀ id p, (run contract w mid).storage.proposal id = some p →
      p.Final → ∃ p', (run contract w (mid ++ ds)).storage.proposal id = some p' ∧
        SameVotes p p') ↔
    Along contract (fun v i => ¬ Reopens config v i) w cs := by
  constructor
  · intro hall
    rw [along_iff_initial]
    intro mid i hmid hreopens
    obtain ⟨id, p, hp, hfinal, hchanges⟩ := reopened_changes (hinit.sound.run mid) hreopens
    obtain ⟨p', hp', hsame⟩ := hall mid [i] hmid id p hp hfinal
    rw [run_snoc] at hp'
    exact hchanges p' hp' hsame
  · intro hclosed mid ds hmid id p hp hfinal
    have hrest := (along_append.mp (hclosed.initial hmid)).2
    have hinv : Sound config (run contract (run contract w mid) ds) ∧
        (run contract (run contract w mid) ds).storage.proposal id = some p := by
      refine run_invariant (I := fun v => Sound config v ∧ v.storage.proposal id = some p) ?_
        ⟨hinit.sound.run mid, hp⟩ hrest
      rintro v i ⟨hv, hvp⟩ hi
      obtain ⟨p', hp', hmoves⟩ := commit_moves hv i hvp
      rw [hmoves.final_stays hvp hfinal hi] at hp'
      exact ⟨hv.commit i, hp'⟩
    rw [run_append]
    exact ⟨p, hinv.2, rfl, ⟨rfl, rfl⟩, rfl, rfl⟩

theorem decided_proposals_fixed_iff_approvedByTwo :
    (∀ mid ds, mid ++ ds <+: approvedByTwo → ∀ id p,
      (run contract treasury mid).storage.proposal id = some p → p.Final →
        ∃ p', (run contract treasury (mid ++ ds)).storage.proposal id = some p' ∧
          SameVotes p p') ↔
    Along contract (fun v i => ¬ Reopens threeSigners v i) treasury approvedByTwo :=
  decided_proposals_fixed_iff initialized_treasury approvedByTwo

/-- A proposal that two signers reject. -/
def rejectedByTwo : List (Submission Call) :=
  [signedBy [⟨2⟩] 10 (.propose ⟨2⟩ "payout" ⟨7⟩ 1000 none []),
    signedBy [⟨3⟩] 20 (.reject ⟨3⟩ 1), signedBy [⟨4⟩] 21 (.reject ⟨4⟩ 1)]

/-- The rejected proposal takes a further vote, and is cancelled by its proposer. -/
theorem rejected_proposal_reopened :
    Initialized threeSigners treasury ∧
    ((run contract treasury rejectedByTwo).storage.proposal 1).map
      (fun p => (p.status, p.rejectionCount)) = some (.rejected, 2) ∧
    ((run contract treasury (rejectedByTwo ++
        [signedBy [⟨2⟩] 30 (.emergencyCancel ⟨2⟩ 1)])).storage.proposal 1).map
      (fun p => (p.status, p.rejectionCount)) = some (.cancelled, 3) ∧
    ((run contract treasury (rejectedByTwo ++
        [signedBy [⟨2⟩] 30 (.cancel ⟨2⟩ 1)])).storage.proposal 1).map
      (fun p => (p.status, p.rejectionCount)) = some (.cancelled, 2) :=
  ⟨initialized_treasury, rfl, rfl, rfl⟩

end TreasuryContract
