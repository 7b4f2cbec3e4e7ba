import AgenticPay.Transaction
import AgenticPay.TreasuryContract

/-!
# The life of a treasury proposal

What each call may do to one proposal, the invariant that ties its approval count
to the signers who approved it, and what an execution therefore has behind it.
-/
namespace TreasuryContract

open Soroban Contract Transaction KeyedMap PastTime

/-- What a call may do to the proposal `id`. -/
inductive Proposal.Moves (config : TreasuryConfig) (env : Env) (id : Nat) :
    Call → Proposal → Proposal → Prop
  | kept {call p} : Proposal.Moves config env id call p p
  | approved {signer p} (signed : signer ∈ env.auths) (member : signer ∈ config.signers)
      (pending : p.status = .pending) (fresh : signer ∉ p.approvals ∧ signer ∉ p.rejections) :
      Proposal.Moves config env id (.approve signer id) p (p.approve config signer)
  | rejected {signer p} (signed : signer ∈ env.auths) (member : signer ∈ config.signers)
      (undecided : p.status = .pending ∨ p.status = .approved)
      (fresh : signer ∉ p.approvals ∧ signer ∉ p.rejections) :
      Proposal.Moves config env id (.reject signer id) p (p.reject config signer)
  | executed {p} (approved : p.status = .approved) (late : p.executeAfter ≤ env.timestamp) :
      Proposal.Moves config env id (.execute id) p { p with status := .executed }
  | cancelled {caller p} (signed : caller ∈ env.auths)
      (live : p.status ≠ .executed ∧ p.status ≠ .cancelled)
      (entitled : p.proposer = caller ∨ caller ∈ config.signers ∧ p.status = .pending) :
      Proposal.Moves config env id (.cancel caller id) p { p with status := .cancelled }
  | emergencyCancelled {caller p} (signed : caller ∈ env.auths)
      (member : caller ∈ config.signers) (live : p.status ≠ .executed)
      (fits : p.rejectionCount + 1 < u32Bound) :
      Proposal.Moves config env id (.emergencyCancel caller id) p
        (p.emergencyCancel config caller)

variable {config : TreasuryConfig} {env : Env} {w w' : World} {id : Nat} {p p' : Proposal}
  {call : Call} {i : Submission Call}

/-- What the approvals, the status and the delay of a stored proposal have to do with each
other and with the configuration. -/
structure Ballot (config : TreasuryConfig) (p : Proposal) : Prop where
  counted : p.approvalCount = size p.approvals
  approvers : ∀ a ∈ p.approvals, a ∈ config.signers
  rejecters : ∀ a ∈ p.rejections, a ∈ config.signers
  quorum : p.status = .approved ∨ p.status = .executed → config.threshold ≤ p.approvalCount
  delayed : p.executeAfter = p.createdAt + config.timelock p.amount

theorem ballot_newProposal {now id : Nat} {proposer target : Address} {description : String}
    {amount : Int} {token : Option Address} {calldata : List UInt8} :
    Ballot config (newProposal config now id proposer description target amount token calldata) where
  counted := rfl
  approvers := fun a ha => absurd ha (AList.notMem_empty a)
  rejecters := fun a ha => absurd ha (AList.notMem_empty a)
  quorum := by
    rintro (h | h)
    · contradiction
    · contradiction
  delayed := rfl

/-- A further voter joins voters that are all signers. -/
theorem signers_insert {votes : Map Address Bool} {voter : Address} (hm : voter ∈ config.signers)
    (h : ∀ a ∈ votes, a ∈ config.signers) :
    ∀ a ∈ votes.insert voter true, a ∈ config.signers := by
  intro a ha
  rcases (AList.mem_insert votes).mp ha with rfl | ha
  · exact hm
  · exact h a ha

theorem Ballot.moves (hb : Ballot config p) (h : Proposal.Moves config env id call p p') :
    Ballot config p' := by
  cases h with
  | kept => exact hb
  | approved _ member _ fresh =>
    have hsize := size_insert_of_notMem fresh.1 true
    refine ⟨?_, signers_insert member hb.approvers, hb.rejecters, ?_, hb.delayed⟩
    · simp only [Proposal.approve]
      rw [hsize, hb.counted]
    · intro hstatus
      simp only [Proposal.approve] at hstatus ⊢
      split at hstatus
      · assumption
      · have hle := hb.quorum hstatus
        omega
  | rejected _ member _ _ =>
    refine ⟨hb.counted, hb.approvers, signers_insert member hb.rejecters, ?_, hb.delayed⟩
    intro hstatus
    simp only [Proposal.reject] at hstatus ⊢
    split at hstatus
    · simp at hstatus
    · exact hb.quorum hstatus
  | executed approved _ =>
    exact ⟨hb.counted, hb.approvers, hb.rejecters, fun _ => hb.quorum (.inl approved), hb.delayed⟩
  | cancelled _ _ _ =>
    refine ⟨hb.counted, hb.approvers, hb.rejecters, ?_, hb.delayed⟩
    rintro (h | h)
    · contradiction
    · contradiction
  | emergencyCancelled _ member _ _ =>
    refine ⟨hb.counted, hb.approvers, signers_insert member hb.rejecters, ?_, hb.delayed⟩
    intro hstatus
    simp only [Proposal.emergencyCancel] at hstatus ⊢
    split at hstatus
    · simp at hstatus
    · exact hb.quorum hstatus

/-- What holds in every state after `initialize`. -/
structure Sound (config : TreasuryConfig) (w : World) : Prop where
  ready : w.storage.init = some true
  configured : w.storage.config = some config
  bounded : Registry.Bounded w.storage.proposal (w.storage.proposalCount.getD 0)
  ballots : ∀ id p, w.storage.proposal id = some p → Ballot config p

/-- No step removes a proposal, and each does to it what its call may do. -/
theorem Step.moves (h : Step env w call w') (hs : Sound config w)
    (hp : w.storage.proposal id = some p) :
    ∃ p', w'.storage.proposal id = some p' ∧ Proposal.Moves config env id call p p' := by
  cases h with
  | viewed _ => exact ⟨p, hp, .kept⟩
  | initialized first _ _ _ => exact absurd (first.symm.trans hs.ready) (by simp)
  | proposed _ _ _ _ next _ _ =>
    have hle := hs.bounded.le hp
    refine ⟨p, ?_, .kept⟩
    simp only [Storage.putProposal]
    rw [Function.update_of_ne (by omega), hp]
  | approved _ signed stored member found pending fresh _ =>
    obtain rfl := Option.some.inj (stored.symm.trans hs.configured)
    rcases Registry.overwrite_cases found hp with ⟨rfl, rfl, hput⟩ | ⟨_, hput⟩
    · exact ⟨_, hput, .approved signed member pending fresh⟩
    · exact ⟨p, hput, .kept⟩
  | rejected _ signed stored member found undecided fresh _ _ =>
    obtain rfl := Option.some.inj (stored.symm.trans hs.configured)
    rcases Registry.overwrite_cases found hp with ⟨rfl, rfl, hput⟩ | ⟨_, hput⟩
    · exact ⟨_, hput, .rejected signed member undecided fresh⟩
    · exact ⟨p, hput, .kept⟩
  | executed _ found approved late =>
    rcases Registry.overwrite_cases found hp with ⟨rfl, rfl, hput⟩ | ⟨_, hput⟩
    · exact ⟨_, hput, .executed approved late⟩
    · exact ⟨p, hput, .kept⟩
  | cancelled _ signed stored found live entitled =>
    obtain rfl := Option.some.inj (stored.symm.trans hs.configured)
    rcases Registry.overwrite_cases found hp with ⟨rfl, rfl, hput⟩ | ⟨_, hput⟩
    · exact ⟨_, hput, .cancelled signed live entitled⟩
    · exact ⟨p, hput, .kept⟩
  | emergencyCancelled _ signed stored member found live fits =>
    obtain rfl := Option.some.inj (stored.symm.trans hs.configured)
    rcases Registry.overwrite_cases found hp with ⟨rfl, rfl, hput⟩ | ⟨_, hput⟩
    · exact ⟨_, hput, .emergencyCancelled signed member live fits⟩
    · exact ⟨p, hput, .kept⟩

/-- A proposal that a step stores where there was none is a new one. -/
structure Born (config : TreasuryConfig) (p : Proposal) : Prop where
  pending : p.status = .pending
  approvals : p.approvals = ∅
  rejections : p.rejections = ∅
  uncounted : p.approvalCount = 0 ∧ p.rejectionCount = 0
  ballot : Ballot config p

theorem Step.born (h : Step env w call w') (hs : Sound config w)
    (hnone : w.storage.proposal id = none) (hp : w'.storage.proposal id = some p) :
    Born config p := by
  cases h with
  | viewed _ => exact absurd (hnone.symm.trans hp) (by simp)
  | initialized _ _ _ _ => exact absurd (hnone.symm.trans hp) (by simp)
  | proposed _ _ stored _ next _ _ =>
    obtain rfl := Option.some.inj (stored.symm.trans hs.configured)
    subst next
    by_cases he : id = w.storage.proposalCount.getD 0 + 1
    · subst he
      simp only [Storage.putProposal, Function.update_self, Option.some.injEq] at hp
      subst hp
      exact ⟨rfl, rfl, rfl, ⟨rfl, rfl⟩, ballot_newProposal⟩
    · simp only [Storage.putProposal, Function.update_of_ne he] at hp
      exact absurd (hnone.symm.trans hp) (by simp)
  | approved _ _ _ _ found _ _ _ => exact absurd hp (Registry.overwrite_ne_some found hnone)
  | rejected _ _ _ _ found _ _ _ _ => exact absurd hp (Registry.overwrite_ne_some found hnone)
  | executed _ found _ _ => exact absurd hp (Registry.overwrite_ne_some found hnone)
  | cancelled _ _ _ found _ _ => exact absurd hp (Registry.overwrite_ne_some found hnone)
  | emergencyCancelled _ _ _ _ found _ _ => exact absurd hp (Registry.overwrite_ne_some found hnone)

theorem Step.bounded (h : Step env w call w') (hs : Sound config w) :
    Registry.Bounded w'.storage.proposal (w'.storage.proposalCount.getD 0) := by
  cases h with
  | viewed _ => exact hs.bounded
  | initialized first _ _ _ => exact absurd (first.symm.trans hs.ready) (by simp)
  | proposed _ _ _ _ next _ _ =>
    subst next
    exact Registry.Grows.add.bounded hs.bounded
  | approved _ _ _ _ found _ _ _ => exact (Registry.Grows.overwrite found).bounded hs.bounded
  | rejected _ _ _ _ found _ _ _ _ => exact (Registry.Grows.overwrite found).bounded hs.bounded
  | executed _ found _ _ => exact (Registry.Grows.overwrite found).bounded hs.bounded
  | cancelled _ _ _ found _ _ => exact (Registry.Grows.overwrite found).bounded hs.bounded
  | emergencyCancelled _ _ _ _ found _ _ =>
    exact (Registry.Grows.overwrite found).bounded hs.bounded

theorem Step.sound (h : Step env w call w') (hs : Sound config w) : Sound config w' where
  ready := by
    cases h with
    | initialized _ _ _ _ => rfl
    | _ => exact hs.ready
  configured := by
    cases h with
    | initialized first _ _ _ => exact absurd (first.symm.trans hs.ready) (by simp)
    | _ => exact hs.configured
  bounded := h.bounded hs
  ballots := by
    intro id p hp
    cases hq : w.storage.proposal id with
    | none => exact (h.born hs hq hp).ballot
    | some q =>
      obtain ⟨p', hp', hmoves⟩ := h.moves hs hq
      obtain rfl := Option.some.inj (hp'.symm.trans hp)
      exact (hs.ballots id q hq).moves hmoves

theorem Sound.commit (hs : Sound config w) (i : Submission Call) :
    Sound config (commit contract w i) := by
  rcases commit_step w i with hstep | he
  · exact hstep.sound hs
  · rwa [he]

theorem Sound.run (hs : Sound config w) (cs : List (Submission Call)) :
    Sound config (run contract w cs) :=
  run_preserves (fun _ i h => h.commit i) hs cs

/-- What a committed submission does to a stored proposal. -/
theorem commit_moves (hs : Sound config w) (i : Submission Call)
    (hp : w.storage.proposal id = some p) :
    ∃ p', (commit contract w i).storage.proposal id = some p' ∧
      Proposal.Moves config i.env id i.call p p' := by
  rcases commit_step w i with hstep | he
  · exact hstep.moves hs hp
  · exact ⟨p, by rw [he, hp], .kept⟩

/-- A proposal of the next state is new, or was stored and has moved. -/
theorem commit_origin (hs : Sound config w)
    (hp : (commit contract w i).storage.proposal id = some p') :
    (w.storage.proposal id = none ∧ Born config p') ∨
      ∃ p, w.storage.proposal id = some p ∧ Proposal.Moves config i.env id i.call p p' := by
  cases hq : w.storage.proposal id with
  | none =>
    rcases commit_step w i with hstep | he
    · exact .inl ⟨rfl, hstep.born hs hq hp⟩
    · rw [he, hq] at hp
      contradiction
  | some p =>
    obtain ⟨q, hq', hmoves⟩ := commit_moves hs i hq
    obtain rfl := Option.some.inj (hq'.symm.trans hp)
    exact .inr ⟨p, rfl, hmoves⟩

/-- The state is the one right after a successful `initialize` with `config`. -/
def Initialized (config : TreasuryConfig) (w : World) : Prop :=
  config.highValueThreshold = highValueThreshold ∧ ∃ admin env,
    initializeContract admin config.signers config.threshold config.regularTimelock
      config.highValueTimelock config.emergencyCancelThreshold env deployed = .ok ((), w)

theorem Initialized.storage (h : Initialized config w) :
    config.Valid ∧ ∃ admin, (⟨⟨some admin, some true, some config, some 0, fun _ => none⟩, []⟩ :
      World) = w := by
  obtain ⟨hfixed, admin, env, hinit⟩ := h
  obtain ⟨c, hc, _, _, hvalid, hw⟩ := initializeContract_ok.mp hinit
  rw [← hfixed] at hc
  subst hc
  exact ⟨hvalid, admin, hw⟩

theorem Initialized.sound (h : Initialized config w) : Sound config w := by
  obtain ⟨_, admin, rfl⟩ := h.storage
  exact ⟨rfl, rfl, Registry.bounded_empty, fun _ _ hp => by contradiction⟩

theorem Initialized.empty (h : Initialized config w) (id : Nat) : w.storage.proposal id = none := by
  obtain ⟨_, admin, rfl⟩ := h.storage
  rfl

/-! ## Executions -/

/-- The proposal has `status` in the second world and not in the first. -/
def Becomes (status : ProposalStatus) (w w' : World) (id : Nat) : Prop :=
  (∃ p, w'.storage.proposal id = some p ∧ p.status = status) ∧
    ∀ p, w.storage.proposal id = some p → p.status ≠ status

def isExecuted (id : Nat) (w : World) : Bool :=
  (w.storage.proposal id).any (fun p => p.status = .executed)

theorem isExecuted_iff :
    isExecuted id w = true ↔ ∃ p, w.storage.proposal id = some p ∧ p.status = .executed := by
  cases h : w.storage.proposal id with
  | none => simp [isExecuted, h]
  | some p => simp [isExecuted, h]

/-- A submission by which `signer` approves the proposal. -/
def Approves (signer : Address) (id : Nat) (_ : World) (i : Submission Call) : Prop :=
  i.call = .approve signer id ∧ signer ∈ i.env.auths

theorem Proposal.Moves.executed_stays (h : Proposal.Moves config env id call p p')
    (hp : p.status = .executed) : p' = p := by
  cases h with
  | kept => rfl
  | approved _ _ pending _ => rw [hp] at pending; contradiction
  | rejected _ _ undecided _ => rcases undecided with hu | hu <;> rw [hp] at hu <;> contradiction
  | executed approved _ => rw [hp] at approved; contradiction
  | cancelled _ live _ => exact absurd hp live.1
  | emergencyCancelled _ _ live _ => exact absurd hp live

/-- A proposal that was rejected or cancelled is one or the other from then on. -/
theorem Proposal.Moves.dead_stays (h : Proposal.Moves config env id call p p')
    (hp : p.status = .rejected ∨ p.status = .cancelled) :
    p'.status = .rejected ∨ p'.status = .cancelled := by
  cases h with
  | kept => exact hp
  | approved _ _ pending _ => rcases hp with hp | hp <;> rw [hp] at pending <;> contradiction
  | rejected _ _ undecided _ =>
    rcases hp with hp | hp <;> rcases undecided with hu | hu <;> rw [hp] at hu <;> contradiction
  | executed approved _ => rcases hp with hp | hp <;> rw [hp] at approved <;> contradiction
  | cancelled _ _ _ => exact .inr rfl
  | emergencyCancelled _ _ _ _ =>
    simp only [Proposal.emergencyCancel]
    split
    · exact .inr rfl
    · exact hp

theorem dead_run (hs : Sound config w) (hp : w.storage.proposal id = some p)
    (hdead : p.status = .rejected ∨ p.status = .cancelled) (cs : List (Submission Call)) :
    ∃ p', (run contract w cs).storage.proposal id = some p' ∧
      (p'.status = .rejected ∨ p'.status = .cancelled) := by
  have hinv : Sound config (run contract w cs) ∧
      ∃ p', (run contract w cs).storage.proposal id = some p' ∧
        (p'.status = .rejected ∨ p'.status = .cancelled) := by
    refine run_preserves (I := fun v => Sound config v ∧ ∃ p', v.storage.proposal id = some p' ∧
      (p'.status = .rejected ∨ p'.status = .cancelled)) ?_ ⟨hs, p, hp, hdead⟩ cs
    rintro v i ⟨hv, q, hq, hqdead⟩
    obtain ⟨q', hq', hmoves⟩ := commit_moves hv i hq
    exact ⟨hv.commit i, q', hq', hmoves.dead_stays hqdead⟩
  exact hinv.2

/-- Only `execute` makes a proposal Executed: an Approved one, after its delay. -/
theorem Becomes.executed (hs : Sound config w)
    (h : Becomes .executed w (commit contract w i) id) :
    ∃ p, w.storage.proposal id = some p ∧ i.call = .execute id ∧ p.status = .approved ∧
      p.executeAfter ≤ i.env.timestamp := by
  obtain ⟨⟨p', hp', hstatus⟩, hbefore⟩ := h
  rcases commit_origin hs hp' with ⟨_, hborn⟩ | ⟨p, hp, hmoves⟩
  · rw [hborn.pending] at hstatus
    contradiction
  · refine ⟨p, hp, ?_⟩
    generalize i.call = call at hmoves ⊢
    cases hmoves with
    | kept => exact absurd hstatus (hbefore _ hp)
    | approved _ _ pending _ =>
      simp only [Proposal.approve] at hstatus
      split at hstatus
      · contradiction
      · exact absurd hstatus (hbefore p hp)
    | rejected _ _ _ _ =>
      simp only [Proposal.reject] at hstatus
      split at hstatus
      · contradiction
      · exact absurd hstatus (hbefore p hp)
    | executed approved late => exact ⟨rfl, approved, late⟩
    | cancelled _ _ _ => contradiction
    | emergencyCancelled _ _ _ _ =>
      simp only [Proposal.emergencyCancel] at hstatus
      split at hstatus
      · contradiction
      · exact absurd hstatus (hbefore p hp)

/-- A record of votes that starts empty and that only the vote `Cast` adds to holds votes
that were cast. -/
theorem votes_cast (hinit : Initialized config w) {votes : Proposal → Map Address Bool}
    {Cast : Address → Nat → World → Submission Call → Prop}
    (hborn : ∀ p, Born config p → votes p = ∅)
    (hmoves : ∀ v i id p p', Proposal.Moves config i.env id i.call p p' →
      ∀ a ∈ votes p', a ∈ votes p ∨ Cast a id v i)
    (cs : List (Submission Call)) :
    ∀ id p, (run contract w cs).storage.proposal id = some p → ∀ a ∈ votes p,
      Once contract (Cast a id) w cs := by
  induction cs using List.reverseRecOn with
  | nil =>
    intro id p hp
    rw [run_nil, hinit.empty id] at hp
    contradiction
  | append_singleton cs i ih =>
    intro id p' hp' a ha
    rw [run_snoc] at hp'
    rw [once_snoc]
    rcases commit_origin (hinit.sound.run cs) hp' with ⟨_, hnew⟩ | ⟨p, hp, hmove⟩
    · rw [hborn p' hnew] at ha
      exact absurd ha (AList.notMem_empty a)
    · rcases hmoves _ i id p p' hmove a ha with hold | hcast
      · exact .inl (ih id p hp a hold)
      · exact .inr hcast

/-- Every recorded approval was cast by an approval call that its signer authorized. -/
theorem approvals_cast (hinit : Initialized config w) (cs : List (Submission Call))
    (hp : (run contract w cs).storage.proposal id = some p) :
    ∀ a ∈ p.approvals, Once contract (Approves a id) w cs := by
  refine votes_cast hinit (fun p h => h.approvals) ?_ cs id p hp
  intro v i id p p' hmoves a ha
  unfold Approves
  generalize i.call = call at hmoves ⊢
  cases hmoves with
  | approved signed _ _ _ =>
    rcases (AList.mem_insert _).mp ha with rfl | ha
    · exact .inr ⟨rfl, signed⟩
    · exact .inl ha
  | _ => exact .inl ha

theorem executions_le_one (hs : Sound config w) (id : Nat) (cs : List (Submission Call)) :
    total contract (rise contract (isExecuted id)) w cs ≤ 1 := by
  refine total_rise_le_one (I := Sound config) (fun _ i h => h.commit i) ?_ hs cs
  intro v i hv hexec
  obtain ⟨p, hp, hstatus⟩ := isExecuted_iff.mp hexec
  obtain ⟨p', hp', hmoves⟩ := commit_moves hv i hp
  rw [hmoves.executed_stays hstatus] at hp'
  exact isExecuted_iff.mpr ⟨p, hp', hstatus⟩

/-- In every run after `initialize` a proposal is executed at most once, and then has
behind it the approvals of a quorum of signers, its whole delay, and no state in which it
was rejected or cancelled. -/
theorem executed_once_by_quorum (hinit : Initialized config w) (cs : List (Submission Call))
    (id : Nat) :
    total contract (rise contract (isExecuted id)) w cs ≤ 1 ∧
    ∀ i, Becomes .executed (run contract w cs) (run contract w (cs ++ [i])) id →
      ∃ p, (run contract w cs).storage.proposal id = some p ∧
        (∃ voters : List Address, voters.Nodup ∧ config.threshold ≤ voters.length ∧
          ∀ a ∈ voters, a ∈ config.signers ∧ a ∈ p.approvals ∧
            Once contract (Approves a id) w cs) ∧
        p.createdAt + (if p.amount ≥ config.highValueThreshold then config.highValueTimelock
          else config.regularTimelock) ≤ i.env.timestamp ∧
        ∀ mid, mid <+: cs → ∀ q, (run contract w mid).storage.proposal id = some q →
          q.status ≠ .rejected ∧ q.status ≠ .cancelled := by
  have hs := hinit.sound.run cs
  refine ⟨executions_le_one hinit.sound id cs, fun i h => ?_⟩
  rw [run_snoc] at h
  obtain ⟨p, hp, _, happroved, hlate⟩ := h.executed hs
  have hballot := hs.ballots id p hp
  have hquorum := hballot.quorum (.inl happroved)
  refine ⟨p, hp, ⟨p.approvals.keys, p.approvals.keys_nodup, ?_, fun a ha => ?_⟩, ?_, ?_⟩
  · rwa [hballot.counted, size] at hquorum
  · have hmem : a ∈ p.approvals := AList.mem_keys.mpr ha
    exact ⟨hballot.approvers a hmem, hmem, approvals_cast hinit cs hp a hmem⟩
  · rw [hballot.delayed] at hlate
    exact hlate
  · rintro mid ⟨rest, rfl⟩ q hq
    rw [run_append] at hp
    rw [← not_or]
    intro hdead
    obtain ⟨p', hp', hstatus⟩ := dead_run (hinit.sound.run mid) hq hdead rest
    obtain rfl := Option.some.inj (hp'.symm.trans hp)
    rw [happroved] at hstatus
    rcases hstatus with hstatus | hstatus
    · contradiction
    · contradiction

/-- Three signers, two of whom approve and all of whom cancel in an emergency. -/
def threeSigners : TreasuryConfig where
  signers := [⟨2⟩, ⟨3⟩, ⟨4⟩]
  threshold := 2
  regularTimelock := 3600
  highValueTimelock := 86400
  highValueThreshold := highValueThreshold
  emergencyCancelThreshold := 3

/-- The treasury of the three signers right after its `initialize`. -/
def treasury : World :=
  commit contract deployed
    (signedBy [⟨1⟩] 0 (.initializeContract ⟨1⟩ [⟨2⟩, ⟨3⟩, ⟨4⟩] 2 3600 86400 3))

theorem initialized_treasury : Initialized threeSigners treasury :=
  ⟨rfl, ⟨1⟩, { timestamp := 0, auths := [⟨1⟩] }, rfl⟩

/-- A proposal that two signers approve. -/
def approvedByTwo : List (Submission Call) :=
  [signedBy [⟨2⟩] 10 (.propose ⟨2⟩ "payout" ⟨7⟩ 1000 none []),
    signedBy [⟨3⟩] 20 (.approve ⟨3⟩ 1), signedBy [⟨4⟩] 30 (.approve ⟨4⟩ 1)]

theorem execution_of_approvedByTwo :
    total contract (rise contract (isExecuted 1)) treasury approvedByTwo ≤ 1 ∧
    ∃ p, (run contract treasury approvedByTwo).storage.proposal 1 = some p ∧
      (∃ voters : List Address, voters.Nodup ∧ 2 ≤ voters.length ∧
        ∀ a ∈ voters, a ∈ threeSigners.signers ∧ a ∈ p.approvals ∧
          Once contract (Approves a 1) treasury approvedByTwo) ∧
      p.createdAt + (if p.amount ≥ highValueThreshold then 86400 else 3600) ≤ 3610 ∧
      ∀ mid, mid <+: approvedByTwo → ∀ q, (run contract treasury mid).storage.proposal 1 = some q →
        q.status ≠ .rejected ∧ q.status ≠ .cancelled := by
  have hexec : Becomes .executed (run contract treasury approvedByTwo)
      (run contract treasury (approvedByTwo ++ [signedBy [] 3610 (.execute 1)])) 1 := by
    refine ⟨⟨_, rfl, rfl⟩, fun p hp => ?_⟩
    cases hp
    decide
  have hrun := executed_once_by_quorum initialized_treasury approvedByTwo 1
  exact ⟨hrun.1, hrun.2 _ hexec⟩

end TreasuryContract
