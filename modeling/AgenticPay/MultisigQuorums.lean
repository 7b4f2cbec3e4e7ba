import AgenticPay.MultisigGroups
import AgenticPay.Tally

/-!
# The votes behind an execution

Approvals are counted by the addresses that gave them, whether or not these are still signers. In a
run in which every approval that completes a count comes after approvals of present signers only,
what is executed has the votes of as many signers as the group asks for.
-/
namespace MultisigService

open Records Transaction

/-! ## Ballots -/

/-- What the two kinds of proposals have in common. -/
structure Ballot where
  id : ProposalId
  groupId : GroupId
  approvals : List MultisigApproval
  status : MultisigProposalStatus
  expiresAt : Option Int

def MultisigProposal.ballot (p : MultisigProposal) : Ballot :=
  ⟨p.id, p.groupId, p.approvals, p.status, p.expiresAt⟩

def SignerChangeProposal.ballot (p : SignerChangeProposal) : Ballot :=
  ⟨p.id, p.groupId, p.approvals, p.status, p.expiresAt⟩

/-- As many distinct signers of the group as it asks for have approved. -/
def Backed (group : MultisigGroup) (approvals : List MultisigApproval) : Prop :=
  group.threshold ≤ (Quorum.support group.walletAddresses (approvers approvals) : ℚ)

instance (group : MultisigGroup) (approvals : List MultisigApproval) :
    Decidable (Backed group approvals) :=
  inferInstanceAs (Decidable (group.threshold ≤ (_ : ℚ)))

variable (host : Host)

/-- What a call executes has the votes of enough signers: a payment of the group as it is before and
after the call, a change of the group as it was before. -/
structure Sanctioned (s : State) (c : Call × Told) : Prop where
  payments : ∀ p ∈ (commit (service host) s c).proposals, p.status = .executed →
    (∀ old ∈ s.proposals, old.id = p.id → old.status ≠ .executed) →
      ∃ group, s.groups.get p.groupId = some group ∧
        (commit (service host) s c).groups.get p.groupId = some group ∧ Backed group p.approvals
  changes : ∀ p ∈ (commit (service host) s c).signerChangeProposals, p.status = .executed →
    (∀ old ∈ s.signerChangeProposals, old.id = p.id → old.status ≠ .executed) →
      ∃ group, s.groups.get p.groupId = some group ∧ Backed group p.approvals

/-- The signer's approval is taken, and completes the count. -/
def Completes (now : Int) (signer : String) (group : MultisigGroup) (b : Ballot) : Prop :=
  b.status = .pending ∧ isExpired now b.expiresAt = false ∧ group.status = .active ∧
    host.normalize signer ∈ group.walletAddresses ∧
    host.normalize signer ∉ signers b.approvals ∧
    group.threshold ≤ (approvers b.approvals).length + 1

instance (now : Int) (signer : String) (group : MultisigGroup) (b : Ballot) :
    Decidable (Completes host now signer group b) :=
  inferInstanceAs (Decidable (_ ∧ _ ∧ _ ∧ _ ∧ _ ∧ _))

/-- Whoever has approved before is a signer still, if the approval completes the count. -/
def Stands (now : Int) (signer : String) (s : State) (b : Ballot) : Prop :=
  ∀ group ∈ s.groups.get b.groupId, Completes host now signer group b →
    ∀ a ∈ approvers b.approvals, a ∈ group.walletAddresses

instance (now : Int) (signer : String) (s : State) (b : Ballot) :
    Decidable (Stands host now signer s b) :=
  inferInstanceAs (Decidable (∀ group ∈ s.groups.get b.groupId,
    Completes host now signer group b → ∀ a ∈ approvers b.approvals, a ∈ group.walletAddresses))

def Standing (s : State) : Call × Told → Prop
  | (.approveSignerProposal proposalId signer _, told) =>
    ∀ p ∈ s.signerChangeProposals.get proposalId, Stands host told.now signer s p.ballot
  | (.approveProposal proposalId signer _, told) =>
    ∀ p ∈ s.proposals.get proposalId, Stands host told.now signer s p.ballot
  | _ => True

instance (s : State) : (c : Call × Told) → Decidable (Standing host s c)
  | (.approveSignerProposal proposalId signer _, told) =>
    inferInstanceAs (Decidable (∀ p ∈ s.signerChangeProposals.get proposalId,
      Stands host told.now signer s p.ballot))
  | (.approveProposal proposalId signer _, told) =>
    inferInstanceAs (Decidable (∀ p ∈ s.proposals.get proposalId,
      Stands host told.now signer s p.ballot))
  | (.createGroup _, _) => isTrue trivial
  | (.updateGroup .., _) => isTrue trivial
  | (.proposeSigner _, _) => isTrue trivial
  | (.createProposal .., _) => isTrue trivial
  | (.getProposal _, _) => isTrue trivial
  | (.rejectProposal .., _) => isTrue trivial
  | (.cancelProposal _, _) => isTrue trivial
  | (.sweepExpiredProposals, _) => isTrue trivial

/-- What becomes of a ballot in a call. -/
inductive Follows (groups : Table MultisigGroup.id) (before : List Ballot) (b : Ballot) : Prop
  | kept {old} (mem : old ∈ before) (id : old.id = b.id) (approvals : b.approvals = old.approvals)
      (executed : b.status = .executed → old.status = .executed)
  | opened (approvals : b.approvals = []) (pending : b.status ≠ .executed)
  | voted {earlier approval group} (cast : earlier = [] ∨ ∃ old ∈ before, old.approvals = earlier)
      (approvals : b.approvals = earlier ++ [approval]) (found : groups.get b.groupId = some group)
      (signer : approval.signer ∈ group.walletAddresses)
      (fresh : approval.signer ∉ signers earlier)
      (executed : b.status = .executed → group.threshold ≤ (approvers b.approvals).length ∧
        ∀ a ∈ approvers earlier, a ∈ group.walletAddresses)

variable {host} {s s' : State} {groups : Table MultisigGroup.id} {before : List Ballot}
  {b : Ballot} {group : MultisigGroup} {told : Told} {signer : String} {c : Call × Told}

/-- Nobody has voted twice. -/
def Fair (ballots : List Ballot) : Prop := ∀ b ∈ ballots, (signers b.approvals).Nodup

theorem signers_concat (earlier : List MultisigApproval) (approval : MultisigApproval) :
    signers (earlier ++ [approval]) = signers earlier ++ [approval.signer] :=
  List.map_append

theorem approvers_concat (earlier : List MultisigApproval) (approval : MultisigApproval) :
    approvers (earlier ++ [approval]) =
      approvers earlier ++ if approval.action = .approved then [approval.signer] else [] := by
  rw [approvers, signers, List.filter_append, List.map_append, approvers, signers]
  by_cases h : approval.action = .approved <;> simp [h]

theorem approvers_sublist (approvals : List MultisigApproval) :
    (approvers approvals).Sublist (signers approvals) := List.filter_sublist.map _

theorem Follows.fair (h : Follows groups before b) (hbefore : Fair before) :
    (signers b.approvals).Nodup := by
  cases h with
  | kept mem id approvals executed =>
    rw [approvals]
    exact hbefore _ mem
  | opened approvals pending =>
    rw [approvals]
    exact List.nodup_nil
  | voted cast approvals found signer fresh executed =>
    have hearlier : (signers _).Nodup := cast.elim (fun hnone => hnone ▸ List.nodup_nil)
      fun ⟨old, hmem, hold⟩ => hold ▸ hbefore old hmem
    rw [approvals, signers_concat]
    exact hearlier.append (List.nodup_singleton _) (List.disjoint_singleton.mpr fresh)

/-- A ballot that is executed in the call is backed. -/
theorem Follows.backed (h : Follows groups before b) (hbefore : Fair before)
    (hexecuted : b.status = .executed)
    (hnew : ∀ old ∈ before, old.id = b.id → old.status ≠ .executed) :
    ∃ group, groups.get b.groupId = some group ∧ Backed group b.approvals := by
  have hnodup := (h.fair hbefore).sublist (approvers_sublist b.approvals)
  cases h with
  | kept mem id approvals executed => exact absurd (executed hexecuted) (hnew _ mem id)
  | opened approvals pending => exact absurd hexecuted pending
  | @voted earlier approval group cast approvals found signer fresh executed =>
    obtain ⟨hcount, hearlier⟩ := executed hexecuted
    have hpresent : ∀ a ∈ approvers b.approvals, a ∈ group.walletAddresses := by
      rw [approvals, approvers_concat]
      intro a ha
      rcases List.mem_append.mp ha with hold | hlast
      · exact hearlier a hold
      · split at hlast
        · rwa [List.mem_singleton.mp hlast]
        · exact absurd hlast List.not_mem_nil
    refine ⟨group, found, ?_⟩
    rwa [Backed, (Quorum.support_eq_length_iff hnodup).mpr hpresent]

/-! ## Calls -/

abbrev payments (s : State) : List Ballot := s.proposals.records.map (·.ballot)

abbrev changes (s : State) : List Ballot := s.signerChangeProposals.records.map (·.ballot)

/-- What a call does to the ballots. A call that changes a group executes no payment. -/
structure Turns (s s' : State) : Prop where
  payments : ∀ p ∈ s'.proposals, Follows s.groups (payments s) p.ballot
  changes : ∀ p ∈ s'.signerChangeProposals, Follows s.groups (changes s) p.ballot
  groups : s'.groups = s.groups ∨ ∀ p ∈ s'.proposals, p.status = .executed →
    ∃ old ∈ s.proposals, old.id = p.id ∧ old.status = .executed

variable {p : MultisigProposal} {proposal : SignerChangeProposal}

theorem payment_kept (h : p ∈ s.proposals) : Follows groups (payments s) p.ballot :=
  .kept (List.mem_map_of_mem h) rfl rfl id

theorem change_kept (h : proposal ∈ s.signerChangeProposals) :
    Follows groups (changes s) proposal.ballot :=
  .kept (List.mem_map_of_mem h) rfl rfl id

theorem Turns.refl (s : State) : Turns s s :=
  ⟨fun _ => payment_kept, fun _ => change_kept, .inl rfl⟩

theorem turns_groups (s : State) (t : Table MultisigGroup.id) : Turns s { s with groups := t } :=
  ⟨fun _ => payment_kept, fun _ => change_kept, .inr fun p hp hexecuted => ⟨p, hp, rfl, hexecuted⟩⟩

theorem turns_payment (h : Follows s.groups (payments s) p.ballot) :
    Turns s { s with proposals := s.proposals.set p } :=
  ⟨Table.forall_set h fun _ => payment_kept, fun _ => change_kept, .inl rfl⟩

theorem turns_change (h : Follows s.groups (changes s) proposal.ballot) :
    Turns s { s with signerChangeProposals := s.signerChangeProposals.set proposal } :=
  ⟨fun _ => payment_kept, Table.forall_set h fun _ => change_kept, .inl rfl⟩

theorem findActive_some {groupId : GroupId} (h : findActive groupId s = some group) :
    s.groups.get groupId = some group ∧ group.status = .active := by
  obtain ⟨hget, hactive⟩ := Option.filter_eq_some_iff.mp h
  exact ⟨hget, of_decide_eq_true hactive⟩

theorem voting_some (h : voting signer p s = some group) :
    p.status = .pending ∧ s.groups.get p.groupId = some group ∧ group.status = .active ∧
      signer ∈ group.walletAddresses := by
  rw [voting] at h
  split_ifs at h with hpending
  obtain ⟨hfound, hsigner⟩ := Option.filter_eq_some_iff.mp h
  obtain ⟨hget, hactive⟩ := findActive_some hfound
  exact ⟨not_not.mp hpending, hget, hactive, of_decide_eq_true hsigner⟩

/-- The pending payments of a group have not changed but for their time. -/
theorem mem_invalidate {now : Int} {groupId : GroupId}
    (h : p ∈ (invalidatePendingProposalsForGroup now groupId s).proposals) :
    ∃ old ∈ s.proposals, old.id = p.id ∧ p.approvals = old.approvals ∧ p.status = old.status := by
  obtain ⟨old, hmem, rfl⟩ := List.mem_map.mp h
  refine ⟨old, hmem, ?_⟩
  split <;> exact ⟨rfl, rfl, rfl⟩

theorem turns_evaluate {now : Int}
    (hopen : Follows s.groups (changes s) proposal.ballot)
    (hexecuted : group.threshold ≤ (approvers proposal.approvals).length →
      Follows s.groups (changes s) { proposal.ballot with status := .executed }) :
    Turns s (evaluateSignerProposal now proposal group s).2 := by
  rw [evaluateSignerProposal]
  split
  next hfew => exact turns_change hopen
  next henough =>
    have hlast := hexecuted (not_lt.mp henough)
    dsimp only
    split
    · refine ⟨fun p hp => ?_, Table.forall_set hlast fun _ => change_kept,
        .inr fun p hp hstatus => ?_⟩
      · obtain ⟨old, hmem, hid, happrovals, hstatus⟩ := mem_invalidate hp
        exact .kept (List.mem_map_of_mem hmem) hid happrovals fun h => hstatus.symm.trans h
      · obtain ⟨old, hmem, hid, -, hsame⟩ := mem_invalidate hp
        exact ⟨old, hmem, hid, hsame.symm.trans hstatus⟩
    · exact ⟨fun _ => payment_kept, Table.forall_set hlast fun _ => change_kept,
        .inr fun p hp hstatus => ⟨p, hp, rfl, hstatus⟩⟩

theorem turns_proposeSigner (host : Host) (told : Told) (input : ProposeSignerInput) (s : State) :
    Turns s (proposeSigner host told input s).2 := by
  rw [proposeSigner]
  split
  next => exact Turns.refl s
  next group hgroup =>
    split
    · exact Turns.refl s
    next hsigner =>
      split
      · exact Turns.refl s
      · split
        · exact Turns.refl s
        next expiresAt hexpires =>
          -- the proposer's own approval is the first one
          have hvoted : ∀ status : MultisigProposalStatus, (status = .executed →
              group.threshold ≤ (approvers
                (newSignerProposal host told input expiresAt).approvals).length) →
              Follows s.groups (changes s)
                { (newSignerProposal host told input expiresAt).ballot with status } :=
            fun status hcount => @Follows.voted _ _ _ [] _ _ (.inl rfl) rfl
              (findActive_some hgroup).1 (not_not.mp hsigner) List.not_mem_nil fun hexecuted =>
                ⟨hcount hexecuted, fun a ha => absurd ha List.not_mem_nil⟩
          exact turns_evaluate (hvoted .pending nofun) fun hcount =>
            hvoted .executed fun _ => hcount

theorem turns_approveSignerProposal {proposalId : ProposalId} {signature : String}
    (hstanding : Standing host s (.approveSignerProposal proposalId signer signature, told)) :
    Turns s (approveSignerProposal host told proposalId signer signature s).2 := by
  rw [approveSignerProposal]
  split
  next => exact Turns.refl s
  next proposal hget =>
    obtain ⟨hmem, rfl⟩ := Table.get_some hget
    split
    · exact Turns.refl s
    next hpending =>
      split
      · exact Turns.refl s
      next group hgroup =>
        obtain ⟨hfound, hactive⟩ := findActive_some hgroup
        dsimp only
        split
        · exact turns_change (.kept (List.mem_map_of_mem hmem) rfl rfl nofun)
        next hexpired =>
          split
          · exact Turns.refl s
          next hsigner =>
            split
            · exact Turns.refl s
            next hfresh =>
              have hvoted : ∀ status : MultisigProposalStatus, (status = .executed →
                  group.threshold ≤ (approvers (proposal.approvals ++ [newApproval told
                    proposal.id (host.normalize signer) signature .approved none])).length) →
                  Follows s.groups (changes s) { proposal.ballot with
                    status
                    approvals := proposal.approvals ++ [newApproval told proposal.id
                      (host.normalize signer) signature .approved none] } := by
                intro status hcount
                refine .voted (.inr ⟨_, List.mem_map_of_mem hmem, rfl⟩) rfl hfound
                  (not_not.mp hsigner) hfresh fun hexecuted => ⟨hcount hexecuted, ?_⟩
                refine hstanding proposal hget group hfound ⟨not_not.mp hpending,
                  Bool.eq_false_of_not_eq_true hexpired, hactive, not_not.mp hsigner, hfresh, ?_⟩
                have hlast := hcount hexecuted
                rw [approvers_concat, newApproval, if_pos rfl, List.length_append] at hlast
                exact_mod_cast hlast
              refine turns_evaluate (hvoted proposal.status fun hexecuted => ?_) fun hcount =>
                hvoted .executed fun _ => hcount
              exact absurd (hexecuted.symm.trans (not_not.mp hpending)) nofun

theorem approved_ballot (told : Told) (signer signature : String) (group : MultisigGroup)
    (p : MultisigProposal) :
    (approved told signer signature group p).id = p.id ∧
      (approved told signer signature group p).groupId = p.groupId ∧
      (approved told signer signature group p).approvals =
        p.approvals ++ [newApproval told p.id signer signature .approved none] ∧
      ((approved told signer signature group p).status = .executed → p.status = .executed ∨
        group.threshold ≤ (approvers
          (approved told signer signature group p).approvals).toFinset.card) := by
  rw [approved]
  split
  next henough => exact ⟨rfl, rfl, rfl, fun _ => .inr henough⟩
  next => exact ⟨rfl, rfl, rfl, .inl⟩

theorem turns_approveProposal {proposalId : ProposalId} {signature : String}
    (hstanding : Standing host s (.approveProposal proposalId signer signature, told)) :
    Turns s (approveProposal host told proposalId signer signature s).2 := by
  rw [approveProposal]
  split
  next => exact Turns.refl s
  next p hget =>
    have hmem := (Table.get_some hget).1
    split
    · exact turns_payment (.kept (List.mem_map_of_mem hmem) rfl rfl nofun)
    next hexpires =>
      dsimp only
      split
      next => exact Turns.refl s
      next group hvoting =>
        obtain ⟨hpending, hfound, hactive, hsigner⟩ := voting_some hvoting
        split
        · exact Turns.refl s
        next hfresh =>
          obtain ⟨-, hgroupId, happrovals, hexecuted⟩ :=
            approved_ballot told (host.normalize signer) signature group p
          refine turns_payment (.voted (.inr ⟨_, List.mem_map_of_mem hmem, rfl⟩) happrovals
            ((congrArg s.groups.get hgroupId).trans hfound) hsigner hfresh fun hstatus => ?_)
          have hunexpired : isExpired told.now p.expiresAt = false := by
            rw [expires, hpending] at hexpires
            simpa using hexpires
          have hcount : group.threshold ≤ (approvers
              (approved told (host.normalize signer) signature group p).approvals).length := by
            have hcard := (hexecuted hstatus).resolve_left fun h =>
              absurd (h.symm.trans hpending) nofun
            exact hcard.trans (by exact_mod_cast List.toFinset_card_le _)
          refine ⟨hcount, hstanding p hget group hfound
            ⟨hpending, hunexpired, hactive, hsigner, hfresh, ?_⟩⟩
          rw [happrovals, approvers_concat, newApproval, if_pos rfl, List.length_append] at hcount
          exact_mod_cast hcount

theorem turns_rejectProposal (host : Host) (told : Told) (proposalId : ProposalId)
    (signer signature : String) (reason : Option String) (s : State) :
    Turns s (rejectProposal host told proposalId signer signature reason s).2 := by
  rw [rejectProposal]
  split
  next => exact Turns.refl s
  next p hget =>
    dsimp only
    split
    next => exact Turns.refl s
    next group hvoting =>
      obtain ⟨hpending, hfound, -, hsigner⟩ := voting_some hvoting
      split
      · exact Turns.refl s
      next hfresh =>
        refine turns_payment (.voted (.inr ⟨_, List.mem_map_of_mem (Table.get_some hget).1, rfl⟩)
          rfl hfound hsigner hfresh fun hstatus => ?_)
        -- a rejection executes nothing
        have hunexecuted : (rejected told (host.normalize signer) signature reason group
            p).status ≠ .executed := by
          rw [rejected, hpending]
          split <;> nofun
        exact absurd hstatus hunexecuted

theorem turns_createProposal (told : Told) (groupId : GroupId) (timeoutSeconds : Option Int)
    (s : State) : Turns s (createProposal told groupId timeoutSeconds s).2 := by
  rw [createProposal]
  split
  next => exact Turns.refl s
  next group hget =>
    split
    next => exact Turns.refl s
    next => exact turns_payment (.opened rfl nofun)

theorem turns_getProposal (now : Int) (proposalId : ProposalId) (s : State) :
    Turns s (getProposal now proposalId s).2 := by
  rw [getProposal]
  split
  next => exact Turns.refl s
  next p hget =>
    split
    · exact turns_payment (.kept (List.mem_map_of_mem (Table.get_some hget).1) rfl rfl nofun)
    · exact Turns.refl s

theorem turns_cancelProposal (now : Int) (proposalId : ProposalId) (s : State) :
    Turns s (cancelProposal now proposalId s).2 := by
  rw [cancelProposal]
  split
  next => exact Turns.refl s
  next p hfound =>
    have hget := (Option.filter_eq_some_iff.mp hfound).1
    exact turns_payment (.kept (List.mem_map_of_mem (Table.get_some hget).1) rfl rfl nofun)

theorem turns_sweepExpiredProposals (now : Int) (s : State) :
    Turns s (sweepExpiredProposals now s).2 := by
  refine ⟨fun p hp => ?_, fun p hp => ?_, .inl rfl⟩
  · obtain ⟨old, hmem, rfl⟩ := List.mem_map.mp hp
    split
    · exact .kept (List.mem_map_of_mem hmem) rfl rfl nofun
    · exact payment_kept hmem
  · obtain ⟨old, hmem, rfl⟩ := List.mem_map.mp hp
    split
    · exact .kept (List.mem_map_of_mem hmem) rfl rfl nofun
    · exact change_kept hmem

theorem turns_ok {x : Returned} {r : Response} (hturns : Turns s x.2)
    (h : (.ok x : Except Unit Returned) = .ok (r, s')) : Turns s s' := by
  obtain rfl := Except.ok.inj h
  exact hturns

theorem turns_fresh {x : Returned} {r : Response} {fresh : Prop} [Decidable fresh]
    (hturns : Turns s x.2) (h : (if fresh then .ok x else .error () : Except Unit Returned) =
      .ok (r, s')) : Turns s s' := by
  split at h
  · exact turns_ok hturns h
  · contradiction

theorem turns_commit (hstanding : Standing host s c) : Turns s (commit (service host) s c) := by
  refine commit_preserves (I := Turns s) (fun r s' h => ?_) (Turns.refl s)
  obtain ⟨call, told⟩ := c
  cases call with
  | createGroup input => exact turns_fresh (turns_groups s _) h
  | updateGroup groupId timeoutSeconds =>
    refine turns_ok (x := updateGroup told.now groupId timeoutSeconds s) ?_ h
    rw [updateGroup]
    split
    next => exact Turns.refl s
    next => exact turns_groups s _
  | proposeSigner input => exact turns_fresh (turns_proposeSigner host told input s) h
  | approveSignerProposal proposalId signer signature =>
    exact turns_ok (turns_approveSignerProposal hstanding) h
  | createProposal groupId timeoutSeconds =>
    exact turns_fresh (turns_createProposal told groupId timeoutSeconds s) h
  | getProposal proposalId => exact turns_ok (turns_getProposal told.now proposalId s) h
  | approveProposal proposalId signer signature =>
    exact turns_ok (turns_approveProposal hstanding) h
  | rejectProposal proposalId signer signature reason =>
    exact turns_ok (turns_rejectProposal host told proposalId signer signature reason s) h
  | cancelProposal proposalId => exact turns_ok (turns_cancelProposal told.now proposalId s) h
  | sweepExpiredProposals => exact turns_ok (turns_sweepExpiredProposals told.now s) h

/-! ## Runs -/

/-- Nobody has voted twice on any proposal. -/
structure Tallied (s : State) : Prop where
  payments : Fair (payments s)
  changes : Fair (changes s)

theorem Turns.tallied (h : Turns s s') (hs : Tallied s) : Tallied s' where
  payments := List.forall_mem_map.mpr fun p hp => (h.payments p hp).fair hs.payments
  changes := List.forall_mem_map.mpr fun p hp => (h.changes p hp).fair hs.changes

theorem Turns.sanctioned (h : Turns s (commit (service host) s c)) (hs : Tallied s) :
    Sanctioned host s c := by
  constructor
  · intro p hp hexecuted hnew
    obtain ⟨group, hfound, hbacked⟩ := (h.payments p hp).backed hs.payments hexecuted
      (List.forall_mem_map.mpr hnew)
    refine ⟨group, hfound, ?_, hbacked⟩
    obtain hgroups | hkept := h.groups
    · rw [hgroups]
      exact hfound
    · obtain ⟨old, hmem, hid, hold⟩ := hkept p hp hexecuted
      exact absurd hold (hnew old hmem hid)
  · intro p hp hexecuted hnew
    exact (h.changes p hp).backed hs.changes hexecuted (List.forall_mem_map.mpr hnew)

theorem start_tallied : Tallied start :=
  ⟨fun _ h => absurd h List.not_mem_nil, fun _ h => absurd h List.not_mem_nil⟩

/-- In every run in which an approval completes a count only after approvals of present signers,
whatever is executed has the votes of as many signers as its group asks for. -/
theorem quorums_run {cs : List (Call × Told)} (h : Along (service host) (Standing host) start cs) :
    Along (service host) (Sanctioned host) start cs :=
  along_of_invariant (I := Tallied) (fun _ _ hs hc => (turns_commit hc).tallied hs) start_tallied h
    fun _ _ hs hc => (turns_commit hc).sanctioned hs

def plainHost : Host := ⟨id, id⟩

/-- Alice approves a payment of three signers, two of whom it takes. -/
def approvedByAlice : List (Call × Told) :=
  [(.createGroup ⟨["alice", "bob", "carol"], 2, none⟩, ⟨0, "group", ""⟩),
    (.createProposal "group" none, ⟨1, "payment", ""⟩),
    (.approveProposal "payment" "alice" "", ⟨2, "", "1"⟩)]

/-- Bob and Carol remove Alice. -/
def aliceRemoved : List (Call × Told) :=
  [(.proposeSigner ⟨"group", .removeSigner, "bob", "", some "alice", none, none⟩,
      ⟨3, "change", "2"⟩),
    (.approveSignerProposal "change" "carol" "", ⟨4, "", "3"⟩)]

def approvedByBob : Call × Told := (.approveProposal "payment" "bob" "", ⟨5, "", "4"⟩)

theorem approvedByBob_sanctioned : Along (service plainHost) (Sanctioned plainHost) start
    (approvedByAlice ++ [approvedByBob] ++ aliceRemoved) :=
  quorums_run (by decide +kernel)

/-- Alice is removed, and Bob's approval executes the payment with hers. -/
theorem quorums_go_wrong :
    ¬ Along (service plainHost) (Sanctioned plainHost) start
      (approvedByAlice ++ aliceRemoved ++ [approvedByBob]) := by
  intro h
  have hsanctioned := (along_snoc.mp h).2
  obtain ⟨p, hget, hexecuted, group, hgroup, hunbacked⟩ :
      ∃ p ∈ (commit (service plainHost) (run (service plainHost) start
        (approvedByAlice ++ aliceRemoved)) approvedByBob).proposals.get "payment",
        p.status = .executed ∧ ∃ group ∈ (run (service plainHost) start
          (approvedByAlice ++ aliceRemoved)).groups.get p.groupId,
          ¬ Backed group p.approvals := by
    decide +kernel
  have hpending : ∀ old ∈ (run (service plainHost) start
      (approvedByAlice ++ aliceRemoved)).proposals.records, old.status ≠ .executed := by
    decide +kernel
  obtain ⟨group', hgroup', -, hbacked⟩ := hsanctioned.payments p (Table.get_some hget).1 hexecuted
    fun old hold _ => hpending old hold
  obtain rfl := Option.some.inj (hgroup.symm.trans hgroup')
  exact hunbacked hbacked

end MultisigService
