import AgenticPay.MultisigQuorums

/-!
# Thresholds that can be reached

Whether a change leaves enough signers is looked at when it is proposed, and it is executed when it
has its votes, perhaps after other changes. In a run in which every change that is executed leaves
enough signers at that moment, each group can reach its threshold, and no removal lowers it unless
it says so.
-/
namespace MultisigService

open Records Transaction

/-- A group that has signers, and a threshold that these can reach. -/
structure Sound (group : MultisigGroup) : Prop where
  signers : group.walletAddresses ≠ []
  distinct : group.walletAddresses.Nodup
  pos : 1 ≤ group.threshold
  reachable : group.threshold ≤ group.walletAddresses.length

/-! ## Conditions -/

/-- The signer that a change removes. -/
def SignerChangeProposal.removes (proposal : SignerChangeProposal) : Option String :=
  match proposal.type with
  | .removeSigner => given proposal.targetSigner
  | _ => none

/-- The threshold that a change sets. -/
def SignerChangeProposal.sets (proposal : SignerChangeProposal) : Option ℚ :=
  match proposal.type with
  | .addSigner => none
  | .removeSigner => if (given proposal.targetSigner).isSome then proposal.newThreshold else none
  | .changeThreshold => proposal.newThreshold

/-- Any threshold that the change sets is at least 1, and a signer that it removes is not the last
one, nor one whom a threshold that stays needs. -/
structure Fits (proposal : SignerChangeProposal) (group : MultisigGroup) : Prop where
  sets : ∀ threshold ∈ proposal.sets, 1 ≤ threshold
  others : ∀ target ∈ proposal.removes, ∃ a ∈ group.walletAddresses, a ≠ target
  enough : ∀ target ∈ proposal.removes, proposal.newThreshold = none →
    target ∈ group.walletAddresses → group.threshold + 1 ≤ group.walletAddresses.length

instance (proposal : SignerChangeProposal) (group : MultisigGroup) :
    Decidable (Fits proposal group) :=
  decidable_of_iff ((∀ threshold ∈ proposal.sets, 1 ≤ threshold) ∧
    (∀ target ∈ proposal.removes, ∃ a ∈ group.walletAddresses, a ≠ target) ∧
    ∀ target ∈ proposal.removes, proposal.newThreshold = none →
      target ∈ group.walletAddresses → group.threshold + 1 ≤ group.walletAddresses.length)
    ⟨fun h => ⟨h.1, h.2.1, h.2.2⟩, fun h => ⟨h.1, h.2, h.3⟩⟩

variable (host : Host)

/-- The change can be proposed by its proposer, whose approval is all that it takes. -/
def Suffices (told : Told) (input : ProposeSignerInput) (group : MultisigGroup) : Prop :=
  host.normalize input.proposerSigner ∈ group.walletAddresses ∧ refusal host input group = none ∧
    (expiresAt told.now (input.timeoutSeconds.getD group.timeoutSeconds)).isOk = true ∧
      group.threshold ≤ 1

instance (told : Told) (input : ProposeSignerInput) (group : MultisigGroup) :
    Decidable (Suffices host told input group) :=
  inferInstanceAs (Decidable (_ ∧ _ ∧ _ ∧ _))

/-- A group is created with an address and a threshold of at least 1. -/
def Founds : Call × Told → Prop
  | (.createGroup input, _) => input.walletAddresses ≠ [] ∧ 1 ≤ input.threshold
  | _ => True

/-- A change that is executed fits the group as it is then. -/
def Fitting (s : State) : Call × Told → Prop
  | (.proposeSigner input, told) => ∀ group ∈ findActive input.groupId s,
    Suffices host told input group → Fits (newSignerProposal host told input none) group
  | (.approveSignerProposal proposalId signer _, told) =>
    ∀ proposal ∈ s.signerChangeProposals.get proposalId,
      ∀ group ∈ s.groups.get proposal.groupId,
        Completes host told.now signer group proposal.ballot → Fits proposal group
  | _ => True

instance : (c : Call × Told) → Decidable (Founds c)
  | (.createGroup input, _) =>
    inferInstanceAs (Decidable (input.walletAddresses ≠ [] ∧ 1 ≤ input.threshold))
  | (.updateGroup .., _) | (.proposeSigner _, _) | (.approveSignerProposal .., _)
  | (.createProposal .., _) | (.getProposal _, _) | (.approveProposal .., _)
  | (.rejectProposal .., _) | (.cancelProposal _, _) | (.sweepExpiredProposals, _) => isTrue trivial

instance (s : State) : (c : Call × Told) → Decidable (Fitting host s c)
  | (.proposeSigner input, told) =>
    inferInstanceAs (Decidable (∀ group ∈ findActive input.groupId s,
      Suffices host told input group → Fits (newSignerProposal host told input none) group))
  | (.approveSignerProposal proposalId signer _, told) =>
    inferInstanceAs (Decidable (∀ proposal ∈ s.signerChangeProposals.get proposalId,
      ∀ group ∈ s.groups.get proposal.groupId,
        Completes host told.now signer group proposal.ballot → Fits proposal group))
  | (.createGroup _, _) | (.updateGroup .., _) | (.createProposal .., _) | (.getProposal _, _)
  | (.approveProposal .., _) | (.rejectProposal .., _) | (.cancelProposal _, _)
  | (.sweepExpiredProposals, _) => isTrue trivial

/-- A removal that the call executes, and that sets no threshold, does not lower it. -/
def Upholds (s : State) (c : Call × Told) : Prop :=
  ∀ p ∈ (commit (service host) s c).signerChangeProposals, p.status = .executed →
    (∀ old ∈ s.signerChangeProposals, old.id = p.id → old.status ≠ .executed) →
      p.type = .removeSigner → p.newThreshold = none →
        ∃ before ∈ s.groups.get p.groupId,
          ∃ after ∈ (commit (service host) s c).groups.get p.groupId,
            before.threshold ≤ after.threshold

variable {host} {s s' : State} {group : MultisigGroup} {proposal : SignerChangeProposal}
  {told : Told} {signer : String} {c : Call × Told}

/-! ## Groups -/

theorem nodup_eraseDups (l : List String) : l.eraseDups.Nodup := by
  induction h : l.length using Nat.strong_induction_on generalizing l with
  | _ n ih =>
    cases l with
    | nil => exact List.nodup_nil
    | cons a l =>
      have hshorter : (l.filter fun b => !b == a).length < n := by
        rw [← h]
        exact Nat.lt_succ_of_le (List.length_filter_le _ l)
      rw [List.eraseDups_cons]
      refine List.nodup_cons.mpr ⟨fun hmem => ?_, ih _ hshorter _ rfl⟩
      simp at hmem

theorem sound_newGroup {input : CreateGroupInput} (haddresses : input.walletAddresses ≠ [])
    (hthreshold : 1 ≤ input.threshold) : Sound (newGroup host told input) := by
  obtain ⟨a, ha⟩ := List.exists_mem_of_ne_nil _ haddresses
  have hmem : host.normalize a ∈ (newGroup host told input).walletAddresses :=
    List.mem_eraseDups.mpr (List.mem_map_of_mem ha)
  have hlength : 1 ≤ (newGroup host told input).walletAddresses.length :=
    List.length_pos_of_mem hmem
  exact ⟨List.ne_nil_of_mem hmem, nodup_eraseDups _, le_min hthreshold (by exact_mod_cast hlength),
    min_le_right _ _⟩

/-- The group keeps its signers and its threshold. -/
theorem Sound.congr {kept : MultisigGroup} (h : Sound group)
    (haddresses : kept.walletAddresses = group.walletAddresses)
    (hthreshold : kept.threshold = group.threshold) : Sound kept :=
  ⟨haddresses ▸ h.signers, haddresses ▸ h.distinct, hthreshold ▸ h.pos,
    hthreshold ▸ haddresses ▸ h.reachable⟩

/-- A threshold is at least 1, and is set to what the signers can reach. -/
theorem Sound.clamp {kept : MultisigGroup} {threshold : ℚ} (hsigners : kept.walletAddresses ≠ [])
    (hdistinct : kept.walletAddresses.Nodup) (hpos : 1 ≤ threshold)
    (hset : kept.threshold = min threshold kept.walletAddresses.length) : Sound kept := by
  have hlength : (1 : ℚ) ≤ kept.walletAddresses.length := by
    exact_mod_cast List.length_pos_iff.mpr hsigners
  exact ⟨hsigners, hdistinct, hset ▸ le_min hpos hlength, hset ▸ min_le_right _ _⟩

theorem length_remove {target : String} (h : Sound group)
    (htarget : target ∈ group.walletAddresses) :
    (group.walletAddresses.filter (· ≠ target)).length + 1 = group.walletAddresses.length := by
  have herase : group.walletAddresses.filter (· ≠ target) = group.walletAddresses.erase target := by
    rw [h.distinct.erase_eq_filter]
    exact List.filter_congr fun a _ => by by_cases he : a = target <;> simp [he]
  rw [herase, List.length_erase_of_mem htarget]
  exact Nat.sub_add_cancel (List.length_pos_of_mem htarget)

/-- A threshold that stays can be reached without the signer who is removed. -/
theorem Fits.threshold_le {target : String} (hfits : Fits proposal group) (h : Sound group)
    (htarget : target ∈ proposal.removes) (hnone : proposal.newThreshold = none) :
    group.threshold ≤ (group.walletAddresses.filter (· ≠ target)).length := by
  by_cases hmem : target ∈ group.walletAddresses
  · have henough := hfits.enough target htarget hnone hmem
    rw [← length_remove h hmem] at henough
    push_cast at henough
    exact le_of_add_le_add_right henough
  · have hsame : group.walletAddresses.filter (· ≠ target) = group.walletAddresses :=
      List.filter_eq_self.mpr fun a ha => decide_eq_true fun he => hmem (he ▸ ha)
    rw [hsame]
    exact h.reachable

/-- A change that fits leaves a sound group. -/
theorem Sound.changed (h : Sound group) (hfits : Fits proposal group) :
    Sound (changed proposal group) := by
  have hsets := hfits.sets
  rw [SignerChangeProposal.sets] at hsets
  rw [MultisigService.changed]
  split
  next target hadd htarget =>
    split
    · exact h
    next hnew =>
      refine ⟨List.append_ne_nil_of_left_ne_nil h.signers _,
        h.distinct.append (List.nodup_singleton _) (List.disjoint_singleton.mpr hnew), h.pos, ?_⟩
      refine h.reachable.trans ?_
      exact_mod_cast List.length_append ▸ Nat.le_add_right _ _
  next target hremove htarget =>
    have hremoves : target ∈ proposal.removes := by
      rw [SignerChangeProposal.removes, hremove]
      exact htarget
    obtain ⟨a, ha, hne⟩ := hfits.others target hremoves
    have hleft : group.walletAddresses.filter (· ≠ target) ≠ [] :=
      List.ne_nil_of_mem (List.mem_filter.mpr ⟨ha, decide_eq_true hne⟩)
    refine Sound.clamp hleft (h.distinct.filter _) ?_ rfl
    simp only [hremove, htarget, Option.isSome_some, if_true] at hsets
    cases hnew : proposal.newThreshold with
    | none => exact h.pos
    | some threshold => exact hsets threshold hnew
  next threshold hchange hnew =>
    simp only [hchange] at hsets
    exact Sound.clamp h.signers h.distinct (hsets threshold hnew) rfl
  next => exact h

/-- A removal that fits and sets no threshold does not lower it. -/
theorem Fits.threshold_le_changed (hfits : Fits proposal group) (h : Sound group)
    (hremove : proposal.type = .removeSigner) (hnone : proposal.newThreshold = none) :
    group.threshold ≤ (changed proposal group).threshold := by
  rw [changed, hremove, hnone]
  cases htarget : given proposal.targetSigner with
  | none => exact le_rfl
  | some target =>
    have hremoves : target ∈ proposal.removes := by
      rw [SignerChangeProposal.removes, hremove]
      exact htarget
    exact le_min le_rfl (hfits.threshold_le h hremoves hnone)

theorem changed_id (proposal : SignerChangeProposal) (group : MultisigGroup) :
    (changed proposal group).id = group.id := by
  rw [changed]
  split <;> try rfl
  split <;> rfl

/-! ## Calls -/

/-- What a call does to the groups: it makes one or keeps what counts of them, or it executes a
change that fits. -/
inductive Regroups (s s' : State) : Prop
  | quiet
      (groups : ∀ group ∈ s'.groups, Sound group ∨ ∃ old ∈ s.groups,
        group.walletAddresses = old.walletAddresses ∧ group.threshold = old.threshold)
      (changes : ∀ p ∈ s'.signerChangeProposals, p.status = .executed →
        ∃ old ∈ s.signerChangeProposals, old.id = p.id ∧ old.status = .executed)
  | executes {proposal : SignerChangeProposal} {group : MultisigGroup} {now : Int}
      (found : s.groups.get proposal.groupId = some group)
      (fits : Fits proposal group)
      (groups : s'.groups = s.groups.set { changed proposal group with updatedAt := now })
      (changes : s'.signerChangeProposals =
        s.signerChangeProposals.set { proposal with status := .executed, updatedAt := now })

theorem Regroups.sound (h : Regroups s s') (hs : ∀ group ∈ s.groups, Sound group) :
    ∀ group ∈ s'.groups, Sound group := by
  cases h with
  | quiet groups changes =>
    intro group hgroup
    obtain hsound | ⟨old, hold, haddresses, hthreshold⟩ := groups group hgroup
    · exact hsound
    · exact (hs old hold).congr haddresses hthreshold
  | executes found fits groups changes =>
    rw [groups]
    have hsound := (hs _ (Table.get_some found).1).changed fits
    exact Table.forall_set (hsound.congr rfl rfl) hs

theorem Regroups.upholds (h : Regroups s (commit (service host) s c))
    (hs : ∀ group ∈ s.groups, Sound group) : Upholds host s c := by
  intro p hp hexecuted hnew hremove hnone
  cases h with
  | quiet groups changes =>
    obtain ⟨old, hold, hid, hbefore⟩ := changes p hp hexecuted
    exact absurd hbefore (hnew old hold hid)
  | @executes proposal group now found fits groups changes =>
    rw [changes] at hp
    obtain rfl | ⟨hold, -⟩ := Table.mem_set.mp hp
    · obtain ⟨hmem, hid⟩ := Table.get_some found
      refine ⟨group, found, { changed proposal group with updatedAt := now }, ?_,
        fits.threshold_le_changed (hs group hmem) hremove hnone⟩
      rw [groups, Table.get_set, if_pos (hid.symm.trans (changed_id proposal group).symm)]
      rfl
    · exact absurd hexecuted (hnew p hold rfl)

theorem regroups_keeps (hgroups : s'.groups = s.groups)
    (hchanges : ∀ p ∈ s'.signerChangeProposals, p.status = .executed →
      ∃ old ∈ s.signerChangeProposals, old.id = p.id ∧ old.status = .executed) : Regroups s s' :=
  .quiet (fun group hgroup => .inr ⟨group, hgroups ▸ hgroup, rfl, rfl⟩) hchanges

theorem regroups_same (hgroups : s'.groups = s.groups)
    (hchanges : s'.signerChangeProposals = s.signerChangeProposals) : Regroups s s' :=
  regroups_keeps hgroups fun p hp hexecuted => ⟨p, hchanges ▸ hp, rfl, hexecuted⟩

/-- A change that is not executed is set. -/
theorem regroups_set (hstatus : proposal.status ≠ .executed) :
    Regroups s { s with signerChangeProposals := s.signerChangeProposals.set proposal } :=
  regroups_keeps rfl (Table.forall_set (fun h => absurd h hstatus)
    fun p hp hexecuted => ⟨p, hp, rfl, hexecuted⟩)

theorem regroups_group
    (h : Sound group ∨ ∃ old ∈ s.groups,
      group.walletAddresses = old.walletAddresses ∧ group.threshold = old.threshold) :
    Regroups s { s with groups := s.groups.set group } :=
  .quiet (Table.forall_set h fun old hold => .inr ⟨old, hold, rfl, rfl⟩)
    fun p hp hexecuted => ⟨p, hp, rfl, hexecuted⟩

theorem regroups_evaluate {now : Int} (hstatus : proposal.status ≠ .executed)
    (hfound : s.groups.get proposal.groupId = some group)
    (hfits : group.threshold ≤ (approvers proposal.approvals).length → Fits proposal group) :
    Regroups s (evaluateSignerProposal now proposal group s).2 := by
  rw [evaluateSignerProposal]
  split
  next hfew => exact regroups_set hstatus
  next henough =>
    dsimp only
    split <;> exact .executes hfound (hfits (not_lt.mp henough)) rfl rfl

theorem regroups_proposeSigner {input : ProposeSignerInput}
    (hfitting : Fitting host s (.proposeSigner input, told)) :
    Regroups s (proposeSigner host told input s).2 := by
  rw [proposeSigner]
  split
  next => exact regroups_same rfl rfl
  next group hgroup =>
    split
    · exact regroups_same rfl rfl
    next hsigner =>
      split
      · exact regroups_same rfl rfl
      next hrefusal =>
        split
        · exact regroups_same rfl rfl
        next expiresAt hexpires =>
          refine regroups_evaluate (fun h => by cases h) (findActive_some hgroup).1 fun hcount => ?_
          have hone : (approvers (newSignerProposal host told input expiresAt).approvals).length =
              1 := rfl
          rw [hone, Nat.cast_one] at hcount
          have hfits := hfitting group hgroup
            ⟨not_not.mp hsigner, hrefusal, by rw [hexpires]; rfl, hcount⟩
          exact ⟨hfits.sets, hfits.others, hfits.enough⟩

theorem regroups_approveSignerProposal {proposalId : ProposalId} {signature : String}
    (hfitting : Fitting host s (.approveSignerProposal proposalId signer signature, told)) :
    Regroups s (approveSignerProposal host told proposalId signer signature s).2 := by
  rw [approveSignerProposal]
  split
  next => exact regroups_same rfl rfl
  next proposal hget =>
    split
    · exact regroups_same rfl rfl
    next hpending =>
      split
      · exact regroups_same rfl rfl
      next group hgroup =>
        obtain ⟨hfound, hactive⟩ := findActive_some hgroup
        dsimp only
        split
        · exact regroups_set fun h => by cases h
        next hexpired =>
          split
          · exact regroups_same rfl rfl
          next hsigner =>
            split
            · exact regroups_same rfl rfl
            next hfresh =>
              refine regroups_evaluate (fun h => ?_) hfound fun hcount => ?_
              · exact absurd (h.symm.trans (not_not.mp hpending)) (by decide)
              · rw [approvers_concat, newApproval, if_pos rfl, List.length_append] at hcount
                have hfits := hfitting proposal hget group hfound ⟨not_not.mp hpending,
                  Bool.eq_false_of_not_eq_true hexpired, hactive, not_not.mp hsigner, hfresh,
                  by exact_mod_cast hcount⟩
                exact ⟨hfits.sets, hfits.others, hfits.enough⟩

theorem regroups_ok {x : Returned} {r : Response} (hregroups : Regroups s x.2)
    (h : (.ok x : Except Unit Returned) = .ok (r, s')) : Regroups s s' := by
  obtain rfl := Except.ok.inj h
  exact hregroups

theorem regroups_fresh {x : Returned} {r : Response} {fresh : Prop} [Decidable fresh]
    (hregroups : Regroups s x.2)
    (h : (if fresh then .ok x else .error () : Except Unit Returned) = .ok (r, s')) :
    Regroups s s' := by
  split at h
  · exact regroups_ok hregroups h
  · contradiction

theorem regroups_commit (hfounds : Founds c) (hfitting : Fitting host s c) :
    Regroups s (commit (service host) s c) := by
  refine commit_preserves (I := Regroups s) (fun r s' h => ?_) (regroups_same rfl rfl)
  obtain ⟨call, told⟩ := c
  cases call with
  | createGroup input =>
    exact regroups_fresh (regroups_group (.inl (sound_newGroup hfounds.1 hfounds.2))) h
  | updateGroup groupId timeoutSeconds =>
    refine regroups_ok (x := updateGroup told.now groupId timeoutSeconds s) ?_ h
    rw [updateGroup]
    split
    next => exact regroups_same rfl rfl
    next group hget => exact regroups_group (.inr ⟨group, (Table.get_some hget).1, rfl, rfl⟩)
  | proposeSigner input => exact regroups_fresh (regroups_proposeSigner hfitting) h
  | approveSignerProposal proposalId signer signature =>
    exact regroups_ok (regroups_approveSignerProposal hfitting) h
  | createProposal groupId timeoutSeconds =>
    refine regroups_fresh (x := createProposal told groupId timeoutSeconds s) ?_ h
    rw [createProposal]
    split
    next => exact regroups_same rfl rfl
    next group hget => split <;> exact regroups_same rfl rfl
  | getProposal proposalId =>
    refine regroups_ok (x := getProposal told.now proposalId s) ?_ h
    rw [getProposal]
    split
    next => exact regroups_same rfl rfl
    next p hget => split <;> exact regroups_same rfl rfl
  | approveProposal proposalId signer signature =>
    refine regroups_ok (x := approveProposal host told proposalId signer signature s) ?_ h
    rw [approveProposal]
    split
    next => exact regroups_same rfl rfl
    next p hget =>
      split
      · exact regroups_same rfl rfl
      · dsimp only
        split
        next => exact regroups_same rfl rfl
        next => split <;> exact regroups_same rfl rfl
  | rejectProposal proposalId signer signature reason =>
    refine regroups_ok (x := rejectProposal host told proposalId signer signature reason s) ?_ h
    rw [rejectProposal]
    split
    next => exact regroups_same rfl rfl
    next p hget =>
      dsimp only
      split
      next => exact regroups_same rfl rfl
      next => split <;> exact regroups_same rfl rfl
  | cancelProposal proposalId =>
    refine regroups_ok (x := cancelProposal told.now proposalId s) ?_ h
    rw [cancelProposal]
    split <;> exact regroups_same rfl rfl
  | sweepExpiredProposals =>
    refine regroups_ok (x := sweepExpiredProposals told.now s) ?_ h
    refine regroups_keeps rfl fun p hp hexecuted => ?_
    obtain ⟨old, hold, rfl⟩ := List.mem_map.mp hp
    split at hexecuted
    · contradiction
    next hsame =>
      rw [if_neg hsame]
      exact ⟨old, hold, rfl, hexecuted⟩

/-! ## Runs -/

/-- In every run in which what is executed fits the group at that moment, every group has signers
and a threshold of at least 1 that they can reach, and a removal that sets no threshold lowers
none. -/
theorem thresholds_run {cs : List (Call × Told)} (hfounds : ∀ c ∈ cs, Founds c)
    (h : Along (service host) (Fitting host) start cs) :
    (∀ group ∈ (run (service host) start cs).groups, Sound group) ∧
      Along (service host) (Upholds host) start cs := by
  have hboth := (along_forall.mpr hfounds).and h
  have hstart : ∀ group ∈ start.groups, Sound group := fun _ h => absurd h List.not_mem_nil
  have hstep : ∀ s c, (∀ group ∈ s.groups, Sound group) → Founds c ∧ Fitting host s c →
      ∀ group ∈ (commit (service host) s c).groups, Sound group :=
    fun _ _ hs hc => (regroups_commit hc.1 hc.2).sound hs
  exact ⟨run_invariant hstep hstart hboth, along_of_invariant hstep hstart hboth
    fun _ _ hs hc => (regroups_commit hc.1 hc.2).upholds hs⟩

/-- A group of which two approve, and a removal of Alice and one of Bob that she proposes. -/
def removalsProposed (walletAddresses : List String) (newThreshold : Option ℚ) :
    List (Call × Told) :=
  [(.createGroup ⟨walletAddresses, 2, none⟩, ⟨0, "group", ""⟩),
    (.proposeSigner ⟨"group", .removeSigner, "alice", "", some "alice", newThreshold, none⟩,
      ⟨1, "alice leaves", "1"⟩),
    (.proposeSigner ⟨"group", .removeSigner, "alice", "", some "bob", newThreshold, none⟩,
      ⟨2, "bob leaves", "2"⟩)]

def approvedBy (signer : String) (proposalId : ProposalId) (now : Int) : Call × Told :=
  (.approveSignerProposal proposalId signer "", ⟨now, "", ""⟩)

/-- One of the removals, of three signers. -/
def aliceLeaves : List (Call × Told) :=
  removalsProposed ["alice", "bob", "carol"] none ++ [approvedBy "carol" "alice leaves" 3]

theorem aliceLeaves_sound :
    (∀ group ∈ (run (service plainHost) start aliceLeaves).groups, Sound group) ∧
      Along (service plainHost) (Upholds plainHost) start aliceLeaves :=
  thresholds_run (by decide +kernel) (by decide +kernel)

/-- Both removals, of two signers who set the threshold to 1. -/
def bothLeave : List (Call × Told) :=
  removalsProposed ["alice", "bob"] (some 1) ++
    [approvedBy "bob" "alice leaves" 3, approvedBy "bob" "bob leaves" 4]

/-- The second removal lowers the threshold of three signers, and of two it leaves nobody. -/
theorem removals_go_wrong :
    (∀ c ∈ bothLeave, Founds c) ∧
      ¬ (∀ group ∈ (run (service plainHost) start bothLeave).groups, Sound group) ∧
      (∀ c ∈ aliceLeaves ++ [approvedBy "carol" "bob leaves" 4], Founds c) ∧
      ¬ Along (service plainHost) (Upholds plainHost) start
        (aliceLeaves ++ [approvedBy "carol" "bob leaves" 4]) := by
  refine ⟨by decide +kernel, fun h => ?_, by decide +kernel, fun h => ?_⟩
  · obtain ⟨group, hget, hnone⟩ :
        ∃ group ∈ (run (service plainHost) start bothLeave).groups.get "group",
          group.walletAddresses = [] := by
      decide +kernel
    exact (h group (Table.get_some hget).1).signers hnone
  · have hupholds := (along_snoc.mp h).2
    obtain ⟨p, hget, hexecuted, hremove, hnone, hgroup⟩ :
        ∃ p ∈ (commit (service plainHost) (run (service plainHost) start aliceLeaves)
            (approvedBy "carol" "bob leaves" 4)).signerChangeProposals.get "bob leaves",
          p.status = .executed ∧ p.type = .removeSigner ∧ p.newThreshold = none ∧
            p.groupId = "group" := by
      decide +kernel
    have hnew : ∀ old ∈ (run (service plainHost) start aliceLeaves).signerChangeProposals.records,
        old.id = "bob leaves" → old.status ≠ .executed := by
      decide +kernel
    obtain ⟨before, hbefore, after, hafter, hle⟩ := hupholds p (Table.get_some hget).1 hexecuted
      (fun old hold hid => hnew old hold (hid.trans (Table.get_some hget).2)) hremove hnone
    rw [hgroup] at hbefore hafter
    have hlowered : ∀ before ∈ (run (service plainHost) start aliceLeaves).groups.get "group",
        ∀ after ∈ (commit (service plainHost) (run (service plainHost) start aliceLeaves)
          (approvedBy "carol" "bob leaves" 4)).groups.get "group",
          after.threshold < before.threshold := by
      decide +kernel
    exact absurd hle (not_le.mpr (hlowered before hbefore after hafter))

end MultisigService
