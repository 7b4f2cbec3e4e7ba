import AgenticPay.Evm
import AgenticPay.Tally
import AgenticPay.Transaction

/-!
# The pause that contracts on the EVM inherit

A guardian pauses alone, several signers together unpause. The counter of the approvals goes up
only; it is the number of those that are recorded as approving, which are reset by the next pause,
and a signer that is removed stays among them.
-/
namespace EvmPausable

open Evm Body Tally Transaction

def maxPauseTimeout : Nat := 72 * 3600

inductive Event where
  | paused (guardian : Address) (timestamp unpauseTimeout : Nat)
  | unpaused (actor : Address) (timestamp : Nat) (reason : String)
  | pauseGuardianChanged (oldGuardian newGuardian : Address)
  | unpauseApproved (signer : Address) (currentApprovals threshold : Nat)
  | unpauseSignerUpdated (signer : Address) (active : Bool)
  deriving DecidableEq

inductive Error where
  | contractPaused
  | contractNotPaused
  | notPauseAdmin
  | notPauseGuardian
  | notUnpauseSigner
  | alreadyApprovedUnpause
  | timeoutTooLong
  | zeroAddressNotAllowed
  deriving DecidableEq, Repr

structure State where
  paused : Bool
  pausedAt : Nat
  unpauseTimeout : Nat
  pauseAdmin : Address
  pauseGuardian : Address
  unpauseThreshold : Nat
  unpauseSigners : Address → Bool
  signerList : List Address
  unpauseApprovalCount : Nat
  hasApprovedUnpause : Address → Bool
  events : List Event

abbrev Fn (α : Type) := Body State Error α

/-- The constructor. -/
def deploy (admin guardian : Address) (signers : List Address) (threshold timeout : Nat) :
    Except (Revert Error) State :=
  if admin = .zero ∨ guardian = .zero then .error (.error .zeroAddressNotAllowed)
  else if maxPauseTimeout < timeout then .error (.error .timeoutTooLong)
  else
    .ok
      { paused := false, pausedAt := 0, unpauseTimeout := timeout, pauseAdmin := admin,
        pauseGuardian := guardian, unpauseThreshold := threshold,
        unpauseSigners := fun a => decide (a ∈ signers), signerList := signers,
        unpauseApprovalCount := 0, hasApprovedUnpause := fun _ => false, events := [] }

def emit (e : Event) : Fn Unit := write fun s => { s with events := s.events ++ [e] }

def onlyPauseAdmin : Fn Unit := do
  let msg ← message
  let pauseAdmin ← read (·.pauseAdmin)
  revertIf (msg.sender ≠ pauseAdmin) .notPauseAdmin

def onlyPauseGuardian : Fn Unit := do
  let msg ← message
  let pauseGuardian ← read (·.pauseGuardian)
  revertIf (msg.sender ≠ pauseGuardian) .notPauseGuardian

/-- The loop that resets the approvals of all signers there have been. -/
def resetApprovals (signerList : List Address) (hasApprovedUnpause : Address → Bool) :
    Address → Bool :=
  signerList.foldl (fun m signer => Function.update m signer false) hasApprovedUnpause

def emergencyPause : Fn Unit := do
  nonPayable
  onlyPauseGuardian
  let msg ← message
  write fun s =>
    { s with
      paused := true
      pausedAt := msg.timestamp
      unpauseApprovalCount := 0
      hasApprovedUnpause := resetApprovals s.signerList s.hasApprovedUnpause }
  let unpauseTimeout ← read (·.unpauseTimeout)
  emit (.paused msg.sender msg.timestamp unpauseTimeout)

def approveUnpause : Fn Unit := do
  nonPayable
  let paused ← read (·.paused)
  revertIf (paused = false) .contractNotPaused
  let msg ← message
  let signer ← read (·.unpauseSigners msg.sender)
  revertIf (signer = false) .notUnpauseSigner
  let approved ← read (·.hasApprovedUnpause msg.sender)
  revertIf (approved = true) .alreadyApprovedUnpause
  write fun s =>
    { s with
      hasApprovedUnpause := Function.update s.hasApprovedUnpause msg.sender true
      unpauseApprovalCount := uncheckedAdd s.unpauseApprovalCount 1 }
  let count ← read (·.unpauseApprovalCount)
  let threshold ← read (·.unpauseThreshold)
  emit (.unpauseApproved msg.sender count threshold)
  if count ≥ threshold then do
    write ({ · with paused := false })
    emit (.unpaused msg.sender msg.timestamp "multi-sig")
  else return ()

def finalizeAutoUnpause : Fn Unit := do
  nonPayable
  let s ← read id
  revertIf (s.paused = false) .contractNotPaused
  revertIf (s.unpauseTimeout = 0) .contractPaused
  let expires ← addWord s.pausedAt s.unpauseTimeout
  let msg ← message
  revertIf (msg.timestamp < expires) .contractPaused
  write ({ · with paused := false })
  emit (.unpaused msg.sender msg.timestamp "timeout")

def setPauseGuardian (newGuardian : Address) : Fn Unit := do
  nonPayable
  onlyPauseAdmin
  revertIf (newGuardian = .zero) .zeroAddressNotAllowed
  let old ← read (·.pauseGuardian)
  write ({ · with pauseGuardian := newGuardian })
  emit (.pauseGuardianChanged old newGuardian)

def setUnpauseSigner (signer : Address) (active : Bool) : Fn Unit := do
  nonPayable
  onlyPauseAdmin
  revertIf (signer = .zero) .zeroAddressNotAllowed
  write fun s =>
    { s with
      signerList :=
        if active = true ∧ s.unpauseSigners signer = false then s.signerList ++ [signer]
        else s.signerList
      unpauseSigners := Function.update s.unpauseSigners signer active }
  emit (.unpauseSignerUpdated signer active)

def setUnpauseTimeout (timeout : Nat) : Fn Unit := do
  nonPayable
  onlyPauseAdmin
  revertIf (maxPauseTimeout < timeout) .timeoutTooLong
  write ({ · with unpauseTimeout := timeout })

inductive Function where
  | emergencyPause
  | approveUnpause
  | finalizeAutoUnpause
  | setPauseGuardian (newGuardian : Address)
  | setUnpauseSigner (signer : Address) (active : Bool)
  | setUnpauseTimeout (timeout : Nat)
  deriving DecidableEq

def body : Function → Fn Unit
  | .emergencyPause => emergencyPause
  | .approveUnpause => approveUnpause
  | .finalizeAutoUnpause => finalizeAutoUnpause
  | .setPauseGuardian newGuardian => setPauseGuardian newGuardian
  | .setUnpauseSigner signer active => setUnpauseSigner signer active
  | .setUnpauseTimeout timeout => setUnpauseTimeout timeout

/-- A call comes from one of the 2^160 addresses. -/
structure Call where
  msg : Message
  function : Function
  sender_lt : msg.sender.key < 2 ^ 160

def system : System Call State (Revert Error) Unit := fun c s => body c.function c.msg s

end EvmPausable

/-!
## The counter of the unpause approvals

The counter is the number of addresses that are recorded as approving. It is the number of the
current signers among them as long as no signer is removed who has approved.
-/
namespace EvmPausable

open Evm Body Tally Transaction

/-- The state after one more approval. -/
def approvedBy (s : State) (signer : Address) : State :=
  { s with
    hasApprovedUnpause := Function.update s.hasApprovedUnpause signer true
    unpauseApprovalCount := uncheckedAdd s.unpauseApprovalCount 1 }

/-- A call that concerns neither the approvals nor the signers. -/
structure Manages (s s' : State) : Prop where
  paused : s'.paused = s.paused
  unpauseThreshold : s'.unpauseThreshold = s.unpauseThreshold
  unpauseSigners : s'.unpauseSigners = s.unpauseSigners
  signerList : s'.signerList = s.signerList
  unpauseApprovalCount : s'.unpauseApprovalCount = s.unpauseApprovalCount
  hasApprovedUnpause : s'.hasApprovedUnpause = s.hasApprovedUnpause

/-- What an accepted call has checked, and the state it leaves. -/
inductive Step (msg : Message) (s : State) : Function → State → Prop
  | paused {es} :
      Step msg s .emergencyPause
        { s with
          paused := true
          pausedAt := msg.timestamp
          unpauseApprovalCount := 0
          hasApprovedUnpause := resetApprovals s.signerList s.hasApprovedUnpause
          events := es }
  | approved {es} (paused : s.paused = true) (signer : s.unpauseSigners msg.sender = true)
      (fresh : s.hasApprovedUnpause msg.sender ≠ true)
      (short : uncheckedAdd s.unpauseApprovalCount 1 < s.unpauseThreshold) :
      Step msg s .approveUnpause { approvedBy s msg.sender with events := es }
  | unpaused {es} (paused : s.paused = true) (signer : s.unpauseSigners msg.sender = true)
      (fresh : s.hasApprovedUnpause msg.sender ≠ true)
      (enough : s.unpauseThreshold ≤ uncheckedAdd s.unpauseApprovalCount 1) :
      Step msg s .approveUnpause { approvedBy s msg.sender with paused := false, events := es }
  | expired {es} (timeout : s.unpauseTimeout ≠ 0)
      (late : s.pausedAt + s.unpauseTimeout ≤ msg.timestamp) :
      Step msg s .finalizeAutoUnpause { s with paused := false, events := es }
  | signerSet {signer active es} (unpaid : msg.value = 0) (admin : msg.sender = s.pauseAdmin)
      (nonzero : signer ≠ .zero) :
      Step msg s (.setUnpauseSigner signer active)
        { s with
          signerList :=
            if active = true ∧ s.unpauseSigners signer = false then s.signerList ++ [signer]
            else s.signerList
          unpauseSigners := Function.update s.unpauseSigners signer active
          events := es }
  | managed {f s'} (manages : Manages s s') : Step msg s f s'

variable {s s' : State} {msg : Message} {f : Function} {c : Call} {u : Unit}

theorem onlyPauseAdmin_ok : onlyPauseAdmin msg s = .ok (u, s') ↔
    msg.sender = s.pauseAdmin ∧ s = s' := by
  simp only [onlyPauseAdmin, message_bind, read_bind, revertIf_ok, ne_eq, not_not]

theorem onlyPauseGuardian_ok : onlyPauseGuardian msg s = .ok (u, s') ↔
    msg.sender = s.pauseGuardian ∧ s = s' := by
  simp only [onlyPauseGuardian, message_bind, read_bind, revertIf_ok, ne_eq, not_not]

theorem approveUnpause_step (h : approveUnpause msg s = .ok (u, s')) :
    Step msg s .approveUnpause s' := by
  simp only [approveUnpause, nonPayable_bind_ok, read_bind, revertIf_bind_ok, message_bind,
    write_bind, emit, Bool.not_eq_false] at h
  obtain ⟨_, hpaused, hsigner, hfresh, h⟩ := h
  split at h
  · rename_i henough
    simp only [write_bind, write_ok] at h
    obtain rfl := h
    exact .unpaused hpaused hsigner hfresh henough
  · rename_i hshort
    obtain ⟨_, rfl⟩ := pure_ok.mp h
    exact .approved hpaused hsigner hfresh (Nat.lt_of_not_le hshort)

/-- Every accepted call is one of the steps. -/
theorem step_of_ok (h : body f msg s = .ok (u, s')) : Step msg s f s' := by
  cases f with
  | emergencyPause =>
    simp only [body, emergencyPause, nonPayable_bind_ok, guard_bind_ok onlyPauseGuardian_ok,
      message_bind, write_bind, read_bind, emit, write_ok] at h
    obtain ⟨_, _, rfl⟩ := h
    exact .paused
  | approveUnpause => exact approveUnpause_step h
  | finalizeAutoUnpause =>
    simp only [body, finalizeAutoUnpause, nonPayable_bind_ok, read_bind, revertIf_bind_ok,
      addWord_bind_ok, message_bind, write_bind, emit, write_ok, id_eq] at h
    obtain ⟨_, _, htimeout, _, hlate, rfl⟩ := h
    exact .expired htimeout (Nat.le_of_not_lt hlate)
  | setPauseGuardian newGuardian =>
    simp only [body, setPauseGuardian, nonPayable_bind_ok, guard_bind_ok onlyPauseAdmin_ok,
      revertIf_bind_ok, read_bind, write_bind, emit, write_ok] at h
    obtain ⟨_, _, _, rfl⟩ := h
    exact .managed ⟨rfl, rfl, rfl, rfl, rfl, rfl⟩
  | setUnpauseSigner signer active =>
    simp only [body, setUnpauseSigner, nonPayable_bind_ok, guard_bind_ok onlyPauseAdmin_ok,
      revertIf_bind_ok, write_bind, emit, write_ok] at h
    obtain ⟨hunpaid, hadmin, hnonzero, rfl⟩ := h
    exact .signerSet hunpaid hadmin hnonzero
  | setUnpauseTimeout timeout =>
    simp only [body, setUnpauseTimeout, nonPayable_bind_ok, guard_bind_ok onlyPauseAdmin_ok,
      revertIf_bind_ok, write_ok] at h
    obtain ⟨_, _, _, rfl⟩ := h
    exact .managed ⟨rfl, rfl, rfl, rfl, rfl, rfl⟩

/-! ## What holds in every state -/

theorem resetApprovals_eq (signerList : List Address) (hasApproved : Address → Bool) (a : Address) :
    resetApprovals signerList hasApproved a = if a ∈ signerList then false else hasApproved a := by
  induction signerList generalizing hasApproved with
  | nil => simp [resetApprovals]
  | cons signer signers ih =>
    rw [resetApprovals, List.foldl_cons]
    refine (ih (Function.update hasApproved signer false)).trans ?_
    by_cases ha : a = signer
    · simp [ha]
    · simp [ha]

/-- The counter counts all who have approved, and they are all in the list that the next pause
goes through. -/
structure Valid (s : State) : Prop where
  counts : Counts s.hasApprovedUnpause s.unpauseApprovalCount
  senders : ∀ a, s.hasApprovedUnpause a = true → a.key < 2 ^ 160
  listed : ∀ a, s.hasApprovedUnpause a = true → a ∈ s.signerList
  signers : ∀ a, s.unpauseSigners a = true → a ∈ s.signerList

/-- There are fewer approvals than a word can count. -/
theorem Valid.count_lt (h : Valid s) : s.unpauseApprovalCount + 1 < wordBound := by
  have hsub : voters s.hasApprovedUnpause ⊆
      ((Finset.range (2 ^ 160)).image Address.mk : Finset Address) := by
    intro a ha
    rw [Finset.mem_coe, Finset.mem_image]
    exact ⟨a.key, Finset.mem_range.mpr (h.senders a ha), rfl⟩
  have hle := Set.encard_le_encard hsub
  rw [h.counts, Set.encard_coe_eq_coe_finsetCard, Nat.cast_le] at hle
  have himage := Finset.card_image_le (s := Finset.range (2 ^ 160)) (f := Address.mk)
  rw [Finset.card_range] at himage
  have hword : 2 ^ 160 + 1 < wordBound := by decide
  omega

theorem Valid.count_next (h : Valid s) :
    uncheckedAdd s.unpauseApprovalCount 1 = s.unpauseApprovalCount + 1 :=
  uncheckedAdd_eq h.count_lt

theorem Valid.approvedBy (h : Valid s) {signer : Address} (hkey : signer.key < 2 ^ 160)
    (hsigner : s.unpauseSigners signer = true) (hfresh : s.hasApprovedUnpause signer ≠ true) :
    Valid (approvedBy s signer) := by
  refine ⟨?_, fun a ha => ?_, fun a ha => ?_, h.signers⟩
  · rw [EvmPausable.approvedBy, h.count_next]
    exact h.counts.vote hfresh
  · by_cases he : a = signer
    · exact he ▸ hkey
    · simp only [EvmPausable.approvedBy, Function.update_of_ne he] at ha
      exact h.senders a ha
  · by_cases he : a = signer
    · rw [he]
      exact h.signers signer hsigner
    · simp only [EvmPausable.approvedBy, Function.update_of_ne he] at ha
      exact h.listed a ha

/-- The approvals that a pause finds are all reset. -/
theorem Valid.reset (h : Valid s) :
    resetApprovals s.signerList s.hasApprovedUnpause = fun _ => false := by
  funext a
  rw [resetApprovals_eq]
  split
  · rfl
  · rename_i hout
    by_contra ha
    rw [Bool.not_eq_false] at ha
    exact hout (h.listed a ha)

theorem Step.valid (h : Step c.msg s f s') (hv : Valid s) : Valid s' := by
  cases h with
  | paused =>
    simp only [hv.reset]
    exact ⟨counts_nobody, nofun, nofun, hv.signers⟩
  | approved _ hsigner hfresh =>
    have happroved := hv.approvedBy c.sender_lt hsigner hfresh
    exact ⟨happroved.counts, happroved.senders, happroved.listed, happroved.signers⟩
  | unpaused _ hsigner hfresh =>
    have happroved := hv.approvedBy c.sender_lt hsigner hfresh
    exact ⟨happroved.counts, happroved.senders, happroved.listed, happroved.signers⟩
  | expired => exact ⟨hv.counts, hv.senders, hv.listed, hv.signers⟩
  | @signerSet signer active =>
    have hgrows : ∀ a, a ∈ s.signerList → a ∈
        if active = true ∧ s.unpauseSigners signer = false then s.signerList ++ [signer]
        else s.signerList := by
      intro a ha
      split
      · exact List.mem_append_left _ ha
      · exact ha
    refine ⟨hv.counts, hv.senders, fun a ha => hgrows a (hv.listed a ha), fun a ha => ?_⟩
    by_cases he : a = signer
    · subst he
      simp only [Function.update_self] at ha
      by_cases hold : s.unpauseSigners a = true
      · exact hgrows a (hv.signers a hold)
      · simp only [if_pos (And.intro ha (Bool.eq_false_of_not_eq_true hold))]
        exact List.mem_append_right _ (List.mem_singleton_self a)
    · simp only [Function.update_of_ne he] at ha
      exact hgrows a (hv.signers a ha)
  | managed hm =>
    refine ⟨?_, ?_, ?_, ?_⟩
    · rw [hm.hasApprovedUnpause, hm.unpauseApprovalCount]
      exact hv.counts
    · rw [hm.hasApprovedUnpause]
      exact hv.senders
    · rw [hm.hasApprovedUnpause, hm.signerList]
      exact hv.listed
    · rw [hm.unpauseSigners, hm.signerList]
      exact hv.signers

theorem deploy_valid {admin guardian : Address} {signers : List Address} {threshold timeout : Nat}
    (h : deploy admin guardian signers threshold timeout = .ok s) : Valid s := by
  rw [deploy] at h
  split at h
  · contradiction
  · split at h
    · contradiction
    · cases h
      exact ⟨counts_nobody, nofun, nofun, fun a ha => of_decide_eq_true ha⟩

/-! ## The current signers -/

/-- The current signers that have approved since the last pause. -/
def approvingSigners (s : State) : Set Address :=
  {a | s.unpauseSigners a = true ∧ s.hasApprovedUnpause a = true}

/-- While paused, the counter is the number of the current signers that have approved. -/
def Counted (s : State) : Prop :=
  s.paused = true → (approvingSigners s).encard = s.unpauseApprovalCount

/-- Everybody who has approved is a signer. -/
def ApproversSign (s : State) : Prop :=
  ∀ a, s.hasApprovedUnpause a = true → s.unpauseSigners a = true

theorem Valid.encard_of_approversSign (h : Valid s) (ha : ApproversSign s) :
    (approvingSigners s).encard = s.unpauseApprovalCount :=
  h.counts.among ha

/-- A set of signers that is as large as the set of all who have approved is that set. -/
theorem Valid.approversSign_of_counted (h : Valid s) (hpaused : s.paused = true)
    (hc : Counted s) : ApproversSign s := by
  have hsub : approvingSigners s ⊆ voters s.hasApprovedUnpause := fun _ ha => ha.2
  have hfinite : (voters s.hasApprovedUnpause).Finite := by
    apply Set.finite_of_encard_eq_coe
    exact h.counts
  have hcard : (voters s.hasApprovedUnpause).encard ≤ (approvingSigners s).encard := by
    rw [hc hpaused, h.counts]
  have hsame := (hfinite.subset hsub).eq_of_subset_of_encard_le hsub hcard
  intro a ha
  have hmem : a ∈ voters s.hasApprovedUnpause := ha
  rw [← hsame] at hmem
  exact hmem.1

/-- The admin removes a signer that has approved, while the contract is paused. -/
structure RemovesApprover (s : State) (c : Call) (signer : Address) : Prop where
  function : c.function = .setUnpauseSigner signer false
  unpaid : c.msg.value = 0
  admin : c.msg.sender = s.pauseAdmin
  nonzero : signer ≠ .zero
  paused : s.paused = true
  approved : s.hasApprovedUnpause signer = true

/-- No signer is removed that has approved the unpause of the pause that is open. -/
def KeepsApprovers (s : State) (c : Call) : Prop := ∀ signer, ¬ RemovesApprover s c signer

/-- A call that unpauses comes after the timeout, or as many current signers as the threshold asks
for have approved. -/
def UnpausedBySigners (s : State) (c : Call) : Prop :=
  s.paused = true → (commit system s c).paused = false →
    (s.unpauseTimeout ≠ 0 ∧ s.pausedAt + s.unpauseTimeout ≤ c.msg.timestamp) ∨
      s.unpauseThreshold ≤ (approvingSigners (commit system s c)).encard

/-- After an approval by a signer the approvers are signers still. -/
theorem ApproversSign.approvedBy (h : ApproversSign s) {signer : Address}
    (hsigner : s.unpauseSigners signer = true) : ApproversSign (approvedBy s signer) := by
  intro a ha
  by_cases he : a = signer
  · exact he ▸ hsigner
  · simp only [EvmPausable.approvedBy, Function.update_of_ne he] at ha
    exact h a ha

theorem Step.approversSign (h : Step c.msg s c.function s') (hv : Valid s)
    (hc : KeepsApprovers s c) (ha : s.paused = true → ApproversSign s) :
    s'.paused = true → ApproversSign s' := by
  generalize hf : c.function = f at h
  cases h with
  | paused =>
    simp only [hv.reset]
    exact fun _ => nofun
  | approved hpaused hsigner => exact fun _ => (ha hpaused).approvedBy hsigner
  | unpaused => nofun
  | expired => nofun
  | @signerSet signer active _ hunpaid hadmin hnonzero =>
    intro hpaused a happroved
    by_cases he : a = signer
    · subst he
      simp only [Function.update_self]
      cases active with
      | true => rfl
      | false => exact (hc a ⟨hf, hunpaid, hadmin, hnonzero, hpaused, happroved⟩).elim
    · simp only [Function.update_of_ne he]
      exact ha hpaused a happroved
  | managed hm =>
    intro hpaused a happroved
    rw [hm.paused] at hpaused
    rw [hm.hasApprovedUnpause] at happroved
    rw [hm.unpauseSigners]
    exact ha hpaused a happroved

/-- The invariant of the runs in which no approver is removed. -/
structure Kept (s : State) : Prop where
  valid : Valid s
  signers : s.paused = true → ApproversSign s

theorem Kept.counted (h : Kept s) : Counted s := fun hpaused =>
  h.valid.encard_of_approversSign (h.signers hpaused)

theorem step_or_same (s : State) (c : Call) :
    Step c.msg s c.function (commit system s c) ∨ commit system s c = s := by
  obtain ⟨_, hok⟩ | ⟨_, herror⟩ := commit_cases system s c
  · exact .inl (step_of_ok hok)
  · exact .inr herror

theorem valid_commit (h : Valid s) (c : Call) : Valid (commit system s c) := by
  obtain hstep | hsame := step_or_same s c
  · exact hstep.valid h
  · rwa [hsame]

theorem kept_commit (h : Kept s) (hc : KeepsApprovers s c) : Kept (commit system s c) := by
  refine ⟨valid_commit h.valid c, ?_⟩
  obtain hstep | hsame := step_or_same s c
  · exact hstep.approversSign h.valid hc h.signers
  · rw [hsame]
    exact h.signers

theorem Kept.unpausedBySigners (h : Kept s) (c : Call) : UnpausedBySigners s c := by
  intro hpaused hunpaused
  obtain hstep | hsame := step_or_same s c
  · have hvalid := valid_commit h.valid c
    generalize commit system s c = s' at hstep hunpaused hvalid ⊢
    generalize c.function = f at hstep
    cases hstep with
    | paused => contradiction
    | approved => exact absurd hunpaused (by simp [approvedBy, hpaused])
    | @unpaused es _ hsigner _ henough =>
      have happrovers : ApproversSign { approvedBy s c.msg.sender with
          paused := false, events := es } := (h.signers hpaused).approvedBy hsigner
      rw [hvalid.encard_of_approversSign happrovers]
      exact .inr (Nat.cast_le.mpr henough)
    | expired htimeout hlate => exact .inl ⟨htimeout, hlate⟩
    | signerSet =>
      have hstays : s.paused = false := hunpaused
      rw [hpaused] at hstays
      contradiction
    | managed hm =>
      rw [hm.paused, hpaused] at hunpaused
      contradiction
  · rw [hsame, hpaused] at hunpaused
    contradiction

/-- An approver that is removed leaves the counter higher than the number of signers. -/
theorem not_counted_of_removes {signer : Address} (hv : Valid s)
    (h : RemovesApprover s c signer) : ¬ Counted (commit system s c) := by
  have hok : system c s = .ok ((),
      { s with
        unpauseSigners := Function.update s.unpauseSigners signer false
        events := s.events ++ [.unpauseSignerUpdated signer false] }) := by
    simp only [system, h.function, body, setUnpauseSigner, nonPayable_bind_ok,
      guard_bind_ok onlyPauseAdmin_ok, revertIf_bind_ok, write_bind, emit, write_ok, h.unpaid,
      h.admin, h.nonzero, Bool.false_eq_true, false_and, if_false, not_false_eq_true, true_and]
  have hvalid := valid_commit hv c
  rw [commit_of_ok hok] at hvalid ⊢
  intro hcounted
  have hsigns := hvalid.approversSign_of_counted h.paused hcounted signer h.approved
  simp only [Function.update_self, Bool.false_eq_true] at hsigns

theorem deploy_kept {admin guardian : Address} {signers : List Address} {threshold timeout : Nat}
    (h : deploy admin guardian signers threshold timeout = .ok s) : Kept s := by
  refine ⟨deploy_valid h, fun _ a ha => ?_⟩
  rw [deploy] at h
  split at h
  · contradiction
  · split at h
    · contradiction
    · cases h
      contradiction

/-- The counter is the number of the current signers that have approved, in every state of a run in
which the contract is paused, just when no approver is removed in it; and then only the signers
unpause before the timeout. -/
theorem counted_iff_approvers_kept {admin guardian : Address} {signers : List Address}
    {threshold timeout : Nat} (h : deploy admin guardian signers threshold timeout = .ok s)
    (calls : List Call) :
    ((∀ pre, pre <+: calls → Counted (run system s pre)) ∧
        Along system UnpausedBySigners s calls) ↔
      Along system KeepsApprovers s calls := by
  constructor
  · rintro ⟨hcounted, _⟩
    refine along_iff_initial.mpr fun pre c hpre signer hremoves => ?_
    have hvalid : Valid (run system s pre) :=
      run_preserves (I := Valid) (fun _ c hv => valid_commit hv c) (deploy_valid h) pre
    apply not_counted_of_removes hvalid hremoves
    have hnext := hcounted (pre ++ [c]) hpre
    rwa [run_snoc] at hnext
  · intro hkeeps
    refine ⟨fun pre hpre => ?_, ?_⟩
    · have hkept : Kept (run system s pre) :=
        run_invariant (I := Kept) (fun _ _ hk hc => kept_commit hk hc) (deploy_kept h)
          (hkeeps.initial hpre)
      exact hkept.counted
    · exact along_of_invariant (fun _ _ hk hc => kept_commit hk hc) (deploy_kept h) hkeeps
        fun _ c hk _ => hk.unpausedBySigners c

/-- The admin 1, the guardian 2 and the signers 3, 4 and 5, two of whom unpause. -/
def newPausable : State :=
  { paused := false, pausedAt := 0, unpauseTimeout := maxPauseTimeout, pauseAdmin := ⟨1⟩,
    pauseGuardian := ⟨2⟩, unpauseThreshold := 2,
    unpauseSigners := fun a => decide (a ∈ [⟨3⟩, ⟨4⟩, (⟨5⟩ : Address)]),
    signerList := [⟨3⟩, ⟨4⟩, ⟨5⟩], unpauseApprovalCount := 0, hasApprovedUnpause := fun _ => false,
    events := [] }

theorem deploy_newPausable :
    deploy ⟨1⟩ ⟨2⟩ [⟨3⟩, ⟨4⟩, ⟨5⟩] 2 maxPauseTimeout = .ok newPausable := rfl

def callAt (time sender : Nat) (f : Function) (h : sender < 2 ^ 160) : Call :=
  ⟨⟨⟨sender⟩, 0, time⟩, f, h⟩

/-- The signer 3 approves and is removed, then the signer 4 approves. -/
def approverRemoved : List Call :=
  [callAt 100 2 .emergencyPause (by decide), callAt 200 3 .approveUnpause (by decide),
    callAt 300 1 (.setUnpauseSigner ⟨3⟩ false) (by decide),
    callAt 400 4 .approveUnpause (by decide)]

theorem counted_iff_approvers_kept_approverRemoved :
    ((∀ pre, pre <+: approverRemoved → Counted (run system newPausable pre)) ∧
        Along system UnpausedBySigners newPausable approverRemoved) ↔
      Along system KeepsApprovers newPausable approverRemoved :=
  counted_iff_approvers_kept deploy_newPausable approverRemoved

/-- After the removal the counter is 1 and no signer has approved; the next approval unpauses,
though it is the only one of a signer, long before the timeout. -/
theorem removed_approver_counts :
    let removed := run system newPausable (approverRemoved.take 3)
    let unpaused := run system newPausable approverRemoved
    (removed.paused = true ∧ removed.unpauseApprovalCount = 1 ∧ ¬ Counted removed) ∧
      unpaused.paused = false ∧ unpaused.unpauseThreshold = 2 ∧
        400 < removed.pausedAt + removed.unpauseTimeout ∧
          ∀ a ∈ approvingSigners unpaused, a = ⟨4⟩ := by
  intro removed unpaused
  have hremoves : RemovesApprover (run system newPausable (approverRemoved.take 2))
      (callAt 300 1 (.setUnpauseSigner ⟨3⟩ false) (by decide)) ⟨3⟩ :=
    ⟨rfl, rfl, by decide, by decide, by decide, by decide⟩
  have hvalid : Valid (run system newPausable (approverRemoved.take 2)) :=
    run_preserves (I := Valid) (fun _ c hv => valid_commit hv c)
      (deploy_valid deploy_newPausable) _
  have happroved : unpaused.hasApprovedUnpause = Function.update (Function.update
      (resetApprovals [⟨3⟩, ⟨4⟩, ⟨5⟩] fun _ => false) ⟨3⟩ true) ⟨4⟩ true := rfl
  refine ⟨⟨by decide, by decide, not_counted_of_removes hvalid hremoves⟩, by decide, by decide,
    by decide, ?_⟩
  rintro a ⟨hsigner, happroves⟩
  by_contra hother
  have hremoved : a ≠ ⟨3⟩ := by
    rintro rfl
    revert hsigner
    decide
  rw [happroved, Function.update_of_ne hother, Function.update_of_ne hremoved,
    resetApprovals_eq, ite_self] at happroves
  contradiction

end EvmPausable
