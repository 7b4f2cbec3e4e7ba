import AgenticPay.EvmTreasury
import AgenticPay.Tally

/-!
# Votes and executions of the EVM treasury

A signer votes for a proposal at most once and against it at most once, and an emergency
cancellation counts among the votes against. What the accepted calls check and do, what holds
of the proposals of every run, and what can end the approval of a proposal.
-/
namespace EvmTreasury

open Evm Body ExternalCalls Transaction Tally

/-- The state with another record under an id. -/
def stored (s : State) (id : Nat) (p : Proposal) : State :=
  { s with proposals := Function.update s.proposals id p }

/-- The record that the next id gets. -/
def drafted (s : State) (msg : Message) (description : String) (target : Address) (amount : Nat)
    (token : Address) (data : List UInt8) (timelock : Nat) : Proposal :=
  { id := s.proposalCount + 1, proposer := msg.sender, description, target, amount, token, data,
    status := .pending, approvalCount := 0, rejectionCount := 0, createdAt := msg.timestamp,
    timelockDelay := timelock, executeAfter := msg.timestamp + timelock }

/-- The record after a vote against it, which ends in `status` once `over` holds. -/
def opposed (p : Proposal) (ends : Prop) [Decidable ends] (status : ProposalStatus) : Proposal :=
  { p with rejectionCount := p.rejectionCount + 1, status := if ends then status else p.status }

/-- What an accepted call has checked, and the state it leaves. -/
inductive Step (msg : Message) (s : State) : Function → State → Prop
  | proposed {description target amount token data timelock es} :
      Step msg s (.propose description target amount token data)
        { stored s (s.proposalCount + 1)
            (drafted s msg description target amount token data timelock) with
          proposalCount := s.proposalCount + 1
          events := es }
  | approved {id es} (signer : msg.sender ∈ s.config.signers)
      (pending : (s.proposals id).status = .pending)
      (fresh : s.hasApproved id msg.sender ≠ true) (found : (s.proposals id).id ≠ 0) :
      Step msg s (.approve id)
        { stored s id
            { s.proposals id with
              approvalCount := (s.proposals id).approvalCount + 1
              status := if (s.proposals id).approvalCount + 1 ≥ s.config.threshold then .approved
                else (s.proposals id).status } with
          hasApproved := record s.hasApproved id msg.sender
          events := es }
  | rejected {id es} (signer : msg.sender ∈ s.config.signers)
      (active : (s.proposals id).status = .pending ∨ (s.proposals id).status = .approved)
      (fresh : s.hasRejected id msg.sender ≠ true) (found : (s.proposals id).id ≠ 0) :
      Step msg s (.reject id)
        { stored s id
            (opposed (s.proposals id)
              (s.config.signers.length - ((s.proposals id).rejectionCount + 1) < s.config.threshold)
              .rejected) with
          hasRejected := record s.hasRejected id msg.sender
          events := es }
  | executed {id b} (approved : (s.proposals id).status = .approved)
      (due : (s.proposals id).executeAfter ≤ msg.timestamp) :
      Step msg s (.execute id)
        { stored s id { s.proposals id with status := .executed } with
          entered := true
          balance := b
          executions := s.executions ++ [⟨id, msg.timestamp⟩] }
  | cancelled {id es} (found : (s.proposals id).id ≠ 0)
      (notExecuted : (s.proposals id).status ≠ .executed)
      (allowed : msg.sender = (s.proposals id).proposer ∨ (s.proposals id).status = .pending) :
      Step msg s (.cancel id)
        { stored s id { s.proposals id with status := .cancelled } with events := es }
  | emergencyCancelled {id es} (signer : msg.sender ∈ s.config.signers)
      (notExecuted : (s.proposals id).status ≠ .executed)
      (fresh : s.hasRejected id msg.sender ≠ true) (found : (s.proposals id).id ≠ 0) :
      Step msg s (.emergencyCancel id)
        { stored s id
            (opposed (s.proposals id)
              ((s.proposals id).rejectionCount + 1 ≥ s.config.emergencyCancelThreshold)
              .cancelled) with
          hasRejected := record s.hasRejected id msg.sender
          events := es }
  | received {b} : Step msg s .receive { s with balance := b }

variable {s s' : State} {msg : Message} {o : Option Rest} {id : Nat} {f : Function} {rest : Rest}

theorem onlySigner_ok {u : Unit} :
    onlySigner msg s = .ok (u, s') ↔ msg.sender ∈ s.config.signers ∧ s = s' := by
  simp only [onlySigner, message_bind, read_bind, revertIf_ok, not_not]

theorem enterGuard_ok {u : Unit} :
    enterGuard msg s = .ok (u, s') ↔ ¬ s.entered = true ∧ { s with entered := true } = s' := by
  simp only [enterGuard, read_bind, revertIf_bind_ok, write_ok]

theorem propose_step {description : String} {target : Address} {amount : Nat} {token : Address}
    {data : List UInt8} (h : propose description target amount token data msg s = .ok (o, s')) :
    Step msg s (.propose description target amount token data) s' := by
  simp only [propose, nonPayable_bind_ok, guard_bind_ok onlySigner_ok, message_bind, read_bind,
    addWord_bind_ok, write_bind, store, emit, pure_ok] at h
  obtain ⟨_, _, _, _, _, rfl⟩ := h
  exact .proposed

theorem approve_step (h : approve id msg s = .ok (o, s')) : Step msg s (.approve id) s' := by
  simp only [approve, nonPayable_bind_ok, guard_bind_ok onlySigner_ok, message_bind, read_bind,
    revertIf_bind_ok, addWord_bind_ok, write_bind, store, emit, pure_ok, not_or, not_not,
    ne_eq] at h
  obtain ⟨_, hsigner, hfound, hpending, hfresh, _, _, rfl⟩ := h
  exact .approved hsigner hpending hfresh.1 hfound

theorem reject_step (h : reject id msg s = .ok (o, s')) : Step msg s (.reject id) s' := by
  simp only [reject, nonPayable_bind_ok, guard_bind_ok onlySigner_ok, message_bind, read_bind,
    revertIf_bind_ok, addWord_bind_ok, subWord_bind_ok, write_bind, store, emit, pure_ok, not_or,
    ne_eq] at h
  obtain ⟨_, hsigner, hfound, hactive, hfresh, _, _, _, rfl⟩ := h
  refine .rejected hsigner ?_ hfresh.2 hfound
  by_contra hneither
  exact hactive (not_or.mp hneither)

theorem execute_step (h : execute id msg s = .ok (o, s')) : Step msg s (.execute id) s' := by
  simp only [execute, nonPayable_bind_ok, guard_bind_ok enterGuard_ok, message_bind, read_bind,
    revertIf_bind_ok, write_bind, store, not_not, ne_eq] at h
  obtain ⟨_, _, _, happroved, hdue, h⟩ := h
  have hstep : ∀ b, Step msg s (.execute id)
      { stored s id { s.proposals id with status := .executed } with
        entered := true
        balance := b
        executions := s.executions ++ [⟨id, msg.timestamp⟩] } :=
    fun b => .executed happroved (Nat.le_of_not_lt hdue)
  split at h
  · simp only [read_bind, revertIf_bind_ok, write_bind, pure_ok] at h
    obtain ⟨_, _, rfl⟩ := h
    exact hstep _
  · obtain ⟨_, rfl⟩ := pure_ok.mp h
    exact hstep _

theorem cancel_step (h : cancel id msg s = .ok (o, s')) : Step msg s (.cancel id) s' := by
  simp only [cancel, nonPayable_bind_ok, message_bind, read_bind, revertIf_bind_ok, write_bind,
    store, emit, pure_ok, not_not] at h
  obtain ⟨_, hfound, hexecuted, _, hallowed, _, rfl⟩ := h
  exact .cancelled hfound hexecuted (hallowed.imp_right And.right)

theorem emergencyCancel_step (h : emergencyCancel id msg s = .ok (o, s')) :
    Step msg s (.emergencyCancel id) s' := by
  simp only [emergencyCancel, nonPayable_bind_ok, guard_bind_ok onlySigner_ok, message_bind,
    read_bind, revertIf_bind_ok, addWord_bind_ok, write_bind, store, emit, pure_ok] at h
  obtain ⟨_, hsigner, hfound, hexecuted, hfresh, _, _, rfl⟩ := h
  exact .emergencyCancelled hsigner hexecuted hfresh hfound

theorem receive_step (h : receive msg s = .ok (o, s')) : Step msg s .receive s' := by
  simp only [receive, message_bind, read_bind, creditWord_bind_ok, write_bind, pure_ok] at h
  obtain ⟨_, _, rfl⟩ := h
  exact .received

/-- Every accepted call is one of the steps. -/
theorem step_of_ok (h : body f msg s = .ok (o, s')) : Step msg s f s' := by
  cases f with
  | propose description target amount token data => exact propose_step h
  | approve id => exact approve_step h
  | reject id => exact reject_step h
  | execute id => exact execute_step h
  | cancel id => exact cancel_step h
  | emergencyCancel id => exact emergencyCancel_step h
  | receive => exact receive_step h

/-! ## What holds in every state -/

/-- An approved proposal has its votes, and its timelock starts when it is made. -/
structure Sound (config : TreasuryConfig) (p : Proposal) : Prop where
  passed : p.status = .approved ∨ p.status = .executed → config.threshold ≤ p.approvalCount
  delayed : p.executeAfter = p.createdAt + p.timelockDelay

structure Valid (s : State) : Prop where
  approvals : ∀ id, Counts (s.hasApproved id) (s.proposals id).approvalCount
  rejections : ∀ id, Counts (s.hasRejected id) (s.proposals id).rejectionCount
  approvedBy : ∀ id a, s.hasApproved id a = true → a ∈ s.config.signers
  rejectedBy : ∀ id a, s.hasRejected id a = true → a ∈ s.config.signers
  sound : ∀ id, Sound s.config (s.proposals id)
  unused : ∀ id, s.proposalCount < id → s.proposals id = .blank
  once : (s.executions.map (·.id)).Nodup
  due : ∀ e ∈ s.executions, (s.proposals e.id).status = .executed ∧
    (s.proposals e.id).executeAfter ≤ e.time

/-- A field that a new record has in common with the old one is as it was everywhere. -/
theorem update_field {β : Type} (g : Proposal → β) {p : Proposal}
    (h : g p = g (s.proposals id)) (k : Nat) :
    g (Function.update s.proposals id p k) = g (s.proposals k) := by
  by_cases he : k = id
  · rw [he, Function.update_self, h]
  · rw [Function.update_of_ne he]

theorem counts_record {votes : Nat → Address → Bool} {count count' : Nat → Nat} {a : Address}
    (h : ∀ k, Counts (votes k) (count k)) (hfresh : votes id a ≠ true)
    (hid : count' id = count id + 1) (hother : ∀ k, k ≠ id → count' k = count k) (k : Nat) :
    Counts (record votes id a k) (count' k) := by
  by_cases he : k = id
  · subst he
    rw [record, Function.update_self, hid]
    exact (h k).vote hfresh
  · rw [record, Function.update_of_ne he, hother k he]
    exact h k

theorem of_record {votes : Nat → Address → Bool} {signers : List Address} {a : Address}
    (h : ∀ k b, votes k b = true → b ∈ signers) (ha : a ∈ signers) (k : Nat) (b : Address)
    (hb : record votes id a k b = true) : b ∈ signers := by
  by_cases hk : k = id
  · subst hk
    rw [record, Function.update_self] at hb
    by_cases he : b = a
    · rwa [he]
    · rw [Function.update_of_ne he] at hb
      exact h k b hb
  · rw [record, Function.update_of_ne hk] at hb
    exact h k b hb

namespace Valid

theorem id_le (h : Valid s) (hfound : (s.proposals id).id ≠ 0) : id ≤ s.proposalCount := by
  by_contra hlt
  apply hfound
  rw [h.unused id (Nat.lt_of_not_le hlt)]
  rfl

theorem unused_update (h : Valid s) {n k : Nat} (hn : s.proposalCount ≤ n) (hid : id ≤ n)
    (hk : n < k) (p : Proposal) : Function.update s.proposals id p k = .blank := by
  rw [Function.update_of_ne (by omega)]
  exact h.unused k (by omega)

/-- The executions are as they were when the record of a proposal changes that has not been
executed. -/
theorem due_update (h : Valid s) (hopen : (s.proposals id).status ≠ .executed) (p : Proposal)
    {e : Execution} (he : e ∈ s.executions) :
    (Function.update s.proposals id p e.id).status = .executed ∧
      (Function.update s.proposals id p e.id).executeAfter ≤ e.time := by
  have hne : e.id ≠ id := by
    rintro rfl
    exact hopen (h.due e he).1
  rw [Function.update_of_ne hne]
  exact h.due e he

theorem approvals_update (h : Valid s) {p : Proposal}
    (hp : p.approvalCount = (s.proposals id).approvalCount) (k : Nat) :
    Counts (s.hasApproved k) (Function.update s.proposals id p k).approvalCount := by
  rw [update_field (·.approvalCount) hp]
  exact h.approvals k

theorem rejections_update (h : Valid s) {p : Proposal}
    (hp : p.rejectionCount = (s.proposals id).rejectionCount) (k : Nat) :
    Counts (s.hasRejected k) (Function.update s.proposals id p k).rejectionCount := by
  rw [update_field (·.rejectionCount) hp]
  exact h.rejections k

theorem sound_update (h : Valid s) {p : Proposal} (hp : Sound s.config p) (k : Nat) :
    Sound s.config (Function.update s.proposals id p k) := by
  by_cases he : k = id
  · rw [he, Function.update_self]
    exact hp
  · rw [Function.update_of_ne he]
    exact h.sound k

theorem proposed (h : Valid s) {p : Proposal} (hpending : p.status = .pending)
    (happrovals : p.approvalCount = 0) (hrejections : p.rejectionCount = 0)
    (hdelayed : p.executeAfter = p.createdAt + p.timelockDelay) (es : List Event) :
    Valid { stored s (s.proposalCount + 1) p with
      proposalCount := s.proposalCount + 1
      events := es } := by
  have hblank := h.unused (s.proposalCount + 1) (Nat.lt_succ_self _)
  refine ⟨h.approvals_update ?_, h.rejections_update ?_, h.approvedBy, h.rejectedBy,
    h.sound_update ⟨?_, hdelayed⟩,
    fun k hk => h.unused_update (Nat.le_succ _) (Nat.le_refl _) hk p, h.once,
    fun e he => h.due_update ?_ p he⟩
  · rw [happrovals, hblank]
    rfl
  · rw [hrejections, hblank]
    rfl
  · rw [hpending]
    rintro (he | he) <;> contradiction
  · rw [hblank]
    exact ProposalStatus.noConfusion

theorem cancelled (h : Valid s) (hfound : (s.proposals id).id ≠ 0)
    (hopen : (s.proposals id).status ≠ .executed) (es : List Event) :
    Valid { stored s id { s.proposals id with status := .cancelled } with events := es } := by
  refine ⟨h.approvals_update rfl, h.rejections_update rfl, h.approvedBy, h.rejectedBy,
    h.sound_update ⟨?_, (h.sound id).delayed⟩,
    fun k hk => h.unused_update (Nat.le_refl _) (h.id_le hfound) hk _, h.once,
    fun e he => h.due_update hopen _ he⟩
  rintro (he | he) <;> contradiction

theorem approved (h : Valid s) (hfound : (s.proposals id).id ≠ 0)
    (hsigner : msg.sender ∈ s.config.signers) (hpending : (s.proposals id).status = .pending)
    (hfresh : s.hasApproved id msg.sender ≠ true) (es : List Event) :
    Valid { stored s id
        { s.proposals id with
          approvalCount := (s.proposals id).approvalCount + 1
          status := if (s.proposals id).approvalCount + 1 ≥ s.config.threshold then .approved
            else (s.proposals id).status } with
      hasApproved := record s.hasApproved id msg.sender
      events := es } := by
  have hopen : (s.proposals id).status ≠ .executed := by
    rw [hpending]
    exact ProposalStatus.noConfusion
  refine ⟨?_, h.rejections_update rfl, of_record h.approvedBy hsigner, h.rejectedBy,
    h.sound_update ⟨fun hstatus => ?_, (h.sound id).delayed⟩,
    fun k hk => h.unused_update (Nat.le_refl _) (h.id_le hfound) hk _, h.once,
    fun e he => h.due_update hopen _ he⟩
  · apply counts_record h.approvals hfresh
    · simp only [stored, Function.update_self]
    · intro k hk
      simp only [stored, Function.update_of_ne hk]
  · simp only [hpending] at hstatus ⊢
    split at hstatus
    · assumption
    · obtain he | he := hstatus <;> contradiction

theorem opposed (h : Valid s) (hfound : (s.proposals id).id ≠ 0)
    (hsigner : msg.sender ∈ s.config.signers) (hopen : (s.proposals id).status ≠ .executed)
    (hfresh : s.hasRejected id msg.sender ≠ true) (ends : Prop) [Decidable ends]
    {status : ProposalStatus} (hstatus : ¬ (status = .approved ∨ status = .executed))
    (es : List Event) :
    Valid { stored s id (opposed (s.proposals id) ends status) with
      hasRejected := record s.hasRejected id msg.sender
      events := es } := by
  refine ⟨h.approvals_update rfl, ?_, h.approvedBy, of_record h.rejectedBy hsigner,
    h.sound_update ⟨fun hafter => ?_, (h.sound id).delayed⟩,
    fun k hk => h.unused_update (Nat.le_refl _) (h.id_le hfound) hk _, h.once,
    fun e he => h.due_update hopen _ he⟩
  · apply counts_record h.rejections hfresh
    · simp only [stored, EvmTreasury.opposed, Function.update_self]
    · intro k hk
      simp only [stored, Function.update_of_ne hk]
  · simp only [EvmTreasury.opposed] at hafter ⊢
    split at hafter
    · contradiction
    · exact (h.sound id).passed hafter

theorem executed (h : Valid s) (happroved : (s.proposals id).status = .approved)
    (hdue : (s.proposals id).executeAfter ≤ msg.timestamp) (b : Nat) :
    Valid { stored s id { s.proposals id with status := .executed } with
      entered := true
      balance := b
      executions := s.executions ++ [⟨id, msg.timestamp⟩] } := by
  have hopen : (s.proposals id).status ≠ .executed := by
    rw [happroved]
    exact ProposalStatus.noConfusion
  have hle : id ≤ s.proposalCount := by
    by_contra hlt
    rw [h.unused id (Nat.lt_of_not_le hlt)] at happroved
    contradiction
  refine ⟨h.approvals_update rfl, h.rejections_update rfl, h.approvedBy, h.rejectedBy,
    h.sound_update ⟨fun _ => (h.sound id).passed (.inl happroved), (h.sound id).delayed⟩,
    fun k hk => h.unused_update (Nat.le_refl _) hle hk _, ?_, fun e he => ?_⟩
  · rw [List.map_append, List.map_singleton, ← List.concat_eq_append]
    apply h.once.concat
    intro hmem
    obtain ⟨e, he, rfl⟩ := List.mem_map.mp hmem
    exact hopen (h.due e he).1
  · obtain he | he := List.mem_append.mp he
    · exact h.due_update hopen _ he
    · rw [List.mem_singleton.mp he]
      simp only [stored, Function.update_self]
      exact ⟨trivial, hdue⟩

end Valid

theorem Step.valid (h : Step msg s f s') (hv : Valid s) : Valid s' := by
  cases h with
  | proposed => exact hv.proposed rfl rfl rfl rfl _
  | approved hsigner hpending hfresh hfound => exact hv.approved hfound hsigner hpending hfresh _
  | rejected hsigner hactive hfresh hfound =>
    refine hv.opposed hfound hsigner ?_ hfresh _ (by simp) _
    obtain he | he := hactive
    · rw [he]
      exact ProposalStatus.noConfusion
    · rw [he]
      exact ProposalStatus.noConfusion
  | executed happroved hdue => exact hv.executed happroved hdue _
  | cancelled hfound hopen => exact hv.cancelled hfound hopen _
  | emergencyCancelled hsigner hopen hfresh hfound =>
    exact hv.opposed hfound hsigner hopen hfresh _ (by simp) _
  | received =>
    exact ⟨hv.approvals, hv.rejections, hv.approvedBy, hv.rejectedBy, hv.sound, hv.unused, hv.once,
      hv.due⟩

/-! ## The end of an approval -/

/-- The signers that have approved a proposal. -/
def approvers (s : State) (id : Nat) : Set Address :=
  {a | a ∈ s.config.signers ∧ s.hasApproved id a = true}

/-- The signers that have rejected a proposal or voted for its emergency cancellation. -/
def rejecters (s : State) (id : Nat) : Set Address :=
  {a | a ∈ s.config.signers ∧ s.hasRejected id a = true}

/-- The call executes the proposal, or its proposer cancels it, or enough of the signers are
against it: so many as an emergency takes, or so many that too few are left to approve. -/
def Stops (c : Call) (s s' : State) (id : Nat) : Prop :=
  c.function = .execute id ∨
    c.function = .cancel id ∧ c.msg.sender = (s.proposals id).proposer ∨
    s'.config.emergencyCancelThreshold ≤ (rejecters s' id).encard ∨
    s'.config.signers.length < (rejecters s' id).encard + s'.config.threshold

theorem Valid.rejecters_encard (h : Valid s) (id : Nat) :
    (rejecters s id).encard = (s.proposals id).rejectionCount :=
  (h.rejections id).among (h.rejectedBy id)

theorem Valid.approvers_encard (h : Valid s) (id : Nat) :
    (approvers s id).encard = (s.proposals id).approvalCount :=
  (h.approvals id).among (h.approvedBy id)

theorem status_stored {p : Proposal} {k : Nat} (h : k = id → p.status = .approved)
    (happroved : (s.proposals k).status = .approved) :
    (Function.update s.proposals id p k).status = .approved := by
  by_cases he : k = id
  · rw [he, Function.update_self]
    exact h he
  · rwa [Function.update_of_ne he]

/-- An accepted call leaves an approved proposal approved, or it stops it. -/
theorem Step.stops (h : Step msg s f s') (hv : Valid s) (hv' : Valid s')
    (happroved : (s.proposals id).status = .approved) :
    (s'.proposals id).status = .approved ∨ Stops ⟨msg, f⟩ s s' id := by
  have hagainst := hv'.rejecters_encard id
  cases h with
  | proposed =>
    refine .inl (status_stored ?_ happroved)
    rintro rfl
    rw [hv.unused _ (Nat.lt_succ_self _)] at happroved
    contradiction
  | approved _ hpending =>
    refine .inl (status_stored ?_ happroved)
    rintro rfl
    rw [happroved] at hpending
    contradiction
  | @rejected k es _ _ _ hfound =>
    by_cases he : id = k
    · subst he
      by_cases hfew : s.config.signers.length - ((s.proposals id).rejectionCount + 1) <
          s.config.threshold
      · refine .inr (.inr (.inr (.inr ?_)))
        rw [hagainst]
        simp only [stored, opposed, Function.update_self]
        norm_cast
        omega
      · refine .inl ?_
        simp only [stored, opposed, Function.update_self, if_neg hfew]
        exact happroved
    · exact .inl (status_stored (fun h => (he h).elim) happroved)
  | @executed k =>
    by_cases he : id = k
    · exact .inr (.inl (he ▸ rfl))
    · exact .inl (status_stored (fun h => (he h).elim) happroved)
  | @cancelled k _ _ _ hallowed =>
    by_cases he : id = k
    · subst he
      obtain hproposer | hpending := hallowed
      · exact .inr (.inr (.inl ⟨rfl, hproposer⟩))
      · rw [happroved] at hpending
        contradiction
    · exact .inl (status_stored (fun h => (he h).elim) happroved)
  | @emergencyCancelled k =>
    by_cases he : id = k
    · subst he
      by_cases hmany : (s.proposals id).rejectionCount + 1 ≥ s.config.emergencyCancelThreshold
      · refine .inr (.inr (.inr (.inl ?_)))
        rw [hagainst]
        simp only [stored, opposed, Function.update_self]
        exact_mod_cast hmany
      · refine .inl ?_
        simp only [stored, opposed, Function.update_self, if_neg hmany]
        exact happroved
    · exact .inl (status_stored (fun h => (he h).elim) happroved)
  | received => exact .inl happroved

theorem Step.config_eq (h : Step msg s f s') : s'.config = s.config := by
  cases h <;> rfl

/-! ## Runs -/

theorem deploy_ok {config : TreasuryConfig} (h : deploy config = .ok s) :
    s = ⟨config, 0, fun _ => .blank, fun _ _ => false, fun _ _ => false, false, 0, [], []⟩ := by
  simp only [deploy] at h
  split at h
  · contradiction
  · split at h
    · contradiction
    · split at h
      · contradiction
      · split at h
        · contradiction
        · split at h
          · contradiction
          · split at h
            · contradiction
            · cases hcheck : checkSigners config.signers with
              | error e =>
                rw [hcheck] at h
                contradiction
              | ok u =>
                rw [hcheck] at h
                exact (Except.ok.inj h).symm

theorem deploy_valid {config : TreasuryConfig} (h : deploy config = .ok s) : Valid s := by
  rw [deploy_ok h]
  refine ⟨fun _ => counts_nobody, fun _ => counts_nobody, ?_, ?_, fun _ => ⟨?_, rfl⟩,
    fun _ _ => rfl, List.nodup_nil, ?_⟩
  · rintro _ _ ⟨⟩
  · rintro _ _ ⟨⟩
  · rintro (he | he) <;> contradiction
  · rintro _ ⟨⟩

theorem resume_eq {ok : Bool} (h : contract.resume rest ok s = .ok (o, s')) :
    o = none ∧ ∃ es, s' = { s with entered := false, events := es } := by
  cases ok with
  | false => contradiction
  | true =>
    cases rest with
    | execute id target =>
      obtain ⟨rfl, rfl⟩ := Prod.mk.inj (Except.ok.inj h)
      exact ⟨rfl, _, rfl⟩

theorem resume_valid {ok : Bool} (hv : Valid s) (h : contract.resume rest ok s = .ok (o, s')) :
    Valid s' := by
  obtain ⟨_, es, rfl⟩ := resume_eq h
  exact ⟨hv.approvals, hv.rejections, hv.approvedBy, hv.rejectedBy, hv.sound, hv.unused, hv.once,
    hv.due⟩

theorem keeps_valid (config : TreasuryConfig) :
    Keeps contract (fun _ _ => True) (fun s _ => Valid s ∧ s.config = config) where
  enter := by
    rintro c s frames ⟨o, s'⟩ - ⟨hv, hconfig⟩ henter
    have hstep := step_of_ok henter
    have hkept : Valid s' ∧ s'.config = config :=
      ⟨hstep.valid hv, hstep.config_eq.trans hconfig⟩
    cases o with
    | none => exact hkept
    | some rest => exact hkept
  resume := by
    rintro f s frames ok ⟨o, s'⟩ ⟨hv, hconfig⟩ - hresume
    obtain ⟨rfl, es, rfl⟩ := resume_eq hresume
    exact ⟨resume_valid hv hresume, hconfig⟩

theorem valid_run {config : TreasuryConfig} (h : deploy config = .ok s)
    (acts : List (Act Call Bool)) :
    Valid (run (machine contract) ⟨s, []⟩ acts).state ∧
      (run (machine contract) ⟨s, []⟩ acts).state.config = config := by
  have hconfig : s.config = config := by rw [deploy_ok h]
  exact (holds_run_any (g := ⟨s, []⟩) (keeps_valid config) ⟨deploy_valid h, hconfig⟩ acts).here

/-- Each proposal is executed at most once, after its timelock and with its approvals. -/
structure Executed (config : TreasuryConfig) (s : State) : Prop where
  once : (s.executions.map (·.id)).Nodup
  due : ∀ e ∈ s.executions,
    (s.proposals e.id).createdAt + (s.proposals e.id).timelockDelay ≤ e.time
  approved : ∀ e ∈ s.executions,
    config.threshold ≤ {a | a ∈ config.signers ∧ s.hasApproved e.id a = true}.encard

/-- An accepted call, or the end of one, leaves each approved proposal approved or stops it. -/
def ApprovalKept (g : Config State Rest) : Act Call Bool → Prop
  | .call c => ∀ o s' id, contract.enter c g.state = .ok (o, s') →
    (g.state.proposals id).status = .approved →
      (s'.proposals id).status = .approved ∨ Stops c g.state s' id
  | .answer ok => ∀ f frames o s' id, g.frames = f :: frames →
    contract.resume f.rest ok g.state = .ok (o, s') → (g.state.proposals id).status = .approved →
      (s'.proposals id).status = .approved

/-- In every run a proposal is executed at most once, after its timelock, with the approvals of
as many signers as the threshold says, and nothing else than its execution, its proposer or
enough votes against it ends its approval. -/
theorem approved_until_stopped {config : TreasuryConfig} (h : deploy config = .ok s)
    (acts : List (Act Call Bool)) :
    Executed config (run (machine contract) ⟨s, []⟩ acts).state ∧
      Along (machine contract) ApprovalKept ⟨s, []⟩ acts := by
  obtain ⟨hv, hconfig⟩ := valid_run h acts
  refine ⟨⟨hv.once, fun e he => ?_, fun e he => ?_⟩, ?_⟩
  · rw [← (hv.sound e.id).delayed]
    exact (hv.due e he).2
  · have hcount := hv.approvers_encard e.id
    rw [approvers, hconfig] at hcount
    rw [hcount, ← hconfig]
    exact_mod_cast (hv.sound e.id).passed (.inr (hv.due e he).1)
  · refine along_iff_initial.mpr fun mid act _ => ?_
    have hmid := (valid_run h mid).1
    cases act with
    | call c =>
      intro o s' id henter happroved
      have hstep := step_of_ok henter
      exact hstep.stops hmid (hstep.valid hmid) happroved
    | answer ok =>
      intro f frames o s' id _ hresume happroved
      obtain ⟨_, es, rfl⟩ := resume_eq hresume
      exact happroved

/-- Two of three signers approve, and an emergency takes all three. -/
def twoOfThree : TreasuryConfig := ⟨[⟨1⟩, ⟨2⟩, ⟨3⟩], 2, 60, 60, 1000, 3⟩

def newTreasury : State :=
  ⟨twoOfThree, 0, fun _ => .blank, fun _ _ => false, fun _ _ => false, false, 0, [], []⟩

theorem deploy_twoOfThree : deploy twoOfThree = .ok newTreasury := rfl

/-- A proposal is approved by 1 and 2, and 1 then votes to cancel it. -/
def approvedByTwo : List (Act Call Bool) :=
  [.call ⟨⟨⟨1⟩, 0, 100⟩, .propose "" ⟨9⟩ 5 .zero []⟩, .call ⟨⟨⟨1⟩, 0, 110⟩, .approve 1⟩,
    .call ⟨⟨⟨2⟩, 0, 120⟩, .approve 1⟩, .call ⟨⟨⟨1⟩, 0, 130⟩, .emergencyCancel 1⟩]

theorem approved_until_stopped_twoOfThree :
    Executed twoOfThree (run (machine contract) ⟨newTreasury, []⟩ approvedByTwo).state ∧
      Along (machine contract) ApprovalKept ⟨newTreasury, []⟩ approvedByTwo :=
  approved_until_stopped deploy_twoOfThree approvedByTwo

/-- When 3 rejects it too, the approval ends with two of the signers against it. -/
theorem approval_ended_by_two :
    let g := run (machine contract) ⟨newTreasury, []⟩ approvedByTwo
    let g' := commit (machine contract) g (.call ⟨⟨⟨3⟩, 0, 140⟩, .reject 1⟩)
    (g.state.proposals 1).status = .approved ∧ (g'.state.proposals 1).status = .rejected ∧
      g'.state.executions = [] ∧
      ¬ (g'.state.config.emergencyCancelThreshold : ℕ∞) ≤ (rejecters g'.state 1).encard := by
  intro g g'
  refine ⟨rfl, rfl, rfl, ?_⟩
  have hv := (valid_run deploy_twoOfThree
    (approvedByTwo ++ [.call ⟨⟨⟨3⟩, 0, 140⟩, .reject 1⟩])).1
  rw [run_snoc] at hv
  rw [hv.rejecters_encard 1]
  have hcount : (g'.state.proposals 1).rejectionCount = 2 := rfl
  have hthreshold : g'.state.config.emergencyCancelThreshold = 3 := rfl
  rw [hcount, hthreshold]
  decide

end EvmTreasury
