import AgenticPay.EvmTimelock
import AgenticPay.Tally

/-!
# Runs of the EVM timelock controller

Every id has a record from the start, and the record of an id that has not been scheduled looks
pending: it takes approvals, and with enough of them it is executed without having been
scheduled. Where all approvals are for scheduled proposals, what is executed has been scheduled,
has waited and has been approved since.
-/
namespace EvmTimelock

open Evm Body ExternalCalls Transaction Tally

/-- The state with another record under an id. -/
def stored (s : State) (proposalId : Nat) (p : Proposal) : State :=
  { s with proposals := Function.update s.proposals proposalId p }

/-- The record after one more approval. -/
def Proposal.approvedBy (p : Proposal) (threshold : Nat) : Proposal :=
  { p with
    approvalCount := p.approvalCount + 1
    status := if p.approvalCount + 1 ≥ threshold then .approved else p.status }

/-- A call that touches none of the proposals. -/
structure Manages (s s' : State) : Prop where
  delay : minDelay ≤ s.delay → minDelay ≤ s'.delay
  hasApproved : s'.hasApproved = s.hasApproved
  proposalCount : s'.proposalCount = s.proposalCount
  proposals : s'.proposals = s.proposals
  given : s'.given = s.given
  metThreshold : s'.metThreshold = s.metThreshold
  executions : s'.executions = s.executions

/-- What an accepted call has checked, and the state it leaves. -/
inductive Step (msg : Message) (s : State) : Function → State → Prop
  | scheduled {target newImplementation data es} :
      Step msg s (.schedule target newImplementation data)
        { stored s s.proposalCount
            ⟨target, newImplementation, data, msg.timestamp + s.delay, msg.timestamp, 0, 0,
              .pending⟩ with
          proposalCount := s.proposalCount + 1
          given := Function.update s.given s.proposalCount []
          events := es }
  | approved {proposalId} (es : List Event) (met : Nat → Nat)
      (approver : s.approvers msg.sender = true)
      (pending : (s.proposals proposalId).status = .pending)
      (fresh : s.hasApproved ⟨proposalId, msg.sender⟩ ≠ true)
      (others : ∀ k, k ≠ proposalId → met k = s.metThreshold k)
      (meets : ((s.proposals proposalId).approvedBy s.approvalThreshold).status = .approved →
        met proposalId ≤ (s.proposals proposalId).approvalCount + 1) :
      Step msg s (.approve proposalId)
        { stored s proposalId ((s.proposals proposalId).approvedBy s.approvalThreshold) with
          hasApproved := Function.update s.hasApproved ⟨proposalId, msg.sender⟩ true
          given := Function.update s.given proposalId (s.given proposalId ++ [msg.sender])
          metThreshold := met
          events := es }
  | executed {proposalId} (approved : (s.proposals proposalId).status = .approved)
      (ready : (s.proposals proposalId).eta ≤ msg.timestamp) :
      Step msg s (.execute proposalId)
        { stored s proposalId
            { s.proposals proposalId with status := .executed, executedAt := msg.timestamp } with
          executions := s.executions ++ [⟨proposalId, s.metThreshold proposalId, msg.timestamp⟩] }
  | cancelled {proposalId es} (notExecuted : (s.proposals proposalId).status ≠ .executed) :
      Step msg s (.cancel proposalId)
        { stored s proposalId { s.proposals proposalId with status := .cancelled } with
          events := es }
  | managed {f s'} (manages : Manages s s') : Step msg s f s'

variable {s s' : State} {msg : Message} {o : Option Rest} {proposalId : Nat} {f : Function}
  {rest : Rest}

theorem onlyAdmin_ok {u : Unit} :
    onlyAdmin msg s = .ok (u, s') ↔ msg.sender = s.admin ∧ s = s' := by
  simp only [onlyAdmin, message_bind, read_bind, revertIf_ok, not_not, ne_eq]

theorem onlyProposer_ok {u : Unit} :
    onlyProposer msg s = .ok (u, s') ↔
      (s.proposers msg.sender = true ∨ msg.sender = s.admin) ∧ s = s' := by
  simp only [onlyProposer, message_bind, read_bind, revertIf_ok, id_eq, ne_eq, not_and_or, not_not]

theorem onlyApprover_ok {u : Unit} :
    onlyApprover msg s = .ok (u, s') ↔ s.approvers msg.sender = true ∧ s = s' := by
  simp only [onlyApprover, message_bind, read_bind, revertIf_ok, not_not]

theorem schedule_step {target newImplementation : Address} {data : List UInt8}
    (h : schedule target newImplementation data msg s = .ok (o, s')) :
    Step msg s (.schedule target newImplementation data) s' := by
  simp only [schedule, nonPayable_bind_ok, guard_bind_ok onlyProposer_ok, revertIf_bind_ok,
    read_bind, addWord_bind_ok, write_bind, message_bind, store, emit, pure_ok] at h
  obtain ⟨_, _, _, _, _, _, rfl⟩ := h
  exact .scheduled

theorem approve_step (h : approve proposalId msg s = .ok (o, s')) :
    Step msg s (.approve proposalId) s' := by
  simp only [approve, nonPayable_bind_ok, guard_bind_ok onlyApprover_ok, revertIf_bind_ok,
    read_bind, addWord_bind_ok, write_bind, message_bind, not_not, ne_eq] at h
  obtain ⟨_, happrover, hpending, hfresh, _, h⟩ := h
  by_cases hmeets : (s.proposals proposalId).approvalCount + 1 ≥ s.approvalThreshold
  · simp only [if_pos hmeets, store, write_bind, emit, pure_ok] at h
    obtain ⟨_, rfl⟩ := h
    have hstep := Step.approved (s.events ++ [.proposalApproved proposalId msg.sender])
      (Function.update s.metThreshold proposalId s.approvalThreshold) happrover hpending hfresh
      (fun k hk => Function.update_of_ne hk ..) fun _ => by rwa [Function.update_self]
    rw [Proposal.approvedBy, if_pos hmeets] at hstep
    exact hstep
  · simp only [if_neg hmeets, store, write_bind, emit, pure_ok] at h
    obtain ⟨_, rfl⟩ := h
    have hnot : ((s.proposals proposalId).approvedBy s.approvalThreshold).status ≠ .approved := by
      rw [Proposal.approvedBy, if_neg hmeets, hpending]
      exact ProposalStatus.noConfusion
    have hstep := Step.approved (s.events ++ [.proposalApproved proposalId msg.sender])
      s.metThreshold happrover hpending hfresh (fun _ _ => rfl) fun happroved =>
        (hnot happroved).elim
    rw [Proposal.approvedBy, if_neg hmeets] at hstep
    exact hstep

theorem execute_step (h : execute proposalId msg s = .ok (o, s')) :
    Step msg s (.execute proposalId) s' := by
  simp only [execute, nonPayable_bind_ok, read_bind, revertIf_bind_ok, message_bind, store,
    write_bind, pure_ok, not_not, ne_eq] at h
  obtain ⟨_, happroved, hready, _, _, rfl⟩ := h
  exact .executed happroved (Nat.le_of_not_lt hready)

theorem cancel_step (h : cancel proposalId msg s = .ok (o, s')) :
    Step msg s (.cancel proposalId) s' := by
  simp only [cancel, nonPayable_bind_ok, read_bind, revertIf_bind_ok, message_bind, store,
    write_bind, emit, pure_ok] at h
  obtain ⟨_, hexecuted, _, _, _, rfl⟩ := h
  exact .cancelled hexecuted

/-- Every accepted call is one of the steps. -/
theorem step_of_ok (h : body f msg s = .ok (o, s')) : Step msg s f s' := by
  cases f with
  | schedule target newImplementation data => exact schedule_step h
  | approve proposalId => exact approve_step h
  | execute proposalId => exact execute_step h
  | cancel proposalId => exact cancel_step h
  | setDelay newDelay =>
    simp only [body, setDelay, nonPayable_bind_ok, guard_bind_ok onlyAdmin_ok, revertIf_bind_ok,
      read_bind, write_bind, emit, pure_ok] at h
    obtain ⟨_, _, hlong, _, rfl⟩ := h
    exact .managed ⟨fun _ => Nat.le_of_not_lt hlong, rfl, rfl, rfl, rfl, rfl, rfl⟩
  | setThreshold newThreshold =>
    simp only [body, setThreshold, nonPayable_bind_ok, guard_bind_ok onlyAdmin_ok, read_bind,
      write_bind, emit, pure_ok] at h
    obtain ⟨_, _, _, rfl⟩ := h
    exact .managed ⟨fun hlong => hlong, rfl, rfl, rfl, rfl, rfl, rfl⟩
  | setProposer proposer active =>
    simp only [body, setProposer, nonPayable_bind_ok, guard_bind_ok onlyAdmin_ok, revertIf_bind_ok,
      write_bind, emit, pure_ok] at h
    obtain ⟨_, _, _, _, rfl⟩ := h
    exact .managed ⟨fun hlong => hlong, rfl, rfl, rfl, rfl, rfl, rfl⟩
  | setApprover approver active =>
    simp only [body, setApprover, nonPayable_bind_ok, guard_bind_ok onlyAdmin_ok, revertIf_bind_ok,
      write_bind, emit, pure_ok] at h
    obtain ⟨_, _, _, _, rfl⟩ := h
    exact .managed ⟨fun hlong => hlong, rfl, rfl, rfl, rfl, rfl, rfl⟩

/-! ## What holds in every state -/

/-- The approvals of a proposal since it was scheduled are all that are recorded for its id. -/
structure Recorded (s : State) (proposalId : Nat) : Prop where
  nodup : (s.given proposalId).Nodup
  recorded : ∀ a, s.hasApproved ⟨proposalId, a⟩ = true ↔ a ∈ s.given proposalId
  count : (s.given proposalId).length = (s.proposals proposalId).approvalCount

/-- The record of a proposal that has been scheduled. -/
structure Scheduled (s : State) (proposalId : Nat) : Prop where
  waits : (s.proposals proposalId).scheduledAt + minDelay ≤ (s.proposals proposalId).eta
  passed : (s.proposals proposalId).status = .approved ∨
    (s.proposals proposalId).status = .executed →
      s.metThreshold proposalId ≤ (s.proposals proposalId).approvalCount

/-- The record of an id that has not been scheduled, as long as nobody approves it. -/
structure Unused (s : State) (proposalId : Nat) : Prop where
  unrecorded : ∀ a, s.hasApproved ⟨proposalId, a⟩ ≠ true
  unpassed : (s.proposals proposalId).status ≠ .approved ∧
    (s.proposals proposalId).status ≠ .executed

/-- An execution of a proposal that was ready. -/
structure Executes (s : State) (e : Execution) : Prop where
  status : (s.proposals e.proposalId).status = .executed
  ready : (s.proposals e.proposalId).eta ≤ e.time
  threshold : e.threshold = s.metThreshold e.proposalId

structure Valid (s : State) : Prop where
  delay : minDelay ≤ s.delay
  recorded : ∀ k, k < s.proposalCount → Recorded s k
  scheduled : ∀ k, k < s.proposalCount → Scheduled s k
  unused : ∀ k, s.proposalCount ≤ k → Unused s k
  once : (s.executions.map (·.proposalId)).Nodup
  executes : ∀ e ∈ s.executions, Executes s e

/-- Nothing has changed of a proposal. -/
structure SameAt (s s' : State) (k : Nat) : Prop where
  hasApproved : ∀ a, s'.hasApproved ⟨k, a⟩ = s.hasApproved ⟨k, a⟩
  proposal : s'.proposals k = s.proposals k
  given : s'.given k = s.given k
  metThreshold : s'.metThreshold k = s.metThreshold k

section Same

variable {k : Nat}

theorem SameAt.recorded (h : SameAt s s' k) (hk : Recorded s k) : Recorded s' k where
  nodup := h.given ▸ hk.nodup
  recorded a := by
    rw [h.hasApproved, h.given]
    exact hk.recorded a
  count := by
    rw [h.given, h.proposal]
    exact hk.count

theorem SameAt.scheduled (h : SameAt s s' k) (hk : Scheduled s k) : Scheduled s' k where
  waits := by
    rw [h.proposal]
    exact hk.waits
  passed := by
    rw [h.proposal, h.metThreshold]
    exact hk.passed

theorem SameAt.unused (h : SameAt s s' k) (hk : Unused s k) : Unused s' k where
  unrecorded a := by
    rw [h.hasApproved]
    exact hk.unrecorded a
  unpassed := by
    rw [h.proposal]
    exact hk.unpassed

theorem SameAt.executes {e : Execution} (h : SameAt s s' e.proposalId) (he : Executes s e) :
    Executes s' e where
  status := by
    rw [h.proposal]
    exact he.status
  ready := by
    rw [h.proposal]
    exact he.ready
  threshold := by
    rw [h.metThreshold]
    exact he.threshold

end Same

namespace Valid

theorem scheduled_of_passed (h : Valid s) (hpassed : (s.proposals proposalId).status = .approved ∨
    (s.proposals proposalId).status = .executed) : proposalId < s.proposalCount := by
  by_contra hunused
  have hunpassed := (h.unused proposalId (Nat.le_of_not_lt hunused)).unpassed
  obtain he | he := hpassed
  · exact hunpassed.1 he
  · exact hunpassed.2 he

/-- Only one proposal has changed, and it had not been executed before. -/
theorem changed (h : Valid s) (id : Nat) (hsame : ∀ k, k ≠ id → SameAt s s' k)
    (hopen : (s.proposals id).status ≠ .executed) (hdelay : minDelay ≤ s'.delay)
    (hcount : s'.proposalCount = s.proposalCount)
    (hrecorded : id < s.proposalCount → Recorded s' id)
    (hscheduled : id < s.proposalCount → Scheduled s' id)
    (hunused : s.proposalCount ≤ id → Unused s' id)
    (honce : (s'.executions.map (·.proposalId)).Nodup)
    (hnew : ∀ e ∈ s'.executions, e ∈ s.executions ∨ Executes s' e) : Valid s' where
  delay := hdelay
  recorded k hk := by
    rw [hcount] at hk
    by_cases he : k = id
    · exact he ▸ hrecorded (he ▸ hk)
    · exact (hsame k he).recorded (h.recorded k hk)
  scheduled k hk := by
    rw [hcount] at hk
    by_cases he : k = id
    · exact he ▸ hscheduled (he ▸ hk)
    · exact (hsame k he).scheduled (h.scheduled k hk)
  unused k hk := by
    rw [hcount] at hk
    by_cases he : k = id
    · exact he ▸ hunused (he ▸ hk)
    · exact (hsame k he).unused (h.unused k hk)
  once := honce
  executes e he := by
    obtain hold | hnow := hnew e he
    · have hne : e.proposalId ≠ id := by
        rintro rfl
        exact hopen (h.executes e hold).status
      exact (hsame _ hne).executes (h.executes e hold)
    · exact hnow

theorem managed (h : Valid s) (hm : Manages s s') : Valid s' := by
  have hsame : ∀ k, SameAt s s' k := fun k =>
    ⟨fun a => congrFun hm.hasApproved _, congrFun hm.proposals k, congrFun hm.given k,
      congrFun hm.metThreshold k⟩
  refine ⟨hm.delay h.delay, fun k hk => ?_, fun k hk => ?_, fun k hk => ?_,
    hm.executions ▸ h.once, fun e he => ?_⟩
  · rw [hm.proposalCount] at hk
    exact (hsame k).recorded (h.recorded k hk)
  · rw [hm.proposalCount] at hk
    exact (hsame k).scheduled (h.scheduled k hk)
  · rw [hm.proposalCount] at hk
    exact (hsame k).unused (h.unused k hk)
  · rw [hm.executions] at he
    exact (hsame _).executes (h.executes e he)

theorem addScheduled (h : Valid s) (target newImplementation : Address) (data : List UInt8)
    (es : List Event) :
    Valid { stored s s.proposalCount
        ⟨target, newImplementation, data, msg.timestamp + s.delay, msg.timestamp, 0, 0,
          .pending⟩ with
      proposalCount := s.proposalCount + 1
      given := Function.update s.given s.proposalCount []
      events := es } := by
  have hnew := h.unused s.proposalCount (Nat.le_refl _)
  have hdelay := h.delay
  have hsame : ∀ k, k ≠ s.proposalCount → SameAt s { stored s s.proposalCount
        ⟨target, newImplementation, data, msg.timestamp + s.delay, msg.timestamp, 0, 0,
          .pending⟩ with
      proposalCount := s.proposalCount + 1
      given := Function.update s.given s.proposalCount []
      events := es } k := fun k hk =>
    ⟨fun _ => rfl, Function.update_of_ne hk .., Function.update_of_ne hk .., rfl⟩
  refine ⟨h.delay, fun k hk => ?_, fun k hk => ?_, fun k hk => ?_, h.once, fun e he => ?_⟩
  · have hle : k < s.proposalCount + 1 := hk
    by_cases he : k = s.proposalCount
    · subst he
      refine ⟨?_, fun a => ?_, ?_⟩
      · simp only [Function.update_self, List.nodup_nil]
      · simp only [Function.update_self, List.not_mem_nil, iff_false]
        exact hnew.unrecorded a
      · simp only [stored, Function.update_self, List.length_nil]
    · exact (hsame k he).recorded (h.recorded k (by omega))
  · have hle : k < s.proposalCount + 1 := hk
    by_cases he : k = s.proposalCount
    · subst he
      refine ⟨?_, ?_⟩
      · simp only [stored, Function.update_self]
        omega
      · simp only [stored, Function.update_self]
        rintro (he | he) <;> contradiction
    · exact (hsame k he).scheduled (h.scheduled k (by omega))
  · have hlt : s.proposalCount + 1 ≤ k := hk
    exact (hsame k (by omega)).unused (h.unused k (by omega))
  · have hne : e.proposalId ≠ s.proposalCount := by
      rintro he'
      exact hnew.unpassed.2 (he' ▸ (h.executes e he).status)
    exact (hsame _ hne).executes (h.executes e he)

theorem approved (h : Valid s) (hlt : proposalId < s.proposalCount)
    (hpending : (s.proposals proposalId).status = .pending)
    (hfresh : s.hasApproved ⟨proposalId, msg.sender⟩ ≠ true) (es : List Event) {met : Nat → Nat}
    (hothers : ∀ k, k ≠ proposalId → met k = s.metThreshold k)
    (hmeets : ((s.proposals proposalId).approvedBy s.approvalThreshold).status = .approved →
      met proposalId ≤ (s.proposals proposalId).approvalCount + 1) :
    Valid { stored s proposalId ((s.proposals proposalId).approvedBy s.approvalThreshold) with
      hasApproved := Function.update s.hasApproved ⟨proposalId, msg.sender⟩ true
      given := Function.update s.given proposalId (s.given proposalId ++ [msg.sender])
      metThreshold := met
      events := es } := by
  have hold := h.recorded proposalId hlt
  refine h.changed proposalId (fun k hk => ?_) ?_ h.delay rfl (fun _ => ?_) (fun _ => ?_)
    (fun hge => ?_) h.once fun e he => .inl he
  · refine ⟨fun a => ?_, Function.update_of_ne hk .., Function.update_of_ne hk .., hothers k hk⟩
    apply Function.update_of_ne
    intro he
    exact hk (ApprovalKey.mk.inj he).1
  · rw [hpending]
    exact ProposalStatus.noConfusion
  · refine ⟨?_, fun a => ?_, ?_⟩
    · simp only [Function.update_self]
      rw [← List.concat_eq_append]
      exact hold.nodup.concat ((hold.recorded _).not.mp hfresh)
    · simp only [Function.update_self, List.mem_append, List.mem_singleton]
      rw [← hold.recorded a]
      by_cases he : a = msg.sender
      · subst he
        simp
      · rw [Function.update_of_ne (by simpa using he)]
        simp [he]
    · simp only [stored, Function.update_self, List.length_append, List.length_singleton,
        hold.count, Proposal.approvedBy]
  · refine ⟨?_, fun hpassed => ?_⟩
    · simp only [stored, Function.update_self]
      exact (h.scheduled proposalId hlt).waits
    · simp only [stored, Function.update_self] at hpassed ⊢
      apply hmeets
      obtain he | he := hpassed
      · exact he
      · simp only [Proposal.approvedBy, hpending] at he
        split at he <;> contradiction
  · omega

theorem executed (h : Valid s) (happroved : (s.proposals proposalId).status = .approved)
    (hready : (s.proposals proposalId).eta ≤ msg.timestamp) :
    Valid { stored s proposalId
        { s.proposals proposalId with status := .executed, executedAt := msg.timestamp } with
      executions := s.executions ++ [⟨proposalId, s.metThreshold proposalId, msg.timestamp⟩] } := by
  have hlt := h.scheduled_of_passed (.inl happroved)
  have hopen : (s.proposals proposalId).status ≠ .executed := by
    rw [happroved]
    exact ProposalStatus.noConfusion
  have hold := h.recorded proposalId hlt
  refine h.changed proposalId (fun k hk => ⟨fun _ => rfl, Function.update_of_ne hk .., rfl, rfl⟩)
    hopen h.delay rfl (fun _ => ⟨hold.nodup, hold.recorded, ?_⟩) (fun _ => ⟨?_, fun _ => ?_⟩)
    (fun hge => ?_) ?_ fun e he => ?_
  · simp only [stored, Function.update_self]
    exact hold.count
  · simp only [stored, Function.update_self]
    exact (h.scheduled proposalId hlt).waits
  · simp only [stored, Function.update_self]
    exact (h.scheduled proposalId hlt).passed (.inl happroved)
  · omega
  · rw [List.map_append, List.map_singleton, ← List.concat_eq_append]
    apply h.once.concat
    intro hmem
    obtain ⟨e, he, rfl⟩ := List.mem_map.mp hmem
    exact hopen (h.executes e he).status
  · obtain he | he := List.mem_append.mp he
    · exact .inl he
    · rw [List.mem_singleton.mp he]
      refine .inr ⟨?_, ?_, rfl⟩
      · simp only [stored, Function.update_self]
      · simp only [stored, Function.update_self]
        exact hready

theorem cancelled (h : Valid s) (hopen : (s.proposals proposalId).status ≠ .executed)
    (es : List Event) :
    Valid { stored s proposalId { s.proposals proposalId with status := .cancelled } with
      events := es } := by
  refine h.changed proposalId (fun k hk => ⟨fun _ => rfl, Function.update_of_ne hk .., rfl, rfl⟩)
    hopen h.delay rfl (fun hlt => ?_) (fun hlt => ⟨?_, ?_⟩) (fun hge => ⟨?_, ?_⟩) h.once
    fun e he => .inl he
  · have hold := h.recorded proposalId hlt
    refine ⟨hold.nodup, hold.recorded, ?_⟩
    simp only [stored, Function.update_self]
    exact hold.count
  · simp only [stored, Function.update_self]
    exact (h.scheduled proposalId hlt).waits
  · simp only [stored, Function.update_self]
    rintro (he | he) <;> contradiction
  · exact (h.unused proposalId hge).unrecorded
  · simp only [stored, Function.update_self]
    exact ⟨ProposalStatus.noConfusion, ProposalStatus.noConfusion⟩

end Valid

/-- Who approves a proposal approves one that has been scheduled. -/
def ApprovesScheduled (s : State) (c : Call) : Prop :=
  ∀ proposalId, c.function = .approve proposalId → s.approvers c.msg.sender = true →
    proposalId < s.proposalCount

theorem Step.valid (h : Step msg s f s') (hc : ApprovesScheduled s ⟨msg, f⟩) (hv : Valid s) :
    Valid s' := by
  cases h with
  | scheduled => exact hv.addScheduled _ _ _ _
  | approved es met happrover hpending hfresh hothers hmeets =>
    exact hv.approved (hc _ rfl happrover) hpending hfresh es hothers hmeets
  | executed happroved hready => exact hv.executed happroved hready
  | cancelled hopen => exact hv.cancelled hopen _
  | managed hm => exact hv.managed hm

/-! ## Runs -/

theorem finishExecute_events (h : finishExecute proposalId msg s = .ok (o, s')) :
    ∃ es, s' = { s with events := es } := by
  simp only [finishExecute, read_bind, emit, write_bind, pure_ok] at h
  exact ⟨_, h.2.symm⟩

/-- After a call has been answered only the events change. -/
theorem finish_events {ok : Bool} (h : finish rest ok msg s = .ok (o, s')) :
    ∃ es, s' = { s with events := es } := by
  cases rest with
  | upgrade proposalId hasData =>
    simp only [finish, require_bind_ok] at h
    obtain ⟨_, h⟩ := h
    split at h
    · obtain ⟨_, rfl⟩ := pure_ok.mp h
      exact ⟨s.events, rfl⟩
    · exact finishExecute_events h
  | data proposalId =>
    simp only [finish, require_bind_ok] at h
    exact finishExecute_events h.2

theorem keeps_valid : Keeps contract ApprovesScheduled (fun s _ => Valid s) where
  enter := by
    intro c s frames r hc hv henter
    rw [After, state_proceed]
    exact (step_of_ok henter).valid hc hv
  resume := by
    rintro f s frames ok ⟨o, s'⟩ hv _ hresume
    obtain ⟨es, rfl⟩ := finish_events hresume
    rw [After, state_proceed]
    exact hv.managed ⟨fun hlong => hlong, rfl, rfl, rfl, rfl, rfl, rfl⟩

theorem deploy_valid {sender : Address} {delay approvalThreshold : Nat}
    {proposers approvers : List Address}
    (h : deploy sender delay approvalThreshold proposers approvers = .ok s) : Valid s := by
  rw [deploy] at h
  split at h
  · contradiction
  · rename_i hlong
    cases h
    refine ⟨Nat.le_of_not_lt hlong, fun k hk => (Nat.not_lt_zero k hk).elim,
      fun k hk => (Nat.not_lt_zero k hk).elim, fun k _ => ⟨?_, ?_⟩, List.nodup_nil, ?_⟩
    · rintro a ⟨⟩
    · exact ⟨ProposalStatus.noConfusion, ProposalStatus.noConfusion⟩
    · rintro e ⟨⟩

/-- Each proposal is executed at most once, after it has been scheduled and has waited, with as
many distinct approvals since as the threshold asked for; and the counter of each scheduled
proposal is the number of approvers recorded for its id. -/
structure Governed (s : State) : Prop where
  once : (s.executions.map (·.proposalId)).Nodup
  scheduled : ∀ e ∈ s.executions, e.proposalId < s.proposalCount ∧
    (s.proposals e.proposalId).scheduledAt + minDelay ≤ e.time
  approved : ∀ e ∈ s.executions, (s.given e.proposalId).Nodup ∧
    e.threshold ≤ (s.given e.proposalId).length
  counted : ∀ k, k < s.proposalCount →
    {a | s.hasApproved ⟨k, a⟩ = true}.encard = (s.proposals k).approvalCount

theorem Valid.governed (h : Valid s) : Governed s where
  once := h.once
  scheduled e he := by
    have hexecutes := h.executes e he
    have hlt := h.scheduled_of_passed (.inr hexecutes.status)
    exact ⟨hlt, (h.scheduled _ hlt).waits.trans hexecutes.ready⟩
  approved e he := by
    have hexecutes := h.executes e he
    have hlt := h.scheduled_of_passed (.inr hexecutes.status)
    have hrecorded := h.recorded _ hlt
    refine ⟨hrecorded.nodup, ?_⟩
    rw [hexecutes.threshold, hrecorded.count]
    exact (h.scheduled _ hlt).passed (.inr hexecutes.status)
  counted k hk := by
    have hrecorded := h.recorded k hk
    rw [← hrecorded.count]
    exact counts_of_list hrecorded.nodup hrecorded.recorded

/-- Where approvals are for scheduled proposals only, the controller governs every execution. -/
theorem governed_of_scheduled {sender : Address} {delay approvalThreshold : Nat}
    {proposers approvers : List Address}
    (h : deploy sender delay approvalThreshold proposers approvers = .ok s)
    {acts : List (Act Call Bool)}
    (hscheduled : Along (machine contract) (Calls ApprovesScheduled) ⟨s, []⟩ acts) :
    Governed (run (machine contract) ⟨s, []⟩ acts).state :=
  (holds_run (g := ⟨s, []⟩) keeps_valid hscheduled (deploy_valid h)).here.governed

/-- The admin 1, the proposer 2 and the approver 3, whose approval is enough. -/
def newController : State :=
  { delay := minDelay, approvalThreshold := 1, admin := ⟨1⟩, proposers := enroll [⟨2⟩],
    approvers := enroll [⟨3⟩], hasApproved := fun _ => false, proposalCount := 0,
    proposals := fun _ => .blank, given := fun _ => [], metThreshold := fun _ => 0,
    executions := [], events := [] }

theorem deploy_newController : deploy ⟨1⟩ minDelay 1 [⟨2⟩] [⟨3⟩] = .ok newController := rfl

/-- A proposal that is scheduled, approved and executed when it is ready. -/
def executedInOrder : List (Act Call Bool) :=
  [.call ⟨⟨⟨2⟩, 0, 100⟩, .schedule ⟨7⟩ ⟨8⟩ []⟩, .call ⟨⟨⟨3⟩, 0, 200⟩, .approve 0⟩,
    .call ⟨⟨⟨4⟩, 0, 172900⟩, .execute 0⟩, .answer true]

theorem approvesScheduled_executedInOrder :
    Along (machine contract) (Calls ApprovesScheduled) ⟨newController, []⟩ executedInOrder := by
  simp only [executedInOrder, along_cons, along_nil, and_true, Calls, ApprovesScheduled,
    Act.call.injEq, reduceCtorEq, forall_eq', Function.approve.injEq, false_implies, implies_true,
    true_and]
  intro _
  decide

theorem governed_of_scheduled_executedInOrder :
    Governed (run (machine contract) ⟨newController, []⟩ executedInOrder).state :=
  governed_of_scheduled deploy_newController approvesScheduled_executedInOrder

/-- The approver 3 approves the id 0 before anything is scheduled for it. -/
def approvedUnscheduled : Act Call Bool := .call ⟨⟨⟨3⟩, 0, 10⟩, .approve 0⟩

/-- The id can be executed as it is, and a proposal that gets it is short of the approval, which
the approver cannot give again. -/
theorem unscheduled_approval_counts :
    let executed := (run (machine contract) ⟨newController, []⟩
      [approvedUnscheduled, .call ⟨⟨⟨4⟩, 0, 20⟩, .execute 0⟩, .answer true]).state
    let scheduled := (run (machine contract) ⟨newController, []⟩
      [approvedUnscheduled, .call ⟨⟨⟨2⟩, 0, 20⟩, .schedule ⟨7⟩ ⟨8⟩ []⟩]).state
    (executed.executions = [⟨0, 1, 20⟩] ∧ executed.proposalCount = 0 ∧ ¬ Governed executed) ∧
      (scheduled.proposals 0).approvalCount = 0 ∧ scheduled.hasApproved ⟨0, ⟨3⟩⟩ = true ∧
        approve 0 ⟨⟨3⟩, 0, 30⟩ scheduled = .error (.error .alreadyApproved) := by
  intro executed scheduled
  have hexecuted : executed.executions = [⟨0, 1, 20⟩] := by decide
  have hnone : executed.proposalCount = 0 := by decide
  refine ⟨⟨hexecuted, hnone, fun hgoverned => ?_⟩, by decide, by decide, rfl⟩
  have hscheduled := hgoverned.scheduled ⟨0, 1, 20⟩ (by rw [hexecuted]; exact List.mem_cons_self)
  rw [hnone] at hscheduled
  exact Nat.not_lt_zero _ hscheduled.1

end EvmTimelock
