import AgenticPay.EvmGenericBridge
import Mathlib.Data.List.Nodup

/-!
# The requests of the bridge base contract

The id of a request is the hash of its fields and of its block, and nothing looks whether it is in
use: two equal requests in one block are one record. A completed request is marked, a failed one is
not, and can be failed or completed again. Runs without either settle every request once.
-/
namespace EvmGenericBridge

open Evm Body ExternalCalls Transaction

variable {δ : Type} {keccak : RequestFields → δ} {s s' : State δ} {c : Call δ}
  {msg : Message} {o : Option (Rest δ)} {rest : Rest δ} {requestId : δ} {recipient : Address}
  {targetChainId amount : Nat} {txHash : BitVec 256} {reason : String} {β : Type} {r : β}

/-- The fee on an amount, at the rate of the state. -/
def feeOf (s : State δ) (amount : Nat) : Nat := amount * s.bridgeFeeBasisPoints / 10000

/-- A request that has been made and is not marked as completed. -/
def Open (r : BridgeRequest) : Prop := r.sender ≠ .zero ∧ r.completed = false

def Call.fields (c : Call δ) (recipient : Address) (targetChainId amount : Nat) : RequestFields :=
  { sender := c.msg.sender, recipient, amount, sourceChainId := c.chainId, targetChainId,
    timestamp := c.msg.timestamp, blockNumber := c.blockNumber }

/-- What `initiateBridge` checks. -/
structure Initiates (s : State δ) (c : Call δ) (recipient : Address)
    (targetChainId amount : Nat) : Prop where
  credited : s.balance + c.msg.value < wordBound
  outside : s.entered = false
  supported : s.supportedChains targetChainId = true
  positive : amount > 0
  receives : recipient ≠ .zero
  small : amount * s.bridgeFeeBasisPoints < wordBound
  sum : amount + feeOf s amount < wordBound
  covered : c.msg.value ≥ amount + feeOf s amount

/-- What `completeBridge` checks. -/
structure Completes (s : State δ) (c : Call δ) (requestId : δ) : Prop where
  unpaid : c.msg.value = 0
  owner : s.owner = c.msg.sender
  isOpen : Open (s.bridgeRequests requestId)

/-- What `failBridge` checks. -/
structure Fails (s : State δ) (c : Call δ) (requestId : δ) : Prop where
  unpaid : c.msg.value = 0
  owner : s.owner = c.msg.sender
  isOpen : Open (s.bridgeRequests requestId)
  small : (s.bridgeRequests requestId).amount * s.bridgeFeeBasisPoints < wordBound
  sum : (s.bridgeRequests requestId).amount + feeOf s (s.bridgeRequests requestId).amount <
    wordBound
  covered : (s.bridgeRequests requestId).amount +
    feeOf s (s.bridgeRequests requestId).amount ≤ s.balance
  takes : c.takes = true

/-! ## The parts of a function -/

theorem onlyOwner_ok {u : Unit} :
    onlyOwner msg s = .ok (u, s') ↔ s.owner = msg.sender ∧ s = s' := by
  simp only [onlyOwner, message_bind, read_bind, require_ok]

theorem enterGuard_ok {u : Unit} :
    enterGuard msg s = .ok (u, s') ↔ s.entered = false ∧ { s with entered := true } = s' := by
  simp only [enterGuard, read_bind, require_bind_ok, write_ok]

theorem onlySupportedChain_ok {u : Unit} :
    onlySupportedChain targetChainId msg s = .ok (u, s') ↔
      s.supportedChains targetChainId = true ∧ s = s' := by
  simp only [onlySupportedChain, read_bind, require_ok]

theorem calculateBridgeFee_bind_ok {k : Nat → Fn δ β} :
    (calculateBridgeFee amount >>= k) msg s = .ok (r, s') ↔
      amount * s.bridgeFeeBasisPoints < wordBound ∧ k (feeOf s amount) msg s = .ok (r, s') := by
  have hfee : ∀ {fee t}, calculateBridgeFee amount msg s = .ok (fee, t) ↔
      amount * s.bridgeFeeBasisPoints < wordBound ∧ feeOf s amount = fee ∧ s = t := by
    intro fee t
    simp only [calculateBridgeFee, read_bind, mulWord_bind_ok, pure_ok, feeOf]
  simp only [bind_ok, hfee]
  constructor
  · rintro ⟨_, _, ⟨hsmall, rfl, rfl⟩, hk⟩
    exact ⟨hsmall, hk⟩
  · rintro ⟨hsmall, hk⟩
    exact ⟨_, _, ⟨hsmall, rfl, rfl⟩, hk⟩

theorem getUnsettled_bind_ok {k : BridgeRequest → Fn δ β} :
    (getUnsettled requestId >>= k) msg s = .ok (r, s') ↔
      Open (s.bridgeRequests requestId) ∧ k (s.bridgeRequests requestId) msg s = .ok (r, s') := by
  have hread : ∀ {l t}, getUnsettled requestId msg s = .ok (l, t) ↔
      Open (s.bridgeRequests requestId) ∧ s.bridgeRequests requestId = l ∧ s = t := by
    intro l t
    simp only [getUnsettled, read_bind, require_bind_ok, pure_ok, Open, and_assoc]
  simp only [bind_ok, hread]
  constructor
  · rintro ⟨_, _, ⟨hopen, rfl, rfl⟩, hk⟩
    exact ⟨hopen, hk⟩
  · rintro ⟨hopen, hk⟩
    exact ⟨_, _, ⟨hopen, rfl, rfl⟩, hk⟩

theorem transfer_ok {takes : Bool} {u : Unit} :
    transfer takes amount msg s = .ok (u, s') ↔
      (amount ≤ s.balance ∧ takes = true) ∧ { s with balance := s.balance - amount } = s' := by
  simp only [transfer, read_bind, revertIf_bind_ok, not_not, write_ok]

/-- A call that touches neither the requests nor what is known of them. -/
structure Manages (s s' : State δ) : Prop where
  requests : s'.bridgeRequests = s.bridgeRequests
  initiated : s'.initiated = s.initiated
  settlements : s'.settlements = s.settlements

theorem setOwner_manages {newOwner : Address} (h : setOwner newOwner msg s = .ok (o, s')) :
    Manages s s' := by
  simp only [setOwner, read_bind, write_bind, emit, pure_ok] at h
  obtain ⟨_, rfl⟩ := h
  exact ⟨rfl, rfl, rfl⟩

/-- The end of a hook touches the balance only. -/
theorem hookReturns_bind_ok {a : Outcome} {k : Unit → Fn δ β}
    (h : (hookReturns a >>= k) msg s = .ok (r, s')) :
    ∃ balance, k () msg { s with balance := balance } = .ok (r, s') := by
  cases a with
  | ran spent takes =>
    obtain ⟨_, _, hreturns, hk⟩ := bind_ok.mp h
    simp only [hookReturns, read_bind, revertIf_bind_ok, write_ok] at hreturns
    obtain ⟨_, rfl⟩ := hreturns
    exact ⟨_, hk⟩
  | reverted =>
    obtain ⟨_, _, hreturns, _⟩ := bind_ok.mp h
    simp only [hookReturns, revert_ok] at hreturns

theorem finish_manages {a : Outcome} (h : finish rest a msg s = .ok (o, s')) : Manages s s' := by
  cases rest with
  | initiate requestId sender value targetChainId amount fee =>
    obtain ⟨balance, h⟩ := hookReturns_bind_ok h
    rw [emit, write_bind] at h
    obtain ⟨_, t, hpaid, h⟩ := bind_ok.mp h
    have ht : ∃ balance', { s with
        balance := balance'
        events := s.events ++ [.bridgeInitiated requestId sender targetChainId amount] } = t := by
      rw [refundExcess] at hpaid
      obtain ⟨_, hpaid⟩ | ⟨_, hpaid⟩ := ite_ok.mp hpaid
      · exact ⟨_, (transfer_ok.mp hpaid).2⟩
      · exact ⟨_, (pure_ok.mp hpaid).2⟩
    obtain ⟨_, rfl⟩ := ht
    rw [leaveGuard, write_bind] at h
    obtain ⟨_, rfl⟩ := pure_ok.mp h
    exact ⟨rfl, rfl, rfl⟩
  | complete requestId =>
    obtain ⟨balance, h⟩ := hookReturns_bind_ok h
    simp only [read_bind, emit, write_bind, pure_ok] at h
    obtain ⟨_, rfl⟩ := h
    exact ⟨rfl, rfl, rfl⟩

/-! ## The functions -/

def failedState (s : State δ) (requestId : δ) (reason : String) : State δ :=
  { s with
    balance := s.balance - ((s.bridgeRequests requestId).amount +
      feeOf s (s.bridgeRequests requestId).amount)
    settlements := s.settlements ++ [⟨requestId, true⟩]
    events := s.events ++ [.bridgeFailed requestId reason] }

theorem failBridge_ok :
    failBridge c.takes requestId reason c.msg s = .ok (o, s') ↔
      Fails s c requestId ∧ none = o ∧ failedState s requestId reason = s' := by
  simp only [failBridge, nonPayable_bind_ok, guard_bind_ok onlyOwner_ok, getUnsettled_bind_ok,
    calculateBridgeFee_bind_ok, addWord_bind_ok, guard_bind_ok transfer_ok, settle, emit,
    write_bind, pure_ok]
  constructor
  · rintro ⟨hunpaid, howner, hopen, hsmall, hsum, ⟨hcovered, htakes⟩, ho, hs⟩
    exact ⟨⟨hunpaid, howner, hopen, hsmall, hsum, hcovered, htakes⟩, ho, hs⟩
  · rintro ⟨h, ho, hs⟩
    exact ⟨h.unpaid, h.owner, h.isOpen, h.small, h.sum, ⟨h.covered, h.takes⟩, ho, hs⟩

variable [DecidableEq δ]

/-- The state with another record under an id. -/
def stored (s : State δ) (requestId : δ) (r : BridgeRequest) : State δ :=
  { s with bridgeRequests := Function.update s.bridgeRequests requestId r }

def initiatedState (keccak : RequestFields → δ) (s : State δ) (value : Nat) (k : RequestFields) :
    State δ :=
  { stored s (keccak k) k.request with
    balance := s.balance + value
    entered := true
    initiated := s.initiated ++ [k] }

def completedState (s : State δ) (requestId : δ) (txHash : BitVec 256) : State δ :=
  { stored s requestId { s.bridgeRequests requestId with txHash := txHash, completed := true } with
    settlements := s.settlements ++ [⟨requestId, false⟩] }

theorem initiateBridge_ok :
    initiateBridge keccak c.chainId c.blockNumber recipient targetChainId amount c.msg s =
        .ok (o, s') ↔
      Initiates s c recipient targetChainId amount ∧
        some (.initiate (keccak (c.fields recipient targetChainId amount)) c.msg.sender c.msg.value
          targetChainId amount (feeOf s amount)) = o ∧
        initiatedState keccak s c.msg.value (c.fields recipient targetChainId amount) = s' := by
  simp only [initiateBridge, message_bind, read_bind, creditWord_bind_ok, write_bind,
    guard_bind_ok enterGuard_ok, guard_bind_ok onlySupportedChain_ok, require_bind_ok,
    calculateBridgeFee_bind_ok, addWord_bind_ok, store, pure_ok]
  constructor
  · rintro ⟨hcredited, houtside, hsupported, hpositive, hreceives, hsmall, hsum, hcovered, ho, hs⟩
    exact ⟨⟨hcredited, houtside, hsupported, hpositive, hreceives, hsmall, hsum, hcovered⟩, ho, hs⟩
  · rintro ⟨h, ho, hs⟩
    exact ⟨h.credited, h.outside, h.supported, h.positive, h.receives, h.small, h.sum, h.covered,
      ho, hs⟩

theorem completeBridge_ok :
    completeBridge requestId txHash c.msg s = .ok (o, s') ↔
      Completes s c requestId ∧ some (.complete requestId) = o ∧
        completedState s requestId txHash = s' := by
  simp only [completeBridge, nonPayable_bind_ok, guard_bind_ok onlyOwner_ok, getUnsettled_bind_ok,
    store, settle, write_bind, pure_ok]
  constructor
  · rintro ⟨hunpaid, howner, hopen, ho, hs⟩
    exact ⟨⟨hunpaid, howner, hopen⟩, ho, hs⟩
  · rintro ⟨h, ho, hs⟩
    exact ⟨h.unpaid, h.owner, h.isOpen, ho, hs⟩

/-- What an accepted call has checked, and the state it leaves. -/
inductive Step (keccak : RequestFields → δ) (s : State δ) (c : Call δ) : State δ → Prop
  | managed {t : State δ} (manages : Manages s t) : Step keccak s c t
  | initiated {recipient : Address} {targetChainId amount : Nat}
      (function : c.function = .initiateBridge recipient targetChainId amount)
      (initiates : Initiates s c recipient targetChainId amount) :
      Step keccak s c
        (initiatedState keccak s c.msg.value (c.fields recipient targetChainId amount))
  | completed {requestId : δ} {txHash : BitVec 256}
      (function : c.function = .completeBridge requestId txHash)
      (completes : Completes s c requestId) : Step keccak s c (completedState s requestId txHash)
  | failed {requestId : δ} {reason : String}
      (function : c.function = .failBridge requestId reason)
      (fails : Fails s c requestId) : Step keccak s c (failedState s requestId reason)

/-- Every accepted call is one of the steps. -/
theorem step_of_ok (h : body keccak c c.msg s = .ok (o, s')) : Step keccak s c s' := by
  cases hf : c.function with
  | addSupportedChain chainId =>
    simp only [body, hf, addSupportedChain, nonPayable_bind_ok, guard_bind_ok onlyOwner_ok,
      write_bind, pure_ok] at h
    obtain ⟨_, _, _, rfl⟩ := h
    exact .managed ⟨rfl, rfl, rfl⟩
  | removeSupportedChain chainId =>
    simp only [body, hf, removeSupportedChain, nonPayable_bind_ok, guard_bind_ok onlyOwner_ok,
      write_bind, pure_ok] at h
    obtain ⟨_, _, _, rfl⟩ := h
    exact .managed ⟨rfl, rfl, rfl⟩
  | setBridgeFee newFee =>
    simp only [body, hf, setBridgeFee, nonPayable_bind_ok, guard_bind_ok onlyOwner_ok,
      require_bind_ok, write_bind, pure_ok] at h
    obtain ⟨_, _, _, _, rfl⟩ := h
    exact .managed ⟨rfl, rfl, rfl⟩
  | initiateBridge recipient targetChainId amount =>
    simp only [body, hf] at h
    obtain ⟨hinitiates, _, rfl⟩ := initiateBridge_ok.mp h
    exact .initiated hf hinitiates
  | completeBridge requestId txHash =>
    simp only [body, hf] at h
    obtain ⟨hcompletes, _, rfl⟩ := completeBridge_ok.mp h
    exact .completed hf hcompletes
  | failBridge requestId reason =>
    simp only [body, hf] at h
    obtain ⟨hfails, _, rfl⟩ := failBridge_ok.mp h
    exact .failed hf hfails
  | transferOwnership newOwner =>
    simp only [body, hf, transferOwnership, nonPayable_bind_ok, guard_bind_ok onlyOwner_ok,
      require_bind_ok] at h
    exact .managed (setOwner_manages h.2.2.2)
  | renounceOwnership =>
    simp only [body, hf, renounceOwnership, nonPayable_bind_ok, guard_bind_ok onlyOwner_ok] at h
    exact .managed (setOwner_manages h.2.2)
  | force =>
    simp only [body, hf, force, message_bind, read_bind, creditWord_bind_ok, write_bind,
      pure_ok] at h
    obtain ⟨_, _, rfl⟩ := h
    exact .managed ⟨rfl, rfl, rfl⟩

/-! ## Settlements -/

/-- The record of a request with these fields. -/
def Of (k : RequestFields) (r : BridgeRequest) : Prop :=
  { r with txHash := 0, completed := false } = k.request

/-- Every request has its own id and its own record, and is settled at most once. -/
structure Once (keccak : RequestFields → δ) (s : State δ) : Prop where
  settled : (s.settlements.map (·.requestId)).Nodup
  ids : (s.initiated.map keccak).Nodup
  kept : ∀ k ∈ s.initiated, Of k (s.bridgeRequests (keccak k))

/-- A call of `initiateBridge` is not one that has been made in the block before, and a call of
`completeBridge` or of `failBridge` is not for a request that has failed. -/
def Careful (s : State δ) (c : Call δ) : Prop :=
  match c.function with
  | .initiateBridge recipient targetChainId amount =>
    Initiates s c recipient targetChainId amount →
      c.fields recipient targetChainId amount ∉ s.initiated
  | .completeBridge requestId _ => Completes s c requestId → ⟨requestId, true⟩ ∉ s.settlements
  | .failBridge requestId _ => Fails s c requestId → ⟨requestId, true⟩ ∉ s.settlements
  | _ => True

/-- What holds in every state of a careful run. -/
structure Valid (keccak : RequestFields → δ) (s : State δ) : Prop extends Once keccak s where
  known : ∀ requestId, (s.bridgeRequests requestId).sender ≠ .zero →
    ∃ k ∈ s.initiated, keccak k = requestId
  made : ∀ x ∈ s.settlements, (s.bridgeRequests x.requestId).sender ≠ .zero
  marked : ∀ x ∈ s.settlements, x.failed = false →
    (s.bridgeRequests x.requestId).completed = true

omit [DecidableEq δ] in
/-- A list of distinct images, with one more image at its end. -/
theorem nodup_map_snoc {α : Type} {f : α → δ} {l : List α} {a : α} :
    ((l ++ [a]).map f).Nodup ↔ (l.map f).Nodup ∧ f a ∉ l.map f := by
  rw [List.map_append, List.map_singleton, ← List.concat_eq_append, List.nodup_concat, and_comm]

variable {k : RequestFields} {P : BridgeRequest → Prop}

/-- What holds of all records under some ids, and of a new record under one id. -/
theorem update_of {requests : δ → BridgeRequest} {request : BridgeRequest} {id : δ}
    (h : id ≠ requestId → P (requests id)) (hnew : id = requestId → P request) :
    P (Function.update requests requestId request id) := by
  by_cases he : id = requestId
  · subst he
    rw [Function.update_self]
    exact hnew rfl
  · rw [Function.update_of_ne he]
    exact h he

omit [DecidableEq δ] in
theorem Valid.manages (h : Valid keccak s) (hm : Manages s s') : Valid keccak s' := by
  obtain ⟨⟨hsettled, hids, hkept⟩, hknown, hmade, hmarked⟩ := h
  rw [← hm.settlements, ← hm.initiated, ← hm.requests] at *
  exact ⟨⟨hsettled, hids, hkept⟩, hknown, hmade, hmarked⟩

omit [DecidableEq δ] in
/-- An id that is not in use has no record and no settlement. -/
theorem Valid.unused (h : Valid keccak s) (hkeccak : keccak.Injective) (hk : k ∉ s.initiated) :
    ∀ x ∈ s.settlements, x.requestId ≠ keccak k := by
  rintro x hx he
  obtain ⟨k', hk', hid⟩ := h.known _ (h.made x hx)
  obtain rfl := hkeccak (hid.trans he)
  exact hk hk'

theorem Valid.initiated (h : Valid keccak s) (hkeccak : keccak.Injective) (hk : k ∉ s.initiated)
    (value : Nat) : Valid keccak (initiatedState keccak s value k) where
  settled := h.settled
  ids := by
    refine nodup_map_snoc.mpr ⟨h.ids, fun hmem => ?_⟩
    obtain ⟨k', hk', hid⟩ := List.mem_map.mp hmem
    obtain rfl := hkeccak hid
    exact hk hk'
  kept := by
    intro k' hk'
    apply update_of
    · intro hne
      obtain hold | hnew := List.mem_append.mp hk'
      · exact h.kept k' hold
      · rw [List.mem_singleton.mp hnew] at hne
        contradiction
    · intro he
      rw [hkeccak he]
      rfl
  known := by
    intro requestId hsender
    by_cases he : requestId = keccak k
    · exact ⟨k, List.mem_append_right _ List.mem_cons_self, he.symm⟩
    · simp only [initiatedState, stored, Function.update_of_ne he] at hsender
      obtain ⟨k', hk', hid⟩ := h.known requestId hsender
      exact ⟨k', List.mem_append_left _ hk', hid⟩
  made := by
    intro x hx
    simp only [initiatedState, stored,
      Function.update_of_ne (h.unused hkeccak hk x hx)]
    exact h.made x hx
  marked := by
    intro x hx
    simp only [initiatedState, stored,
      Function.update_of_ne (h.unused hkeccak hk x hx)]
    exact h.marked x hx

omit [DecidableEq δ] in
/-- A request that is open and has not failed has no settlement. -/
theorem Valid.unsettled (h : Valid keccak s) (hopen : Open (s.bridgeRequests requestId))
    (hfailed : ⟨requestId, true⟩ ∉ s.settlements) :
    requestId ∉ s.settlements.map (·.requestId) := by
  intro hmem
  obtain ⟨⟨id, failed⟩, hx, rfl⟩ := List.mem_map.mp hmem
  cases failed with
  | true => exact hfailed hx
  | false =>
    have hmarked := h.marked _ hx rfl
    rw [hopen.2] at hmarked
    contradiction

theorem Valid.completed (h : Valid keccak s) (hopen : Open (s.bridgeRequests requestId))
    (hfailed : ⟨requestId, true⟩ ∉ s.settlements) :
    Valid keccak (completedState s requestId txHash) where
  settled := nodup_map_snoc.mpr ⟨h.settled, h.unsettled hopen hfailed⟩
  ids := h.ids
  kept := by
    intro k hk
    refine update_of (fun _ => h.kept k hk) ?_
    rintro rfl
    exact h.kept k hk
  known := by
    intro id hsender
    by_cases he : id = requestId
    · exact h.known id (he ▸ hopen.1)
    · simp only [completedState, stored, Function.update_of_ne he] at hsender
      exact h.known id hsender
  made := by
    intro x hx
    refine update_of (P := fun r => r.sender ≠ .zero) (fun hne => ?_) fun _ => hopen.1
    obtain hold | hnew := List.mem_append.mp hx
    · exact h.made x hold
    · rw [List.mem_singleton.mp hnew] at hne
      contradiction
  marked := by
    intro x hx hcompleted
    refine update_of (P := fun r => r.completed = true) (fun hne => ?_) fun _ => rfl
    obtain hold | hnew := List.mem_append.mp hx
    · exact h.marked x hold hcompleted
    · rw [List.mem_singleton.mp hnew] at hne
      contradiction

omit [DecidableEq δ] in
theorem Valid.failed (h : Valid keccak s) (hopen : Open (s.bridgeRequests requestId))
    (hfailed : ⟨requestId, true⟩ ∉ s.settlements) :
    Valid keccak (failedState s requestId reason) where
  settled := nodup_map_snoc.mpr ⟨h.settled, h.unsettled hopen hfailed⟩
  ids := h.ids
  kept := h.kept
  known := h.known
  made := by
    intro x hx
    obtain hold | hnew := List.mem_append.mp hx
    · exact h.made x hold
    · rw [List.mem_singleton.mp hnew]
      exact hopen.1
  marked := by
    intro x hx hcompleted
    obtain hold | hnew := List.mem_append.mp hx
    · exact h.marked x hold hcompleted
    · rw [List.mem_singleton.mp hnew] at hcompleted
      contradiction

theorem Step.valid (hkeccak : keccak.Injective) (h : Step keccak s c s') (hc : Careful s c)
    (hv : Valid keccak s) : Valid keccak s' := by
  cases h with
  | managed hm => exact hv.manages hm
  | initiated hf hinitiates =>
    simp only [Careful, hf] at hc
    exact hv.initiated hkeccak (hc hinitiates) c.msg.value
  | completed hf hcompletes =>
    simp only [Careful, hf] at hc
    exact hv.completed hcompletes.isOpen (hc hcompletes)
  | failed hf hfails =>
    simp only [Careful, hf] at hc
    exact hv.failed hfails.isOpen (hc hfails)

theorem keeps_valid (hkeccak : keccak.Injective) :
    Keeps (contract keccak) Careful fun s _ => Valid keccak s where
  enter := by
    intro c s frames r hc hv h
    rw [After, state_proceed]
    exact (step_of_ok h).valid hkeccak hc hv
  resume := by
    intro f s frames a r hv _ h
    rw [After, state_proceed]
    exact hv.manages (finish_manages h)

omit [DecidableEq δ] in
theorem deploy_valid (deployer : Address) : Valid keccak (deploy deployer) where
  settled := List.nodup_nil
  ids := List.nodup_nil
  kept := by simp [deploy]
  known := fun _ h => absurd rfl h
  made := by simp [deploy]
  marked := by simp [deploy]

theorem enter_initiateBridge (keccak : RequestFields → δ)
    (hf : c.function = .initiateBridge recipient targetChainId amount)
    (h : Initiates s c recipient targetChainId amount) : (contract keccak).enter c s =
      .ok (some (.initiate (keccak (c.fields recipient targetChainId amount)) c.msg.sender
          c.msg.value targetChainId amount (feeOf s amount)),
        initiatedState keccak s c.msg.value (c.fields recipient targetChainId amount)) := by
  simp only [contract, body, hf]
  exact initiateBridge_ok.mpr ⟨h, rfl, rfl⟩

theorem enter_completeBridge (keccak : RequestFields → δ)
    (hf : c.function = .completeBridge requestId txHash) (h : Completes s c requestId) :
    (contract keccak).enter c s =
      .ok (some (.complete requestId), completedState s requestId txHash) := by
  simp only [contract, body, hf]
  exact completeBridge_ok.mpr ⟨h, rfl, rfl⟩

theorem enter_failBridge (keccak : RequestFields → δ)
    (hf : c.function = .failBridge requestId reason) (h : Fails s c requestId) :
    (contract keccak).enter c s = .ok (none, failedState s requestId reason) := by
  simp only [contract, body, hf]
  exact failBridge_ok.mpr ⟨h, rfl, rfl⟩

/-- A call after which the requests still have their own ids and one settlement each is careful. -/
theorem careful_of_once {g : Config (State δ) (Rest δ)}
    (h : Once keccak (commit (machine (contract keccak)) g (.call c)).state) :
    Careful g.state c := by
  cases hf : c.function with
  | initiateBridge recipient targetChainId amount =>
    simp only [Careful, hf]
    intro hinitiates hmem
    rw [commit_enter (enter_initiateBridge keccak hf hinitiates), state_proceed] at h
    exact (nodup_map_snoc.mp h.ids).2 (List.mem_map_of_mem hmem)
  | completeBridge requestId txHash =>
    simp only [Careful, hf]
    intro hcompletes hmem
    rw [commit_enter (enter_completeBridge keccak hf hcompletes), state_proceed] at h
    exact (nodup_map_snoc.mp h.settled).2 (List.mem_map.mpr ⟨_, hmem, rfl⟩)
  | failBridge requestId reason =>
    simp only [Careful, hf]
    intro hfails hmem
    rw [commit_enter (enter_failBridge keccak hf hfails), state_proceed] at h
    exact (nodup_map_snoc.mp h.settled).2 (List.mem_map.mpr ⟨_, hmem, rfl⟩)
  | _ => simp only [Careful, hf]

/-- The requests of a run have their own ids and are settled at most once exactly if all its calls
that pass the checks are careful. -/
theorem requests_once_iff (hkeccak : keccak.Injective) (deployer : Address)
    (acts : List (Act (Call δ) Outcome)) :
    (∀ pre, pre <+: acts →
        Once keccak (run (machine (contract keccak)) ⟨deploy deployer, []⟩ pre).state) ↔
      Along (machine (contract keccak)) (Calls Careful) ⟨deploy deployer, []⟩ acts := by
  constructor
  · intro honce
    refine along_iff_initial.mpr fun pre act hpre => ?_
    rintro c rfl
    have hafter := honce _ hpre
    rw [run_snoc] at hafter
    exact careful_of_once hafter
  · intro hcareful pre hpre
    have hholds := holds_run (g := ⟨deploy deployer, []⟩) (keeps_valid hkeccak)
      (hcareful.initial hpre) (deploy_valid deployer)
    exact hholds.here.toOnce

/-- A call of the owner 1. -/
def byOwner (f : Function RequestFields) : Act (Call RequestFields) Outcome :=
  .call ⟨⟨⟨1⟩, 0, 100⟩, 1, 7, true, f⟩

/-- A request of 1000 for 3 on the chain 137, in the block 7. -/
def request1000 (sender : Address) : List (Act (Call RequestFields) Outcome) :=
  [.call ⟨⟨sender, 1001, 100⟩, 1, 7, true, .initiateBridge ⟨3⟩ 137 1000⟩, .answer (.ran 0 true)]

def fields1000 (sender : Address) : RequestFields := ⟨sender, ⟨3⟩, 1000, 1, 137, 100, 7⟩

theorem requests_once_iff_request1000 :
    (∀ pre, pre <+: byOwner (.addSupportedChain 137) :: request1000 ⟨2⟩ →
        Once id (run (machine (contract id)) ⟨deploy ⟨1⟩, []⟩ pre).state) ↔
      Along (machine (contract id)) (Calls Careful) ⟨deploy ⟨1⟩, []⟩
        (byOwner (.addSupportedChain 137) :: request1000 ⟨2⟩) :=
  requests_once_iff Function.injective_id ⟨1⟩ _

/-- Two equal requests in one block. -/
def requestedTwice : List (Act (Call RequestFields) Outcome) :=
  byOwner (.addSupportedChain 137) :: (request1000 ⟨2⟩ ++ request1000 ⟨2⟩)

/-- A request of 2 that is failed twice. The second time it is paid with the ether of 4. -/
def failedTwice : List (Act (Call RequestFields) Outcome) :=
  byOwner (.addSupportedChain 137) :: (request1000 ⟨2⟩ ++ request1000 ⟨4⟩ ++
    [byOwner (.failBridge (fields1000 ⟨2⟩) "late"), byOwner (.failBridge (fields1000 ⟨2⟩) "late")])

theorem requests_overwritten_and_failed_twice :
    let overwritten := (run (machine (contract id)) ⟨deploy ⟨1⟩, []⟩ requestedTwice).state
    let refunded := (run (machine (contract id)) ⟨deploy ⟨1⟩, []⟩ failedTwice).state
    (overwritten.initiated = [fields1000 ⟨2⟩, fields1000 ⟨2⟩] ∧ ¬ Once id overwritten) ∧
      refunded.settlements = [⟨fields1000 ⟨2⟩, true⟩, ⟨fields1000 ⟨2⟩, true⟩] ∧
        refunded.balance = 0 ∧ ¬ Once id refunded := by
  intro overwritten refunded
  have hinitiated : overwritten.initiated = [fields1000 ⟨2⟩, fields1000 ⟨2⟩] := by decide
  have hsettlements : refunded.settlements =
      [⟨fields1000 ⟨2⟩, true⟩, ⟨fields1000 ⟨2⟩, true⟩] := by decide
  have hbalance : refunded.balance = 0 := by decide
  refine ⟨⟨hinitiated, fun honce => ?_⟩, hsettlements, hbalance, fun honce => ?_⟩
  · have hids := honce.ids
    rw [hinitiated] at hids
    exact absurd hids (by decide)
  · have hsettled := honce.settled
    rw [hsettlements] at hsettled
    exact absurd hsettled (by decide)

end EvmGenericBridge
