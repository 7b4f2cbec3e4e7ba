import AgenticPay.EvmRequestExpiry
import Mathlib.Data.List.Nodup

/-!
# The life of a payment request on the EVM

A pending request is paid, expires or is cancelled, and then stays as it is. What the
accepted calls check and do, and what this means for the payments of a run, with the
calls that a paid requester makes before the payment is over.
-/
namespace EvmRequestExpiry

open Evm Body Reentrancy Transaction

def PaymentRequest.deadline (req : PaymentRequest) : Nat := req.expiresAt + req.gracePeriod.toNat

/-- The request exists and is pending. -/
def Active (s : State) (id : Nat) : Prop :=
  (s.requests id).id ≠ 0 ∧ (s.requests id).status = .pending

/-- The record under the next id. -/
def fresh (s : State) (msg : Message) (requester payer token : Address) (amount ttlSeconds : Nat)
    (memo : String) : PaymentRequest :=
  { id := s.nextId + 1, requester, payer, token, amount, status := .pending,
    createdAt := msg.timestamp, expiresAt := msg.timestamp + ttlSeconds,
    gracePeriod := s.defaultGracePeriod, expiredAt := 0, paidAt := 0, memo }

/-- The state with a new record and the events that announce it. -/
def added (s : State) (req : PaymentRequest) (es : List Event) : State :=
  { s with
    nextId := s.nextId + 1
    requests := Function.update s.requests (s.nextId + 1) req
    events :=
      s.events ++ es ++
        [.requestCreated (s.nextId + 1) req.requester req.payer req.token req.amount req.expiresAt
          req.memo] }

/-- The state with another record under an id. -/
def stored (s : State) (id : Nat) (req : PaymentRequest) : State :=
  { s with requests := Function.update s.requests id req }

def paymentOf (msg : Message) (id : Nat) (req : PaymentRequest) : Payment :=
  ⟨id, req.token, msg.sender, req.requester, req.amount, msg.timestamp⟩

/-- The ids that have been given to requests. -/
def createdIds (events : List Event) : List Nat :=
  events.filterMap fun
    | .requestCreated id .. => some id
    | _ => none

/-- A call that touches neither the requests nor the payments. -/
structure Manages (s s' : State) : Prop where
  nextId : s'.nextId = s.nextId
  requests : s'.requests = s.requests
  payments : s'.payments = s.payments
  created : createdIds s'.events = createdIds s.events

/-- What an accepted call has checked, and the state it leaves. -/
inductive Step (msg : Message) (s : State) : Function → State → Prop
  | created {payer token amount ttlSeconds memo} :
      Step msg s (.createRequest payer token amount ttlSeconds memo)
        (added s (fresh s msg msg.sender payer token amount ttlSeconds memo) [])
  | paid {id} (active : Active s id) (inTime : msg.timestamp ≤ (s.requests id).deadline)
      (allowed : (s.requests id).payer = .zero ∨ (s.requests id).payer = msg.sender) :
      Step msg s (.pay id)
        { stored s id { s.requests id with status := .paid, paidAt := msg.timestamp } with
          entered := true
          payments := s.payments ++ [paymentOf msg id (s.requests id)] }
  | expired {id} (active : Active s id) (late : (s.requests id).deadline < msg.timestamp) :
      Step msg s (.expireRequest id)
        { stored s id { s.requests id with status := .expired, expiredAt := msg.timestamp } with
          events := s.events ++ [.requestExpired id (s.requests id).requester msg.timestamp] }
  | cancelled {id} (active : Active s id) (owned : msg.sender = (s.requests id).requester) :
      Step msg s (.cancelRequest id)
        { stored s id { s.requests id with status := .cancelled } with
          events := s.events ++ [.requestCancelled id (s.requests id).requester] }
  | renewed {oldId newAmount newTtlSeconds} (found : (s.requests oldId).id ≠ 0)
      (ended : (s.requests oldId).status = .expired ∨ (s.requests oldId).status = .cancelled)
      (owned : msg.sender = (s.requests oldId).requester) :
      Step msg s (.renewRequest oldId newAmount newTtlSeconds)
        (added s
          (fresh s msg (s.requests oldId).requester (s.requests oldId).payer
            (s.requests oldId).token newAmount newTtlSeconds (s.requests oldId).memo)
          [.requestRenewed oldId (s.nextId + 1) newAmount (msg.timestamp + newTtlSeconds)])
  | graceSet {gracePeriod s'} (manages : Manages s s') :
      Step msg s (.setDefaultGracePeriod gracePeriod) s'
  | ownershipTransferred {newOwner s'} (manages : Manages s s') :
      Step msg s (.transferOwnership newOwner) s'
  | ownershipRenounced {s'} (manages : Manages s s') : Step msg s .renounceOwnership s'

variable {s s' : State} {msg : Message} {self : Address} {o : Option Rest} {id : Nat}
  {f : Function} {rest : Rest} {β : Type} {r : β}

/-! ## The parts of a function -/

theorem onlyOwner_ok {u : Unit} :
    onlyOwner msg s = .ok (u, s') ↔ s.owner = msg.sender ∧ s = s' := by
  simp only [onlyOwner, message_bind, read_bind, revertIf_ok, not_not, ne_eq]

theorem enterGuard_ok {u : Unit} :
    enterGuard msg s = .ok (u, s') ↔ ¬ s.entered = true ∧ { s with entered := true } = s' := by
  simp only [enterGuard, read_bind, revertIf_bind_ok, write_ok]

theorem pending_of_not {status : RequestStatus} (hpaid : status ≠ .paid)
    (hexpired : status ≠ .expired) (hcancelled : status ≠ .cancelled) : status = .pending := by
  cases status with
  | pending => rfl
  | paid => exact (hpaid rfl).elim
  | expired => exact (hexpired rfl).elim
  | cancelled => exact (hcancelled rfl).elim

theorem getActive_ok {req : PaymentRequest} :
    getActive id msg s = .ok (req, s') ↔ Active s id ∧ s.requests id = req ∧ s = s' := by
  simp only [getActive, read_bind, revertIf_bind_ok, pure_ok, Active]
  constructor
  · rintro ⟨hfound, hpaid, hexpired, hcancelled, rfl, rfl⟩
    exact ⟨⟨hfound, pending_of_not hpaid hexpired hcancelled⟩, rfl, rfl⟩
  · rintro ⟨⟨hfound, hpending⟩, rfl, rfl⟩
    simp only [hpending, reduceCtorEq, not_false_eq_true, and_true]
    exact hfound

theorem getActive_bind_ok {k : PaymentRequest → Fn β} :
    (getActive id >>= k) msg s = .ok (r, s') ↔
      Active s id ∧ k (s.requests id) msg s = .ok (r, s') := by
  simp only [bind_ok, getActive_ok]
  constructor
  · rintro ⟨_, _, ⟨hactive, rfl, rfl⟩, hk⟩
    exact ⟨hactive, hk⟩
  · rintro ⟨hactive, hk⟩
    exact ⟨_, _, ⟨hactive, rfl, rfl⟩, hk⟩

theorem addRequest_added {requester payer token : Address} {amount ttlSeconds : Nat}
    {memo : String} {announce : Nat → Nat → Fn Unit} (es : Nat → Nat → List Event)
    (hannounce : ∀ {newId expiresAt u t t'}, announce newId expiresAt msg t = .ok (u, t') ↔
      True ∧ { t with events := t.events ++ es newId expiresAt } = t')
    (h : addRequest requester payer token amount ttlSeconds memo announce msg s = .ok (o, s')) :
    s' = added s (fresh s msg requester payer token amount ttlSeconds memo)
      (es (s.nextId + 1) (msg.timestamp + ttlSeconds)) := by
  simp only [addRequest, message_bind, read_bind, addWord_bind_ok, write_bind, store,
    guard_bind_ok hannounce, emit, pure_ok] at h
  obtain ⟨_, _, _, rfl, rfl⟩ := h
  rfl

/-! ## The functions -/

theorem createRequest_step {payer token : Address} {amount ttlSeconds : Nat} {memo : String}
    (h : createRequest payer token amount ttlSeconds memo msg s = .ok (o, s')) :
    Step msg s (.createRequest payer token amount ttlSeconds memo) s' := by
  simp only [createRequest, nonPayable_bind_ok, revertIf_bind_ok, message_bind] at h
  obtain ⟨_, _, _, h⟩ := h
  have hadded := addRequest_added (fun _ _ => []) (by simp) h
  exact hadded ▸ .created

theorem renewRequest_step {oldId newAmount newTtlSeconds : Nat}
    (h : renewRequest oldId newAmount newTtlSeconds msg s = .ok (o, s')) :
    Step msg s (.renewRequest oldId newAmount newTtlSeconds) s' := by
  simp only [renewRequest, nonPayable_bind_ok, read_bind, revertIf_bind_ok, require_bind_ok,
    message_bind] at h
  obtain ⟨_, hfound, hover, howned, _, _, h⟩ := h
  have hadded := addRequest_added
    (fun newId newExpiresAt => [.requestRenewed oldId newId newAmount newExpiresAt])
    (by simp [emit]) h
  exact hadded ▸ .renewed hfound hover howned

theorem checkTransfer_ok {req : PaymentRequest} {u : Unit}
    (h : checkTransfer self req msg s = .ok (u, s')) : s' = s := by
  simp only [checkTransfer, message_bind] at h
  split at h
  · simp only [require_bind_ok, require_ok] at h
    exact h.2.2.symm
  · exact (require_ok.mp h).2.symm

theorem pay_step (h : pay self id msg s = .ok (o, s')) : Step msg s (.pay id) s' := by
  simp only [pay, guard_bind_ok enterGuard_ok, getActive_bind_ok, message_bind, addWord_bind_ok,
    revertIf_bind_ok, store, write_bind] at h
  obtain ⟨_, hactive, _, htime, hpayer, h⟩ := h
  obtain ⟨_, t, hcheck, h⟩ := bind_ok.mp h
  have ht := checkTransfer_ok hcheck
  subst ht
  simp only [write_bind, pure_ok] at h
  obtain ⟨rfl, rfl⟩ := h
  refine .paid hactive (Nat.le_of_not_lt htime) ?_
  by_contra hother
  exact hpayer (not_or.mp hother)

theorem expireRequest_step (h : expireRequest id msg s = .ok (o, s')) :
    Step msg s (.expireRequest id) s' := by
  simp only [expireRequest, nonPayable_bind_ok, read_bind, revertIf_bind_ok, message_bind,
    addWord_bind_ok, store, write_bind, emit, pure_ok] at h
  obtain ⟨_, hfound, hpaid, hcancelled, hexpired, _, hlate, rfl, rfl⟩ := h
  exact .expired ⟨hfound, pending_of_not hpaid hexpired hcancelled⟩ (Nat.lt_of_not_le hlate)

theorem cancelRequest_step (h : cancelRequest id msg s = .ok (o, s')) :
    Step msg s (.cancelRequest id) s' := by
  simp only [cancelRequest, nonPayable_bind_ok, getActive_bind_ok, message_bind, require_bind_ok,
    store, write_bind, emit, pure_ok] at h
  obtain ⟨_, hactive, howned, rfl, rfl⟩ := h
  exact .cancelled hactive howned

theorem createdIds_append (events : List Event) (e : Event) (h : createdIds [e] = []) :
    createdIds (events ++ [e]) = createdIds events := by
  rw [createdIds, createdIds] at *
  rw [List.filterMap_append, h, List.append_nil]

theorem createdIds_added (s : State) (req : PaymentRequest) {es : List Event}
    (hes : createdIds es = []) :
    createdIds (added s req es).events = createdIds s.events ++ [s.nextId + 1] := by
  simp only [added, createdIds, List.filterMap_append] at hes ⊢
  rw [hes, List.append_nil]
  rfl

theorem setOwner_manages {newOwner : Address} (h : setOwner newOwner msg s = .ok (o, s')) :
    Manages s s' := by
  simp only [setOwner, read_bind, write_bind, emit, pure_ok] at h
  obtain ⟨rfl, rfl⟩ := h
  exact ⟨rfl, rfl, rfl, createdIds_append _ _ rfl⟩

/-- Every accepted call is one of the steps. -/
theorem step_of_ok (h : body self f msg s = .ok (o, s')) : Step msg s f s' := by
  cases f with
  | createRequest payer token amount ttlSeconds memo => exact createRequest_step h
  | pay id => exact pay_step h
  | expireRequest id => exact expireRequest_step h
  | cancelRequest id => exact cancelRequest_step h
  | renewRequest oldId newAmount newTtlSeconds => exact renewRequest_step h
  | setDefaultGracePeriod gracePeriod =>
    simp only [body, setDefaultGracePeriod, nonPayable_bind_ok, guard_bind_ok onlyOwner_ok,
      write_bind, emit, pure_ok] at h
    obtain ⟨_, _, rfl, rfl⟩ := h
    exact .graceSet ⟨rfl, rfl, rfl, createdIds_append _ _ rfl⟩
  | transferOwnership newOwner =>
    simp only [body, transferOwnership, nonPayable_bind_ok, guard_bind_ok onlyOwner_ok,
      revertIf_bind_ok] at h
    exact .ownershipTransferred (setOwner_manages h.2.2.2)
  | renounceOwnership =>
    simp only [body, renounceOwnership, nonPayable_bind_ok, guard_bind_ok onlyOwner_ok] at h
    exact .ownershipRenounced (setOwner_manages h.2.2)

/-- When a payment is over, its event is added and the guard is down. -/
theorem resume_eq (h : (contract self).resume rest s = .ok s') :
    ∃ req requester payer amount time, rest = .pay req requester payer amount time ∧
      s' = { s with
        entered := false
        events := s.events ++ [.requestPaid req requester payer amount time] } := by
  cases rest with
  | pay req requester payer amount time =>
    exact ⟨_, _, _, _, _, rfl, (Except.ok.inj h).symm⟩

theorem resume_manages (h : (contract self).resume rest s = .ok s') : Manages s s' := by
  obtain ⟨_, _, _, _, _, _, rfl⟩ := resume_eq h
  exact ⟨rfl, rfl, rfl, createdIds_append _ _ rfl⟩

/-! ## What holds in every state -/

/-- A payment that the request asked for. -/
structure Settles (req : PaymentRequest) (p : Payment) : Prop where
  requester : p.requester = req.requester
  token : p.token = req.token
  amount : p.amount = req.amount
  payer : req.payer ≠ .zero → p.payer = req.payer
  inTime : p.time ≤ req.deadline
  paid : req.status = .paid

/-- Each id is given once, each request is paid at most once and as it asks, and a request that
is marked as paid has been paid. -/
structure Accounted (s : State) : Prop where
  given : (createdIds s.events).Nodup
  once : (s.payments.map (·.id)).Nodup
  settles : ∀ p ∈ s.payments, Settles (s.requests p.id) p
  marked : ∀ id, (s.requests id).status = .paid → ∃ p ∈ s.payments, p.id = id

/-- The ids above the counter have been given to no request. -/
structure Valid (s : State) : Prop extends Accounted s where
  unused : ∀ id, s.nextId < id → s.requests id = .blank
  numbered : ∀ id ∈ createdIds s.events, id ≤ s.nextId

namespace Valid

theorem manages (h : Valid s) (hm : Manages s s') : Valid s' where
  given := hm.created ▸ h.given
  once := hm.payments ▸ h.once
  settles := by
    rw [hm.payments, hm.requests]
    exact h.settles
  marked := by
    rw [hm.payments, hm.requests]
    exact h.marked
  unused := by
    rw [hm.nextId, hm.requests]
    exact h.unused
  numbered := by
    rw [hm.nextId, hm.created]
    exact h.numbered

theorem id_le (h : Valid s) (hactive : Active s id) : id ≤ s.nextId := by
  by_contra hlt
  apply hactive.1
  rw [h.unused id (Nat.lt_of_not_le hlt)]
  rfl

theorem blank_next (h : Valid s) : s.requests (s.nextId + 1) = .blank :=
  h.unused _ (Nat.lt_succ_self _)

theorem next_not_created (h : Valid s) : s.nextId + 1 ∉ createdIds s.events := by
  intro hmem
  have hle := h.numbered _ hmem
  omega

/-- A pending request has not been paid. -/
theorem id_ne (h : Valid s) (hpending : (s.requests id).status = .pending) {p : Payment}
    (hp : p ∈ s.payments) : p.id ≠ id := by
  rintro rfl
  rw [(h.settles p hp).paid] at hpending
  contradiction

/-- What has been paid is as it was when the record of a pending request changes. -/
theorem settles_update (h : Valid s) (hpending : (s.requests id).status = .pending)
    (req : PaymentRequest) {p : Payment} (hp : p ∈ s.payments) :
    Settles (Function.update s.requests id req p.id) p := by
  rw [Function.update_of_ne (h.id_ne hpending hp)]
  exact h.settles p hp

theorem marked_update (h : Valid s) {req : PaymentRequest} (hreq : req.status ≠ .paid) {k : Nat}
    (hk : (Function.update s.requests id req k).status = .paid) : ∃ p ∈ s.payments, p.id = k := by
  by_cases he : k = id
  · subst he
    rw [Function.update_self] at hk
    contradiction
  · rw [Function.update_of_ne he] at hk
    exact h.marked k hk

theorem unused_update (h : Valid s) {n k : Nat} (hn : s.nextId ≤ n) (hid : id ≤ n) (hk : n < k)
    (req : PaymentRequest) : Function.update s.requests id req k = .blank := by
  rw [Function.update_of_ne (by omega)]
  exact h.unused k (by omega)

theorem closed (h : Valid s) (hactive : Active s id) {req : PaymentRequest}
    (hreq : req.status ≠ .paid) {e : Event} (he : createdIds [e] = []) :
    Valid { stored s id req with events := s.events ++ [e] } where
  given := (createdIds_append s.events e he).symm ▸ h.given
  once := h.once
  settles _ hp := h.settles_update hactive.2 req hp
  marked _ hk := h.marked_update hreq hk
  unused _ hk := h.unused_update (Nat.le_refl _) (h.id_le hactive) hk req
  numbered := (createdIds_append s.events e he).symm ▸ h.numbered

theorem added (h : Valid s) {req : PaymentRequest} (hreq : req.status ≠ .paid) {es : List Event}
    (hes : createdIds es = []) : Valid (added s req es) := by
  have hcreated := createdIds_added s req hes
  have hpending : (s.requests (s.nextId + 1)).status = .pending := by
    rw [h.blank_next]
    rfl
  refine ⟨⟨?_, h.once, fun _ hp => h.settles_update hpending req hp,
    fun _ hk => h.marked_update hreq hk⟩, fun _ hk => ?_, fun k hk => ?_⟩
  · rw [hcreated, ← List.concat_eq_append]
    exact h.given.concat h.next_not_created
  · exact h.unused_update (Nat.le_succ _) (Nat.le_refl _) hk req
  · rw [hcreated] at hk
    obtain hk | hk := List.mem_append.mp hk
    · exact Nat.le_succ_of_le (h.numbered k hk)
    · exact (List.mem_singleton.mp hk).le

theorem paid (h : Valid s) (hactive : Active s id)
    (htime : msg.timestamp ≤ (s.requests id).deadline)
    (hpayer : (s.requests id).payer = .zero ∨ (s.requests id).payer = msg.sender) :
    Valid
      { stored s id { s.requests id with status := .paid, paidAt := msg.timestamp } with
        entered := true
        payments := s.payments ++ [paymentOf msg id (s.requests id)] } := by
  refine ⟨⟨h.given, ?_, fun p hp => ?_, fun k hk => ?_⟩,
    fun _ hk => h.unused_update (Nat.le_refl _) (h.id_le hactive) hk _, h.numbered⟩
  · rw [List.map_append, List.map_singleton, ← List.concat_eq_append]
    apply h.once.concat
    intro hmem
    obtain ⟨p, hp, he⟩ := List.mem_map.mp hmem
    exact h.id_ne hactive.2 hp he
  · obtain hp | hp := List.mem_append.mp hp
    · exact h.settles_update hactive.2 _ hp
    · rw [List.mem_singleton.mp hp]
      simp only [stored, paymentOf, Function.update_self]
      exact ⟨rfl, rfl, rfl, fun hne => (hpayer.resolve_left hne).symm, htime, rfl⟩
  · by_cases he : k = id
    · exact ⟨_, List.mem_append_right _ List.mem_cons_self, he.symm⟩
    · simp only [stored, Function.update_of_ne he] at hk
      obtain ⟨p, hp, hid⟩ := h.marked k hk
      exact ⟨p, List.mem_append_left _ hp, hid⟩

end Valid

theorem Step.valid (h : Step msg s f s') (hv : Valid s) : Valid s' := by
  cases h with
  | created => exact hv.added RequestStatus.noConfusion rfl
  | paid hactive htime hpayer => exact hv.paid hactive htime hpayer
  | expired hactive => exact hv.closed hactive RequestStatus.noConfusion rfl
  | cancelled hactive => exact hv.closed hactive RequestStatus.noConfusion rfl
  | renewed => exact hv.added RequestStatus.noConfusion rfl
  | graceSet hm => exact hv.manages hm
  | ownershipTransferred hm => exact hv.manages hm
  | ownershipRenounced hm => exact hv.manages hm

/-! ## What an accepted call does -/

/-- What no call changes in a request. -/
def PaymentRequest.terms (req : PaymentRequest) : PaymentRequest :=
  { req with status := .pending, expiredAt := 0, paidAt := 0 }

/-- What a call does to the requests. -/
inductive Changed (s s' : State) : Prop
  | kept (h : s'.requests = s.requests)
  | changed {id req} (active : Active s id)
      (h : s'.requests = Function.update s.requests id req)
      (terms : req.terms = (s.requests id).terms)
  | created {req} (h : s'.requests = Function.update s.requests (s.nextId + 1) req)

theorem Step.changed (h : Step msg s f s') : Changed s s' := by
  cases h with
  | created => exact .created rfl
  | paid hactive => exact .changed hactive rfl rfl
  | expired hactive => exact .changed hactive rfl rfl
  | cancelled hactive => exact .changed hactive rfl rfl
  | renewed => exact .created rfl
  | graceSet hm => exact .kept hm.requests
  | ownershipTransferred hm => exact .kept hm.requests
  | ownershipRenounced hm => exact .kept hm.requests

theorem Changed.final (h : Changed s s') (hv : Valid s)
    (hclosed : (s.requests id).status ≠ .pending) : s'.requests id = s.requests id := by
  cases h with
  | kept h => rw [h]
  | changed hactive h =>
    rw [h, Function.update_of_ne]
    rintro rfl
    exact hclosed hactive.2
  | created h =>
    rw [h, Function.update_of_ne]
    rintro rfl
    rw [hv.blank_next] at hclosed
    exact hclosed rfl

theorem Changed.terms_eq (h : Changed s s') (hid : id ≤ s.nextId) :
    (s'.requests id).terms = (s.requests id).terms := by
  cases h with
  | kept h => rw [h]
  | @changed k req _ h hterms =>
    rw [h]
    by_cases he : id = k
    · rw [he, Function.update_self, hterms]
    · rw [Function.update_of_ne he]
  | created h => rw [h, Function.update_of_ne (Nat.ne_of_lt (Nat.lt_succ_of_le hid))]

/-- The payments that an accepted call makes. -/
def paymentsOf (c : Call) (s : State) : List Payment :=
  match c.function with
  | .pay id => [paymentOf c.msg id (s.requests id)]
  | _ => []

theorem Step.payments_eq (h : Step msg s f s') :
    s'.payments = s.payments ++ paymentsOf ⟨msg, f⟩ s := by
  cases h with
  | paid => rfl
  | graceSet hm => exact hm.payments.trans (List.append_nil _).symm
  | ownershipTransferred hm => exact hm.payments.trans (List.append_nil _).symm
  | ownershipRenounced hm => exact hm.payments.trans (List.append_nil _).symm
  | _ => exact (List.append_nil _).symm

/-- The request could be paid at this time, by somebody and with no other payment under way. -/
def Payable (self : Address) (s : State) (id time : Nat) : Prop :=
  ∃ msg o s', msg.timestamp = time ∧
    body self (.pay id) msg { s with entered := false } = .ok (o, s')

theorem not_payable (hlate : (s.requests id).deadline < msg.timestamp) :
    ¬ Payable self s id msg.timestamp := by
  rintro ⟨msg', o, s'', htime, hpay⟩
  cases step_of_ok hpay with
  | paid _ hin =>
    have hle : msg'.timestamp ≤ (s.requests id).deadline := hin
    omega

/-- The old record is as it was, and the new one has an id that no request has had. -/
structure Renewed (c : Call) (s s' : State) (oldId newAmount newTtlSeconds : Nat) : Prop where
  old : s'.requests oldId = s.requests oldId
  unused : s.nextId + 1 ∉ createdIds s.events
  blank : s.requests (s.nextId + 1) = .blank
  given : createdIds s'.events = createdIds s.events ++ [s.nextId + 1]
  new : s'.requests (s.nextId + 1) =
    fresh s c.msg (s.requests oldId).requester (s.requests oldId).payer (s.requests oldId).token
      newAmount newTtlSeconds (s.requests oldId).memo

/-- What an accepted call does. -/
structure Proceeds (self : Address) (c : Call) (s s' : State) : Prop where
  final : ∀ id, (s.requests id).status ≠ .pending → s'.requests id = s.requests id
  terms : ∀ id, id ≤ s.nextId → (s'.requests id).terms = (s.requests id).terms
  payments : s'.payments = s.payments ++ paymentsOf c s
  expires : ∀ id, c.function = .expireRequest id → ¬ Payable self s id c.msg.timestamp
  renews : ∀ oldId newAmount newTtlSeconds,
    c.function = .renewRequest oldId newAmount newTtlSeconds →
      Renewed c s s' oldId newAmount newTtlSeconds

theorem Step.renewed_of {oldId newAmount newTtlSeconds : Nat} (hv : Valid s)
    (h : Step msg s (.renewRequest oldId newAmount newTtlSeconds) s') :
    Renewed ⟨msg, .renewRequest oldId newAmount newTtlSeconds⟩ s s' oldId newAmount
      newTtlSeconds := by
  have hfinal : (s.requests oldId).status ≠ .pending → s'.requests oldId = s.requests oldId :=
    h.changed.final hv
  cases h with
  | renewed hfound hover =>
    refine ⟨hfinal ?_, hv.next_not_created, hv.blank_next, createdIds_added s _ rfl,
      Function.update_self ..⟩
    intro hpending
    rw [hpending] at hover
    exact hover.elim RequestStatus.noConfusion RequestStatus.noConfusion

theorem Step.proceeds (h : Step msg s f s') (hv : Valid s) : Proceeds self ⟨msg, f⟩ s s' where
  final _ hclosed := h.changed.final hv hclosed
  terms _ hid := h.changed.terms_eq hid
  payments := h.payments_eq
  expires := by
    rintro id rfl
    cases h with
    | expired _ hlate => exact not_payable hlate
  renews := by
    rintro oldId newAmount newTtlSeconds rfl
    exact h.renewed_of hv

/-! ## Runs -/

theorem deploy_valid {owner : Address} (h : deploy owner = .ok s) : Valid s := by
  rw [deploy] at h
  split at h
  · contradiction
  · cases h
    exact ⟨⟨List.nodup_nil, List.nodup_nil, by simp, by simp [PaymentRequest.blank]⟩,
      fun _ _ => rfl, by simp [createdIds]⟩

theorem keeps_valid (self : Address) :
    Keeps (contract self) (fun _ _ => True) (fun s _ => Valid s) where
  finish _ hv henter := (step_of_ok henter).valid hv
  wait _ hv henter := (step_of_ok henter).valid hv
  resume hv _ hresume := hv.manages (resume_manages hresume)

theorem valid_run {owner : Address} (h : deploy owner = .ok s) (self : Address)
    (acts : List (Act Call)) :
    Holds (fun s _ => Valid s) (run (machine (contract self)) ⟨s, []⟩ acts).state
      (run (machine (contract self)) ⟨s, []⟩ acts).frames :=
  holds_run_any (g := ⟨s, []⟩) (keeps_valid self) (deploy_valid h) acts

/-- A payment that fails leaves everything as it was when it was called for, whatever has been
done in the meantime. -/
def Restored (self : Address) (g : Config State Rest) (c : Call) : Prop :=
  ∀ rest s' mid, (contract self).enter c g.state = .ok (some rest, s') →
    (∀ pre, pre <+: mid → g.frames.length <
      (run (machine (contract self)) ⟨s', (g.state, rest) :: g.frames⟩ pre).frames.length) →
    (run (machine (contract self)) ⟨s', (g.state, rest) :: g.frames⟩ mid).frames.length =
      g.frames.length + 1 →
    run (machine (contract self)) g (.call c :: mid ++ [.answer false]) = g

/-- What an act does where it is taken. -/
def Orderly (self : Address) (g : Config State Rest) : Act Call → Prop
  | .call c =>
    (∀ o s', (contract self).enter c g.state = .ok (o, s') → Proceeds self c g.state s') ∧
      (∀ e, (contract self).enter c g.state = .error e →
        commit (machine (contract self)) g (.call c) = g) ∧ Restored self g c
  | .answer _ => ∀ snapshot rest frames s', g.frames = (snapshot, rest) :: frames →
    (contract self).resume rest g.state = .ok s' →
      s'.requests = g.state.requests ∧ s'.payments = g.state.payments

theorem orderly {g : Config State Rest} (hv : Valid g.state) (act : Act Call) :
    Orderly self g act := by
  cases act with
  | call c =>
    refine ⟨fun o s' henter => (step_of_ok henter).proceeds hv, fun e henter => ?_,
      fun rest s' mid => reverted_restores⟩
    simp only [commit, machine, henter]
  | answer ok =>
    intro _ rest _ s' _ hresume
    have hm := resume_manages hresume
    exact ⟨hm.requests, hm.payments⟩

/-- A request that is not pending, and the states that have it as it is. -/
theorem keeps_final (self : Address) {req : PaymentRequest} (hreq : req.status ≠ .pending) :
    Keeps (contract self) (fun _ _ => True) (fun s _ => Valid s ∧ s.requests id = req) where
  finish := by
    rintro c s s' frames - ⟨hv, rfl⟩ henter
    have hstep := step_of_ok henter
    exact ⟨hstep.valid hv, hstep.changed.final hv hreq⟩
  wait := by
    rintro c s s' rest frames - ⟨hv, rfl⟩ henter
    have hstep := step_of_ok henter
    exact ⟨hstep.valid hv, hstep.changed.final hv hreq⟩
  resume := by
    rintro s snapshot rest frames s' ⟨hv, rfl⟩ _ hresume
    have hm := resume_manages hresume
    exact ⟨hv.manages hm, congrFun hm.requests id⟩

/-- Once nothing waits any more, a request that is not pending stays as it is. -/
theorem final_run {g : Config State Rest} (hv : Valid g.state) (hframes : g.frames = [])
    (hclosed : (g.state.requests id).status ≠ .pending) (acts : List (Act Call)) :
    (run (machine (contract self)) g acts).state.requests id = g.state.requests id := by
  obtain ⟨s, frames⟩ := g
  subst hframes
  have hholds := holds_run_any (g := ⟨s, []⟩) (keeps_final self hclosed) ⟨hv, rfl⟩ acts
  exact hholds.here.2

/-- In every run each request is paid at most once and as it asks, each act is orderly, and what
is not pending when nothing waits never changes any more. -/
theorem requests_orderly {owner : Address} (h : deploy owner = .ok s) (self : Address)
    (acts : List (Act Call)) :
    Accounted (run (machine (contract self)) ⟨s, []⟩ acts).state ∧
      Along (machine (contract self)) (Orderly self) ⟨s, []⟩ acts ∧
      ∀ pre post, pre ++ post = acts → (run (machine (contract self)) ⟨s, []⟩ pre).frames = [] →
        ∀ id, ((run (machine (contract self)) ⟨s, []⟩ pre).state.requests id).status ≠ .pending →
          (run (machine (contract self)) ⟨s, []⟩ acts).state.requests id =
            (run (machine (contract self)) ⟨s, []⟩ pre).state.requests id := by
  refine ⟨(valid_run h self acts).here.toAccounted, ?_, ?_⟩
  · exact along_iff_initial.mpr fun mid act _ => orderly (valid_run h self mid).here act
  · rintro pre post rfl hframes id hclosed
    rw [run_append]
    exact final_run (valid_run h self pre).here hframes hclosed post

/-- Just deployed by the owner 1. -/
def newRequests : State :=
  { owner := ⟨1⟩, nextId := 0, requests := fun _ => .blank, defaultGracePeriod := 60,
    entered := false, payments := [], events := [.ownershipTransferred .zero ⟨1⟩] }

theorem deploy_newRequests : deploy ⟨1⟩ = .ok newRequests := rfl

/-- A request of 2 for 100 that 3 pays in the last second of the grace period. -/
def paidInGrace : List (Act Call) :=
  [.call ⟨⟨⟨2⟩, 0, 1000⟩, .createRequest .zero .zero 100 60 ""⟩,
    .call ⟨⟨⟨3⟩, 100, 1120⟩, .pay 1⟩, .answer true]

theorem requests_orderly_paidInGrace :
    let C := contract ⟨9⟩
    Accounted (run (machine C) ⟨newRequests, []⟩ paidInGrace).state ∧
      Along (machine C) (Orderly ⟨9⟩) ⟨newRequests, []⟩ paidInGrace ∧
      ∀ pre post, pre ++ post = paidInGrace → (run (machine C) ⟨newRequests, []⟩ pre).frames = [] →
        ∀ id, ((run (machine C) ⟨newRequests, []⟩ pre).state.requests id).status ≠ .pending →
          (run (machine C) ⟨newRequests, []⟩ paidInGrace).state.requests id =
            (run (machine C) ⟨newRequests, []⟩ pre).state.requests id :=
  requests_orderly deploy_newRequests ⟨9⟩ paidInGrace

example : (run (machine (contract ⟨9⟩)) ⟨newRequests, []⟩ paidInGrace).state.payments =
    [⟨1, .zero, ⟨3⟩, ⟨2⟩, 100, 1120⟩] := by decide

end EvmRequestExpiry
