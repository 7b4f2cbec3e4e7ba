import AgenticPay.EvmBridge
import AgenticPay.Holdings
import Mathlib.Algebra.Ring.Nat

/-!
# Settlements of the EVM bridge

A lock is settled once, by a claim or by a refund. A refund waits for the timelock and for
the dispute deadline; a claim waits for nothing and is not bounded by anything: it takes the
preimage of the hash whatever the time. When the claims of a run are early is what makes its
swaps atomic.
-/
namespace EvmBridge

open Evm Body ExternalCalls Transaction Holdings

variable {keccak : Bytes32 → Bytes32} {address : Address}

/-- The fee on a lock, at the rate of the state. -/
def feeOf (s : State) (l : Lock) : Nat := l.amount * s.feeBps.toNat / 10000

/-- A lock that has been made and is not settled. -/
def Open (l : Lock) : Prop := l.sender ≠ .zero ∧ ¬ (l.claimed = true ∨ l.refunded = true)

/-- What `claim` checks. -/
structure Claimable (keccak : Bytes32 → Bytes32) (address : Address) (s : State) (msg : Message)
    (lockId secret : Bytes32) : Prop where
  unpaid : msg.value = 0
  running : ¬ s.paused = true
  outside : ¬ s.entered = true
  isOpen : Open (s.locks lockId)
  opens : keccak secret = (s.locks lockId).hashlock
  small : (s.locks lockId).amount * s.feeBps.toNat < wordBound
  fee_le : feeOf s (s.locks lockId) ≤ (s.locks lockId).amount
  covered : (s.locks lockId).amount - feeOf s (s.locks lockId) ≤ s.balance
  receives : (s.locks lockId).recipient ≠ address

/-- The state with another record under an id. -/
def stored (s : State) (lockId : Bytes32) (l : Lock) : State :=
  { s with locks := Function.update s.locks lockId l }

/-- The state in which `claim` pays the recipient. -/
def claimedState (s : State) (msg : Message) (lockId secret : Bytes32) : State :=
  { stored s lockId { s.locks lockId with claimed := true } with
    entered := true
    settlements := s.settlements ++ [⟨lockId, some secret, msg.timestamp⟩]
    balance := s.balance - ((s.locks lockId).amount - feeOf s (s.locks lockId)) }

/-- What `refund` checks. -/
structure Refundable (address : Address) (s : State) (msg : Message) (lockId : Bytes32) :
    Prop where
  unpaid : msg.value = 0
  running : ¬ s.paused = true
  outside : ¬ s.entered = true
  isOpen : Open (s.locks lockId)
  expired : (s.locks lockId).timelock ≤ msg.timestamp
  undisputed : (s.locks lockId).disputeDeadline ≤ msg.timestamp
  covered : (s.locks lockId).amount ≤ s.balance
  receives : (s.locks lockId).sender ≠ address

/-- The state in which `refund` pays the sender. -/
def refundedState (s : State) (msg : Message) (lockId : Bytes32) : State :=
  { stored s lockId { s.locks lockId with refunded := true } with
    entered := true
    settlements := s.settlements ++ [⟨lockId, none, msg.timestamp⟩]
    balance := s.balance - (s.locks lockId).amount }

/-- What `dispute` checks. -/
structure Disputable (s : State) (msg : Message) (lockId : Bytes32) : Prop where
  unpaid : msg.value = 0
  running : ¬ s.paused = true
  isOpen : Open (s.locks lockId)
  bounded : msg.timestamp + 86400 < wordBound

/-- The state after a dispute that moves the deadline. -/
def disputedState (s : State) (msg : Message) (lockId : Bytes32) (deadline : Nat) : State :=
  { stored s lockId { s.locks lockId with disputeDeadline := deadline } with
    events := s.events ++ [.disputed lockId msg.sender] }

/-- A call that touches neither the locks nor the money. -/
structure Manages (s s' : State) : Prop where
  locks : s'.locks = s.locks
  balance : s'.balance = s.balance
  settlements : s'.settlements = s.settlements

/-- What an accepted call has checked, what it has left to do, and the state it leaves. -/
inductive Step (keccak : Bytes32 → Bytes32) (address : Address) (msg : Message) (s : State) :
    Function → Option Rest → State → Prop
  | managed {f s'} (manages : Manages s s') : Step keccak address msg s f none s'
  | locked {lockId recipient hashlock timelock window es l} (amount : l.amount = msg.value)
      (unsettled : ¬ (l.claimed = true ∨ l.refunded = true))
      (unused : (s.locks lockId).sender = .zero) :
      Step keccak address msg s (.lock lockId recipient hashlock timelock window) none
        { stored s lockId l with
          balance := s.balance + msg.value
          entered := false
          events := es }
  | claimed {lockId secret} (claimable : Claimable keccak address s msg lockId secret) :
      Step keccak address msg s (.claim lockId secret)
        (some (.claim lockId secret (feeOf s (s.locks lockId)))) (claimedState s msg lockId secret)
  | refunded {lockId} (isOpen : Open (s.locks lockId))
      (expired : (s.locks lockId).timelock ≤ msg.timestamp)
      (undisputed : (s.locks lockId).disputeDeadline ≤ msg.timestamp)
      (covered : (s.locks lockId).amount ≤ s.balance) :
      Step keccak address msg s (.refund lockId) (some (.refund lockId))
        { stored s lockId { s.locks lockId with refunded := true } with
          entered := true
          settlements := s.settlements ++ [⟨lockId, none, msg.timestamp⟩]
          balance := s.balance - (s.locks lockId).amount }
  | disputed {lockId deadline es} (isOpen : Open (s.locks lockId)) :
      Step keccak address msg s (.dispute lockId) none
        { stored s lockId { s.locks lockId with disputeDeadline := deadline } with events := es }
  | forced : Step keccak address msg s .force none { s with balance := s.balance + msg.value }

variable {s s' : State} {msg : Message} {o : Option Rest} {f : Function} {rest : Rest}
  {lockId secret : Bytes32} {β : Type} {r : β}

/-! ## The parts of a function -/

theorem onlyOwner_ok {u : Unit} :
    onlyOwner msg s = .ok (u, s') ↔ s.owner = msg.sender ∧ s = s' := by
  simp only [onlyOwner, message_bind, read_bind, revertIf_ok, not_not, ne_eq]

theorem whenNotPaused_ok {u : Unit} :
    whenNotPaused msg s = .ok (u, s') ↔ ¬ s.paused = true ∧ s = s' := by
  simp only [whenNotPaused, read_bind, revertIf_ok]

theorem enterGuard_ok {u : Unit} :
    enterGuard msg s = .ok (u, s') ↔ ¬ s.entered = true ∧ { s with entered := true } = s' := by
  simp only [enterGuard, read_bind, revertIf_bind_ok, write_ok]

theorem getOpen_bind_ok {k : Lock → Fn β} :
    (getOpen lockId >>= k) msg s = .ok (r, s') ↔
      Open (s.locks lockId) ∧ k (s.locks lockId) msg s = .ok (r, s') := by
  have hread : ∀ {l t}, getOpen lockId msg s = .ok (l, t) ↔
      Open (s.locks lockId) ∧ s.locks lockId = l ∧ s = t := by
    intro l t
    simp only [getOpen, read_bind, revertIf_bind_ok, pure_ok, Open, ne_eq, and_assoc]
  simp only [bind_ok, hread]
  constructor
  · rintro ⟨_, _, ⟨hopen, rfl, rfl⟩, hk⟩
    exact ⟨hopen, hk⟩
  · rintro ⟨hopen, hk⟩
    exact ⟨_, _, ⟨hopen, rfl, rfl⟩, hk⟩

theorem pay_ok {receiver : Address} {amount : Nat} {text : String} {u : Unit} :
    pay address receiver amount text msg s = .ok (u, s') ↔
      (amount ≤ s.balance ∧ receiver ≠ address) ∧
        { s with balance := s.balance - amount } = s' := by
  simp only [pay, read_bind, require_bind_ok, write_ok]

/-! ## The functions -/

theorem claim_ok : claim keccak address lockId secret msg s = .ok (o, s') ↔
    Claimable keccak address s msg lockId secret ∧
      o = some (.claim lockId secret (feeOf s (s.locks lockId))) ∧
        s' = claimedState s msg lockId secret := by
  simp only [claim, nonPayable_bind_ok, guard_bind_ok whenNotPaused_ok,
    guard_bind_ok enterGuard_ok, getOpen_bind_ok, revertIf_bind_ok, store, write_bind, message_bind,
    read_bind, mulWord_bind_ok, subWord_bind_ok, guard_bind_ok pay_ok, pure_ok, not_not, ne_eq]
  constructor
  · rintro ⟨hvalue, hrunning, houtside, hopen, hhash, hsmall, hfee, ⟨hcovered, hreceives⟩, rfl, rfl⟩
    exact ⟨⟨hvalue, hrunning, houtside, hopen, hhash, hsmall, hfee, hcovered, hreceives⟩, rfl, rfl⟩
  · rintro ⟨h, rfl, rfl⟩
    exact ⟨h.unpaid, h.running, h.outside, h.isOpen, h.opens, h.small, h.fee_le,
      ⟨h.covered, h.receives⟩, rfl, rfl⟩

theorem lock_step {recipient : Address} {hashlock : Bytes32} {timelock window : Nat}
    (h : lock lockId recipient hashlock timelock window msg s = .ok (o, s')) :
    Step keccak address msg s (.lock lockId recipient hashlock timelock window) o s' := by
  simp only [lock, message_bind, read_bind, creditWord_bind_ok, write_bind,
    guard_bind_ok whenNotPaused_ok, guard_bind_ok enterGuard_ok, revertIf_bind_ok, addWord_bind_ok,
    store, emit, leaveGuard, pure_ok, not_not, ne_eq] at h
  obtain ⟨_, _, _, _, hunused, _, rfl, rfl⟩ := h
  exact .locked rfl (by simp) hunused

theorem refund_ok : refund address lockId msg s = .ok (o, s') ↔
    Refundable address s msg lockId ∧ o = some (.refund lockId) ∧
      s' = refundedState s msg lockId := by
  simp only [refund, nonPayable_bind_ok, guard_bind_ok whenNotPaused_ok,
    guard_bind_ok enterGuard_ok, getOpen_bind_ok, message_bind, revertIf_bind_ok, store, write_bind,
    guard_bind_ok pay_ok, pure_ok, Nat.not_lt]
  constructor
  · rintro ⟨hvalue, hrunning, houtside, hopen, htime, hdispute, ⟨hcovered, hreceives⟩, rfl, rfl⟩
    exact ⟨⟨hvalue, hrunning, houtside, hopen, htime, hdispute, hcovered, hreceives⟩, rfl, rfl⟩
  · rintro ⟨h, rfl, rfl⟩
    exact ⟨h.unpaid, h.running, h.outside, h.isOpen, h.expired, h.undisputed,
      ⟨h.covered, h.receives⟩, rfl, rfl⟩

theorem refund_step (h : refund address lockId msg s = .ok (o, s')) :
    Step keccak address msg s (.refund lockId) o s' := by
  obtain ⟨hrefundable, rfl, rfl⟩ := refund_ok.mp h
  exact .refunded hrefundable.isOpen hrefundable.expired hrefundable.undisputed
    hrefundable.covered

theorem dispute_ok : dispute lockId msg s = .ok (o, s') ↔
    Disputable s msg lockId ∧ o = none ∧
      ∃ deadline, deadline = msg.timestamp + 86400 ∧ s' = disputedState s msg lockId deadline := by
  simp only [dispute, nonPayable_bind_ok, guard_bind_ok whenNotPaused_ok, getOpen_bind_ok,
    message_bind, addWord_bind_ok, exists_eq_left]
  -- within a record that is compared, the literal would be counted down
  obtain ⟨deadline, hdeadline⟩ : ∃ deadline, deadline = msg.timestamp + 86400 := ⟨_, rfl⟩
  rw [← hdeadline]
  simp only [store, write_bind, emit, pure_ok]
  constructor
  · rintro ⟨hvalue, hrunning, hopen, hbounded, rfl, rfl⟩
    exact ⟨⟨hvalue, hrunning, hopen, hdeadline ▸ hbounded⟩, rfl, rfl⟩
  · rintro ⟨h, rfl, rfl⟩
    exact ⟨h.unpaid, h.running, h.isOpen, hdeadline ▸ h.bounded, rfl, rfl⟩

theorem dispute_step (h : dispute lockId msg s = .ok (o, s')) :
    Step keccak address msg s (.dispute lockId) o s' := by
  obtain ⟨hdisputable, rfl, _, _, rfl⟩ := dispute_ok.mp h
  exact .disputed hdisputable.isOpen

theorem setOwner_step {newOwner : Address} (h : setOwner newOwner msg s = .ok (o, s')) :
    Step keccak address msg s f o s' := by
  simp only [setOwner, read_bind, write_bind, emit, pure_ok] at h
  obtain ⟨rfl, rfl⟩ := h
  exact .managed ⟨rfl, rfl, rfl⟩

/-- Every accepted call is one of the steps. -/
theorem step_of_ok (h : body keccak address f msg s = .ok (o, s')) :
    Step keccak address msg s f o s' := by
  cases f with
  | setFeeConfig nextFeeBps nextCollector =>
    simp only [body, setFeeConfig, nonPayable_bind_ok, guard_bind_ok onlyOwner_ok,
      revertIf_bind_ok, write_bind, emit, pure_ok] at h
    obtain ⟨_, _, _, rfl, rfl⟩ := h
    exact .managed ⟨rfl, rfl, rfl⟩
  | lock lockId recipient hashlock timelock window => exact lock_step h
  | claim lockId secret =>
    obtain ⟨hclaimable, rfl, rfl⟩ := claim_ok.mp h
    exact .claimed hclaimable
  | refund lockId => exact refund_step h
  | dispute lockId => exact dispute_step h
  | pause =>
    simp only [body, pause, nonPayable_bind_ok, guard_bind_ok onlyOwner_ok,
      guard_bind_ok whenNotPaused_ok, write_bind, message_bind, emit, pure_ok] at h
    obtain ⟨_, _, _, rfl, rfl⟩ := h
    exact .managed ⟨rfl, rfl, rfl⟩
  | unpause =>
    simp only [body, unpause, nonPayable_bind_ok, guard_bind_ok onlyOwner_ok, read_bind,
      revertIf_bind_ok, write_bind, message_bind, emit, pure_ok] at h
    obtain ⟨_, _, _, rfl, rfl⟩ := h
    exact .managed ⟨rfl, rfl, rfl⟩
  | transferOwnership newOwner =>
    simp only [body, transferOwnership, nonPayable_bind_ok, guard_bind_ok onlyOwner_ok,
      revertIf_bind_ok] at h
    exact setOwner_step h.2.2.2
  | renounceOwnership =>
    simp only [body, renounceOwnership, nonPayable_bind_ok, guard_bind_ok onlyOwner_ok] at h
    exact setOwner_step h.2.2
  | force =>
    simp only [body, force, message_bind, read_bind, creditWord_bind_ok, write_bind, pure_ok] at h
    obtain ⟨_, rfl, rfl⟩ := h
    exact .forced

/-! ## Settlements -/

/-- A settlement of a lock, by the preimage of its hash or after its times. -/
structure Rightly (keccak : Bytes32 → Bytes32) (l : Lock) (x : Settlement) : Prop where
  made : l.sender ≠ .zero
  closed : l.claimed = true ∨ l.refunded = true
  claimed : ∀ secret, x.secret = some secret → keccak secret = l.hashlock
  refunded : x.secret = none → l.timelock ≤ x.time ∧ l.disputeDeadline ≤ x.time

/-- A claim before the timelock. -/
def Early (l : Lock) (x : Settlement) : Prop :=
  ∀ secret, x.secret = some secret → x.time < l.timelock

def Settled (R : Lock → Settlement → Prop) (s : State) : Prop :=
  ∀ x ∈ s.settlements, R (s.locks x.lockId) x

variable {R : Lock → Settlement → Prop}

theorem Open.ne (h : Open (s.locks lockId)) (hs : Settled (Rightly keccak) s) {x : Settlement}
    (hx : x ∈ s.settlements) : x.lockId ≠ lockId := by
  rintro rfl
  exact h.2 (hs x hx).closed

/-- Settled locks are not touched when the record of another one changes. -/
theorem Settled.update (h : Settled R s) {l : Lock}
    (hne : ∀ x ∈ s.settlements, x.lockId ≠ lockId) :
    ∀ x ∈ s.settlements, R (Function.update s.locks lockId l x.lockId) x := by
  intro x hx
  rw [Function.update_of_ne (hne x hx)]
  exact h x hx

/-- A call keeps what holds of the settlements if its own settlement has it. -/
theorem Step.settled (h : Step keccak address msg s f o s') (hright : Settled (Rightly keccak) s)
    (hs : Settled R s)
    (hnew : ∀ x, s'.settlements = s.settlements ++ [x] → R (s'.locks x.lockId) x) :
    Settled R s' := by
  cases h with
  | managed hm =>
    intro x hx
    rw [hm.settlements] at hx
    rw [hm.locks]
    exact hs x hx
  | locked _ _ hunused =>
    apply hs.update
    rintro x hx rfl
    exact (hright x hx).made hunused
  | claimed hclaimable =>
    intro x hx
    obtain hx | hx := List.mem_append.mp hx
    · exact hs.update (fun x hx => hclaimable.isOpen.ne hright hx) x hx
    · rw [List.mem_singleton.mp hx]
      exact hnew _ rfl
  | refunded hopen =>
    intro x hx
    obtain hx | hx := List.mem_append.mp hx
    · exact hs.update (fun x hx => hopen.ne hright hx) x hx
    · rw [List.mem_singleton.mp hx]
      exact hnew _ rfl
  | disputed hopen => exact hs.update fun x hx => hopen.ne hright hx
  | forced => exact hs

theorem ne_append_singleton {α : Type} {l : List α} {a : α} : l ≠ l ++ [a] := by
  intro h
  have hlen := congrArg List.length h
  simp at hlen

theorem Step.rightly (h : Step keccak address msg s f o s') (hs : Settled (Rightly keccak) s) :
    Settled (Rightly keccak) s' := by
  apply h.settled hs hs
  intro x hx
  cases h with
  | managed hm =>
    rw [hm.settlements] at hx
    exact (ne_append_singleton hx).elim
  | locked => exact (ne_append_singleton hx).elim
  | claimed hclaimable =>
    obtain rfl := List.singleton_inj.mp (List.append_cancel_left hx)
    simp only [claimedState, stored, Function.update_self]
    exact ⟨hclaimable.isOpen.1, .inl rfl, fun _ he => Option.some.inj he ▸ hclaimable.opens,
      fun he => (Option.some_ne_none _ he).elim⟩
  | refunded hopen hexpired hundisputed =>
    obtain rfl := List.singleton_inj.mp (List.append_cancel_left hx)
    simp only [stored, Function.update_self]
    exact ⟨hopen.1, .inr rfl, fun _ he => (Option.some_ne_none _ he.symm).elim,
      fun _ => ⟨hexpired, hundisputed⟩⟩
  | disputed => exact (ne_append_singleton hx).elim
  | forced => exact (ne_append_singleton hx).elim

theorem Step.once (h : Step keccak address msg s f o s') (hs : Settled (Rightly keccak) s)
    (honce : (s.settlements.map (·.lockId)).Nodup) : (s'.settlements.map (·.lockId)).Nodup := by
  have hconcat : ∀ x : Settlement, Open (s.locks x.lockId) →
      ((s.settlements ++ [x]).map (·.lockId)).Nodup := by
    intro y hopen
    rw [List.map_append, List.map_singleton, ← List.concat_eq_append]
    apply honce.concat
    intro hmem
    obtain ⟨x, hx, he⟩ := List.mem_map.mp hmem
    exact hopen.ne hs hx he
  cases h with
  | managed hm =>
    rw [hm.settlements]
    exact honce
  | locked => exact honce
  | claimed hclaimable => exact hconcat _ hclaimable.isOpen
  | refunded hopen => exact hconcat _ hopen
  | disputed => exact honce
  | forced => exact honce

/-! ## Money -/

/-- What the contract owes on a lock. -/
def Lock.owed (l : Lock) : Nat := if l.claimed = true ∨ l.refunded = true then 0 else l.amount

/-- The fee that a claim still has to pay. -/
def Rest.due : Rest → Nat
  | .claim _ _ amount => amount
  | .fee .. => 0
  | .refund _ => 0

def due (frames : List (Frame State Rest)) : Nat := (frames.map (·.rest.due)).sum

/-- The balance covers the locks that are not settled and the fees that are still to be paid. -/
def Funded (s : State) (dues : Nat) : Prop :=
  ∃ n, Sums (fun lockId => (s.locks lockId).owed) n ∧ n + dues ≤ s.balance

theorem owed_of_open {l : Lock} (h : Open l) : l.owed = l.amount := if_neg h.2

/-- What becomes of the sum when a lock has another record. -/
theorem sums_stored {n m : Nat} (h : Sums (fun lockId => (s.locks lockId).owed) n) {l : Lock}
    (hm : n + l.owed = m + (s.locks lockId).owed) :
    Sums (fun lockId' => ((stored s lockId l).locks lockId').owed) m := by
  apply h.change (a := lockId)
  · intro b hb
    simp only [stored, Function.update_of_ne hb]
  · simp only [stored, Function.update_self]
    exact hm

theorem Step.funded (h : Step keccak address msg s f o s') {dues : Nat} (hf : Funded s dues) :
    Funded s' ((o.map Rest.due).getD 0 + dues) := by
  obtain ⟨n, hsums, hle⟩ := hf
  cases h with
  | managed hm =>
    refine ⟨n, ?_, ?_⟩
    · rw [hm.locks]
      exact hsums
    · rw [hm.balance]
      exact (Nat.zero_add dues).symm ▸ hle
  | @locked lockId _ _ _ _ _ l hamount hunsettled =>
    have howed : l.owed = msg.value := by rw [Lock.owed, if_neg hunsettled, hamount]
    have hold := hsums.le lockId
    refine ⟨n + msg.value - (s.locks lockId).owed, sums_stored hsums (by omega), ?_⟩
    simp only [Option.map_none, Option.getD_none]
    omega
  | @claimed lockId secret hclaimable =>
    have howed := owed_of_open hclaimable.isOpen
    have hold := hsums.le lockId
    have hfee := hclaimable.fee_le
    have hnone : Lock.owed { s.locks lockId with claimed := true } = 0 := if_pos (.inl rfl)
    refine ⟨n - (s.locks lockId).amount, sums_stored hsums (by omega), ?_⟩
    simp only [Option.map_some, Option.getD_some, Rest.due, claimedState]
    omega
  | @refunded lockId hopen =>
    have howed := owed_of_open hopen
    have hold := hsums.le lockId
    have hnone : Lock.owed { s.locks lockId with refunded := true } = 0 := if_pos (.inr rfl)
    refine ⟨n - (s.locks lockId).amount, sums_stored hsums (by omega), ?_⟩
    simp only [Option.map_some, Option.getD_some, Rest.due]
    omega
  | @disputed lockId deadline es hopen =>
    refine ⟨n, sums_stored hsums ?_, (Nat.zero_add dues).symm ▸ hle⟩
    rfl
  | forced =>
    refine ⟨n, hsums, ?_⟩
    simp only [Option.map_none, Option.getD_none]
    omega

/-! ## After a payment -/

/-- What the answer to a payment changes: the fee may be paid then. -/
structure Resumed (rest : Rest) (s : State) (o : Option Rest) (s' : State) : Prop where
  locks : s'.locks = s.locks
  settlements : s'.settlements = s.settlements
  due : (o.map Rest.due).getD 0 = 0
  balance : s.balance ≤ s'.balance + rest.due

theorem finishClaim_resumed (h : finishClaim keccak lockId secret msg s = .ok (o, s')) :
    Resumed rest s o s' := by
  simp only [finishClaim, emit, leaveGuard, write_bind, pure_ok] at h
  obtain ⟨rfl, rfl⟩ := h
  exact ⟨rfl, rfl, rfl, Nat.le_add_right ..⟩

theorem resumed_of_ok {ok : Bool} (h : finish keccak address rest ok msg s = .ok (o, s')) :
    Resumed rest s o s' := by
  cases rest with
  | claim lockId secret fee =>
    simp only [finish, require_bind_ok, read_bind] at h
    obtain ⟨_, h⟩ := h
    split at h
    · simp only [guard_bind_ok pay_ok, pure_ok] at h
      obtain ⟨⟨hcovered, _⟩, rfl, rfl⟩ := h
      refine ⟨rfl, rfl, rfl, ?_⟩
      simp only [Rest.due]
      omega
    · exact finishClaim_resumed h
  | fee lockId secret =>
    simp only [finish, require_bind_ok] at h
    exact finishClaim_resumed h.2
  | refund lockId =>
    simp only [finish, require_bind_ok, emit, leaveGuard, write_bind, pure_ok] at h
    obtain ⟨_, rfl, rfl⟩ := h
    exact ⟨rfl, rfl, rfl, Nat.le_add_right ..⟩

theorem Resumed.settled (h : Resumed rest s o s') (hs : Settled R s) : Settled R s' := by
  intro x hx
  rw [h.settlements] at hx
  rw [h.locks]
  exact hs x hx

theorem Resumed.funded (h : Resumed rest s o s') {dues : Nat} (hf : Funded s (rest.due + dues)) :
    Funded s' ((o.map Rest.due).getD 0 + dues) := by
  obtain ⟨n, hsums, hle⟩ := hf
  have hbalance := h.balance
  refine ⟨n, ?_, ?_⟩
  · rw [h.locks]
    exact hsums
  · rw [h.due]
    omega

/-! ## Runs -/

structure Valid (keccak : Bytes32 → Bytes32) (s : State) (frames : List (Frame State Rest)) :
    Prop where
  rightly : Settled (Rightly keccak) s
  once : (s.settlements.map (·.lockId)).Nodup
  funded : Funded s (due frames)

theorem due_proceed (made : State) (frames : List (Frame State Rest)) (r : Option Rest × State) :
    due (proceed made frames r).frames = (r.1.map Rest.due).getD 0 + due frames := by
  obtain ⟨o, s⟩ := r
  cases o with
  | none => exact (Nat.zero_add _).symm
  | some rest => rfl

theorem Valid.entered {frames : List (Frame State Rest)} {c : Call} {r : Option Rest × State}
    (hv : Valid keccak s frames) (h : (contract keccak address).enter c s = .ok r) :
    After (Valid keccak) (proceed s frames r) := by
  have hstep := step_of_ok h
  rw [After, state_proceed]
  refine ⟨hstep.rightly hv.rightly, hstep.once hv.rightly hv.once, ?_⟩
  rw [due_proceed]
  exact hstep.funded hv.funded

theorem Valid.resumed {frames : List (Frame State Rest)} {frame : Frame State Rest} {ok : Bool}
    {r : Option Rest × State} (hv : Valid keccak s (frame :: frames))
    (h : (contract keccak address).resume frame.rest ok s = .ok r) :
    After (Valid keccak) (proceed frame.made frames r) := by
  have hresumed := resumed_of_ok h
  rw [After, state_proceed]
  refine ⟨hresumed.settled hv.rightly, ?_, ?_⟩
  · rw [hresumed.settlements]
    exact hv.once
  · rw [due_proceed]
    exact hresumed.funded hv.funded

/-- A claim that passes the checks is made before the timelock of its lock. -/
def ClaimedEarly (keccak : Bytes32 → Bytes32) (address : Address) (s : State) (c : Call) : Prop :=
  ∀ lockId secret, c.function = .claim lockId secret →
    Claimable keccak address s c.msg lockId secret →
      c.msg.timestamp < (s.locks lockId).timelock

theorem Step.early (h : Step keccak address msg s f o s') (hs : Settled (Rightly keccak) s)
    (hearly : Settled Early s) (hc : ClaimedEarly keccak address s ⟨msg, f⟩) :
    Settled Early s' := by
  apply h.settled hs hearly
  intro x hx
  cases h with
  | managed hm =>
    rw [hm.settlements] at hx
    exact (ne_append_singleton hx).elim
  | locked => exact (ne_append_singleton hx).elim
  | claimed hclaimable =>
    obtain rfl := List.singleton_inj.mp (List.append_cancel_left hx)
    simp only [claimedState, stored, Function.update_self]
    exact fun _ _ => hc _ _ rfl hclaimable
  | refunded =>
    obtain rfl := List.singleton_inj.mp (List.append_cancel_left hx)
    exact fun _ he => (Option.some_ne_none _ he.symm).elim
  | disputed => exact (ne_append_singleton hx).elim
  | forced => exact (ne_append_singleton hx).elim

theorem keeps_early (keccak : Bytes32 → Bytes32) (address : Address) :
    Keeps (contract keccak address) (ClaimedEarly keccak address)
      (fun s frames => Valid keccak s frames ∧ Settled Early s) where
  enter := by
    rintro c s frames r hc ⟨hv, hearly⟩ henter
    refine ⟨hv.entered henter, ?_⟩
    rw [state_proceed]
    exact (step_of_ok henter).early hv.rightly hearly hc
  resume := by
    rintro frame s frames ok r ⟨hv, hearly⟩ - hresume
    refine ⟨hv.resumed hresume, ?_⟩
    rw [state_proceed]
    exact (resumed_of_ok hresume).settled hearly

theorem deploy_valid {owner feeCollector : Address} (h : deploy owner feeCollector = .ok s) :
    Valid keccak s [] ∧ Settled Early s := by
  rw [deploy] at h
  split at h
  · contradiction
  · cases h
    exact ⟨⟨fun _ hx => (List.not_mem_nil hx).elim, List.nodup_nil, 0, sums_zero, Nat.le_refl _⟩,
      fun _ hx => (List.not_mem_nil hx).elim⟩

/-- Each lock is settled at most once, by a claim with the preimage before its timelock or by a
refund at or after it and the dispute deadline, and the balance covers what is not settled. -/
structure Atomic (keccak : Bytes32 → Bytes32) (s : State) : Prop where
  once : (s.settlements.map (·.lockId)).Nodup
  claims : ∀ x ∈ s.settlements, ∀ secret, x.secret = some secret →
    keccak secret = (s.locks x.lockId).hashlock ∧ x.time < (s.locks x.lockId).timelock
  refunds : ∀ x ∈ s.settlements, x.secret = none →
    (s.locks x.lockId).timelock ≤ x.time ∧ (s.locks x.lockId).disputeDeadline ≤ x.time
  solvent : ∃ n, Sums (fun lockId => (s.locks lockId).owed) n ∧ n ≤ s.balance

theorem Valid.atomic {frames : List (Frame State Rest)} (hv : Valid keccak s frames)
    (hearly : Settled Early s) : Atomic keccak s where
  once := hv.once
  claims x hx secret he := ⟨(hv.rightly x hx).claimed secret he, hearly x hx secret he⟩
  refunds x hx he := (hv.rightly x hx).refunded he
  solvent := by
    obtain ⟨n, hsums, hle⟩ := hv.funded
    exact ⟨n, hsums, (Nat.le_add_right ..).trans hle⟩

/-- The swaps of a run are atomic exactly if every claim that passes the checks of `claim` is made
before the timelock of its lock. -/
theorem swaps_atomic_iff {owner feeCollector : Address} (h : deploy owner feeCollector = .ok s)
    (keccak : Bytes32 → Bytes32) (address : Address) (acts : List (Act Call Bool)) :
    (∀ pre, pre <+: acts →
        Atomic keccak (run (machine (contract keccak address)) ⟨s, []⟩ pre).state) ↔
      Along (machine (contract keccak address)) (Calls (ClaimedEarly keccak address)) ⟨s, []⟩
        acts := by
  constructor
  · intro hatomic
    refine along_iff_initial.mpr fun pre act hpre => ?_
    rintro ⟨msg, f⟩ rfl lockId secret rfl hclaimable
    have henter : (contract keccak address).enter ⟨msg, .claim lockId secret⟩
        (run (machine (contract keccak address)) ⟨s, []⟩ pre).state = .ok (_, _) :=
      claim_ok.mpr ⟨hclaimable, rfl, rfl⟩
    have hafter := hatomic _ hpre
    rw [run_snoc, commit_enter henter] at hafter
    have hclaim := hafter.claims ⟨lockId, some secret, msg.timestamp⟩
      (List.mem_append_right _ List.mem_cons_self) secret rfl
    simp only [proceed, claimedState, stored, Function.update_self] at hclaim
    exact hclaim.2
  · intro hearly pre hpre
    have hholds := holds_run (g := ⟨s, []⟩) (keeps_early keccak address) (hearly.initial hpre)
      (deploy_valid h)
    exact hholds.here.1.atomic hholds.here.2

/-- The hash at the secret zero. -/
def keccakOfZero (secret : Bytes32) : Bytes32 :=
  if secret = 0 then 0x290decd9548b62a8d60345a988386fc84ba6bc95484008f6362f93160ef3e563 else 0

/-- Just deployed by the owner 1, with the fee collector 8. -/
def newBridge : State :=
  { owner := ⟨1⟩, paused := false, entered := false, locks := fun _ => .blank, feeBps := 30,
    feeCollector := ⟨8⟩, balance := 0, settlements := [],
    events := [.ownershipTransferred .zero ⟨1⟩] }

theorem deploy_newBridge : deploy ⟨1⟩ ⟨8⟩ = .ok newBridge := rfl

/-- A lock of 2 for 3 with the timelock 200. -/
def lockUntil200 : Act Call Bool :=
  .call ⟨⟨⟨2⟩, 10000, 100⟩, .lock 5 ⟨3⟩ (keccakOfZero 0) 200 0⟩

theorem swaps_atomic_iff_lockUntil200 :
    (∀ pre, pre <+: [lockUntil200] →
        Atomic keccakOfZero
          (run (machine (contract keccakOfZero ⟨9⟩)) ⟨newBridge, []⟩ pre).state) ↔
      Along (machine (contract keccakOfZero ⟨9⟩)) (Calls (ClaimedEarly keccakOfZero ⟨9⟩))
        ⟨newBridge, []⟩ [lockUntil200] :=
  swaps_atomic_iff deploy_newBridge keccakOfZero ⟨9⟩ [lockUntil200]

/-- The claim of a lock in the second in which its timelock has passed. -/
def claimedLate : List (Act Call Bool) :=
  [lockUntil200, .call ⟨⟨⟨3⟩, 0, 200⟩, .claim 5 0⟩, .answer true, .answer true]

theorem late_claim_settles :
    let s := (run (machine (contract keccakOfZero ⟨9⟩)) ⟨newBridge, []⟩ claimedLate).state
    s.settlements = [⟨5, some 0, 200⟩] ∧ (s.locks 5).timelock = 200 ∧
      ¬ Atomic keccakOfZero s := by
  intro s
  have hrun : s.settlements = [⟨5, some 0, 200⟩] ∧ (s.locks 5).timelock = 200 := by
    decide +kernel
  obtain ⟨hsettled, htimelock⟩ := hrun
  refine ⟨hsettled, htimelock, fun hatomic => ?_⟩
  have hclaim := hatomic.claims ⟨5, some 0, 200⟩ (by rw [hsettled]; exact List.mem_cons_self) 0 rfl
  rw [htimelock] at hclaim
  exact Nat.lt_irrefl _ hclaim.2

end EvmBridge
