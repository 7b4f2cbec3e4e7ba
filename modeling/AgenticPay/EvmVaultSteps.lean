import AgenticPay.EvmPaymentVault
import Mathlib.Algebra.Ring.Nat

/-!
# What the calls of the payment vault do to its books

Each accepted call and each resumed one as a change of the vaults, the balances and
the payments, with what it has checked.
-/
namespace EvmPaymentVault

open Evm Body Reentrancy

namespace Books

def credited (b : Books) (token : Address) (amount : Nat) : Books :=
  { b with balance := Function.update b.balance token (b.balance token + amount) }

def setStatus (b : Books) (v : Nat) (status : VaultStatus) : Books :=
  { b with vaults := Function.update b.vaults v { b.vaults v with status } }

/-- The vault that is made of the arguments of `createVault`. -/
def added (b : Books) (args : VaultArgs) (depositor : Address) (totalAmount : Nat) : Books :=
  { b with
    vaultCount := b.vaultCount + 1
    vaults := Function.update b.vaults b.vaultCount
      { b.vaults b.vaultCount with
        depositor, recipient := args.recipient, totalAmount, token := args.token,
        status := .active, milestoneCount := args.milestoneBps.length }
    milestones := Function.update b.milestones b.vaultCount fun i =>
      if i < args.milestoneBps.length then newMilestone args depositor i
      else b.milestones b.vaultCount i }

def amount (b : Books) (v i : Nat) : Nat :=
  (b.vaults v).totalAmount * (b.milestones v i).amountBps.toNat / 10000

def mark (b : Books) (v i : Nat) (status : MilestoneStatus) : Books :=
  { b with
    milestones := Function.update b.milestones v
      (Function.update (b.milestones v) i { b.milestones v i with status }) }

/-- A milestone is released, before it is paid. -/
def released (b : Books) (v i : Nat) : Books :=
  { b.mark v i .released with
    vaults := Function.update b.vaults v
      { b.vaults v with
        releasedAmount := uncheckedAdd (b.vaults v).releasedAmount (b.amount v i) } }

/-- A vault is completed when all of it is released. -/
def settled (b : Books) (v : Nat) : Books :=
  if (b.vaults v).releasedAmount ≥ (b.vaults v).totalAmount then b.setStatus v .completed else b

def paid (self : Address) (b : Books) (p : Payment) : Books :=
  { b with
    balance := if p.recipient = self then b.balance
      else Function.update b.balance p.token (b.balance p.token - p.amount)
    payments := b.payments ++ [p] }

end Books

/-- What is done after control has come back. -/
inductive Resumed (b : Books) : Rest → Books → Prop
  | created {args depositor totalAmount}
      (room : b.balance args.token + totalAmount < wordBound) :
      Resumed b (.create args depositor totalAmount)
        ((b.credited args.token totalAmount).added args depositor totalAmount)
  | released {v i a} : Resumed b (.release v i a) (b.settled v)
  | refunded {v a} : Resumed b (.refund v a) b
  | resolved {v r} : Resumed b (.resolve v r) b

/-- `_transfer` with what follows: nothing is sent where there is nothing to send. -/
inductive Transferred (self : Address) (b : Books) (p : Payment) (rest : Rest) :
    Option Rest → Books → Prop
  | nothing {b'} (none : p.amount = 0) (resumed : Resumed b rest b') :
      Transferred self b p rest .none b'
  | sent (some : p.amount ≠ 0) (payable : p.token = .zero → p.recipient ≠ self)
      (covered : p.amount ≤ b.balance p.token) :
      Transferred self b p rest (.some rest) (b.paid self p)

/-- What `createVault` requires of its arguments. -/
structure Accepted (args : VaultArgs) : Prop where
  recipient : args.recipient ≠ .zero
  nonempty : args.milestoneBps.length ≠ 0
  deadlines : args.milestoneBps.length = args.deadlines.length
  approvers : args.milestoneBps.length = args.approvers.length
  names : args.milestoneBps.length = args.names.length
  whole : (args.milestoneBps.map (·.toNat)).sum = 10000

/-- The approval in time by one who may, or the release after the deadline by anybody. -/
inductive Releases (msg : Message) (depositor : Address) (m : Milestone) (v i : Nat) :
    Function → Prop
  | approved (allowed : msg.sender = m.approver ∨ msg.sender = depositor)
      (inTime : m.deadline = 0 ∨ msg.timestamp ≤ m.deadline) :
      Releases msg depositor m v i (.approveMilestone v i)
  | expired (dated : m.deadline ≠ 0) (late : m.deadline < msg.timestamp) :
      Releases msg depositor m v i (.releaseExpiredMilestone v i)

/-- Whom `resolveDispute` pays, and the status it sets. -/
def payee (b : Books) (v : Nat) (releaseToRecipient : Bool) : Address :=
  if releaseToRecipient then (b.vaults v).recipient else (b.vaults v).depositor

def resolution (releaseToRecipient : Bool) : VaultStatus :=
  if releaseToRecipient then .completed else .refunded

def remaining (b : Books) (v : Nat) : Nat :=
  (b.vaults v).totalAmount - (b.vaults v).releasedAmount

/-- What an accepted call has checked, what is left to do, and the books it leaves. -/
inductive Step (self : Address) (msg : Message) (b : Books) : Function → Option Rest → Books → Prop
  | createdEther {args allowance} (accepted : Accepted args) (ether : args.token = .zero)
      (funded : 0 < msg.value) (room : b.balance .zero + msg.value < wordBound) :
      Step self msg b (.createVault args allowance) none
        ((b.credited .zero msg.value).added args msg.sender msg.value)
  | createsToken {args allowance} (accepted : Accepted args) (token : args.token ≠ .zero)
      (allowed : 0 < allowance) (room : b.balance .zero + msg.value < wordBound) :
      Step self msg b (.createVault args allowance) (some (.create args msg.sender allowance))
        (b.credited .zero msg.value)
  | released {f v i o b'}
      (releases : Releases msg (b.vaults v).depositor (b.milestones v i) v i f)
      (made : v < b.vaultCount)
      (active : (b.vaults v).status = .active) (listed : i < (b.vaults v).milestoneCount)
      (pending : (b.milestones v i).status = .pending)
      (transferred : Transferred self (b.released v i)
        ⟨v, (b.vaults v).token, (b.vaults v).recipient, b.amount v i⟩
        (.release v i (b.amount v i)) o b') :
      Step self msg b f o b'
  | refunded {v o b'} (made : v < b.vaultCount) (owned : msg.sender = (b.vaults v).depositor)
      (active : (b.vaults v).status = .active)
      (transferred : Transferred self (b.setStatus v .refunded)
        ⟨v, (b.vaults v).token, (b.vaults v).depositor, remaining b v⟩
        (.refund v (remaining b v)) o b') :
      Step self msg b (.refund v) o b'
  | disputed {v} (made : v < b.vaultCount) (active : (b.vaults v).status = .active)
      (party : msg.sender = (b.vaults v).depositor ∨ msg.sender = (b.vaults v).recipient) :
      Step self msg b (.raiseDispute v) none (b.setStatus v .disputed)
  | resolved {v r o b'} (unpaid : msg.value = 0) (made : v < b.vaultCount)
      (disputed : (b.vaults v).status = .disputed)
      (transferred : Transferred self (b.setStatus v (resolution r))
        ⟨v, (b.vaults v).token, payee b v r, remaining b v⟩ (.resolve v r) o b') :
      Step self msg b (.resolveDispute v r) o b'
  | forced {token amount} (room : b.balance token + amount < wordBound) :
      Step self msg b (.force token amount) none (b.credited token amount)

variable {s s' : State} {msg : Message} {self : Address} {o : Option Rest} {v i : Nat}
  {rest : Rest}

/-! ## The parts of a function -/

section Parts

variable {β : Type} {k : Unit → Fn β} {r : β}

theorem emit_bind {e : Event} :
    (emit e >>= k) msg s = k () msg { s with events := s.events ++ [e] } := write_bind

theorem enterGuard_ok {u : Unit} :
    enterGuard msg s = .ok (u, s') ↔ s.entered = false ∧ { s with entered := true } = s' := by
  simp only [enterGuard, read_bind, require_bind_ok, write_ok, Bool.not_eq_true]

theorem vaultExists_ok {u : Unit} :
    vaultExists v msg s = .ok (u, s') ↔ v < s.vaultCount ∧ s = s' := by
  simp only [vaultExists, read_bind, revertIf_ok, not_le, ge_iff_le]

theorem onlyDepositor_ok {u : Unit} :
    onlyDepositor v msg s = .ok (u, s') ↔ msg.sender = (s.vaults v).depositor ∧ s = s' := by
  simp only [onlyDepositor, message_bind, read_bind, revertIf_ok, not_not]

theorem credit_ok {token : Address} {amount : Nat} {u : Unit} :
    credit token amount msg s = .ok (u, s') ↔ s.balance token + amount < wordBound ∧
      { s with toBooks := s.toBooks.credited token amount } = s' := by
  simp only [credit, read_bind, creditWord_bind_ok, write_ok]
  rfl

theorem addVault_books {args : VaultArgs} {depositor : Address} {totalAmount : Nat} {u : Unit}
    (h : addVault args depositor totalAmount msg s = .ok (u, s')) :
    s'.toBooks = s.toBooks.added args depositor totalAmount := by
  simp only [addVault, read_bind, write_bind, modifyVault, emit, write_ok] at h
  subst h
  rfl

theorem complete_books {u : Unit} (h : complete v msg s = .ok (u, s')) :
    s'.toBooks = s.toBooks.settled v := by
  simp only [complete, read_bind, ite_ok, modifyVault, write_ok, pure_ok] at h
  rw [Books.settled]
  obtain ⟨hfull, rfl⟩ | ⟨hless, _, rfl⟩ := h
  · rw [if_pos hfull]
    rfl
  · rw [if_neg hless]

theorem finish_resumed {u : Unit} (h : finish rest msg s = .ok (u, s')) :
    Resumed s.toBooks rest s'.toBooks := by
  cases rest with
  | create args depositor totalAmount =>
    rw [finish, guard_bind_ok credit_ok] at h
    simp only [bind_ok, leaveGuard, write_ok] at h
    obtain ⟨hroom, _, t, hadd, rfl⟩ := h
    have hbooks := addVault_books hadd
    exact hbooks ▸ .created hroom
  | release vaultId idx releaseAmount =>
    simp only [finish, read_bind, emit_bind, bind_ok, leaveGuard, write_ok] at h
    obtain ⟨_, t, hcomplete, rfl⟩ := h
    have hbooks := complete_books hcomplete
    exact hbooks ▸ .released
  | refund vaultId remaining =>
    simp only [finish, read_bind, emit_bind, leaveGuard, write_ok] at h
    subst h
    exact .refunded
  | resolve vaultId releaseToRecipient =>
    simp only [finish, emit, write_ok] at h
    subst h
    exact .resolved

/-- The reply to a waiting call. -/
theorem resume_resumed (h : (contract self).resume rest s = .ok s') :
    Resumed s.toBooks rest s'.toBooks := by
  simp only [contract] at h
  cases hfinish : finish rest ⟨self, 0, 0⟩ s with
  | error e =>
    rw [hfinish] at h
    contradiction
  | ok p =>
    obtain ⟨u, t⟩ := p
    rw [hfinish] at h
    cases h
    exact finish_resumed hfinish

theorem spend_ok {balance amount : Nat} {u : Unit} :
    spend balance amount msg s = .ok (u, s') ↔ amount ≤ balance ∧ s = s' := by
  simp only [spend, ite_ok, pure_ok, revert_ok, and_false, or_false, true_and]

theorem pay_ok {p : Payment} {u : Unit} :
    pay self p.vaultId p.token p.recipient p.amount msg s = .ok (u, s') ↔
      ((p.token = .zero → p.recipient ≠ self) ∧ p.amount ≤ s.balance p.token) ∧
        { s with toBooks := s.toBooks.paid self p } = s' := by
  simp only [pay, read_bind, revertIf_bind_ok, guard_bind_ok spend_ok, write_ok]
  constructor
  · rintro ⟨hether, hcovered, rfl⟩
    exact ⟨⟨fun ht he => hether ⟨ht, .inl he⟩, hcovered⟩, rfl⟩
  · rintro ⟨⟨hether, hcovered⟩, rfl⟩
    refine ⟨?_, hcovered, rfl⟩
    rintro ⟨ht, he | hshort⟩
    · exact hether ht he
    · exact hshort hcovered

theorem transfer_transferred {p : Payment}
    (h : transfer self p.vaultId p.token p.recipient p.amount rest msg s = .ok (o, s')) :
    Transferred self s.toBooks p rest o s'.toBooks := by
  rw [transfer] at h
  split at h
  · rename_i hzero
    simp only [bind_ok, pure_ok] at h
    obtain ⟨_, t, hfinish, rfl, rfl⟩ := h
    exact .nothing hzero (finish_resumed hfinish)
  · rename_i hsome
    rw [guard_bind_ok pay_ok, pure_ok] at h
    obtain ⟨⟨hether, hcovered⟩, rfl, rfl⟩ := h
    exact .sent hsome hether hcovered

theorem transfer_sent {p : Payment} (hsome : p.amount ≠ 0)
    (hpayable : p.token = .zero → p.recipient ≠ self) (hcovered : p.amount ≤ s.balance p.token) :
    transfer self p.vaultId p.token p.recipient p.amount rest msg s =
      .ok (some rest, { s with toBooks := s.toBooks.paid self p }) := by
  rw [transfer, if_neg hsome, guard_bind_ok pay_ok, pure_ok]
  exact ⟨⟨hpayable, hcovered⟩, rfl, rfl⟩

end Parts

/-! ## The functions -/

/-- The unchecked sum of small numbers is their sum. -/
theorem foldl_uncheckedAdd (bs : List UInt16) (a : Nat)
    (h : a + (bs.map (·.toNat)).sum < wordBound) :
    bs.foldl (fun sum bps => uncheckedAdd sum bps.toNat) a = a + (bs.map (·.toNat)).sum := by
  induction bs generalizing a with
  | nil => rfl
  | cons b bs ih =>
    rw [List.map_cons, List.sum_cons, ← Nat.add_assoc] at h
    rw [List.foldl_cons, uncheckedAdd_eq (by omega), ih _ h, List.map_cons, List.sum_cons,
      Nat.add_assoc]

theorem sum_bps_le (bs : List UInt16) : (bs.map (·.toNat)).sum ≤ 65535 * bs.length := by
  induction bs with
  | nil => exact Nat.le_refl _
  | cons b bs ih =>
    have hsmall := b.toNat_lt
    rw [List.map_cons, List.sum_cons, List.length_cons]
    omega

theorem sum_bps_lt {bs : List UInt16} (h : bs.length < 2 ^ 64) :
    (bs.map (·.toNat)).sum < wordBound := by
  have hle := (sum_bps_le bs).trans (Nat.mul_le_mul_left 65535 (Nat.le_of_lt h))
  exact Nat.lt_of_le_of_lt hle (by decide)

theorem createVault_step {args : VaultArgs} {allowance : Nat}
    (h : createVault args allowance msg s = .ok (o, s')) :
    Step self msg s.toBooks (.createVault args allowance) o s'.toBooks := by
  simp only [createVault, message_bind, guard_bind_ok credit_ok, decodeLength_bind_ok,
    guard_bind_ok enterGuard_ok, revertIf_bind_ok, not_or, not_not] at h
  obtain ⟨hroom, _, hlength, _, _, _, hrecipient, hnonempty, ⟨hdeadlines, happrovers, hnames⟩,
    hsum, h⟩ := h
  rw [foldl_uncheckedAdd _ _ (by simpa using sum_bps_lt hlength), Nat.zero_add] at hsum
  have haccepted : Accepted args :=
    ⟨hrecipient, hnonempty, hdeadlines, happrovers, hnames, hsum⟩
  split at h
  · rename_i hether
    rw [revertIf_bind_ok] at h
    simp only [bind_ok, leaveGuard, write_ok, pure_ok] at h
    obtain ⟨hvalue, _, t, hadd, _, _, rfl, rfl, rfl⟩ := h
    have hbooks := addVault_books hadd
    exact hbooks ▸ .createdEther haccepted hether (Nat.pos_of_ne_zero hvalue) hroom
  · rename_i htoken
    simp only [revertIf_bind_ok, pure_ok] at h
    obtain ⟨hallowed, rfl, rfl⟩ := h
    exact .createsToken haccepted htoken (Nat.pos_of_ne_zero hallowed) hroom

theorem releaseMilestone_transferred (h : releaseMilestone self v i msg s = .ok (o, s')) :
    Transferred self (s.toBooks.released v i)
      ⟨v, (s.vaults v).token, (s.vaults v).recipient, s.toBooks.amount v i⟩
      (.release v i (s.toBooks.amount v i)) o s'.toBooks := by
  simp only [releaseMilestone, read_bind, mulWord_bind_ok, modifyVault, setMilestoneStatus,
    write_bind] at h
  exact transfer_transferred
    (p := ⟨v, (s.vaults v).token, (s.vaults v).recipient, s.toBooks.amount v i⟩) h.2

/-- The status that a milestone has had in between leaves no trace. -/
theorem released_mark (b : Books) (v i : Nat) (status : MilestoneStatus) :
    (b.mark v i status).released v i = b.released v i ∧
      (b.mark v i status).amount v i = b.amount v i := by
  have hamount : (b.mark v i status).amount v i = b.amount v i := by
    simp only [Books.amount, Books.mark, Function.update_self]
  constructor
  · rw [Books.released, Books.released, hamount]
    simp only [Books.mark, Function.update_self, Function.update_idem]
  · exact hamount

theorem releases_step {f : Function} {status : MilestoneStatus} {t : State}
    (ht : t.toBooks = s.toBooks.mark v i status)
    (hreleases : Releases msg (s.vaults v).depositor (s.milestones v i) v i f)
    (hmade : v < s.vaultCount) (hactive : (s.vaults v).status = .active)
    (hlisted : ¬ i ≥ (s.vaults v).milestoneCount)
    (hpending : (s.milestones v i).status = .pending)
    (h : releaseMilestone self v i msg t = .ok (o, s')) :
    Step self msg s.toBooks f o s'.toBooks := by
  have htransferred := releaseMilestone_transferred h
  obtain ⟨hreleased, hamount⟩ := released_mark s.toBooks v i status
  rw [ht, hreleased, hamount] at htransferred
  exact .released hreleases hmade hactive (Nat.lt_of_not_le hlisted) hpending htransferred

theorem approveMilestone_step (h : approveMilestone self v i msg s = .ok (o, s')) :
    Step self msg s.toBooks (.approveMilestone v i) o s'.toBooks := by
  simp only [approveMilestone, nonPayable_bind_ok, guard_bind_ok vaultExists_ok,
    guard_bind_ok enterGuard_ok, read_bind, revertIf_bind_ok, not_not, message_bind,
    setMilestoneStatus, write_bind, emit_bind] at h
  obtain ⟨_, hmade, _, hactive, hlisted, hpending, hallowed, htime, h⟩ := h
  have hreleases : Releases msg (s.vaults v).depositor (s.milestones v i) v i
      (.approveMilestone v i) := by
    refine .approved ?_ ?_
    · by_contra hother
      exact hallowed (not_or.mp hother)
    · by_contra hlate
      obtain ⟨hdated, hpassed⟩ := not_or.mp hlate
      exact htime ⟨hdated, Nat.lt_of_not_le hpassed⟩
  exact releases_step rfl hreleases hmade hactive hlisted hpending h

theorem releaseExpiredMilestone_step
    (h : releaseExpiredMilestone self v i msg s = .ok (o, s')) :
    Step self msg s.toBooks (.releaseExpiredMilestone v i) o s'.toBooks := by
  simp only [releaseExpiredMilestone, nonPayable_bind_ok, guard_bind_ok vaultExists_ok,
    guard_bind_ok enterGuard_ok, read_bind, revertIf_bind_ok, not_not, message_bind,
    setMilestoneStatus, write_bind, emit_bind] at h
  obtain ⟨_, hmade, _, hactive, hlisted, hpending, htime, h⟩ := h
  obtain ⟨hdated, hlate⟩ := not_or.mp htime
  exact releases_step rfl (.expired hdated (Nat.lt_of_not_le hlate)) hmade hactive hlisted
    hpending h

theorem refund_step (h : refund self v msg s = .ok (o, s')) :
    Step self msg s.toBooks (.refund v) o s'.toBooks := by
  simp only [refund, nonPayable_bind_ok, guard_bind_ok vaultExists_ok,
    guard_bind_ok onlyDepositor_ok, guard_bind_ok enterGuard_ok, read_bind, revertIf_bind_ok,
    not_not, subWord_bind_ok, modifyVault, write_bind] at h
  obtain ⟨_, hmade, howned, _, hactive, _, hle, h⟩ := h
  exact .refunded hmade howned hactive (transfer_transferred
    (p := ⟨v, (s.vaults v).token, (s.vaults v).depositor, remaining s.toBooks v⟩) h)

theorem raiseDispute_step (h : raiseDispute v msg s = .ok (o, s')) :
    Step self msg s.toBooks (.raiseDispute v) o s'.toBooks := by
  simp only [raiseDispute, nonPayable_bind_ok, guard_bind_ok vaultExists_ok, read_bind,
    revertIf_bind_ok, not_not, message_bind, modifyVault, write_bind, emit_bind, pure_ok] at h
  obtain ⟨_, hmade, hactive, hparty, rfl, rfl⟩ := h
  exact .disputed hmade hactive (by tauto)

theorem resolveDispute_step {r : Bool} (h : resolveDispute self v r msg s = .ok (o, s')) :
    Step self msg s.toBooks (.resolveDispute v r) o s'.toBooks := by
  simp only [resolveDispute, nonPayable_bind_ok, guard_bind_ok vaultExists_ok, read_bind,
    revertIf_bind_ok, not_not, subWord_bind_ok, modifyVault] at h
  obtain ⟨hvalue, hmade, hdisputed, hle, h⟩ := h
  cases r with
  | true =>
    rw [if_pos rfl, write_bind] at h
    exact .resolved hvalue hmade hdisputed (transfer_transferred
      (p := ⟨v, (s.vaults v).token, (s.vaults v).recipient, remaining s.toBooks v⟩) h)
  | false =>
    rw [if_neg Bool.false_ne_true, write_bind] at h
    exact .resolved hvalue hmade hdisputed (transfer_transferred
      (p := ⟨v, (s.vaults v).token, (s.vaults v).depositor, remaining s.toBooks v⟩) h)

/-- A resolution for the recipient is accepted if it can be paid. -/
theorem resolveDispute_sent (hvalue : msg.value = 0) (hmade : v < s.vaultCount)
    (hdisputed : (s.vaults v).status = .disputed)
    (hle : (s.vaults v).releasedAmount ≤ (s.vaults v).totalAmount)
    (hsome : remaining s.toBooks v ≠ 0)
    (hpayable : (s.vaults v).token = .zero → (s.vaults v).recipient ≠ self)
    (hcovered : remaining s.toBooks v ≤ s.balance (s.vaults v).token) :
    resolveDispute self v true msg s = .ok (some (.resolve v true),
      { s with
        toBooks := (s.toBooks.setStatus v .completed).paid self
          ⟨v, (s.vaults v).token, (s.vaults v).recipient, remaining s.toBooks v⟩ }) := by
  simp only [resolveDispute, nonPayable_bind_ok, guard_bind_ok vaultExists_ok, read_bind,
    revertIf_bind_ok, not_not, subWord_bind_ok, modifyVault, if_true, write_bind]
  exact ⟨hvalue, hmade, hdisputed, hle, transfer_sent
    (p := ⟨v, (s.vaults v).token, (s.vaults v).recipient, remaining s.toBooks v⟩)
    (s := { s with toBooks := s.toBooks.setStatus v .completed }) hsome hpayable hcovered⟩

/-- Every accepted call is one of the steps. -/
theorem step_of_ok {f : Function} (h : body self f msg s = .ok (o, s')) :
    Step self msg s.toBooks f o s'.toBooks := by
  cases f with
  | createVault args allowance => exact createVault_step h
  | approveMilestone vaultId idx => exact approveMilestone_step h
  | releaseExpiredMilestone vaultId idx => exact releaseExpiredMilestone_step h
  | refund vaultId => exact refund_step h
  | raiseDispute vaultId => exact raiseDispute_step h
  | resolveDispute vaultId releaseToRecipient => exact resolveDispute_step h
  | force token amount =>
    simp only [body, force, guard_bind_ok credit_ok, pure_ok] at h
    obtain ⟨hroom, rfl, rfl⟩ := h
    exact .forced hroom

end EvmPaymentVault
