import AgenticPay.Evm
import AgenticPay.Holdings
import AgenticPay.Transaction

/-!
# The sponsorship budgets of merchants on the EVM

Merchants deposit ether, and the relay server debits what it spends on their users. The ether of
the contract and what has been forced in are kept beside the storage, and so are, for each wallet,
the transactions billed since its day window was reset and the largest limit in force since then.
The owner gets too little gas with its ether to change anything.
-/
namespace EvmSponsorship

open Evm Body Transaction

structure Budget where
  totalDeposited : Nat
  spent : Nat
  gasCapPerTx : Nat
  rateLimitPerDay : Nat
  active : Bool
  deriving DecidableEq

structure WalletUsage where
  txCountToday : Nat
  dayStart : Nat
  deriving DecidableEq

inductive Event where
  | budgetDeposited (merchantId : Bytes32) (amount : Nat)
  | budgetWithdrawn (merchantId : Bytes32) (amount : Nat)
  | gasCostBilled (merchantId : Bytes32) (wallet : Address) (gasCostWei : Nat)
  | budgetExhausted (merchantId : Bytes32)
  deriving DecidableEq

inductive Error where
  | notOwner
  | notRelayServer
  | budgetInactive
  | rateLimitExceeded
  | gasCapExceeded (requested cap : Nat)
  | insufficientBudget (needed available : Nat)
  deriving DecidableEq, Repr

/-- What has been billed to a wallet since its window was reset, and the largest limit since. -/
structure Window where
  billed : Nat
  limit : Nat
  deriving DecidableEq

structure State where
  owner : Address
  relayServer : Address
  budgets : Bytes32 → Budget
  walletUsage : Bytes32 → Address → WalletUsage
  balance : Nat
  forced : Nat
  windows : Bytes32 → Address → Window
  events : List Event

abbrev Fn (α : Type) := Body State Error α

/-- The constructor. -/
def deploy (sender relayServer : Address) : State :=
  { owner := sender, relayServer, budgets := fun _ => ⟨0, 0, 0, 0, false⟩,
    walletUsage := fun _ _ => ⟨0, 0⟩, balance := 0, forced := 0, windows := fun _ _ => ⟨0, 0⟩,
    events := [] }

def emit (e : Event) : Fn Unit := write fun s => { s with events := s.events ++ [e] }

def onlyOwner : Fn Unit := do
  let msg ← message
  let owner ← read (·.owner)
  revertIf (msg.sender ≠ owner) .notOwner

def onlyRelay : Fn Unit := do
  let msg ← message
  let relayServer ← read (·.relayServer)
  revertIf (msg.sender ≠ relayServer) .notRelayServer

def setBudget (merchantId : Bytes32) (b : Budget) : Fn Unit := write fun s =>
  { s with budgets := Function.update s.budgets merchantId b }

/-- The entries of a wallet, of a merchant, in a table of two keys. -/
def setEntry {α : Type} (table : Bytes32 → Address → α) (merchantId : Bytes32) (wallet : Address)
    (a : α) : Bytes32 → Address → α :=
  Function.update table merchantId (Function.update (table merchantId) wallet a)

/-- A limit that is set counts for the windows of all wallets of the merchant. -/
def raiseLimits (windows : Bytes32 → Address → Window) (merchantId : Bytes32) (limit : Nat) :
    Bytes32 → Address → Window :=
  Function.update windows merchantId fun wallet =>
    { windows merchantId wallet with limit := max (windows merchantId wallet).limit limit }

def depositBudget (merchantId : Bytes32) (gasCapPerTx rateLimitPerDay : Nat) : Fn Unit := do
  let msg ← message
  let s ← read id
  let balance ← creditWord s.balance msg.value
  let b ← read (·.budgets merchantId)
  let totalDeposited ← addWord b.totalDeposited msg.value
  setBudget merchantId { b with totalDeposited, gasCapPerTx, rateLimitPerDay, active := true }
  write fun s =>
    { s with balance, windows := raiseLimits s.windows merchantId rateLimitPerDay }
  emit (.budgetDeposited merchantId msg.value)

/-- The transfer to the owner, who takes the ether or not. -/
def payOwner (amount : Nat) (takes : Bool) : Fn Unit := do
  let before ← read (·.balance)
  if before < amount ∨ takes = false then revert .funds
  else write fun s => { s with balance := before - amount }

def withdrawBudget (merchantId : Bytes32) (amount : Nat) (takes : Bool) : Fn Unit := do
  nonPayable
  onlyOwner
  let b ← read (·.budgets merchantId)
  let available ← subWord b.totalDeposited b.spent
  require (available ≥ amount) "Insufficient"
  let totalDeposited ← subWord b.totalDeposited amount
  setBudget merchantId { b with totalDeposited }
  payOwner amount takes
  emit (.budgetWithdrawn merchantId amount)

/-- `_refreshDayWindow`. -/
def refreshDayWindow (merchantId : Bytes32) (wallet : Address) : Fn Unit := do
  let msg ← message
  let usage ← read (·.walletUsage merchantId wallet)
  let oneDayAgo ← subWord msg.timestamp 86400
  if usage.dayStart < oneDayAgo then
    write fun s =>
      { s with
        walletUsage := setEntry s.walletUsage merchantId wallet ⟨0, msg.timestamp⟩
        windows := setEntry s.windows merchantId wallet
          ⟨0, (s.budgets merchantId).rateLimitPerDay⟩ }
  else return ()

/-- The debit of `billSponsorship`. -/
def bill (merchantId : Bytes32) (wallet : Address) (cost : Nat) : Fn Unit := do
  let b ← read (·.budgets merchantId)
  let spent ← addWord b.spent cost
  setBudget merchantId { b with spent }
  let usage ← read (·.walletUsage merchantId wallet)
  let txCountToday ← addWord usage.txCountToday 1
  write fun s =>
    { s with
      walletUsage := setEntry s.walletUsage merchantId wallet { usage with txCountToday }
      windows := setEntry s.windows merchantId wallet
        { s.windows merchantId wallet with billed := (s.windows merchantId wallet).billed + 1 } }
  emit (.gasCostBilled merchantId wallet cost)

/-- The budget of a merchant is marked as exhausted, and the call reverts. -/
def exhaust (merchantId : Bytes32) (cost available : Nat) : Fn Unit := do
  let b ← read (·.budgets merchantId)
  setBudget merchantId { b with active := false }
  emit (.budgetExhausted merchantId)
  revert (.error (.insufficientBudget cost available))

/-- `billSponsorship`, after the refresh of the window. -/
def billRefreshed (b : Budget) (merchantId : Bytes32) (wallet : Address)
    (gasUnits gasPrice : Nat) : Fn Unit := do
  let usage ← read (·.walletUsage merchantId wallet)
  revertIf (usage.txCountToday ≥ b.rateLimitPerDay) .rateLimitExceeded
  let cost ← mulWord gasUnits gasPrice
  let available ← subWord b.totalDeposited b.spent
  if cost > available then exhaust merchantId cost available else bill merchantId wallet cost

def billSponsorship (merchantId : Bytes32) (wallet : Address) (gasUnits gasPrice : Nat) :
    Fn Unit := do
  nonPayable
  onlyRelay
  let b ← read (·.budgets merchantId)
  revertIf (b.active = false) .budgetInactive
  revertIf (gasUnits > b.gasCapPerTx) (.gasCapExceeded gasUnits b.gasCapPerTx)
  refreshDayWindow merchantId wallet
  billRefreshed b merchantId wallet gasUnits gasPrice

/-- Ether that comes in without any call of the contract. -/
def force (amount : Nat) : Fn Unit := do
  let before ← read (·.balance)
  let balance ← creditWord before amount
  write fun s => { s with balance, forced := s.forced + amount }

inductive Function where
  | depositBudget (merchantId : Bytes32) (gasCapPerTx rateLimitPerDay : Nat)
  | withdrawBudget (merchantId : Bytes32) (amount : Nat) (takes : Bool)
  | billSponsorship (merchantId : Bytes32) (wallet : Address) (gasUnits gasPrice : Nat)
  | force (amount : Nat)
  deriving DecidableEq

def body : Function → Fn Unit
  | .depositBudget merchantId gasCapPerTx rateLimitPerDay =>
    depositBudget merchantId gasCapPerTx rateLimitPerDay
  | .withdrawBudget merchantId amount takes => withdrawBudget merchantId amount takes
  | .billSponsorship merchantId wallet gasUnits gasPrice =>
    billSponsorship merchantId wallet gasUnits gasPrice
  | .force amount => force amount

structure Call where
  msg : Message
  function : Function
  deriving DecidableEq

def system : System Call State (Revert Error) Unit := fun c s => body c.function c.msg s

end EvmSponsorship

/-!
## Runs of the sponsorship budgets

What is spent has been deposited, the ether of the contract is what the merchants have deposited,
and the bills of a wallet stay below the limit. A budget is marked as exhausted in a call that
reverts, so it never is.
-/
namespace EvmSponsorship

open Evm Body Holdings Transaction

variable {s s' : State} {msg : Message} {u : Unit} {merchantId m : Bytes32} {wallet w : Address}
  {amount cost : Nat} {c : Call} {f : Function}

theorem onlyOwner_ok : onlyOwner msg s = .ok (u, s') ↔ msg.sender = s.owner ∧ s = s' := by
  simp only [onlyOwner, message_bind, read_bind, revertIf_ok, ne_eq, not_not]

theorem onlyRelay_ok : onlyRelay msg s = .ok (u, s') ↔ msg.sender = s.relayServer ∧ s = s' := by
  simp only [onlyRelay, message_bind, read_bind, revertIf_ok, ne_eq, not_not]

/-! ## What a call does -/

/-- The state after the refresh of a window. -/
def refreshed (s : State) (merchantId : Bytes32) (wallet : Address) (time : Nat) : State :=
  if (s.walletUsage merchantId wallet).dayStart < time - 86400 then
    { s with
      walletUsage := setEntry s.walletUsage merchantId wallet ⟨0, time⟩
      windows := setEntry s.windows merchantId wallet ⟨0, (s.budgets merchantId).rateLimitPerDay⟩ }
  else s

theorem refreshDayWindow_ok : refreshDayWindow merchantId wallet msg s = .ok (u, s') ↔
    86400 ≤ msg.timestamp ∧ refreshed s merchantId wallet msg.timestamp = s' := by
  simp only [refreshDayWindow, message_bind, read_bind, subWord_bind_ok, refreshed, ite_ok,
    write_ok, pure_ok, true_and]
  split <;> simp_all

/-- What a billing has passed when its cost is compared with the budget. -/
structure Reaches (s : State) (msg : Message) (merchantId : Bytes32) (wallet : Address)
    (gasUnits gasPrice : Nat) : Prop where
  unpaid : msg.value = 0
  relay : msg.sender = s.relayServer
  active : (s.budgets merchantId).active = true
  capped : gasUnits ≤ (s.budgets merchantId).gasCapPerTx
  time : 86400 ≤ msg.timestamp
  rate :
    ((refreshed s merchantId wallet msg.timestamp).walletUsage merchantId wallet).txCountToday <
      (s.budgets merchantId).rateLimitPerDay
  product : gasUnits * gasPrice < wordBound

/-- What a merchant has left. -/
def available (s : State) (merchantId : Bytes32) : Nat :=
  (s.budgets merchantId).totalDeposited - (s.budgets merchantId).spent

/-- The state after a debit. -/
def billedState (s : State) (merchantId : Bytes32) (wallet : Address) (cost : Nat) : State :=
  { s with
    budgets := Function.update s.budgets merchantId
      { s.budgets merchantId with spent := (s.budgets merchantId).spent + cost }
    walletUsage := setEntry s.walletUsage merchantId wallet
      { s.walletUsage merchantId wallet with
        txCountToday := (s.walletUsage merchantId wallet).txCountToday + 1 }
    windows := setEntry s.windows merchantId wallet
      { s.windows merchantId wallet with billed := (s.windows merchantId wallet).billed + 1 }
    events := s.events ++ [.gasCostBilled merchantId wallet cost] }

theorem bill_ok (h : bill merchantId wallet cost msg s = .ok (u, s')) :
    s' = billedState s merchantId wallet cost := by
  simp only [bill, read_bind, addWord_bind_ok, setBudget, write_bind, emit, write_ok] at h
  exact h.2.2.symm

/-- What an accepted call has checked, and the state it leaves. -/
inductive Step (msg : Message) (s : State) : Function → State → Prop
  | deposited {merchantId : Bytes32} {gasCap rateLimit : Nat} {es : List Event} :
      Step msg s (.depositBudget merchantId gasCap rateLimit)
        { s with
          budgets := Function.update s.budgets merchantId
            { s.budgets merchantId with
              totalDeposited := (s.budgets merchantId).totalDeposited + msg.value
              gasCapPerTx := gasCap
              rateLimitPerDay := rateLimit
              active := true }
          balance := s.balance + msg.value
          windows := raiseLimits s.windows merchantId rateLimit
          events := es }
  | withdrawn {merchantId : Bytes32} {amount : Nat} {takes : Bool} {es : List Event}
      (covered : amount ≤ available s merchantId)
      (funded : amount ≤ s.balance) :
      Step msg s (.withdrawBudget merchantId amount takes)
        { s with
          budgets := Function.update s.budgets merchantId
            { s.budgets merchantId with
              totalDeposited := (s.budgets merchantId).totalDeposited - amount }
          balance := s.balance - amount
          events := es }
  | billed {merchantId : Bytes32} {wallet : Address} {gasUnits gasPrice : Nat}
      (reaches : Reaches s msg merchantId wallet gasUnits gasPrice)
      (covered : gasUnits * gasPrice ≤ available s merchantId) :
      Step msg s (.billSponsorship merchantId wallet gasUnits gasPrice)
        (billedState (refreshed s merchantId wallet msg.timestamp) merchantId wallet
          (gasUnits * gasPrice))
  | forced {amount : Nat} :
      Step msg s (.force amount)
        { s with balance := s.balance + amount, forced := s.forced + amount }

theorem refreshed_budgets (s : State) (merchantId : Bytes32) (wallet : Address) (time : Nat) :
    (refreshed s merchantId wallet time).budgets = s.budgets := by
  rw [refreshed]
  split <;> rfl

theorem payOwner_ok {takes : Bool} : payOwner amount takes msg s = .ok (u, s') ↔
    (amount ≤ s.balance ∧ takes = true) ∧ { s with balance := s.balance - amount } = s' := by
  simp only [payOwner, read_bind, ite_ok, revert_ok, and_false, false_or, write_ok, not_or,
    Nat.not_lt, Bool.not_eq_false]

theorem billRefreshed_ok {b : Budget} {gasUnits gasPrice : Nat}
    (h : billRefreshed b merchantId wallet gasUnits gasPrice msg s = .ok (u, s')) :
    (s.walletUsage merchantId wallet).txCountToday < b.rateLimitPerDay ∧
      gasUnits * gasPrice < wordBound ∧ gasUnits * gasPrice ≤ b.totalDeposited - b.spent ∧
        s' = billedState s merchantId wallet (gasUnits * gasPrice) := by
  simp only [billRefreshed, read_bind, revertIf_bind_ok, mulWord_bind_ok, subWord_bind_ok,
    Nat.not_le, ge_iff_le] at h
  obtain ⟨hrate, hproduct, _, h⟩ := h
  split at h
  · simp only [exhaust, read_bind, setBudget, write_bind, emit, revert_ok] at h
  · rename_i hcovered
    exact ⟨hrate, hproduct, Nat.le_of_not_lt hcovered, bill_ok h⟩

theorem billSponsorship_step {gasUnits gasPrice : Nat}
    (h : billSponsorship merchantId wallet gasUnits gasPrice msg s = .ok (u, s')) :
    Step msg s (.billSponsorship merchantId wallet gasUnits gasPrice) s' := by
  simp only [billSponsorship, nonPayable_bind_ok, guard_bind_ok onlyRelay_ok, read_bind,
    revertIf_bind_ok, guard_bind_ok refreshDayWindow_ok, Nat.not_lt, Bool.not_eq_false,
    gt_iff_lt] at h
  obtain ⟨hunpaid, hrelay, hactive, hcapped, htime, h⟩ := h
  obtain ⟨hrate, hproduct, hcovered, rfl⟩ := billRefreshed_ok h
  exact .billed ⟨hunpaid, hrelay, hactive, hcapped, htime, hrate, hproduct⟩ hcovered

/-- Every accepted call is one of the steps. -/
theorem step_of_ok (h : body f msg s = .ok (u, s')) : Step msg s f s' := by
  cases f with
  | depositBudget merchantId gasCap rateLimit =>
    simp only [body, depositBudget, message_bind, read_bind, creditWord_bind_ok, addWord_bind_ok,
      setBudget, write_bind, emit, write_ok, id_eq] at h
    obtain ⟨_, _, rfl⟩ := h
    exact .deposited
  | withdrawBudget merchantId amount takes =>
    simp only [body, withdrawBudget, nonPayable_bind_ok, guard_bind_ok onlyOwner_ok, read_bind,
      subWord_bind_ok, require_bind_ok, setBudget, write_bind, guard_bind_ok payOwner_ok, emit,
      write_ok] at h
    obtain ⟨_, _, _, hcovered, _, ⟨hfunded, _⟩, rfl⟩ := h
    exact .withdrawn hcovered hfunded
  | billSponsorship merchantId wallet gasUnits gasPrice => exact billSponsorship_step h
  | force amount =>
    simp only [body, force, read_bind, creditWord_bind_ok, write_ok] at h
    obtain ⟨_, rfl⟩ := h
    exact .forced

/-! ## What holds in every state -/

theorem setEntry_self {α : Type} (table : Bytes32 → Address → α) (merchantId : Bytes32)
    (wallet : Address) (a : α) : setEntry table merchantId wallet a merchantId wallet = a :=
  update_update_self ..

theorem setEntry_other {α : Type} {table : Bytes32 → Address → α} {a : α}
    (h : m ≠ merchantId ∨ w ≠ wallet) : setEntry table merchantId wallet a m w = table m w :=
  update_update_other h

theorem raiseLimits_billed (windows : Bytes32 → Address → Window) (merchantId : Bytes32)
    (limit : Nat) (m : Bytes32) (w : Address) :
    (raiseLimits windows merchantId limit m w).billed = (windows m w).billed := by
  by_cases hm : m = merchantId
  · subst hm
    simp only [raiseLimits, Function.update_self]
  · simp only [raiseLimits, Function.update_of_ne hm]

theorem le_raiseLimits (windows : Bytes32 → Address → Window) (merchantId : Bytes32)
    (limit : Nat) (m : Bytes32) (w : Address) :
    (windows m w).limit ≤ (raiseLimits windows merchantId limit m w).limit := by
  by_cases hm : m = merchantId
  · subst hm
    simp only [raiseLimits, Function.update_self]
    exact Nat.le_max_left _ _
  · simp only [raiseLimits, Function.update_of_ne hm]
    exact Nat.le_refl _

theorem raised_le_raiseLimits (windows : Bytes32 → Address → Window) (merchantId : Bytes32)
    (limit : Nat) (w : Address) :
    limit ≤ (raiseLimits windows merchantId limit merchantId w).limit := by
  simp only [raiseLimits, Function.update_self]
  exact Nat.le_max_right _ _

/-- No merchant spends more than it has deposited; the ether of the contract is what the merchants
have deposited, with what has been forced in; and no wallet is billed more often in a window than
the largest limit that is in force in it. -/
structure Sound (s : State) : Prop where
  spent : ∀ m, (s.budgets m).spent ≤ (s.budgets m).totalDeposited
  held : ∃ n, Sums (fun m => (s.budgets m).totalDeposited) n ∧ s.balance = n + s.forced
  rate : ∀ m w, (s.windows m w).billed ≤ (s.windows m w).limit

/-- The counter of a window is the number of its bills, and its limit is at least the one in
force. -/
structure Valid (s : State) : Prop extends Sound s where
  counted : ∀ m w, (s.walletUsage m w).txCountToday = (s.windows m w).billed
  inForce : ∀ m w, (s.budgets m).rateLimitPerDay ≤ (s.windows m w).limit

namespace Valid

theorem refreshed (h : Valid s) (merchantId : Bytes32) (wallet : Address) (time : Nat) :
    Valid (refreshed s merchantId wallet time) := by
  rw [EvmSponsorship.refreshed]
  split
  · refine ⟨⟨h.spent, h.held, fun m w => ?_⟩, fun m w => ?_, fun m w => ?_⟩
    · by_cases he : m = merchantId ∧ w = wallet
      · obtain ⟨rfl, rfl⟩ := he
        simp only [setEntry_self]
        exact Nat.zero_le _
      · simp only [setEntry_other (not_and_or.mp he)]
        exact h.rate m w
    · by_cases he : m = merchantId ∧ w = wallet
      · obtain ⟨rfl, rfl⟩ := he
        simp only [setEntry_self]
      · simp only [setEntry_other (not_and_or.mp he)]
        exact h.counted m w
    · by_cases he : m = merchantId ∧ w = wallet
      · obtain ⟨rfl, rfl⟩ := he
        simp only [setEntry_self]
        exact Nat.le_refl _
      · simp only [setEntry_other (not_and_or.mp he)]
        exact h.inForce m w
  · exact h

theorem deposited (h : Valid s) (merchantId : Bytes32) (value gasCap rateLimit : Nat)
    (es : List Event) :
    Valid { s with
      budgets := Function.update s.budgets merchantId
        { s.budgets merchantId with
          totalDeposited := (s.budgets merchantId).totalDeposited + value
          gasCapPerTx := gasCap
          rateLimitPerDay := rateLimit
          active := true }
      balance := s.balance + value
      windows := raiseLimits s.windows merchantId rateLimit
      events := es } := by
  refine ⟨⟨fun m => ?_, ?_, fun m w => ?_⟩, fun m w => ?_, fun m w => ?_⟩
  · by_cases hm : m = merchantId
    · subst hm
      simp only [Function.update_self]
      exact Nat.le_add_right_of_le (h.spent m)
    · simp only [Function.update_of_ne hm]
      exact h.spent m
  · obtain ⟨n, hsums, hbalance⟩ := h.held
    refine ⟨n + value, ?_, ?_⟩
    · apply hsums.change (a := merchantId)
      · intro m hm
        simp only [Function.update_of_ne hm]
      · simp only [Function.update_self]
        omega
    · simp only
      omega
  · rw [raiseLimits_billed]
    exact (h.rate m w).trans (le_raiseLimits ..)
  · rw [raiseLimits_billed]
    exact h.counted m w
  · by_cases hm : m = merchantId
    · subst hm
      simp only [Function.update_self]
      exact raised_le_raiseLimits ..
    · simp only [Function.update_of_ne hm]
      exact (h.inForce m w).trans (le_raiseLimits ..)

theorem withdrawn (h : Valid s) (hcovered : amount ≤ available s merchantId)
    (hfunded : amount ≤ s.balance) (es : List Event) :
    Valid { s with
      budgets := Function.update s.budgets merchantId
        { s.budgets merchantId with
          totalDeposited := (s.budgets merchantId).totalDeposited - amount }
      balance := s.balance - amount
      events := es } := by
  rw [available] at hcovered
  have hspent := h.spent merchantId
  refine ⟨⟨fun m => ?_, ?_, h.rate⟩, h.counted, fun m w => ?_⟩
  · by_cases hm : m = merchantId
    · subst hm
      simp only [Function.update_self]
      omega
    · simp only [Function.update_of_ne hm]
      exact h.spent m
  · obtain ⟨n, hsums, hbalance⟩ := h.held
    have hle := hsums.le merchantId
    refine ⟨n - amount, ?_, ?_⟩
    · apply hsums.change (a := merchantId)
      · intro m hm
        simp only [Function.update_of_ne hm]
      · simp only [Function.update_self]
        omega
    · simp only
      omega
  · by_cases hm : m = merchantId
    · subst hm
      simp only [Function.update_self]
      exact h.inForce m w
    · simp only [Function.update_of_ne hm]
      exact h.inForce m w

/-- A debit that the budget and the limit allow. -/
theorem billed (h : Valid s) (hcovered : cost ≤ available s merchantId)
    (hrate : (s.walletUsage merchantId wallet).txCountToday <
      (s.budgets merchantId).rateLimitPerDay) : Valid (billedState s merchantId wallet cost) := by
  rw [available] at hcovered
  have hspent := h.spent merchantId
  have hcounted := h.counted merchantId wallet
  have hinForce := h.inForce merchantId wallet
  have hdeposited : ∀ m, (billedState s merchantId wallet cost).budgets m =
      { s.budgets m with
        spent := if m = merchantId then (s.budgets m).spent + cost else (s.budgets m).spent } := by
    intro m
    by_cases hm : m = merchantId
    · subst hm
      simp only [billedState, Function.update_self, if_true]
    · simp only [billedState, Function.update_of_ne hm, if_neg hm]
  refine ⟨⟨fun m => ?_, ?_, fun m w => ?_⟩, fun m w => ?_, fun m w => ?_⟩
  · rw [hdeposited]
    by_cases hm : m = merchantId
    · subst hm
      simp only [if_true]
      omega
    · simp only [if_neg hm]
      exact h.spent m
  · simp only [hdeposited]
    exact h.held
  · by_cases he : m = merchantId ∧ w = wallet
    · obtain ⟨rfl, rfl⟩ := he
      simp only [billedState, setEntry_self]
      omega
    · simp only [billedState, setEntry_other (not_and_or.mp he)]
      exact h.rate m w
  · by_cases he : m = merchantId ∧ w = wallet
    · obtain ⟨rfl, rfl⟩ := he
      simp only [billedState, setEntry_self]
      omega
    · simp only [billedState, setEntry_other (not_and_or.mp he)]
      exact h.counted m w
  · rw [hdeposited]
    by_cases he : m = merchantId ∧ w = wallet
    · obtain ⟨rfl, rfl⟩ := he
      simp only [billedState, setEntry_self]
      exact hinForce
    · simp only [billedState, setEntry_other (not_and_or.mp he)]
      exact h.inForce m w

end Valid

theorem Step.valid (h : Step msg s f s') (hv : Valid s) : Valid s' := by
  cases h with
  | deposited => exact hv.deposited _ _ _ _ _
  | withdrawn hcovered hfunded => exact hv.withdrawn hcovered hfunded _
  | @billed merchantId wallet gasUnits gasPrice hreaches hcovered =>
    have hbudgets := refreshed_budgets s merchantId wallet msg.timestamp
    apply (hv.refreshed merchantId wallet msg.timestamp).billed
    · rw [available, hbudgets]
      exact hcovered
    · rw [hbudgets]
      exact hreaches.rate
  | forced =>
    obtain ⟨n, hsums, hbalance⟩ := hv.held
    refine ⟨⟨hv.spent, ⟨n, hsums, ?_⟩, hv.rate⟩, hv.counted, hv.inForce⟩
    simp only
    omega

theorem valid_commit (h : Valid s) (c : Call) : Valid (commit system s c) := by
  obtain ⟨_, hok⟩ | ⟨_, herror⟩ := commit_cases system s c
  · exact (step_of_ok hok).valid h
  · rwa [herror]

theorem deploy_valid (sender relayServer : Address) : Valid (deploy sender relayServer) :=
  ⟨⟨fun _ => Nat.le_refl _, ⟨0, sums_zero, rfl⟩, fun _ _ => Nat.le_refl _⟩, fun _ _ => rfl,
    fun _ _ => Nat.le_refl _⟩

/-! ## Budgets that are exhausted -/

/-- The relay server bills, within the caps, more than the merchant has left. -/
def OverBudget (s : State) (c : Call) (merchantId : Bytes32) : Prop :=
  ∃ wallet gasUnits gasPrice, c.function = .billSponsorship merchantId wallet gasUnits gasPrice ∧
    Reaches s c.msg merchantId wallet gasUnits gasPrice ∧
      available s merchantId < gasUnits * gasPrice

/-- No merchant is billed more than it has left. -/
def WithinBudget (s : State) (c : Call) : Prop := ∀ merchantId, ¬ OverBudget s c merchantId

/-- A call that deposits for a merchant. -/
def Deposits (c : Call) (merchantId : Bytes32) : Prop :=
  ∃ gasCap rateLimit, c.function = .depositBudget merchantId gasCap rateLimit

/-- After a billing of more than is left the budget is inactive until the next deposit. -/
def Deactivates (s : State) (calls : List Call) : Prop :=
  ∀ pre c mid merchantId, pre ++ c :: mid <+: calls →
    OverBudget (run system s pre) c merchantId → (∀ d ∈ mid, ¬ Deposits d merchantId) →
      ((run system s (pre ++ c :: mid)).budgets merchantId).active = false

/-- A call that reverts leaves the state as it was. -/
def Restores (s : State) (c : Call) : Prop :=
  ∀ e, system c s = .error e → commit system s c = s

/-- Such a billing reverts, and the budget stays active. -/
theorem active_of_overBudget (h : OverBudget s c merchantId) :
    ((commit system s c).budgets merchantId).active = true := by
  obtain ⟨wallet, gasUnits, gasPrice, hf, hreaches, hover⟩ := h
  obtain ⟨_, hok⟩ | ⟨_, herror⟩ := commit_cases system s c
  · have hstep : Step c.msg s c.function (commit system s c) := step_of_ok hok
    rw [hf] at hstep
    generalize commit system s c = s' at hstep
    cases hstep with
    | billed _ hcovered =>
      rw [available] at hover hcovered
      omega
  · rw [herror]
    exact hreaches.active

/-- The budgets are sound in every run; they are deactivated as they should be just in the runs in
which no merchant is billed more than it has left. -/
theorem sound_iff_withinBudget (sender relayServer : Address) (calls : List Call) :
    ((∀ pre, pre <+: calls → Sound (run system (deploy sender relayServer) pre)) ∧
        Deactivates (deploy sender relayServer) calls ∧
          Along system Restores (deploy sender relayServer) calls) ↔
      Along system WithinBudget (deploy sender relayServer) calls := by
  constructor
  · rintro ⟨_, hdeactivates, _⟩
    refine along_iff_initial.mpr fun pre c hpre merchantId hover => ?_
    have hinactive := hdeactivates pre c [] merchantId hpre hover nofun
    rw [run_snoc, active_of_overBudget hover] at hinactive
    contradiction
  · intro hwithin
    refine ⟨fun pre _ => ?_, fun pre c mid merchantId hpre hover _ => ?_, ?_⟩
    · have hvalid : Valid (run system (deploy sender relayServer) pre) :=
        run_preserves (I := Valid) (fun _ c hv => valid_commit hv c)
          (deploy_valid sender relayServer) pre
      exact hvalid.toSound
    · have hsnoc : pre ++ [c] <+: calls := by
        refine List.IsPrefix.trans ⟨mid, ?_⟩ hpre
        rw [List.append_assoc, List.singleton_append]
      exact (along_iff_initial.mp hwithin pre c hsnoc merchantId hover).elim
    · refine along_iff_initial.mpr fun pre c _ e he => ?_
      rw [commit, he]

/-- The merchant 7 deposits 50 and is billed 60. -/
def billedTooMuch : List Call :=
  [⟨⟨⟨3⟩, 50, 200000⟩, .depositBudget 7 100 10⟩, ⟨⟨⟨2⟩, 0, 200000⟩, .billSponsorship 7 ⟨5⟩ 10 6⟩]

theorem exhausted_budget_stays_active :
    let deposited := run system (deploy ⟨1⟩ ⟨2⟩) (billedTooMuch.take 1)
    let billed := run system (deploy ⟨1⟩ ⟨2⟩) billedTooMuch
    OverBudget deposited ⟨⟨⟨2⟩, 0, 200000⟩, .billSponsorship 7 ⟨5⟩ 10 6⟩ 7 ∧
      (billed.budgets 7).active = true ∧ ¬ Deactivates (deploy ⟨1⟩ ⟨2⟩) billedTooMuch := by
  intro deposited billed
  have hover : OverBudget deposited ⟨⟨⟨2⟩, 0, 200000⟩, .billSponsorship 7 ⟨5⟩ 10 6⟩ 7 :=
    ⟨⟨5⟩, 10, 6, rfl, ⟨rfl, by decide, by decide, by decide, by decide, by decide, by decide⟩,
      by decide⟩
  have hactive : (billed.budgets 7).active = true := active_of_overBudget hover
  refine ⟨hover, hactive, fun hdeactivates => ?_⟩
  have hinactive : (billed.budgets 7).active = false :=
    hdeactivates (billedTooMuch.take 1) _ [] 7 (List.prefix_refl _) hover nofun
  rw [hactive] at hinactive
  contradiction

end EvmSponsorship
