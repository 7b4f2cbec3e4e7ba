import AgenticPay.Registry
import AgenticPay.Soroban

/-!
# The hash time-locked swap contract

The records, the entry points and, for each of them, what a returned call has
checked and what it leaves. SHA-256 is the host's: a parameter of the contract.
-/
namespace HtlcContract

open Soroban Contract Transaction

def maxTimelockSeconds : Nat := 2592000
def minTimelockSeconds : Nat := 60
def maxDisputeWindow : Nat := 86400

inductive SwapStatus where
  | pending | claimed | refunded | disputed
  deriving DecidableEq, Repr

structure Swap where
  sender : Address
  receiver : Address
  tokenA : Address
  tokenB : Address
  amountA : Int
  amountB : Int
  hashlock : BytesN32
  timelock : Nat
  disputeDeadline : Nat
  status : SwapStatus
  feeBps : Nat
  feeCollector : Address
  deriving DecidableEq, Repr

inductive HtlcError where
  | alreadyInitialized | notInitialized | unauthorized | swapNotFound | invalidAmount
  | hashlockMismatch | timelockExpired | timelockNotExpired | swapNotPending | alreadyClaimed
  | alreadyRefunded | invalidTimelock | invalidDisputeWindow | feeTooHigh
  | disputeWindowNotElapsed
  deriving DecidableEq, Repr

def HtlcError.code : HtlcError → Nat
  | .alreadyInitialized => 1
  | .notInitialized => 2
  | .unauthorized => 3
  | .swapNotFound => 4
  | .invalidAmount => 5
  | .hashlockMismatch => 6
  | .timelockExpired => 7
  | .timelockNotExpired => 8
  | .swapNotPending => 9
  | .alreadyClaimed => 10
  | .alreadyRefunded => 11
  | .invalidTimelock => 12
  | .invalidDisputeWindow => 13
  | .feeTooHigh => 14
  | .disputeWindowNotElapsed => 15

structure Storage where
  admin : Option Address
  init : Option Bool
  swapCount : Option Nat
  swap : Nat → Option Swap
  secret : Nat → Option BytesN32

inductive Event where
  | created (id : Nat) (amountA amountB : Int) (timelock : Nat)
  | claimed (id : Nat) (receiver : Address)
  | refunded (id : Nat) (sender : Address)
  | disputed (id : Nat)
  | resolved (id : Nat) (releaseToReceiver : Bool)
  deriving DecidableEq, Repr

abbrev World := Soroban.World Storage Event

abbrev Entry (α : Type) := Contract Storage Event α

def deployed : World where
  storage :=
    { admin := none, init := none, swapCount := none, swap := fun _ => none,
      secret := fun _ => none }
  events := []

/-- `set(&DataKey::Swap(id), &swap)`. -/
def Storage.putSwap (s : Storage) (id : Nat) (swap : Swap) : Storage :=
  { s with swap := Function.update s.swap id (some swap) }

/-- `set(&DataKey::Secret(id), &preimage)`. -/
def Storage.putSecret (s : Storage) (id : Nat) (preimage : BytesN32) : Storage :=
  { s with secret := Function.update s.secret id (some preimage) }

/-- The entry point `initialize`, whose name is reserved here. -/
def initializeContract (admin : Address) : Entry Unit := do
  let init ← read (·.init)
  ensure (init = none) HtlcError.alreadyInitialized.code
  requireAuth admin
  write ({ · with admin := some admin })
  write ({ · with init := some true })
  write ({ · with swapCount := some 0 })

def admin : Entry Address := do
  let stored ← read (·.admin)
  okOr stored HtlcError.notInitialized.code

def requireInitialized : Entry Unit := do
  let init ← read (·.init)
  ensure (init ≠ none) HtlcError.notInitialized.code

def findSwap (swapId : Nat) : Entry Swap := do
  let stored ← read (·.swap swapId)
  okOr stored HtlcError.swapNotFound.code

def createSwap (sender receiver tokenA tokenB : Address) (amountA amountB : Int)
    (hashlock : BytesN32) (timelockSeconds disputeWindowSeconds feeBps : Nat)
    (feeCollector : Address) : Entry Nat := do
  requireInitialized
  requireAuth sender
  ensure (¬ (amountA ≤ 0 ∨ amountB ≤ 0)) HtlcError.invalidAmount.code
  ensure (¬ (timelockSeconds < minTimelockSeconds ∨ timelockSeconds > maxTimelockSeconds))
    HtlcError.invalidTimelock.code
  ensure (¬ disputeWindowSeconds > maxDisputeWindow) HtlcError.invalidDisputeWindow.code
  ensure (¬ feeBps > 200) HtlcError.feeTooHigh.code
  let stored ← read (·.swapCount.getD 0)
  let count ← addU64 stored 1
  let ledgerTimestamp ← timestamp
  let timelock ← addU64 ledgerTimestamp timelockSeconds
  let disputeDeadline ← addU64 timelock disputeWindowSeconds
  let swap : Swap :=
    { sender, receiver, tokenA, tokenB, amountA, amountB, hashlock, timelock, disputeDeadline,
      status := .pending, feeBps, feeCollector }
  write (·.putSwap count swap)
  write ({ · with swapCount := some count })
  publish (.created count swap.amountA swap.amountB swap.timelock)
  return count

def claim (sha256 : BytesN32 → BytesN32) (swapId : Nat) (preimage : BytesN32) : Entry Unit := do
  requireInitialized
  let swap ← findSwap swapId
  ensure (swap.status = .pending) HtlcError.swapNotPending.code
  let ledgerTimestamp ← timestamp
  ensure (¬ ledgerTimestamp ≥ swap.timelock) HtlcError.timelockExpired.code
  ensure (sha256 preimage = swap.hashlock) HtlcError.hashlockMismatch.code
  write (·.putSwap swapId { swap with status := .claimed })
  write (·.putSecret swapId preimage)
  publish (.claimed swapId swap.receiver)

def refund (swapId : Nat) : Entry Unit := do
  requireInitialized
  let swap ← findSwap swapId
  ensure (swap.status = .pending ∨ swap.status = .disputed) HtlcError.swapNotPending.code
  let ledgerTimestamp ← timestamp
  ensure (¬ ledgerTimestamp < swap.timelock) HtlcError.timelockNotExpired.code
  ensure (¬ (swap.status = .disputed ∧ ledgerTimestamp < swap.disputeDeadline))
    HtlcError.disputeWindowNotElapsed.code
  write (·.putSwap swapId { swap with status := .refunded })
  publish (.refunded swapId swap.sender)

def raiseDispute (swapId : Nat) : Entry Unit := do
  requireInitialized
  let swap ← findSwap swapId
  ensure (swap.status = .pending) HtlcError.swapNotPending.code
  let ledgerTimestamp ← timestamp
  ensure (¬ ledgerTimestamp ≥ swap.timelock) HtlcError.timelockExpired.code
  write (·.putSwap swapId { swap with status := .disputed })
  publish (.disputed swapId)

def resolveDispute (admin : Address) (swapId : Nat) (releaseToReceiver : Bool) :
    Entry Unit := do
  requireInitialized
  let stored ← read (·.admin)
  let storedAdmin ← okOr stored HtlcError.notInitialized.code
  requireAuth admin
  ensure (admin = storedAdmin) HtlcError.unauthorized.code
  let swap ← findSwap swapId
  ensure (swap.status = .disputed) HtlcError.swapNotPending.code
  write (·.putSwap swapId
    { swap with status := if releaseToReceiver then .claimed else .refunded })
  publish (.resolved swapId releaseToReceiver)

def getSwap (swapId : Nat) : Entry Swap := findSwap swapId

def getSwapCount : Entry Nat := read (·.swapCount.getD 0)

def getSecret (swapId : Nat) : Entry BytesN32 := do
  let stored ← read (·.secret swapId)
  okOr stored HtlcError.swapNotFound.code

def version : Entry Nat := pure 1

inductive Call where
  | initializeContract (admin : Address)
  | admin
  | createSwap (sender receiver tokenA tokenB : Address) (amountA amountB : Int)
      (hashlock : BytesN32) (timelockSeconds disputeWindowSeconds feeBps : Nat)
      (feeCollector : Address)
  | claim (swapId : Nat) (preimage : BytesN32)
  | refund (swapId : Nat)
  | raiseDispute (swapId : Nat)
  | resolveDispute (admin : Address) (swapId : Nat) (releaseToReceiver : Bool)
  | getSwap (swapId : Nat)
  | getSwapCount
  | getSecret (swapId : Nat)
  | version
  deriving DecidableEq, Repr

inductive Ret where
  | unit
  | address (a : Address)
  | u32 (n : Nat)
  | u64 (n : Nat)
  | bytes (b : BytesN32)
  | swap (s : Swap)
  deriving DecidableEq, Repr

variable (sha256 : BytesN32 → BytesN32)

def invoke : Call → Entry Ret
  | .initializeContract a => returning (fun _ => .unit) (initializeContract a)
  | .admin => returning .address admin
  | .createSwap sender receiver tokenA tokenB amountA amountB hashlock timelockSeconds
      disputeWindowSeconds feeBps feeCollector =>
    returning .u64 (createSwap sender receiver tokenA tokenB amountA amountB hashlock
      timelockSeconds disputeWindowSeconds feeBps feeCollector)
  | .claim swapId preimage => returning (fun _ => .unit) (claim sha256 swapId preimage)
  | .refund swapId => returning (fun _ => .unit) (refund swapId)
  | .raiseDispute swapId => returning (fun _ => .unit) (raiseDispute swapId)
  | .resolveDispute a swapId releaseToReceiver =>
    returning (fun _ => .unit) (resolveDispute a swapId releaseToReceiver)
  | .getSwap swapId => returning .swap (getSwap swapId)
  | .getSwapCount => returning .u64 getSwapCount
  | .getSecret swapId => returning .bytes (getSecret swapId)
  | .version => returning .u32 version

/-- The deployed contract on a host with this SHA-256. -/
def contract : System (Submission Call) World Trap Ret := system (invoke sha256)

/-! ## What a returned call has done -/

def Call.isView : Call → Bool
  | .admin | .getSwap _ | .getSwapCount | .getSecret _ | .version => true
  | _ => false

/-- The swap `create_swap` stores. -/
def newSwap (now : Nat) (sender receiver tokenA tokenB : Address) (amountA amountB : Int)
    (hashlock : BytesN32) (timelockSeconds disputeWindowSeconds feeBps : Nat)
    (feeCollector : Address) : Swap :=
  { sender, receiver, tokenA, tokenB, amountA, amountB, hashlock,
    timelock := now + timelockSeconds,
    disputeDeadline := now + timelockSeconds + disputeWindowSeconds,
    status := .pending, feeBps, feeCollector }

/-- The bounds `create_swap` puts on a new swap. -/
structure Accepted (amountA amountB : Int) (timelockSeconds disputeWindowSeconds feeBps : Nat) :
    Prop where
  amounts : 0 < amountA ∧ 0 < amountB
  timelock : minTimelockSeconds ≤ timelockSeconds ∧ timelockSeconds ≤ maxTimelockSeconds
  window : disputeWindowSeconds ≤ maxDisputeWindow
  fee : feeBps ≤ 200

theorem accepted_iff {amountA amountB : Int}
    {timelockSeconds disputeWindowSeconds feeBps : Nat} :
    Accepted amountA amountB timelockSeconds disputeWindowSeconds feeBps ↔
      0 < amountA ∧ 0 < amountB ∧ minTimelockSeconds ≤ timelockSeconds ∧
        timelockSeconds ≤ maxTimelockSeconds ∧ disputeWindowSeconds ≤ maxDisputeWindow ∧
        feeBps ≤ 200 :=
  ⟨fun h => ⟨h.amounts.1, h.amounts.2, h.timelock.1, h.timelock.2, h.window, h.fee⟩,
    fun h => ⟨⟨h.1, h.2.1⟩, ⟨h.2.2.1, h.2.2.2.1⟩, h.2.2.2.2.1, h.2.2.2.2.2⟩⟩

/-- What an accepted call has checked, and the world it leaves. -/
inductive Step (env : Env) (w : World) : Call → World → Prop
  | viewed {call} (isView : call.isView = true) : Step env w call w
  | initialized {admin} (first : w.storage.init = none) (signed : admin ∈ env.auths) :
      Step env w (.initializeContract admin)
        { w with storage :=
            { w.storage with admin := some admin, init := some true, swapCount := some 0 } }
  | created {sender receiver tokenA tokenB amountA amountB hashlock timelockSeconds
        disputeWindowSeconds feeBps feeCollector id}
      (ready : w.storage.init ≠ none) (signed : sender ∈ env.auths)
      (accepted : Accepted amountA amountB timelockSeconds disputeWindowSeconds feeBps)
      (next : id = w.storage.swapCount.getD 0 + 1) (fits : id < u64Bound)
      (ends : env.timestamp + timelockSeconds + disputeWindowSeconds < u64Bound) :
      Step env w
        (.createSwap sender receiver tokenA tokenB amountA amountB hashlock timelockSeconds
          disputeWindowSeconds feeBps feeCollector)
        ⟨{ w.storage.putSwap id (newSwap env.timestamp sender receiver tokenA tokenB amountA
            amountB hashlock timelockSeconds disputeWindowSeconds feeBps feeCollector) with
            swapCount := some id },
          w.events ++ [.created id amountA amountB (env.timestamp + timelockSeconds)]⟩
  | claimed {id preimage p} (ready : w.storage.init ≠ none) (found : w.storage.swap id = some p)
      (pending : p.status = .pending) (early : env.timestamp < p.timelock)
      (opens : sha256 preimage = p.hashlock) :
      Step env w (.claim id preimage)
        ⟨(w.storage.putSwap id { p with status := .claimed }).putSecret id preimage,
          w.events ++ [.claimed id p.receiver]⟩
  | refunded {id p} (ready : w.storage.init ≠ none) (found : w.storage.swap id = some p)
      (unsettled : p.status = .pending ∨ p.status = .disputed)
      (late : p.timelock ≤ env.timestamp)
      (closed : p.status = .disputed → p.disputeDeadline ≤ env.timestamp) :
      Step env w (.refund id)
        ⟨w.storage.putSwap id { p with status := .refunded }, w.events ++ [.refunded id p.sender]⟩
  | disputed {id p} (ready : w.storage.init ≠ none) (found : w.storage.swap id = some p)
      (pending : p.status = .pending) (early : env.timestamp < p.timelock) :
      Step env w (.raiseDispute id)
        ⟨w.storage.putSwap id { p with status := .disputed }, w.events ++ [.disputed id]⟩
  | resolved {admin id release p} (ready : w.storage.init ≠ none)
      (stored : w.storage.admin = some admin) (signed : admin ∈ env.auths)
      (found : w.storage.swap id = some p) (disputed : p.status = .disputed) :
      Step env w (.resolveDispute admin id release)
        ⟨w.storage.putSwap id { p with status := if release then .claimed else .refunded },
          w.events ++ [.resolved id release]⟩

section Returns

variable {sha256} {env : Env} {w w' : World} {u : Unit}

@[simp] theorem requireInitialized_ok :
    requireInitialized env w = .ok (u, w') ↔ w.storage.init ≠ none ∧ w = w' := by
  simp [requireInitialized, and_comm]

@[simp] theorem findSwap_ok {id : Nat} {p : Swap} :
    findSwap id env w = .ok (p, w') ↔ w.storage.swap id = some p ∧ w = w' := by
  simp [findSwap]

theorem initializeContract_ok {a : Address} :
    initializeContract a env w = .ok (u, w') ↔
      w.storage.init = none ∧ a ∈ env.auths ∧
      (⟨{ w.storage with admin := some a, init := some true, swapCount := some 0 },
        w.events⟩ : World) = w' := by
  simp [initializeContract]

theorem createSwap_ok {sender receiver tokenA tokenB : Address} {amountA amountB : Int}
    {hashlock : BytesN32} {timelockSeconds disputeWindowSeconds feeBps id : Nat}
    {feeCollector : Address} :
    createSwap sender receiver tokenA tokenB amountA amountB hashlock timelockSeconds
        disputeWindowSeconds feeBps feeCollector env w = .ok (id, w') ↔
      w.storage.init ≠ none ∧ sender ∈ env.auths ∧
      Accepted amountA amountB timelockSeconds disputeWindowSeconds feeBps ∧
      id = w.storage.swapCount.getD 0 + 1 ∧ id < u64Bound ∧
      env.timestamp + timelockSeconds + disputeWindowSeconds < u64Bound ∧
      (⟨{ w.storage.putSwap id (newSwap env.timestamp sender receiver tokenA tokenB amountA
            amountB hashlock timelockSeconds disputeWindowSeconds feeBps feeCollector) with
            swapCount := some id },
          w.events ++ [.created id amountA amountB (env.timestamp + timelockSeconds)]⟩ : World) =
        w' := by
  simp [createSwap, accepted_iff, newSwap, Storage.putSwap, and_assoc]
  refine fun _ _ _ _ _ _ _ _ => ⟨?_, ?_⟩
  · rintro ⟨hfits, _, hends, rfl, hw⟩
    exact ⟨rfl, hfits, hends, hw⟩
  · rintro ⟨rfl, hfits, hends, hw⟩
    exact ⟨hfits, by omega, hends, rfl, hw⟩

theorem claim_ok {id : Nat} {preimage : BytesN32} :
    claim sha256 id preimage env w = .ok (u, w') ↔
      w.storage.init ≠ none ∧ ∃ p, w.storage.swap id = some p ∧ p.status = .pending ∧
        env.timestamp < p.timelock ∧ sha256 preimage = p.hashlock ∧
        (⟨(w.storage.putSwap id { p with status := .claimed }).putSecret id preimage,
          w.events ++ [.claimed id p.receiver]⟩ : World) = w' := by
  simp [claim, and_assoc]

theorem refund_ok {id : Nat} :
    refund id env w = .ok (u, w') ↔
      w.storage.init ≠ none ∧ ∃ p, w.storage.swap id = some p ∧
        (p.status = .pending ∨ p.status = .disputed) ∧ p.timelock ≤ env.timestamp ∧
        (p.status = .disputed → p.disputeDeadline ≤ env.timestamp) ∧
        (⟨w.storage.putSwap id { p with status := .refunded },
          w.events ++ [.refunded id p.sender]⟩ : World) = w' := by
  simp [refund, and_assoc]

theorem raiseDispute_ok {id : Nat} :
    raiseDispute id env w = .ok (u, w') ↔
      w.storage.init ≠ none ∧ ∃ p, w.storage.swap id = some p ∧ p.status = .pending ∧
        env.timestamp < p.timelock ∧
        (⟨w.storage.putSwap id { p with status := .disputed },
          w.events ++ [.disputed id]⟩ : World) = w' := by
  simp [raiseDispute, and_assoc]

theorem resolveDispute_ok {a : Address} {id : Nat} {release : Bool} :
    resolveDispute a id release env w = .ok (u, w') ↔
      w.storage.init ≠ none ∧ w.storage.admin = some a ∧ a ∈ env.auths ∧
      ∃ p, w.storage.swap id = some p ∧ p.status = .disputed ∧
        (⟨w.storage.putSwap id { p with status := if release then .claimed else .refunded },
          w.events ++ [.resolved id release]⟩ : World) = w' := by
  simp [resolveDispute, and_assoc]

/-- The inversion of the dispatcher: what returned is one of the listed steps. -/
theorem step_of_ok {call : Call} {r : Ret} (h : invoke sha256 call env w = .ok (r, w')) :
    Step sha256 env w call w' := by
  cases call with
  | initializeContract a =>
    obtain ⟨_, ha, rfl⟩ := returning_ok.mp h
    obtain ⟨hfirst, hs, rfl⟩ := initializeContract_ok.mp ha
    exact .initialized hfirst hs
  | admin =>
    obtain ⟨_, ha, rfl⟩ := returning_ok.mp h
    obtain rfl : w = w' := by simp [admin] at ha; exact ha.2
    exact .viewed rfl
  | createSwap sender receiver tokenA tokenB amountA amountB hashlock timelockSeconds
      disputeWindowSeconds feeBps feeCollector =>
    obtain ⟨_, ha, rfl⟩ := returning_ok.mp h
    obtain ⟨hready, hs, hacc, hn, hf, he, rfl⟩ := createSwap_ok.mp ha
    exact .created hready hs hacc hn hf he
  | claim id preimage =>
    obtain ⟨_, ha, rfl⟩ := returning_ok.mp h
    obtain ⟨hready, p, hp, hpend, hearly, hopens, rfl⟩ := claim_ok.mp ha
    exact .claimed hready hp hpend hearly hopens
  | refund id =>
    obtain ⟨_, ha, rfl⟩ := returning_ok.mp h
    obtain ⟨hready, p, hp, hopen, hlate, hclosed, rfl⟩ := refund_ok.mp ha
    exact .refunded hready hp hopen hlate hclosed
  | raiseDispute id =>
    obtain ⟨_, ha, rfl⟩ := returning_ok.mp h
    obtain ⟨hready, p, hp, hpend, hearly, rfl⟩ := raiseDispute_ok.mp ha
    exact .disputed hready hp hpend hearly
  | resolveDispute a id release =>
    obtain ⟨_, ha, rfl⟩ := returning_ok.mp h
    obtain ⟨hready, hadm, hs, p, hp, hd, rfl⟩ := resolveDispute_ok.mp ha
    exact .resolved hready hadm hs hp hd
  | getSwap id =>
    obtain ⟨_, ha, rfl⟩ := returning_ok.mp h
    obtain ⟨_, rfl⟩ := findSwap_ok.mp ha
    exact .viewed rfl
  | getSwapCount =>
    obtain ⟨_, ha, rfl⟩ := returning_ok.mp h
    obtain ⟨_, rfl⟩ := read_ok.mp ha
    exact .viewed rfl
  | getSecret id =>
    obtain ⟨_, ha, rfl⟩ := returning_ok.mp h
    obtain rfl : w = w' := by simp [getSecret] at ha; exact ha.2
    exact .viewed rfl
  | version =>
    obtain ⟨_, ha, rfl⟩ := returning_ok.mp h
    obtain ⟨_, rfl⟩ := pure_ok.mp ha
    exact .viewed rfl

/-- Every committed submission is a listed step, or trapped and changed nothing. -/
theorem commit_step (sha256 : BytesN32 → BytesN32) (w : World) (i : Submission Call) :
    Step sha256 i.env w i.call (commit (contract sha256) w i) ∨
      commit (contract sha256) w i = w := by
  obtain ⟨r, hr⟩ | he := system_cases (invoke sha256) w i
  · exact .inl (step_of_ok hr)
  · exact .inr he

end Returns

end HtlcContract
