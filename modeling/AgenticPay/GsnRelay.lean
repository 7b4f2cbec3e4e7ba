import AgenticPay.Records
import AgenticPay.Transaction
import Mathlib.Logic.Function.Basic

/-!
# The relay of sponsored transactions

A merchant deposits a budget, and transactions of users are relayed and billed to it. A nonce of a
wallet on a chain is relayed once, and a wallet has a number of transactions a day. A budget that is
exhausted is closed until it is topped up.
-/
namespace GsnRelay

open Records Transaction

/-- What the host does with texts, and with a price times a multiplier, which it rounds up. -/
structure Host where
  toLowerCase : String → String
  scale : Int → Int

structure SponsorshipBudget where
  merchantId : String
  totalDepositedWei : Int
  spentWei : Int
  availableWei : Int
  gasCapPerTx : Int
  rateLimitPerDay : Int
  active : Bool
  deriving DecidableEq, Repr

structure SponsorshipTx where
  merchantId : String
  userWallet : String
  gasUnits : Int
  gasCostWei : Int
  deriving DecidableEq, Repr

structure Usage where
  count : Int
  windowStart : Int
  deriving DecidableEq, Repr

inductive RelayStatus where
  | pending
  | confirmed
  | rejectedBudget
  | rejectedSignature
  | rejectedRateLimit
  deriving DecidableEq, Repr

structure RelayRecord where
  id : String
  merchantId : String
  userWallet : String
  chainId : Int
  status : RelayStatus
  gasUsed : Option Int
  effectiveGasPrice : Option Int
  gasCostWei : Option Int
  errorMessage : Option String
  deriving DecidableEq, Repr

structure MetaTransactionRequest where
  source : String
  dest : String
  /-- `parseInt(req.gas, 16)`, unless it is no number. -/
  gas : Option Int
  nonce : String
  deadline : Int
  signature : String
  chainId : Int
  merchantId : String

structure GasEstimationConfig where
  baseFeeWei : Int
  priorityFeeWei : Int

structure State where
  budgets : Table SponsorshipBudget.merchantId
  walletDailyUsage : String × String → Option Usage
  nonceStore : List (String × Int × String)
  relayRecords : Table RelayRecord.id
  sponsorshipTxs : List SponsorshipTx

variable (host : Host)

/-! ## Budgets -/

def createBudget (merchantId : String) (depositWei gasCapPerTx rateLimitPerDay : Int) (s : State) :
    State :=
  let budget : SponsorshipBudget :=
    ⟨merchantId, depositWei, 0, depositWei, gasCapPerTx, rateLimitPerDay, true⟩
  { s with budgets := s.budgets.set budget }

def SponsorshipBudget.topUp (b : SponsorshipBudget) (additionalWei : Int) : SponsorshipBudget :=
  { b with
    totalDepositedWei := b.totalDepositedWei + additionalWei
    availableWei := b.availableWei + additionalWei
    active := true }

def notFound (merchantId : String) : String := "Budget for merchant " ++ merchantId ++ " not found"

def topUpBudget (merchantId : String) (additionalWei : Int) (s : State) : Except String State :=
  match s.budgets.get merchantId with
  | none => .error (notFound merchantId)
  | some budget => .ok { s with budgets := s.budgets.set (budget.topUp additionalWei) }

structure PolicyUpdates where
  gasCapPerTx : Option Int
  rateLimitPerDay : Option Int
  active : Option Bool

def SponsorshipBudget.policy (b : SponsorshipBudget) (updates : PolicyUpdates) :
    SponsorshipBudget :=
  { b with
    gasCapPerTx := updates.gasCapPerTx.getD b.gasCapPerTx
    rateLimitPerDay := updates.rateLimitPerDay.getD b.rateLimitPerDay
    active := updates.active.getD b.active }

def updateBudgetPolicy (merchantId : String) (updates : PolicyUpdates) (s : State) :
    Except String State :=
  match s.budgets.get merchantId with
  | none => .error (notFound merchantId)
  | some budget => .ok { s with budgets := s.budgets.set (budget.policy updates) }

def State.setUsage (s : State) (merchantId wallet : String) (usage : Usage) : State :=
  { s with
    walletDailyUsage := Function.update s.walletDailyUsage (merchantId, wallet) (some usage) }

/-- The entry that is current, or a new one in the place of an old one. -/
def getOrCreateWalletUsage (merchantId wallet : String) (now : Int) (s : State) : Usage × State :=
  match s.walletDailyUsage (merchantId, wallet) with
  | some entry =>
    if now - entry.windowStart > 86400000 then (⟨0, now⟩, s.setUsage merchantId wallet ⟨0, now⟩)
    else (entry, s)
  | none => (⟨0, now⟩, s.setUsage merchantId wallet ⟨0, now⟩)

/-- The reason why a transaction is not allowed, unless it is. -/
def verifyBudget (merchantId userWallet : String) (gasUnits now : Int) (s : State) :
    Option String × State :=
  match s.budgets.get merchantId with
  | none => (some "budget_not_found", s)
  | some budget =>
    if !budget.active then (some "budget_exhausted", s)
    else if gasUnits > budget.gasCapPerTx then
      (some ("gas_cap_exceeded:cap=" ++ toString budget.gasCapPerTx), s)
    else
      let (usage, s) := getOrCreateWalletUsage merchantId (host.toLowerCase userWallet) now s
      if usage.count ≥ budget.rateLimitPerDay then (some "rate_limit_exceeded", s) else (none, s)

/-- A budget after a cost has been billed to it. -/
def SponsorshipBudget.bill (b : SponsorshipBudget) (gasCostWei : Int) : SponsorshipBudget :=
  let spent := b.spentWei + gasCostWei
  let available := b.totalDepositedWei - spent
  { b with
    spentWei := spent
    availableWei := if available > 0 then available else 0
    active := if available ≤ 0 then false else b.active }

def recordGasSpend (merchantId userWallet : String) (gasUnits gasCostWei now : Int) (s : State) :
    Except String State :=
  match s.budgets.get merchantId with
  | none => .error (notFound merchantId)
  | some budget =>
    let wallet := host.toLowerCase userWallet
    let s := { s with budgets := s.budgets.set (budget.bill gasCostWei) }
    let (usage, s) := getOrCreateWalletUsage merchantId wallet now s
    let s := s.setUsage merchantId wallet { usage with count := usage.count + 1 }
    let tx : SponsorshipTx := ⟨merchantId, wallet, gasUnits, gasCostWei⟩
    .ok { s with sponsorshipTxs := s.sponsorshipTxs ++ [tx] }

/-! ## The relay -/

def isHexDigit (c : Char) : Bool :=
  c.isDigit || ('a' ≤ c && c ≤ 'f') || ('A' ≤ c && c ≤ 'F')

/-- `/^0x[0-9a-fA-F]{130}$/`. -/
def isValidHexSignature (sig : String) : Bool :=
  match sig.toList with
  | '0' :: 'x' :: rest => rest.length = 130 && rest.all isHexDigit
  | _ => false

def isDeadlinePassed (deadline now : Int) : Bool := now > 1000 * deadline

def nonceKey (wallet : String) (chainId : Int) (nonce : String) : String × Int × String :=
  (host.toLowerCase wallet, chainId, nonce)

/-- A number that cannot be read, or zero, is replaced. -/
def estimatedUnits (gas : Option Int) : Int :=
  match gas with
  | some units => if units = 0 then 100000 else units
  | none => 100000

def estimatedCostWei (units : Int) (config : GasEstimationConfig) : Int :=
  (config.baseFeeWei + host.scale config.priorityFeeWei) * units

def maxFeePerGas (config : GasEstimationConfig) : Int :=
  host.scale (config.baseFeeWei * 2 + config.priorityFeeWei)

def RelayRecord.rejected (r : RelayRecord) (status : RelayStatus) (text : String) : RelayRecord :=
  { r with status, errorMessage := some text }

def RelayRecord.confirmed (r : RelayRecord) (units cost price : Int) : RelayRecord :=
  { r with
    status := .confirmed
    gasUsed := some units
    effectiveGasPrice := some price
    gasCostWei := some cost }

def submitMetaTransaction (req : MetaTransactionRequest) (config : GasEstimationConfig)
    (id : String) (now billedAt : Int) (s : State) : Except String (RelayRecord × State) :=
  let record : RelayRecord :=
    ⟨id, req.merchantId, host.toLowerCase req.source, req.chainId, .pending, none, none, none, none⟩
  let keep := fun (r : RelayRecord) (s : State) =>
    (r, { s with relayRecords := s.relayRecords.set r })
  if !isValidHexSignature req.signature then
    .ok (keep (record.rejected .rejectedSignature "Invalid EIP-712 signature format") s)
  else if isDeadlinePassed req.deadline now then
    .ok (keep (record.rejected .rejectedSignature "Meta-transaction deadline has passed") s)
  else if nonceKey host req.source req.chainId req.nonce ∈ s.nonceStore then
    .ok (keep (record.rejected .rejectedSignature "Nonce already used (replay attempt)") s)
  else
    let units := estimatedUnits req.gas
    let cost := estimatedCostWei host units config
    match verifyBudget host req.merchantId req.source units now s with
    | (some reason, s) =>
      let status := if reason = "rate_limit_exceeded" then .rejectedRateLimit else .rejectedBudget
      .ok (keep (record.rejected status reason) s)
    | (none, s) =>
      let key := nonceKey host req.source req.chainId req.nonce
      let s := { s with nonceStore := s.nonceStore ++ [key] }
      let record := record.confirmed units cost (maxFeePerGas host config)
      (recordGasSpend host req.merchantId req.source units cost billedAt s).map (keep record)

def shouldFallbackToUserGas (merchantId : String) (s : State) : Bool :=
  match s.budgets.get merchantId with
  | none => true
  | some budget => !budget.active || budget.availableWei = 0

inductive Response where
  | record (r : RelayRecord)
  | fieldsRequired
  | userPaysGas
  | budget
  deriving DecidableEq, Repr

inductive Call where
  | relay (req : MetaTransactionRequest) (id : String) (now billedAt : Int)
  | createBudget (merchantId : String) (depositWei gasCapPerTx rateLimitPerDay : Int)
  | topUpBudget (merchantId : String) (additionalWei : Int)
  | updateBudgetPolicy (merchantId : String) (updates : PolicyUpdates)

/-- `POST /gsn/relay`. -/
def relay (config : GasEstimationConfig) (req : MetaTransactionRequest) (id : String)
    (now billedAt : Int) (s : State) : Except String (Response × State) :=
  if req.source = "" ∨ req.dest = "" ∨ req.signature = "" ∨ req.merchantId = "" then
    .ok (.fieldsRequired, s)
  else if shouldFallbackToUserGas req.merchantId s then .ok (.userPaysGas, s)
  else (submitMetaTransaction host req config id now billedAt s).map fun r => (.record r.1, r.2)

def system (config : GasEstimationConfig) : System Call State String Response
  | .relay req id now billedAt, s => relay host config req id now billedAt s
  | .createBudget merchantId depositWei gasCapPerTx rateLimitPerDay, s =>
    .ok (.budget, createBudget merchantId depositWei gasCapPerTx rateLimitPerDay s)
  | .topUpBudget merchantId additionalWei, s =>
    (topUpBudget merchantId additionalWei s).map fun s => (.budget, s)
  | .updateBudgetPolicy merchantId updates, s =>
    (updateBudgetPolicy merchantId updates s).map fun s => (.budget, s)

def empty : State := ⟨∅, fun _ => none, [], ∅, []⟩

/-! ## What a relay does -/

variable {host : Host} {config : GasEstimationConfig} {req : MetaTransactionRequest}
  {id : String} {now billedAt units cost : Int} {s s' : State}
  {response : Response} {record : RelayRecord} {reason : Option String}

def Usage.counted (usage : Usage) : Usage := { usage with count := usage.count + 1 }

/-- The usage that is counted on at a time. -/
def currentUsage (entry : Option Usage) (now : Int) : Usage :=
  match entry with
  | some usage => if now - usage.windowStart > 86400000 then ⟨0, now⟩ else usage
  | none => ⟨0, now⟩

/-- A usage that is looked up is written back. -/
theorem getOrCreateWalletUsage_eq (merchantId wallet : String) (now : Int) (s : State) :
    getOrCreateWalletUsage merchantId wallet now s =
      (currentUsage (s.walletDailyUsage (merchantId, wallet)) now,
        s.setUsage merchantId wallet
          (currentUsage (s.walletDailyUsage (merchantId, wallet)) now)) := by
  cases hentry : s.walletDailyUsage (merchantId, wallet) with
  | none =>
    rw [getOrCreateWalletUsage, hentry]
    rfl
  | some entry =>
    rw [getOrCreateWalletUsage, hentry]
    simp only [currentUsage]
    split_ifs with hold
    · rfl
    · rw [State.setUsage, ← hentry, Function.update_eq_self]

/-- The usage that a request is checked against. -/
def usageOf (host : Host) (req : MetaTransactionRequest) (now : Int) (s : State) : Usage :=
  currentUsage (s.walletDailyUsage (req.merchantId, host.toLowerCase req.source)) now

/-- A check changes no more than the usage that it looks up. -/
theorem verifyBudget_cases
    (h : verifyBudget host req.merchantId req.source units now s = (reason, s')) :
    (s' = s ∧ reason ≠ none) ∨
      s' = s.setUsage req.merchantId (host.toLowerCase req.source) (usageOf host req now s) ∧
        ∃ budget, s.budgets.get req.merchantId = some budget ∧
          (reason = none → (usageOf host req now s).count < budget.rateLimitPerDay) := by
  rw [verifyBudget, getOrCreateWalletUsage_eq] at h
  cases hbudget : s.budgets.get req.merchantId with
  | none =>
    rw [hbudget] at h
    obtain ⟨rfl, rfl⟩ := Prod.mk.inj h
    exact .inl ⟨rfl, nofun⟩
  | some budget =>
    rw [hbudget] at h
    dsimp only at h
    split_ifs at h with hclosed hcap hrate
    · obtain ⟨rfl, rfl⟩ := Prod.mk.inj h
      exact .inl ⟨rfl, nofun⟩
    · obtain ⟨rfl, rfl⟩ := Prod.mk.inj h
      exact .inl ⟨rfl, nofun⟩
    · obtain ⟨rfl, rfl⟩ := Prod.mk.inj h
      exact .inr ⟨rfl, budget, rfl, nofun⟩
    · obtain ⟨rfl, rfl⟩ := Prod.mk.inj h
      exact .inr ⟨rfl, budget, rfl, fun _ => by simpa [usageOf] using hrate⟩

theorem recordGasSpend_ok
    (h : recordGasSpend host req.merchantId req.source units cost now s = .ok s') :
    ∃ budget, s.budgets.get req.merchantId = some budget ∧
      s'.budgets = s.budgets.set (budget.bill cost) ∧ s'.nonceStore = s.nonceStore ∧
      s'.walletDailyUsage = Function.update s.walletDailyUsage
        (req.merchantId, host.toLowerCase req.source) (some (usageOf host req now s).counted) := by
  rw [recordGasSpend] at h
  cases hbudget : s.budgets.get req.merchantId with
  | none =>
    rw [hbudget] at h
    contradiction
  | some budget =>
    rw [hbudget] at h
    simp only [getOrCreateWalletUsage_eq] at h
    obtain rfl := Except.ok.inj h
    refine ⟨budget, rfl, rfl, rfl, ?_⟩
    simp only [State.setUsage, Function.update_idem]
    rfl

/-- What a relay that goes through does. -/
structure Confirms (host : Host) (config : GasEstimationConfig) (req : MetaTransactionRequest)
    (now billedAt : Int) (s s' : State) : Prop where
  fresh : nonceKey host req.source req.chainId req.nonce ∉ s.nonceStore
  nonces : s'.nonceStore = s.nonceStore ++ [nonceKey host req.source req.chainId req.nonce]
  billed : ∃ budget, s.budgets.get req.merchantId = some budget ∧
    (usageOf host req now s).count < budget.rateLimitPerDay ∧
    s'.budgets = s.budgets.set
      (budget.bill (estimatedCostWei host (estimatedUnits req.gas) config))
  used : s'.walletDailyUsage = Function.update s.walletDailyUsage
    (req.merchantId, host.toLowerCase req.source)
    (some (currentUsage (some (usageOf host req now s)) billedAt).counted)

/-- What a relay that does not go through may do: a usage is looked up. -/
structure Declines (host : Host) (req : MetaTransactionRequest) (now : Int) (s s' : State) :
    Prop where
  budgets : s'.budgets = s.budgets
  nonces : s'.nonceStore = s.nonceStore
  usage : s'.walletDailyUsage = s.walletDailyUsage ∨
    s'.walletDailyUsage = Function.update s.walletDailyUsage
      (req.merchantId, host.toLowerCase req.source) (some (usageOf host req now s))

theorem submitMetaTransaction_cases
    (h : submitMetaTransaction host req config id now billedAt s = .ok (record, s')) :
    (record.status = .confirmed ∧ Confirms host config req now billedAt s s') ∨
      (record.status ≠ .confirmed ∧ Declines host req now s s') := by
  rw [submitMetaTransaction] at h
  dsimp only at h
  split_ifs at h with hsig hdeadline hnonce
  · obtain ⟨rfl, rfl⟩ := Prod.mk.inj (Except.ok.inj h)
    exact .inr ⟨nofun, rfl, rfl, .inl rfl⟩
  · obtain ⟨rfl, rfl⟩ := Prod.mk.inj (Except.ok.inj h)
    exact .inr ⟨nofun, rfl, rfl, .inl rfl⟩
  · obtain ⟨rfl, rfl⟩ := Prod.mk.inj (Except.ok.inj h)
    exact .inr ⟨nofun, rfl, rfl, .inl rfl⟩
  · rcases hverify : verifyBudget host req.merchantId req.source (estimatedUnits req.gas) now s
      with ⟨reason, s₁⟩
    have hcheck := verifyBudget_cases hverify
    rw [hverify] at h
    cases reason with
    | some reason =>
      obtain ⟨rfl, rfl⟩ := Prod.mk.inj (Except.ok.inj h)
      refine .inr ⟨?_, ?_⟩
      · rw [RelayRecord.rejected]
        dsimp only
        split_ifs <;> nofun
      · obtain ⟨rfl, -⟩ | ⟨rfl, -⟩ := hcheck
        · exact ⟨rfl, rfl, .inl rfl⟩
        · exact ⟨rfl, rfl, .inr rfl⟩
    | none =>
      obtain ⟨s₂, hspend, hkeep⟩ := map_returns h
      obtain ⟨rfl, rfl⟩ := Prod.mk.inj hkeep
      obtain ⟨-, hnone⟩ | ⟨rfl, budget, hbudget, hrate⟩ := hcheck
      · exact absurd rfl hnone
      obtain ⟨billed, hbilled, hbill, hmarked, hused⟩ := recordGasSpend_ok hspend
      obtain rfl : budget = billed := Option.some.inj (hbudget.symm.trans hbilled)
      refine .inl ⟨rfl, hnonce, hmarked, ⟨budget, hbudget, hrate rfl, hbill⟩, hused.trans ?_⟩
      simp only [usageOf, State.setUsage, Function.update_self, Function.update_idem]

/-- A relay is confirmed against a budget that is not exhausted, or it declines. -/
theorem relay_cases (h : relay host config req id now billedAt s = .ok (response, s')) :
    (shouldFallbackToUserGas req.merchantId s = false ∧
        Confirms host config req now billedAt s s' ∧
        ∃ r, response = .record r ∧ r.status = .confirmed) ∨
      (Declines host req now s s' ∧ ∀ r, response = .record r → r.status ≠ .confirmed) := by
  rw [relay] at h
  split_ifs at h with hfields hfallback
  · obtain ⟨rfl, rfl⟩ := Prod.mk.inj (Except.ok.inj h)
    exact .inr ⟨⟨rfl, rfl, .inl rfl⟩, nofun⟩
  · obtain ⟨rfl, rfl⟩ := Prod.mk.inj (Except.ok.inj h)
    exact .inr ⟨⟨rfl, rfl, .inl rfl⟩, nofun⟩
  · obtain ⟨⟨record, s₁⟩, hsubmit, hresponse⟩ := map_returns h
    obtain ⟨rfl, rfl⟩ := Prod.mk.inj hresponse
    obtain ⟨hconfirmed, hconfirms⟩ | ⟨hrejected, hdeclines⟩ := submitMetaTransaction_cases hsubmit
    · exact .inl ⟨by simpa using hfallback, hconfirms, record, rfl, hconfirmed⟩
    · refine .inr ⟨hdeclines, fun r hr => ?_⟩
      obtain rfl := Response.record.inj hr
      exact hrejected

end GsnRelay
