import AgenticPay.BillingTypes
import AgenticPay.Records
import AgenticPay.Transaction

/-!
# Account-to-account transfers

A transfer is priced, perhaps by a quote, and settles at once or, when it is scheduled, later.
Amounts are exact numbers and times are milliseconds. Left out are names and metadata, which no call
reads.
-/
namespace Transfers

open Records Transaction

abbrev AccountId := String
abbrev QuoteId := String
abbrev TransferId := String

inductive TransferStatus where
  | pending
  | processing
  | completed
  | failed
  | cancelled
  | reversed
  deriving DecidableEq

def TransferStatus.text : TransferStatus → String
  | .pending => "pending"
  | .processing => "processing"
  | .completed => "completed"
  | .failed => "failed"
  | .cancelled => "cancelled"
  | .reversed => "reversed"

inductive TransferRail where
  | instant
  | standard
  deriving DecidableEq

inductive AccountStatus where
  | active
  | frozen
  | closed
  deriving DecidableEq

structure Account where
  id : AccountId
  currency : String
  status : AccountStatus
  createdAt : Int
  deriving DecidableEq

structure TransferQuote where
  id : QuoteId
  sourceAccountId : AccountId
  destinationAccountId : AccountId
  amount : ℚ
  currency : String
  destinationCurrency : String
  destinationAmount : ℚ
  fee : ℚ
  totalDebit : ℚ
  fxRate : ℚ
  rail : TransferRail
  expiresAt : Int
  createdAt : Int
  deriving DecidableEq

structure Transfer where
  id : TransferId
  quoteId : Option QuoteId
  idempotencyKey : String
  sourceAccountId : AccountId
  destinationAccountId : AccountId
  amount : ℚ
  fee : ℚ
  totalDebit : ℚ
  currency : String
  destinationCurrency : String
  destinationAmount : ℚ
  fxRate : ℚ
  rail : TransferRail
  status : TransferStatus
  scheduledFor : Option Int
  completedAt : Option Int
  cancelledAt : Option Int
  reversedAt : Option Int
  reversalReason : Option String
  createdAt : Int
  updatedAt : Int
  deriving DecidableEq

structure RegisterAccountInput where
  id : Option AccountId
  currency : String
  status : Option AccountStatus

/-- The accounts and the amount that a quote or a transfer is asked for. -/
structure TransferRequest where
  sourceAccountId : AccountId
  destinationAccountId : AccountId
  amount : ℚ
  destinationCurrency : Option String

structure CreateTransferInput extends TransferRequest where
  quoteId : Option QuoteId
  idempotencyKey : String
  scheduledFor : Option (Option Int)  -- what is given may be no date

structure TransferLimits where
  perTransfer : ℚ
  daily : ℚ
  reversalWindowMs : Int
  quoteTtlMs : Int

/-- What the host does with texts. -/
structure Host where
  toUpperCase : String → String
  showNumber : ℚ → String

structure State where
  accounts : Table Account.id
  quotes : Table TransferQuote.id
  transfers : Table Transfer.id
  idempotencyIndex : String → Option TransferId

def start : State := ⟨∅, ∅, ∅, fun _ => none⟩

structure Told where
  now : Int
  uuid : String

inductive Call where
  | registerAccount (input : RegisterAccountInput)
  | createQuote (request : TransferRequest)
  | initiateTransfer (input : CreateTransferInput)
  | settleTransfer (id : TransferId)
  | cancelTransfer (id : TransferId)
  | reverseTransfer (id : TransferId) (reason : String)

inductive Response where
  | account (account : Account)
  | quote (quote : TransferQuote)
  | initiated (transfer : Transfer) (idempotent : Bool)
  | transfer (transfer : Transfer)

def dayMs : Int := 24 * 60 * 60 * 1000

def round (value : ℚ) : ℚ := Billing.roundMoney value 2

/-- The currencies that settle on the instant rail. -/
def instantCurrencies : List String := ["USD", "EUR", "GBP", "USDC"]

/-- The rates against the dollar. -/
def fxRates : String → Option ℚ
  | "USD" => some 1
  | "USDC" => some 1
  | "EUR" => some (92 / 100)
  | "GBP" => some (79 / 100)
  | "NGN" => some 1550
  | "INR" => some (832 / 10)
  | "BRL" => some (505 / 100)
  | _ => none

def orFail {α : Type} (found : Option α) (failure : Billing.Failure) : Except Billing.Failure α :=
  match found with
  | none => .error failure
  | some a => .ok a

variable (host : Host) (limits : TransferLimits)

/-! ## Accounts, prices and quotes -/

def newAccount (told : Told) (input : RegisterAccountInput) : Except Billing.Failure Account := do
  let currency := host.toUpperCase input.currency
  Billing.validate (currency.length = 3) "Currency must be a 3-letter ISO code"
  Billing.validate ((fxRates currency).isSome = true) ("Unsupported currency: " ++ currency)
  return ⟨input.id.getD ("acct_" ++ told.uuid), currency, input.status.getD .active, told.now⟩

structure TransferContext where
  source : Account
  destination : Account
  currency : String
  destinationCurrency : String
  rail : TransferRail

def resolveTransferContext (request : TransferRequest) (s : State) :
    Except Billing.Failure TransferContext := do
  Billing.validate (0 < request.amount) "Amount must be greater than 0"
  Billing.validate (request.sourceAccountId ≠ request.destinationAccountId)
    "Source and destination accounts must be different"
  let source ← orFail (s.accounts.get request.sourceAccountId)
    (Billing.notFound "Source account" request.sourceAccountId)
  let destination ← orFail (s.accounts.get request.destinationAccountId)
    (Billing.notFound "Destination account" request.destinationAccountId)
  if source.status ≠ .active then
    .error (Billing.forbidden "Source account is not active")
  else if destination.status ≠ .active then
    .error (Billing.forbidden "Destination account is not active")
  else
    Billing.validate (request.amount ≤ limits.perTransfer)
      ("Amount exceeds the per-transfer limit of " ++ host.showNumber limits.perTransfer ++ " " ++
        source.currency)
    let destinationCurrency :=
      host.toUpperCase (request.destinationCurrency.getD destination.currency)
    let rail : TransferRail :=
      if source.currency ∈ instantCurrencies ∧ destinationCurrency ∈ instantCurrencies then .instant
      else .standard
    return ⟨source, destination, source.currency, destinationCurrency, rail⟩

structure Price where
  fee : ℚ
  fxRate : ℚ
  destinationAmount : ℚ

/-- Half a percent, at least 0.50 and at most 25.00. -/
def priceTransfer (amount : ℚ) (currency destinationCurrency : String) :
    Except Billing.Failure Price := do
  let fee := round (min (max (amount * (5 / 1000)) (1 / 2)) 25)
  let sourceRate ← orFail (fxRates currency)
    ⟨"Unsupported source currency: " ++ currency, 400, "VALIDATION_ERROR"⟩
  let destinationRate ← orFail (fxRates destinationCurrency)
    ⟨"Unsupported destination currency: " ++ destinationCurrency, 400, "VALIDATION_ERROR"⟩
  let fxRate := Billing.roundMoney (destinationRate / sourceRate) 6
  return ⟨fee, fxRate, round (amount * fxRate)⟩

def quoteId (told : Told) : QuoteId := "qt_" ++ told.uuid

def newQuote (told : Told) (request : TransferRequest) (s : State) :
    Except Billing.Failure TransferQuote := do
  let context ← resolveTransferContext host limits request s
  let price ← priceTransfer request.amount context.currency context.destinationCurrency
  return {
    id := quoteId told
    sourceAccountId := context.source.id
    destinationAccountId := context.destination.id
    amount := round request.amount
    currency := context.currency
    destinationCurrency := context.destinationCurrency
    destinationAmount := price.destinationAmount
    fee := price.fee
    totalDebit := round (request.amount + price.fee)
    fxRate := price.fxRate
    rail := context.rail
    expiresAt := told.now + limits.quoteTtlMs
    createdAt := told.now }

/-! ## Transfers -/

/-- The transfer counts to the volume of its source account in the day before the time. -/
def counts (now : Int) (accountId : AccountId) (t : Transfer) : Bool :=
  t.sourceAccountId = accountId &&
    (t.status ∈ [TransferStatus.pending, .processing, .completed] && now - dayMs ≤ t.createdAt)

def volumeAt (now : Int) (accountId : AccountId) (s : State) : ℚ :=
  ((s.transfers.records.filter (counts now accountId)).map (·.amount)).sum

def getDailyVolume (now : Int) (accountId : AccountId) (s : State) : ℚ :=
  round (volumeAt now accountId s)

def assertVelocityLimit (now : Int) (accountId : AccountId) (currency : String) (amount : ℚ)
    (s : State) : Except Billing.Failure Unit :=
  Billing.validate (getDailyVolume now accountId s + amount ≤ limits.daily)
    ("Daily transfer limit of " ++ host.showNumber limits.daily ++ " " ++ currency ++
      " would be exceeded")

/-- The quote of a transfer that is given one. -/
def quotedPrice (now : Int) (context : TransferContext) (amount : ℚ) (id : QuoteId) (s : State) :
    Except Billing.Failure (Option QuoteId × Price) := do
  let quote ← orFail (s.quotes.get id) (Billing.notFound "Transfer quote" id)
  Billing.validate (now < quote.expiresAt) "Transfer quote has expired"
  Billing.validate (quote.sourceAccountId = context.source.id ∧
      quote.destinationAccountId = context.destination.id)
    "Transfer quote does not match the source/destination accounts"
  Billing.validate (round quote.amount = round amount) "Transfer amount does not match the quote"
  return (some quote.id, ⟨quote.fee, quote.fxRate, quote.destinationAmount⟩)

def pricedBy (now : Int) (context : TransferContext) (input : CreateTransferInput) (s : State) :
    Except Billing.Failure (Option QuoteId × Price) :=
  match input.quoteId.filter (· ≠ "") with
  | some id => quotedPrice now context input.amount id s
  | none => do
    let price ← priceTransfer input.amount context.currency context.destinationCurrency
    return (none, price)

def scheduled : Option (Option Int) → Except Billing.Failure (Option Int)
  | none => return none
  | some none => .error ⟨"scheduledFor must be a valid ISO date", 400, "VALIDATION_ERROR"⟩
  | some (some time) => return some time

def transferId (told : Told) : TransferId := "tr_" ++ told.uuid

def isFutureDated (now : Int) (scheduledFor : Option Int) : Bool := scheduledFor.any (now < ·)

/-- The transfer of a request, before it settles. -/
def newTransfer (told : Told) (input : CreateTransferInput) (s : State) :
    Except Billing.Failure Transfer := do
  let context ← resolveTransferContext host limits input.toTransferRequest s
  let scheduledFor ← scheduled input.scheduledFor
  let isFuture := isFutureDated told.now scheduledFor
  let (quoteId, price) ← pricedBy told.now context input s
  assertVelocityLimit host limits told.now context.source.id context.currency input.amount s
  return {
    id := transferId told
    quoteId
    idempotencyKey := input.idempotencyKey
    sourceAccountId := context.source.id
    destinationAccountId := context.destination.id
    amount := round input.amount
    fee := price.fee
    totalDebit := round (input.amount + price.fee)
    currency := context.currency
    destinationCurrency := context.destinationCurrency
    destinationAmount := price.destinationAmount
    fxRate := price.fxRate
    rail := if isFuture then .standard else context.rail
    status := if isFuture then .pending else .processing
    scheduledFor
    completedAt := none
    cancelledAt := none
    reversedAt := none
    reversalReason := none
    createdAt := told.now
    updatedAt := told.now }

def settled (now : Int) (t : Transfer) : Transfer :=
  { t with status := .completed, completedAt := some now, updatedAt := now }

def settle (now : Int) (t : Transfer) : Except Billing.Failure Transfer :=
  if t.status ≠ .pending ∧ t.status ≠ .processing then
    .error (Billing.conflict ("Transfer cannot be settled from status " ++ t.status.text))
  else .ok (settled now t)

def cancel (now : Int) (t : Transfer) : Except Billing.Failure Transfer :=
  if t.status ≠ .pending then
    .error (Billing.conflict
      ("Transfer in status " ++ t.status.text ++ " cannot be " ++ "cancel" ++ "led"))
  else .ok { t with status := .cancelled, cancelledAt := some now, updatedAt := now }

def reverse (now : Int) (reason : String) (t : Transfer) : Except Billing.Failure Transfer :=
  if t.status ≠ .completed then
    .error (Billing.conflict "Only completed transfers can be reversed")
  else if limits.reversalWindowMs < now - t.completedAt.getD 0 then
    .error (Billing.conflict "Transfer is outside the reversal window")
  else
    .ok { t with
      status := .reversed, reversedAt := some now, reversalReason := some reason
      updatedAt := now }

/-! ## The service -/

abbrev Returned := Except Billing.Failure Response × State

def registerAccount (told : Told) (input : RegisterAccountInput) (s : State) : Returned :=
  match newAccount host told input with
  | .error failure => (.error failure, s)
  | .ok account => (.ok (.account account), { s with accounts := s.accounts.set account })

def createQuote (told : Told) (request : TransferRequest) (s : State) : Returned :=
  match newQuote host limits told request s with
  | .error failure => (.error failure, s)
  | .ok quote => (.ok (.quote quote), { s with quotes := s.quotes.set quote })

/-- A transfer that exists is changed. -/
def change (id : TransferId) (f : Transfer → Except Billing.Failure Transfer) (s : State) :
    Returned :=
  match s.transfers.get id with
  | none => (.error (Billing.notFound "Transfer" id), s)
  | some t =>
    match f t with
    | .error failure => (.error failure, s)
    | .ok changed => (.ok (.transfer changed), { s with transfers := s.transfers.set changed })

/-- The transfer that was first made with the key. -/
def existing (key : String) (s : State) : Option Transfer :=
  (s.idempotencyIndex key).bind s.transfers.get

/-- What is not scheduled for later settles before it is returned. -/
def initiateTransfer (told : Told) (input : CreateTransferInput) (s : State) : Returned :=
  if input.idempotencyKey = "" then
    (.error ⟨"idempotencyKey is required", 400, "VALIDATION_ERROR"⟩, s)
  else
    match existing input.idempotencyKey s with
    | some t => (.ok (.initiated t true), s)
    | none =>
      match newTransfer host limits told input s with
      | .error failure => (.error failure, s)
      | .ok t =>
        let t := if t.status = .processing then settled told.now t else t
        (.ok (.initiated t false),
          { s with
            transfers := s.transfers.set t
            idempotencyIndex := Function.update s.idempotencyIndex t.idempotencyKey (some t.id) })

def reverseTransfer (now : Int) (id : TransferId) (reason : String) (s : State) : Returned :=
  if reason = "" then (.error ⟨"Reversal reason is required", 400, "VALIDATION_ERROR"⟩, s)
  else change id (reverse limits now reason) s

/-- One call. An identifier that is not new is no call. -/
def service : System (Call × Told) State Unit (Except Billing.Failure Response)
  | (.registerAccount input, told), s => .ok (registerAccount host told input s)
  | (.createQuote request, told), s =>
    if s.quotes.get (quoteId told) = none then .ok (createQuote host limits told request s)
    else .error ()
  | (.initiateTransfer input, told), s =>
    if s.transfers.get (transferId told) = none then
      .ok (initiateTransfer host limits told input s)
    else .error ()
  | (.settleTransfer id, told), s => .ok (change id (settle told.now) s)
  | (.cancelTransfer id, told), s => .ok (change id (cancel told.now) s)
  | (.reverseTransfer id reason, told), s =>
    .ok (reverseTransfer limits told.now id reason s)

end Transfers
