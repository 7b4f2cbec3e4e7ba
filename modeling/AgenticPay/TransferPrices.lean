import AgenticPay.TransferRuns

/-!
# What a transfer converts to

The destination is credited the amount at the rate of the transfer's own currencies, except where
the numbers come from elsewhere: from a quote for another currency, or from an amount before it was
rounded to whole cents.
-/
namespace Transfers

open Billing (IsCents)
open Records Transaction

variable (host : Host) (limits : TransferLimits)

/-! ## Conditions -/

/-- The rate that the prices of two currencies have, whatever the amount. -/
def rateBetween (currency destinationCurrency : String) : Option ℚ :=
  (priceTransfer 0 currency destinationCurrency).toOption.map (·.fxRate)

/-- A transfer is converted at the rate of its own currencies. -/
structure Converted (t : Transfer) : Prop where
  amount : t.destinationAmount = round (t.amount * t.fxRate)
  rate : ∃ price, priceTransfer t.amount t.currency t.destinationCurrency = .ok price ∧
    price.fxRate = t.fxRate

/-- The transfer that a call has returned, and whether it was made before. -/
def initiated (s : State) (c : Call × Told) : Option (Transfer × Bool) :=
  match service host limits c s with
  | .ok (.ok (.initiated t idempotent), _) => some (t, idempotent)
  | _ => none

/-- The transfer that a call returns is converted at the rate of its own currencies. -/
def Converts (s : State) (c : Call × Told) : Prop :=
  ∀ returned ∈ initiated host limits s c, Converted returned.1

/-- A quote is for the rate of the transfer, and its amount converts as the whole cents that it
kept. Without a quote, the amount converts as its whole cents. -/
def Fits (context : TransferContext) (input : CreateTransferInput) (s : State) : Prop :=
  match (input.quoteId.filter (· ≠ "")).bind s.quotes.get with
  | some quote =>
    rateBetween quote.currency quote.destinationCurrency =
        rateBetween context.currency context.destinationCurrency ∧
      quote.destinationAmount = round (quote.amount * quote.fxRate)
  | none => ∀ rate ∈ rateBetween context.currency context.destinationCurrency,
    round (input.amount * rate) = round (round input.amount * rate)

/-- A transfer is made with a quote or an amount that fits. -/
def Fitting (s : State) (c : Call × Told) : Prop :=
  ∀ input told t context, c = (.initiateTransfer input, told) →
    initiated host limits s c = some (t, false) →
      resolveTransferContext host limits input.toTransferRequest s = .ok context →
        Fits context input s

variable {host limits} {s s' : State} {c : Call × Told} {t changed : Transfer}
  {quote : TransferQuote} {context : TransferContext} {told : Told} {input : CreateTransferInput}
  {price : Price} {amount rate : ℚ} {currency destinationCurrency : String}

/-! ## Prices -/

theorem orFail_ok {α : Type} {found : Option α} {failure : Billing.Failure} {a : α} :
    orFail found failure = .ok a ↔ found = some a := by
  cases found with
  | none => simp [orFail]
  | some b => simp [orFail]

theorem rateBetween_eq (currency destinationCurrency : String) :
    rateBetween currency destinationCurrency = (fxRates currency).bind fun sourceRate =>
      (fxRates destinationCurrency).map fun destinationRate =>
        Billing.roundMoney (destinationRate / sourceRate) 6 := by
  cases hsource : fxRates currency with
  | none =>
    rw [rateBetween, priceTransfer, hsource]
    rfl
  | some sourceRate =>
    cases hdestination : fxRates destinationCurrency with
    | none =>
      rw [rateBetween, priceTransfer, hsource, hdestination]
      rfl
    | some destinationRate =>
      rw [rateBetween, priceTransfer, hsource, hdestination]
      rfl

theorem priceTransfer_ok (h : priceTransfer amount currency destinationCurrency = .ok price) :
    rateBetween currency destinationCurrency = some price.fxRate ∧
      price.destinationAmount = round (amount * price.fxRate) := by
  obtain ⟨sourceRate, hsource, h⟩ := bind_returns h
  obtain ⟨destinationRate, hdestination, h⟩ := bind_returns h
  cases h
  rw [rateBetween_eq, orFail_ok.mp hsource, orFail_ok.mp hdestination]
  exact ⟨rfl, rfl⟩

/-- Currencies that have a rate have a price for every amount. -/
theorem priceTransfer_of_rate (h : rateBetween currency destinationCurrency = some rate) :
    ∃ price, priceTransfer amount currency destinationCurrency = .ok price ∧
      price.fxRate = rate := by
  rw [rateBetween_eq] at h
  obtain ⟨sourceRate, hsource, h⟩ := Option.bind_eq_some_iff.mp h
  obtain ⟨destinationRate, hdestination, rfl⟩ := Option.map_eq_some_iff.mp h
  rw [priceTransfer, hsource, hdestination]
  exact ⟨_, rfl, rfl⟩

theorem converted_iff :
    Converted t ↔ t.destinationAmount = round (t.amount * t.fxRate) ∧
      rateBetween t.currency t.destinationCurrency = some t.fxRate := by
  constructor
  · rintro ⟨hamount, price, hprice, hrate⟩
    exact ⟨hamount, hrate ▸ (priceTransfer_ok hprice).1⟩
  · rintro ⟨hamount, hrate⟩
    exact ⟨hamount, priceTransfer_of_rate hrate⟩

instance (t : Transfer) : Decidable (Converted t) :=
  decidable_of_iff _ converted_iff.symm

instance (s : State) (c : Call × Told) : Decidable (Converts host limits s c) :=
  inferInstanceAs (Decidable (∀ returned ∈ initiated host limits s c, Converted returned.1))

/-- What a quote holds of its currencies and its amount. -/
structure Quoted (quote : TransferQuote) : Prop where
  rate : rateBetween quote.currency quote.destinationCurrency = some quote.fxRate
  cents : IsCents quote.amount

theorem newQuote_quoted {request : TransferRequest}
    (h : newQuote host limits told request s = .ok quote) : Quoted quote := by
  obtain ⟨context, -, h⟩ := bind_returns h
  obtain ⟨price, hprice, h⟩ := bind_returns h
  cases h
  exact ⟨(priceTransfer_ok hprice).1, Billing.roundMoney_isCents _⟩

theorem quotedPrice_ok {now : Int} {id : QuoteId} {priced : Option QuoteId × Price}
    (h : quotedPrice now context amount id s = .ok priced) :
    ∃ quote, s.quotes.get id = some quote ∧ round quote.amount = round amount ∧
      priced = (some quote.id, ⟨quote.fee, quote.fxRate, quote.destinationAmount⟩) := by
  obtain ⟨quote, hquote, h⟩ := bind_returns h
  obtain ⟨_, -, h⟩ := bind_returns h
  obtain ⟨_, -, h⟩ := bind_returns h
  obtain ⟨_, hamount, h⟩ := bind_returns h
  cases h
  exact ⟨quote, orFail_ok.mp hquote, Billing.validate_ok.mp hamount, rfl⟩

/-! ## Transfers -/

/-- A new transfer is converted as it should be exactly if its quote or its amount fits. -/
theorem newTransfer_converted (hquotes : ∀ quote ∈ s.quotes, Quoted quote)
    (h : newTransfer host limits told input s = .ok t) :
    ∃ context, resolveTransferContext host limits input.toTransferRequest s = .ok context ∧
      (Converted t ↔ Fits context input s) := by
  obtain ⟨context, hcontext, h⟩ := bind_returns h
  obtain ⟨scheduledFor, -, h⟩ := bind_returns h
  obtain ⟨⟨quoteId, price⟩, hprice, h⟩ := bind_returns h
  obtain ⟨_, -, h⟩ := bind_returns h
  cases h
  refine ⟨context, hcontext, ?_⟩
  rw [converted_iff, Fits]
  dsimp only
  rw [pricedBy] at hprice
  cases hid : input.quoteId.filter (· ≠ "") with
  | some id =>
    rw [hid] at hprice
    obtain ⟨quote, hquote, hamount, hpriced⟩ := quotedPrice_ok hprice
    cases hpriced
    have hquoted := hquotes quote (Table.get_some hquote).1
    have hcents : round quote.amount = quote.amount := hquoted.cents.round
    rw [Option.bind_some, hquote, ← hamount, hcents]
    dsimp only
    rw [hquoted.rate]
    exact and_comm.trans (and_congr_left fun _ => eq_comm)
  | none =>
    rw [hid] at hprice
    obtain ⟨priced, hpriced, he⟩ := bind_returns hprice
    cases he
    obtain ⟨hrate, hdestination⟩ := priceTransfer_ok hpriced
    rw [hrate, hdestination, Option.bind_none]
    constructor
    · rintro ⟨heq, -⟩ rate hmem
      rw [← Option.some.inj hmem]
      exact heq
    · intro hall
      exact ⟨hall price.fxRate rfl, rfl⟩

/-- The amounts and the currencies of a transfer stay as they were. -/
structure SamePrice (t changed : Transfer) : Prop where
  amount : changed.amount = t.amount
  currency : changed.currency = t.currency
  destinationCurrency : changed.destinationCurrency = t.destinationCurrency
  destinationAmount : changed.destinationAmount = t.destinationAmount
  fxRate : changed.fxRate = t.fxRate

theorem SamePrice.converted_iff (h : SamePrice t changed) : Converted changed ↔ Converted t := by
  rw [Transfers.converted_iff, Transfers.converted_iff, h.amount, h.currency,
    h.destinationCurrency, h.destinationAmount, h.fxRate]

theorem kept_samePrice (now : Int) (t : Transfer) : SamePrice t (kept now t) := by
  rw [kept]
  split
  · exact ⟨rfl, rfl, rfl, rfl, rfl⟩
  · exact ⟨rfl, rfl, rfl, rfl, rfl⟩

theorem settle_samePrice {now : Int} (h : settle now t = .ok changed) : SamePrice t changed := by
  rw [settle] at h
  split_ifs at h
  cases h
  exact ⟨rfl, rfl, rfl, rfl, rfl⟩

theorem cancel_samePrice {now : Int} (h : cancel now t = .ok changed) : SamePrice t changed := by
  rw [cancel] at h
  split_ifs at h
  cases h
  exact ⟨rfl, rfl, rfl, rfl, rfl⟩

theorem reverse_samePrice {now : Int} {reason : String}
    (h : reverse limits now reason t = .ok changed) : SamePrice t changed := by
  rw [reverse] at h
  split_ifs at h
  cases h
  exact ⟨rfl, rfl, rfl, rfl, rfl⟩

/-! ## Calls -/

/-- Every quote is at a rate, and every transfer is converted as it should be. -/
structure Priced (s : State) : Prop where
  quotes : ∀ quote ∈ s.quotes, Quoted quote
  transfers : ∀ t ∈ s.transfers, Converted t

/-- What `initiateTransfer` makes and returns. -/
theorem initiateTransfer_cases (host : Host) (limits : TransferLimits) (told : Told)
    (input : CreateTransferInput) (s : State) :
    (∃ failure, initiateTransfer host limits told input s = (.error failure, s)) ∨
    (∃ t ∈ s.transfers, initiateTransfer host limits told input s = (.ok (.initiated t true), s)) ∨
    ∃ t index, newTransfer host limits told input s = .ok t ∧
      initiateTransfer host limits told input s = (.ok (.initiated (kept told.now t) false),
        ⟨s.accounts, s.quotes, s.transfers.set (kept told.now t), index⟩) := by
  rw [initiateTransfer]
  split_ifs
  · exact .inl ⟨_, rfl⟩
  · cases hexisting : existing input.idempotencyKey s with
    | some t =>
      obtain ⟨id, -, hget⟩ := Option.bind_eq_some_iff.mp hexisting
      exact .inr (.inl ⟨t, (Table.get_some hget).1, rfl⟩)
    | none =>
      cases hnew : newTransfer host limits told input s with
      | error failure => exact .inl ⟨failure, rfl⟩
      | ok t => exact .inr (.inr ⟨t, _, rfl, rfl⟩)

theorem change_not_initiated (id : TransferId) (f : Transfer → Except Billing.Failure Transfer)
    (idempotent : Bool) : change id f s ≠ (.ok (.initiated t idempotent), s') := by
  intro h
  rw [change] at h
  cases hget : s.transfers.get id with
  | none =>
    rw [hget] at h
    cases h
  | some old =>
    rw [hget] at h
    dsimp only at h
    cases hf : f old with
    | error failure =>
      rw [hf] at h
      cases h
    | ok changed =>
      rw [hf] at h
      cases h

/-- A transfer that a call returns was there before, or it is the one that the call has made. -/
theorem initiated_cases {returned : Transfer × Bool}
    (h : initiated host limits s c = some returned) :
    (returned.2 = true ∧ returned.1 ∈ s.transfers) ∨
      ∃ input told t, c = (.initiateTransfer input, told) ∧
        newTransfer host limits told input s = .ok t ∧ returned = (kept told.now t, false) := by
  rw [initiated] at h
  split at h
  next t idempotent s' hreturned =>
    obtain ⟨call, told⟩ := c
    cases h
    cases call with
    | registerAccount input =>
      rw [service, registerAccount] at hreturned
      cases hnew : newAccount host told input with
      | error failure =>
        rw [hnew] at hreturned
        cases hreturned
      | ok account =>
        rw [hnew] at hreturned
        cases hreturned
    | createQuote request =>
      rw [service, createQuote] at hreturned
      split_ifs at hreturned
      cases hnew : newQuote host limits told request s with
      | error failure =>
        rw [hnew] at hreturned
        cases hreturned
      | ok quote =>
        rw [hnew] at hreturned
        cases hreturned
    | initiateTransfer input =>
      rw [service] at hreturned
      split_ifs at hreturned
      obtain ⟨failure, he⟩ | ⟨old, hold, he⟩ | ⟨new, index, hnew, he⟩ :=
        initiateTransfer_cases host limits told input s
      · rw [he] at hreturned
        cases hreturned
      · rw [he] at hreturned
        cases hreturned
        exact .inl ⟨rfl, hold⟩
      · rw [he] at hreturned
        injection hreturned with hturn
        injection hturn with hresponse
        injection hresponse with hresponse
        injection hresponse with ht hidempotent
        rw [← ht, ← hidempotent]
        exact .inr ⟨input, told, new, rfl, hnew, rfl⟩
    | settleTransfer id =>
      exact absurd (Except.ok.inj hreturned) (change_not_initiated id _ idempotent)
    | cancelTransfer id =>
      exact absurd (Except.ok.inj hreturned) (change_not_initiated id _ idempotent)
    | reverseTransfer id reason =>
      have hturn := Except.ok.inj hreturned
      rw [reverseTransfer] at hturn
      split_ifs at hturn
      · cases hturn
      · exact absurd hturn (change_not_initiated id _ idempotent)
  next => cases h

/-- The transfer that a call returns is converted as it should be exactly if what it is made with
fits. -/
theorem converts_iff (h : Priced s) :
    Converts host limits s c ↔ Fitting host limits s c := by
  constructor
  · rintro hconverts input told made context rfl hreturned hcontext
    obtain ⟨hold, -⟩ | ⟨input', told', t, hcall, hnew, he⟩ := initiated_cases hreturned
    · cases hold
    · cases hcall
      obtain ⟨context', hcontext', hiff⟩ := newTransfer_converted h.quotes hnew
      obtain rfl := Except.ok.inj (hcontext'.symm.trans hcontext)
      have hmade : Converted made := hconverts _ hreturned
      rw [show made = kept told.now t from congrArg Prod.fst he,
        (kept_samePrice told.now t).converted_iff] at hmade
      exact hiff.mp hmade
  · intro hfitting returned hreturned
    obtain ⟨-, hold⟩ | ⟨input, told, t, rfl, hnew, rfl⟩ := initiated_cases hreturned
    · exact h.transfers _ hold
    · obtain ⟨context, hcontext, hiff⟩ := newTransfer_converted h.quotes hnew
      have hfits := hfitting input told _ context rfl hreturned hcontext
      exact (kept_samePrice told.now t).converted_iff.mpr (hiff.mpr hfits)

theorem priced_change {id : TransferId} {f : Transfer → Except Billing.Failure Transfer}
    (h : Priced s) (hf : ∀ t changed, f t = .ok changed → SamePrice t changed) :
    Priced (change id f s).2 := by
  obtain hsame | ⟨t, changed, hget, hchanged, he⟩ := change_cases id f s
  · rw [hsame]
    exact h
  · rw [he]
    refine ⟨h.quotes, Table.forall_set ?_ h.transfers⟩
    exact (hf t changed hchanged).converted_iff.mpr (h.transfers t (Table.get_some hget).1)

/-- Quotes and transfers stay priced as long as what is returned is. -/
theorem priced_commit (h : Priced s) (hconverts : Converts host limits s c) :
    Priced (commit (service host limits) s c) := by
  obtain ⟨call, told⟩ := c
  cases call with
  | registerAccount input =>
    rw [commit, service, registerAccount]
    cases newAccount host told input with
    | error failure => exact h
    | ok account => exact ⟨h.quotes, h.transfers⟩
  | createQuote request =>
    rw [commit, service]
    split_ifs
    · rw [createQuote]
      cases hnew : newQuote host limits told request s with
      | error failure => exact h
      | ok quote => exact ⟨Table.forall_set (newQuote_quoted hnew) h.quotes, h.transfers⟩
    · exact h
  | initiateTransfer input =>
    by_cases hfresh : s.transfers.get (transferId told) = none
    · obtain ⟨failure, he⟩ | ⟨old, -, he⟩ | ⟨t, index, hnew, he⟩ :=
        initiateTransfer_cases host limits told input s
      · rw [commit, service, if_pos hfresh, he]
        exact h
      · rw [commit, service, if_pos hfresh, he]
        exact h
      · have hreturned : initiated host limits s (.initiateTransfer input, told) =
            some (kept told.now t, false) := by
          rw [initiated, service, if_pos hfresh, he]
        rw [commit, service, if_pos hfresh, he]
        exact ⟨h.quotes, Table.forall_set (hconverts _ hreturned) h.transfers⟩
    · rw [commit, service, if_neg hfresh]
      exact h
  | settleTransfer id => exact priced_change h fun _ _ => settle_samePrice
  | cancelTransfer id => exact priced_change h fun _ _ => cancel_samePrice
  | reverseTransfer id reason =>
    show Priced (reverseTransfer limits told.now id reason s).2
    rw [reverseTransfer]
    split_ifs
    · exact h
    · exact priced_change h fun _ _ => reverse_samePrice

/-! ## Runs -/

theorem start_priced : Priced start where
  quotes := fun _ h => absurd h (Table.not_mem_empty _)
  transfers := fun _ h => absurd h (Table.not_mem_empty _)

/-- A quote for euros prices a transfer to an account in rupees. -/
def quotedElsewhere : List (Call × Told) :=
  [(.registerAccount ⟨some "payer", "USD", none⟩, ⟨0, "1"⟩),
    (.registerAccount ⟨some "payee", "INR", none⟩, ⟨0, "2"⟩),
    (.createQuote ⟨"payer", "payee", 100, some "EUR"⟩, ⟨0, "3"⟩),
    (.initiateTransfer { sourceAccountId := "payer", destinationAccountId := "payee", amount := 100
                         destinationCurrency := none, quoteId := some "qt_3"
                         idempotencyKey := "key", scheduledFor := none }, ⟨0, "4"⟩)]

/-- Quotes for the currencies of the transfer, in whole cents, fit. -/
example : Along (service plainHost dollars) (Converts plainHost dollars) start
    (quotedElsewhere.set 3
      (.initiateTransfer { sourceAccountId := "payer", destinationAccountId := "payee"
                           amount := 100, destinationCurrency := some "EUR"
                           quoteId := some "qt_3", idempotencyKey := "key"
                           scheduledFor := none }, ⟨0, "4"⟩)) := by
  decide +kernel

end Transfers
