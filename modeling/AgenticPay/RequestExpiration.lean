import AgenticPay.Awaits
import AgenticPay.Json
import AgenticPay.Records

/-!
# Payment requests and their expiration

A request is paid, cancelled or expired by calls that read it and write it in separate database
calls. In a run in which no cancellation is written to a request that is no longer pending, and no
payment to one that is paid, a paid request stays as it was paid, and what ends otherwise was
pending. Left out are the parties, amounts and memos of requests, which no call reads.
-/
namespace RequestExpiration

open Awaits Records Transaction
open Json (Value)

abbrev RequestId := String

inductive PaymentRequestStatus where
  | pending
  | paid
  | expired
  | cancelled
  deriving DecidableEq

structure PaymentRequestRecord where
  id : RequestId
  status : PaymentRequestStatus
  expiresAt : Int
  expiredAt : Option Int
  paidAt : Option Int
  createdAt : Int
  metadata : Option Value

/-- The hash of the transaction that has paid the request. -/
def PaymentRequestRecord.txHash (req : PaymentRequestRecord) : Option String :=
  match req.metadata with
  | some (.object members) =>
    match members.lookup "txHash" with
    | some (.string hash) => some hash
    | _ => none
  | _ => none

abbrev State := Table PaymentRequestRecord.id

inductive Failure where
  | notFound (requestId : RequestId)
  | expired (requestId : RequestId) (expiresAt : Int)
  | cancelled (requestId : RequestId)
  | alreadyPaid (requestId : RequestId)
  | cannotCancel (status : PaymentRequestStatus)
  | database (message : String)

structure ExpirationSweepResult where
  expiredCount : Nat
  notified : Nat
  errors : List String

inductive Response where
  | done
  | request (req : PaymentRequestRecord)
  | swept (result : ExpirationSweepResult)

inductive Call where
  | markPaid (requestId : RequestId) (txHash : Option String)
  | cancelRequest (requestId : RequestId)
  | assertNotExpired (requestId : RequestId)
  | sweepExpired

/-- A pass over the requests that are past their deadline. -/
structure Sweep where
  cutoff : Int
  cursor : Option RequestId
  result : ExpirationSweepResult

/-- The database call that is waited for. -/
inductive Waiting where
  | paying (requestId : RequestId) (paidAt : Int) (txHash : Option String)
  | cancelReads (requestId : RequestId)
  | cancelling (requestId : RequestId)
  | assertReads (requestId : RequestId)
  | assertExpires (requestId : RequestId) (expiresAt expiredAt : Int)
  | sweepReads (sweep : Sweep)
  | sweepExpires (sweep : Sweep) (batch : List PaymentRequestRecord) (expiredAt : Int)

/-- The time, and what the database rejects the call with. -/
structure Told where
  now : Int
  rejects : Option String

abbrev Ends := Turn Waiting (Except Failure Response) × State

def gracePeriodMs : Int := 60000
def batchSize : Nat := 100

/-! ## Database calls -/

def paid (paidAt : Int) (txHash : Option String) (req : PaymentRequestRecord) :
    PaymentRequestRecord :=
  { req with
    status := .paid
    paidAt := some paidAt
    metadata := match txHash.filter (· ≠ "") with
      | some hash => some (.object [("txHash", .string hash)])
      | none => req.metadata }

def cancelled (req : PaymentRequestRecord) : PaymentRequestRecord :=
  { req with status := .cancelled }

/-- `update`, which rejects when there is no such record. -/
def update (requestId : RequestId) (f : PaymentRequestRecord → PaymentRequestRecord) (s : State) :
    Ends :=
  match s.get requestId with
  | none => (.done (.error (.database "Record to update not found.")), s)
  | some req => (.done (.ok .done), s.set (f req))

def expire (ids : List RequestId) (expiredAt : Int) (req : PaymentRequestRecord) :
    PaymentRequestRecord :=
  if req.id ∈ ids ∧ req.status = .pending then
    { req with status := .expired, expiredAt := some expiredAt }
  else req

/-- `updateMany` of the requests that are still pending. -/
def markExpired (ids : List RequestId) (expiredAt : Int) (s : State) : State :=
  s.map (expire ids expiredAt) fun req => by rw [expire]; split <;> rfl

/-- How the database takes a batch, after the cursor, of the requests that match. -/
abbrev Page := Option RequestId → List PaymentRequestRecord → List PaymentRequestRecord

/-! ## Turns -/

def readRequest (requestId : RequestId) (s : State) (next : PaymentRequestRecord → Ends) : Ends :=
  match s.get requestId with
  | none => (.done (.error (.notFound requestId)), s)
  | some req => next req

def assertRead (told : Told) (requestId : RequestId) (s : State) : Ends :=
  readRequest requestId s fun req =>
    match req.status with
    | .expired => (.done (.error (.expired requestId req.expiresAt)), s)
    | .cancelled => (.done (.error (.cancelled requestId)), s)
    | .paid => (.done (.error (.alreadyPaid requestId)), s)
    | .pending =>
      if req.expiresAt + gracePeriodMs < told.now then
        (.waits (.assertExpires requestId req.expiresAt told.now), s)
      else (.done (.ok (.request req)), s)

def cancelRead (requestId : RequestId) (s : State) : Ends :=
  readRequest requestId s fun req =>
    if req.status ≠ .pending then (.done (.error (.cannotCancel req.status)), s)
    else (.waits (.cancelling requestId), s)

def sweepRead (page : Page) (told : Told) (sweep : Sweep) (s : State) : Ends :=
  let batch := page sweep.cursor
    (s.records.filter fun req => req.status = .pending && req.expiresAt < sweep.cutoff)
  if batch.isEmpty then (.done (.ok (.swept sweep.result)), s)
  else (.waits (.sweepExpires sweep batch told.now), s)

/-- The batch is expired, or that has failed, and everybody is notified. -/
def sweepGoesOn (told : Told) (sweep : Sweep) (batch : List PaymentRequestRecord) (s : State) :
    Ends :=
  let result := sweep.result
  let result := match told.rejects with
    | none => { result with expiredCount := result.expiredCount + batch.length }
    | some message =>
      { result with errors := result.errors ++ ["markExpired batch failed: " ++ message] }
  let result := { result with notified := result.notified + batch.length }
  if batch.length < batchSize then (.done (.ok (.swept result)), s)
  else (.waits (.sweepReads { sweep with cursor := batch.getLast?.map (·.id), result }), s)

/-- The database call is carried out, and the call goes on. -/
def carriedOut (page : Page) (task : Waiting) (told : Told) (s : State) : Ends :=
  match task with
  | .paying requestId paidAt txHash => update requestId (paid paidAt txHash) s
  | .cancelReads requestId => cancelRead requestId s
  | .cancelling requestId => update requestId cancelled s
  | .assertReads requestId => assertRead told requestId s
  | .assertExpires requestId expiresAt expiredAt =>
    (.done (.error (.expired requestId expiresAt)), markExpired [requestId] expiredAt s)
  | .sweepReads sweep => sweepRead page told sweep s
  | .sweepExpires sweep batch expiredAt =>
    sweepGoesOn told sweep batch (markExpired (batch.map (·.id)) expiredAt s)

/-- The database call is rejected, which only a sweep survives. -/
def rejected (message : String) (task : Waiting) (told : Told) (s : State) : Ends :=
  match task with
  | .sweepExpires sweep batch _ => sweepGoesOn told sweep batch s
  | _ => (.done (.error (.database message)), s)

def resume (page : Page) (task : Waiting) (told : Told) (s : State) : Ends :=
  match told.rejects with
  | none => carriedOut page task told s
  | some message => rejected message task told s

def call (c : Call) (told : Told) : Waiting :=
  match c with
  | .markPaid requestId txHash => .paying requestId told.now txHash
  | .cancelRequest requestId => .cancelReads requestId
  | .assertNotExpired requestId => .assertReads requestId
  | .sweepExpired => .sweepReads ⟨told.now - gracePeriodMs, none, ⟨0, 0, []⟩⟩

def service (page : Page) : Program Call Told State Waiting (Except Failure Response) where
  call c told s := some (.waits (call c told), s)
  resume := resume page

/-! ## Conditions -/

abbrev Schedule := Config State Waiting

/-- A cancellation is written to a request that is pending, and a payment to one that is not paid,
or they change nothing of one that is cancelled or paid. -/
def Waiting.Guarded (s : State) : Waiting → Prop
  | .cancelling requestId =>
    ∀ req ∈ s.get requestId, req.status = .pending ∨ req.status = .cancelled
  | .paying requestId paidAt txHash => ∀ req ∈ s.get requestId, req.status = .paid →
    req.paidAt = some paidAt ∧ ∀ hash ∈ txHash.filter (· ≠ ""), req.txHash = some hash
  | _ => True

instance (s : State) : (task : Waiting) → Decidable (task.Guarded s)
  | .cancelling requestId => inferInstanceAs (Decidable (∀ req ∈ s.get requestId,
      req.status = .pending ∨ req.status = .cancelled))
  | .paying requestId paidAt txHash => inferInstanceAs (Decidable (∀ req ∈ s.get requestId,
      req.status = .paid →
        req.paidAt = some paidAt ∧ ∀ hash ∈ txHash.filter (· ≠ ""), req.txHash = some hash))
  | .cancelReads _ | .assertReads _ | .assertExpires .. | .sweepReads _ | .sweepExpires .. =>
    isTrue trivial

def Guards (g : Schedule) : Act Call Told → Prop
  | .call .. => True
  | .resume i told => told.rejects = none → ∀ task ∈ g.tasks[i]?, task.Guarded g.state

instance (g : Schedule) : (act : Act Call Told) → Decidable (Guards g act)
  | .call .. => isTrue trivial
  | .resume i told =>
    inferInstanceAs (Decidable (told.rejects = none → ∀ task ∈ g.tasks[i]?, task.Guarded g.state))

/-- The request is paid as it was before. -/
def Stays (req : PaymentRequestRecord) (s : State) : Prop :=
  ∃ req' ∈ s.get req.id, req'.status = .paid ∧ req'.paidAt = req.paidAt ∧ req'.txHash = req.txHash

/-- What is paid stays so, and what is now cancelled or expired was so before, or was pending. -/
structure Lawful (s s' : State) : Prop where
  paid : ∀ req ∈ s, req.status = .paid → Stays req s'
  ended : ∀ req' ∈ s', req'.status = .cancelled ∨ req'.status = .expired →
    ∃ req ∈ s.get req'.id, req.status = req'.status ∨ req.status = .pending

variable {page : Page} {s s' : State} {g : Schedule} {req req' : PaymentRequestRecord}
  {requestId : RequestId} {f : PaymentRequestRecord → PaymentRequestRecord} {act : Act Call Told}

theorem stays_refl (h : req ∈ s) (hpaid : req.status = .paid) : Stays req s :=
  ⟨req, Table.get_of_mem h, hpaid, rfl, rfl⟩

theorem Lawful.refl (s : State) : Lawful s s :=
  ⟨fun _ => stays_refl, fun req' h _ => ⟨req', Table.get_of_mem h, .inl rfl⟩⟩

/-- What an update may make of a request. -/
structure Permits (req req' : PaymentRequestRecord) : Prop where
  id : req'.id = req.id
  paid : req.status = .paid →
    req'.status = .paid ∧ req'.paidAt = req.paidAt ∧ req'.txHash = req.txHash
  ended : req'.status = .cancelled ∨ req'.status = .expired →
    req.status = req'.status ∨ req.status = .pending

theorem Permits.refl (req : PaymentRequestRecord) : Permits req req :=
  ⟨rfl, fun h => ⟨h, rfl, rfl⟩, fun _ => .inl rfl⟩

/-- An update of one request. -/
theorem lawful_set (hget : s.get requestId = some req) (h : Permits req req') :
    Lawful s (s.set req') := by
  have hmem := (Table.get_some hget).1
  constructor
  · intro old hold hpaid
    by_cases he : old.id = req'.id
    · obtain rfl : old = req := Table.key_injective hold hmem (he.trans h.id)
      exact ⟨req', by rw [he, Table.get_set_self]; rfl, h.paid hpaid⟩
    · exact stays_refl (Table.mem_set.mpr (.inr ⟨hold, he⟩)) hpaid
  · intro new hnew hended
    obtain rfl | ⟨hold, -⟩ := Table.mem_set.mp hnew
    · exact ⟨req, by rw [h.id, Table.get_of_mem hmem]; rfl, h.ended hended⟩
    · exact ⟨new, Table.get_of_mem hold, .inl rfl⟩

/-- An update of many requests. -/
theorem lawful_map {hid : ∀ req, (f req).id = req.id} (h : ∀ req, Permits req (f req)) :
    Lawful s (s.map f hid) := by
  constructor
  · intro old hold hpaid
    have hmem : f old ∈ s.map f hid := List.mem_map_of_mem hold
    refine ⟨f old, ?_, (h old).paid hpaid⟩
    rw [← hid old]
    exact Table.get_of_mem hmem
  · intro new hnew hended
    obtain ⟨old, hold, rfl⟩ := List.mem_map.mp hnew
    refine ⟨old, ?_, (h old).ended hended⟩
    rw [hid old]
    exact Table.get_of_mem hold

theorem permits_expire (ids : List RequestId) (expiredAt : Int) (req : PaymentRequestRecord) :
    Permits req (expire ids expiredAt req) := by
  rw [expire]
  split
  next h => exact ⟨rfl, fun hpaid => absurd (h.2.symm.trans hpaid) nofun, fun _ => .inr h.2⟩
  next => exact Permits.refl req

theorem lawful_markExpired (ids : List RequestId) (expiredAt : Int) (s : State) :
    Lawful s (markExpired ids expiredAt s) :=
  lawful_map (permits_expire ids expiredAt)

theorem paid_txHash (paidAt : Int) (txHash : Option String) (req : PaymentRequestRecord) :
    (paid paidAt txHash req).txHash = (txHash.filter (· ≠ "")).or req.txHash := by
  rw [PaymentRequestRecord.txHash, paid]
  cases txHash.filter (· ≠ "") with
  | none => rfl
  | some hash => rfl

/-- A payment that is guarded keeps a request that is paid. -/
theorem permits_paid {paidAt : Int} {txHash : Option String}
    (h : req.status = .paid →
      req.paidAt = some paidAt ∧ ∀ hash ∈ txHash.filter (· ≠ ""), req.txHash = some hash) :
    Permits req (paid paidAt txHash req) := by
  refine ⟨rfl, fun hpaid => ?_, nofun⟩
  obtain ⟨hpaidAt, hhash⟩ := h hpaid
  refine ⟨rfl, hpaidAt.symm, ?_⟩
  rw [paid_txHash]
  cases hgiven : txHash.filter (· ≠ "") with
  | none => rfl
  | some hash => exact (hhash hash hgiven).symm

theorem permits_cancelled (h : req.status = .pending ∨ req.status = .cancelled) :
    Permits req (cancelled req) := by
  refine ⟨rfl, fun hpaid => ?_, fun _ => h.symm⟩
  obtain h | h := h <;> exact absurd (h.symm.trans hpaid) nofun

theorem lawful_update (h : ∀ req ∈ s.get requestId, Permits req (f req)) :
    Lawful s (update requestId f s).2 := by
  rw [update]
  split
  next => exact Lawful.refl s
  next req hget => exact lawful_set hget (h req hget)

theorem readRequest_state {next : PaymentRequestRecord → Ends} (h : ∀ req, (next req).2 = s) :
    (readRequest requestId s next).2 = s := by
  rw [readRequest]
  split
  next => rfl
  next req hget => exact h req

theorem assertRead_state (told : Told) (requestId : RequestId) (s : State) :
    (assertRead told requestId s).2 = s :=
  readRequest_state fun req => by
    split <;> try rfl
    split <;> rfl

theorem cancelRead_state (requestId : RequestId) (s : State) : (cancelRead requestId s).2 = s :=
  readRequest_state fun req => by split <;> rfl

theorem sweepRead_state (page : Page) (told : Told) (sweep : Sweep) (s : State) :
    (sweepRead page told sweep s).2 = s := by
  simp only [sweepRead]
  split <;> rfl

theorem sweepGoesOn_state (told : Told) (sweep : Sweep) (batch : List PaymentRequestRecord)
    (s : State) : (sweepGoesOn told sweep batch s).2 = s := by
  simp only [sweepGoesOn]
  split <;> rfl

/-- A database call that is guarded does what is lawful. -/
theorem lawful_carriedOut {task : Waiting} (told : Told) (h : task.Guarded s) :
    Lawful s (carriedOut page task told s).2 := by
  cases task with
  | paying requestId paidAt txHash => exact lawful_update fun req hget => permits_paid (h req hget)
  | cancelReads requestId =>
    rw [carriedOut, cancelRead_state]
    exact Lawful.refl s
  | cancelling requestId => exact lawful_update fun req hget => permits_cancelled (h req hget)
  | assertReads requestId =>
    rw [carriedOut, assertRead_state]
    exact Lawful.refl s
  | assertExpires requestId expiresAt expiredAt => exact lawful_markExpired _ _ s
  | sweepReads sweep =>
    rw [carriedOut, sweepRead_state]
    exact Lawful.refl s
  | sweepExpires sweep batch expiredAt =>
    rw [carriedOut, sweepGoesOn_state]
    exact lawful_markExpired _ _ s

theorem rejected_state (message : String) (task : Waiting) (told : Told) (s : State) :
    (rejected message task told s).2 = s := by
  cases task with
  | sweepExpires sweep batch expiredAt => exact sweepGoesOn_state ..
  | _ => rfl

theorem lawful_resume {task : Waiting} {told : Told}
    (h : told.rejects = none → task.Guarded s) : Lawful s (resume page task told s).2 := by
  rw [resume]
  split
  next hnone => exact lawful_carriedOut told (h hnone)
  next message hsome =>
    rw [rejected_state]
    exact Lawful.refl s

theorem lawful_commit (h : Guards g act) :
    Lawful g.state (commit (machine (service page)) g act).state := by
  obtain hmoves | he := commit_moves (service page) g act
  · generalize commit (machine (service page)) g act = g' at hmoves
    cases hmoves with
    | called hcalled =>
      obtain ⟨-, rfl⟩ := Prod.mk.inj (Option.some.inj hcalled)
      exact Lawful.refl _
    | @resumed i told task t s waiting hresumed =>
      have hstate : s = (resume page task told g.state).2 := congrArg Prod.snd hresumed.symm
      exact hstate ▸ lawful_resume fun hnone => h hnone task waiting
  · rw [he]
    exact Lawful.refl _

/-! ## Runs -/

theorem Stays.trans (h : Stays req s) (hlawful : Lawful s s') : Stays req s' := by
  obtain ⟨mid, hget, hpaid, hpaidAt, hhash⟩ := h
  obtain ⟨hmem, hid⟩ := Table.get_some hget
  obtain ⟨new, hnew, hnewPaid, hnewPaidAt, hnewHash⟩ := hlawful.paid mid hmem hpaid
  exact ⟨new, hid ▸ hnew, hnewPaid, hnewPaidAt.trans hpaidAt, hnewHash.trans hhash⟩

/-- From any requests and any calls under way, in every run whose updates are guarded: what is paid
stays as it was paid, and what comes to be cancelled or expired in a turn was pending before it. -/
theorem expiration_run {acts : List (Act Call Told)}
    (h : Along (machine (service page)) Guards g acts) :
    (∀ req ∈ g.state, req.status = .paid → Stays req (run (machine (service page)) g acts).state) ∧
      Along (machine (service page))
        (fun g act => Lawful g.state (commit (machine (service page)) g act).state) g acts := by
  refine ⟨fun req hmem hpaid => ?_, h.imp fun _ _ => lawful_commit⟩
  exact run_invariant (I := fun g => Stays req g.state)
    (fun _ _ hstays hc => hstays.trans (lawful_commit hc)) (stays_refl hmem hpaid) h

/-- All that match, up to a batch. -/
def firstPage : Page := fun _ reqs => reqs.take batchSize

def oneRequest : State :=
  (∅ : State).set ⟨"request", .pending, 1000, none, none, 0, none⟩

/-- A cancellation and a payment of one request, both begun. -/
def cancelledAndPaid : List (Act Call Told) :=
  [.call (.cancelRequest "request") ⟨1, none⟩, .call (.markPaid "request" (some "0xabc")) ⟨2, none⟩]

/-- The request is paid before it is read by its cancellation. -/
def paidFirst : List (Act Call Told) :=
  cancelledAndPaid ++ [.resume 1 ⟨3, none⟩, .resume 0 ⟨4, none⟩]

/-- The cancellation has read the request, and then the request is paid. -/
def paidBetween : List (Act Call Told) :=
  cancelledAndPaid ++ [.resume 0 ⟨3, none⟩, .resume 0 ⟨4, none⟩]

def cancellationWritten : Act Call Told := .resume 0 ⟨5, none⟩

theorem paidFirst_stays :
    (∀ req ∈ (oneRequest : State), req.status = .paid →
      Stays req (run (machine (service firstPage)) ⟨oneRequest, []⟩ paidFirst).state) ∧
    Along (machine (service firstPage))
      (fun g act => Lawful g.state (commit (machine (service firstPage)) g act).state)
      ⟨oneRequest, []⟩ paidFirst :=
  expiration_run (g := ⟨oneRequest, []⟩) (by decide +kernel)

/-- The request is paid, and then it is cancelled. -/
theorem payments_go_wrong :
    ¬ Along (machine (service firstPage))
      (fun g act => Lawful g.state (commit (machine (service firstPage)) g act).state)
      ⟨oneRequest, []⟩ (paidBetween ++ [cancellationWritten]) := by
  intro h
  have hlawful := (along_snoc.mp h).2
  obtain ⟨req, hget, hpaid⟩ : ∃ req ∈ (run (machine (service firstPage)) ⟨oneRequest, []⟩
      paidBetween).state.get "request", req.status = .paid := by
    decide +kernel
  obtain ⟨hmem, hid⟩ := Table.get_some hget
  obtain ⟨req', hget', hstays, -, -⟩ := hlawful.paid req hmem hpaid
  rw [hid] at hget'
  have hcancelled : ∀ req' ∈ (commit (machine (service firstPage)) (run (machine
      (service firstPage)) ⟨oneRequest, []⟩ paidBetween) cancellationWritten).state.get "request",
        req'.status = .cancelled := by
    decide +kernel
  exact absurd ((hcancelled req' hget').symm.trans hstays) nofun

end RequestExpiration
