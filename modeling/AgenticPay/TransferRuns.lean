import AgenticPay.BillingMoney
import AgenticPay.Transaction
import AgenticPay.Transfers

/-!
# Runs of transfers

A key makes one transfer, the volume of an account stays within the daily limit at every time, and a
completed transfer is left by a reversal in time. A scheduled transfer waits for its time, unless it
is settled by a call that comes before.
-/
namespace Transfers

open Billing (IsCents)
open Records Transaction

variable (host : Host) (limits : TransferLimits)

/-! ## Conditions -/

/-- The amount of a transfer is a whole number of cents. -/
def InCents : Call × Told → Prop
  | (.initiateTransfer input, _) => IsCents input.amount
  | _ => True

/-- No scheduled transfer is settled before its time. -/
def Punctual (s : State) : Call × Told → Prop
  | (.settleTransfer id, told) => ∀ t ∈ s.transfers.get id, t.status = .pending →
    ∀ due ∈ t.scheduledFor, due ≤ told.now
  | _ => True

instance (c : Call × Told) : Decidable (InCents c) :=
  match c with
  | (.initiateTransfer input, _) => inferInstanceAs (Decidable (IsCents input.amount))
  | (.registerAccount _, _) | (.createQuote _, _) | (.settleTransfer _, _)
  | (.cancelTransfer _, _) | (.reverseTransfer .., _) => isTrue trivial

instance (s : State) (c : Call × Told) : Decidable (Punctual s c) :=
  match c with
  | (.settleTransfer id, told) => inferInstanceAs (Decidable (∀ t ∈ s.transfers.get id,
      t.status = .pending → ∀ due ∈ t.scheduledFor, due ≤ told.now))
  | (.registerAccount _, _) | (.createQuote _, _) | (.initiateTransfer _, _)
  | (.cancelTransfer _, _) | (.reverseTransfer .., _) => isTrue trivial

/-- A call is made no earlier than the last one, in whole cents, and settles nothing before its
time. -/
structure Timely (p : State × Int) (c : Call × Told) : Prop where
  clock : p.2 ≤ c.2.now
  cents : InCents c
  punctual : Punctual p.1 c

instance (p : State × Int) (c : Call × Told) : Decidable (Timely p c) :=
  decidable_of_iff (p.2 ≤ c.2.now ∧ InCents c ∧ Punctual p.1 c)
    ⟨fun h => ⟨h.1, h.2.1, h.2.2⟩, fun h => ⟨h.1, h.2, h.3⟩⟩

/-- The time of the last call. -/
abbrev watched : System (Call × Told) (State × Int) Unit (Except Billing.Failure Response) :=
  watching (service host limits) fun _ c _ _ => c.2.now

/-- A completed transfer stays as it is, or it is reversed in time, and no transfer is removed. -/
structure Proper (s : State) (c : Call × Told) : Prop where
  completed : ∀ t ∈ s.transfers, t.status = .completed →
    t ∈ (commit (service host limits) s c).transfers ∨
      ∃ reason, c.1 = .reverseTransfer t.id reason ∧
        ∃ settledAt ∈ t.completedAt, c.2.now - settledAt ≤ limits.reversalWindowMs
  kept : ∀ t ∈ s.transfers, ∃ t' ∈ (commit (service host limits) s c).transfers.get t.id,
    t'.idempotencyKey = t.idempotencyKey

/-- A transfer that is kept waits for its time, or it has settled. -/
structure Begun (t : Transfer) : Prop where
  completed : t.status = .completed → ∃ settledAt, t.completedAt = some settledAt
  settles : t.status ≠ .processing
  punctual : ∀ due ∈ t.scheduledFor, t.createdAt < due → ∀ settledAt ∈ t.completedAt,
    due ≤ settledAt

structure Sound (clock : Int) (s : State) : Prop where
  keys : ∀ t ∈ s.transfers, s.idempotencyIndex t.idempotencyKey = some t.id
  nonneg : ∀ t ∈ s.transfers, 0 ≤ t.amount
  cents : ∀ t ∈ s.transfers, IsCents t.amount
  volume : ∀ now, clock ≤ now → ∀ accountId, volumeAt now accountId s ≤ limits.daily
  begun : ∀ t ∈ s.transfers, Begun t

variable {host limits} {s s' : State} {c : Call × Told} {t changed : Transfer} {now clock : Int}
  {accountId : AccountId} {told : Told} {input : CreateTransferInput} {id : TransferId}

/-! ## The volume of an account -/

def volumeOf (now : Int) (accountId : AccountId) (t : Transfer) : ℚ :=
  if counts now accountId t = true then t.amount else 0

theorem volumeAt_eq_total (now : Int) (accountId : AccountId) (s : State) :
    volumeAt now accountId s = total (volumeOf now accountId) s.transfers := by
  rw [volumeAt, Records.total]
  induction s.transfers.records with
  | nil => rfl
  | cons t rest ih =>
    rw [List.filter_cons, List.map_cons, List.sum_cons, ← ih, volumeOf]
    split
    · rw [List.map_cons, List.sum_cons]
    · rw [zero_add]

/-- What counts later has counted before. -/
theorem volumeOf_le {now' : Int} (h : 0 ≤ t.amount) (hle : now ≤ now') :
    volumeOf now' accountId t ≤ volumeOf now accountId t := by
  rw [volumeOf, volumeOf]
  split
  next hcounts =>
    have hbefore : counts now accountId t = true := by
      simp only [counts, Bool.and_eq_true, decide_eq_true_eq] at hcounts ⊢
      exact ⟨hcounts.1, hcounts.2.1, by omega⟩
    rw [if_pos hbefore]
  next =>
    split
    · exact h
    · exact le_rfl

theorem volumeAt_cents (h : ∀ t ∈ s.transfers, IsCents t.amount) :
    IsCents (volumeAt now accountId s) := by
  refine .sum fun a ha => ?_
  obtain ⟨t, ht, rfl⟩ := List.mem_map.mp ha
  exact h t (List.mem_filter.mp ht).1

/-- A transfer that is replaced by one that counts no more. -/
theorem volumeAt_set (hfound : s.transfers.get changed.id = some t)
    (hle : volumeOf now accountId changed ≤ volumeOf now accountId t)
    (htransfers : s'.transfers = s.transfers.set changed) :
    volumeAt now accountId s' ≤ volumeAt now accountId s := by
  have hset := total_set_found (volumeOf now accountId) hfound
  rw [volumeAt_eq_total, volumeAt_eq_total, htransfers]
  linarith

/-! ## Calls -/

/-- What is known of a transfer that is made. -/
structure Made (limits : TransferLimits) (told : Told) (input : CreateTransferInput) (s : State)
    (t : Transfer) : Prop where
  id : t.id = transferId told
  key : t.idempotencyKey = input.idempotencyKey
  positive : 0 < input.amount
  amount : t.amount = round input.amount
  within : getDailyVolume told.now t.sourceAccountId s + input.amount ≤ limits.daily
  createdAt : t.createdAt = told.now
  status : t.status = if isFutureDated told.now t.scheduledFor = true then .pending else .processing
  completedAt : t.completedAt = none

theorem newTransfer_made (h : newTransfer host limits told input s = .ok t) :
    Made limits told input s t := by
  obtain ⟨context, hcontext, h⟩ := bind_returns h
  obtain ⟨scheduledFor, -, h⟩ := bind_returns h
  obtain ⟨⟨quoteId, price⟩, -, h⟩ := bind_returns h
  obtain ⟨_, hlimit, h⟩ := bind_returns h
  obtain ⟨_, hpositive, -⟩ := bind_returns hcontext
  cases h
  exact ⟨rfl, rfl, Billing.validate_ok.mp hpositive, rfl, Billing.validate_ok.mp hlimit, rfl, rfl,
    rfl⟩

/-- A transfer as it is kept: one that is not for later has settled. -/
def kept (now : Int) (t : Transfer) : Transfer :=
  if t.status = .processing then settled now t else t

/-- What a call makes of the transfers. -/
inductive Called (limits : TransferLimits) (s : State) : Call × Told → State → Prop
  | same {c : Call × Told} {s' : State} (transfers : s'.transfers = s.transfers)
      (index : s'.idempotencyIndex = s.idempotencyIndex) : Called limits s c s'
  | initiated {input : CreateTransferInput} {told : Told} {t : Transfer}
      (fresh : s.transfers.get (transferId told) = none)
      (unused : existing input.idempotencyKey s = none) (made : Made limits told input s t) :
      Called limits s (.initiateTransfer input, told) { s with
        transfers := s.transfers.set (kept told.now t)
        idempotencyIndex := Function.update s.idempotencyIndex t.idempotencyKey (some t.id) }
  | settled {id : TransferId} {told : Told} {t : Transfer} (found : s.transfers.get id = some t)
      (unsettled : t.status = .pending ∨ t.status = .processing) :
      Called limits s (.settleTransfer id, told)
        { s with transfers := s.transfers.set (settled told.now t) }
  | cancelled {id : TransferId} {told : Told} {t : Transfer} (found : s.transfers.get id = some t)
      (pending : t.status = .pending) :
      Called limits s (.cancelTransfer id, told)
        { s with transfers := s.transfers.set { t with
          status := .cancelled, cancelledAt := some told.now, updatedAt := told.now } }
  | reversed {id : TransferId} {told : Told} {reason : String} {t : Transfer}
      (found : s.transfers.get id = some t) (completed : t.status = .completed)
      (within : told.now - t.completedAt.getD 0 ≤ limits.reversalWindowMs) :
      Called limits s (.reverseTransfer id reason, told)
        { s with transfers := s.transfers.set { t with
          status := .reversed, reversedAt := some told.now, reversalReason := some reason
          updatedAt := told.now } }

theorem change_cases (id : TransferId) (f : Transfer → Except Billing.Failure Transfer)
    (s : State) :
    (change id f s).2 = s ∨ ∃ t changed, s.transfers.get id = some t ∧ f t = .ok changed ∧
      (change id f s).2 = { s with transfers := s.transfers.set changed } := by
  rw [change]
  cases hget : s.transfers.get id with
  | none => exact .inl rfl
  | some t =>
    dsimp only
    cases hf : f t with
    | error failure => exact .inl rfl
    | ok changed => exact .inr ⟨t, changed, rfl, hf, rfl⟩

theorem called (host : Host) (s : State) (c : Call × Told) :
    Called limits s c (commit (service host limits) s c) := by
  obtain ⟨call, told⟩ := c
  cases call with
  | registerAccount input =>
    rw [commit, service, registerAccount]
    cases newAccount host told input <;> exact .same rfl rfl
  | createQuote request =>
    rw [commit, service]
    by_cases hfresh : s.quotes.get (quoteId told) = none
    · rw [if_pos hfresh, createQuote]
      cases newQuote host limits told request s <;> exact .same rfl rfl
    · rw [if_neg hfresh]
      exact .same rfl rfl
  | initiateTransfer input =>
    rw [commit, service]
    by_cases hfresh : s.transfers.get (transferId told) = none
    · rw [if_pos hfresh, initiateTransfer]
      split_ifs
      · exact .same rfl rfl
      · cases hexisting : existing input.idempotencyKey s with
        | some t => exact .same rfl rfl
        | none =>
          dsimp only
          cases hnew : newTransfer host limits told input s with
          | error failure => exact .same rfl rfl
          | ok t =>
            have hkept : (if t.status = .processing then settled told.now t else t).id = t.id ∧
                (if t.status = .processing then settled told.now t else t).idempotencyKey =
                  t.idempotencyKey := by
              split <;> exact ⟨rfl, rfl⟩
            dsimp only
            rw [hkept.1, hkept.2]
            exact .initiated hfresh hexisting (newTransfer_made hnew)
    · rw [if_neg hfresh]
      exact .same rfl rfl
  | settleTransfer id =>
    show Called limits s _ (change id (settle told.now) s).2
    obtain hsame | ⟨t, changed, hget, hsettle, he⟩ := change_cases id (settle told.now) s
    · rw [hsame]
      exact .same rfl rfl
    · rw [settle] at hsettle
      split_ifs at hsettle with hstatus
      cases hsettle
      rw [he]
      rw [not_and_or, not_not, not_not] at hstatus
      exact .settled hget hstatus
  | cancelTransfer id =>
    show Called limits s _ (change id (cancel told.now) s).2
    obtain hsame | ⟨t, changed, hget, hcancel, he⟩ := change_cases id (cancel told.now) s
    · rw [hsame]
      exact .same rfl rfl
    · rw [cancel] at hcancel
      split_ifs at hcancel with hstatus
      cases hcancel
      rw [he]
      exact .cancelled hget (not_not.mp hstatus)
  | reverseTransfer id reason =>
    show Called limits s _ (reverseTransfer limits told.now id reason s).2
    rw [reverseTransfer]
    split_ifs
    · exact .same rfl rfl
    · obtain hsame | ⟨t, changed, hget, hreverse, he⟩ :=
        change_cases id (reverse limits told.now reason) s
      · rw [hsame]
        exact .same rfl rfl
      · rw [reverse] at hreverse
        split_ifs at hreverse with hstatus hwindow
        cases hreverse
        rw [he]
        exact .reversed hget (not_not.mp hstatus) (not_lt.mp hwindow)

/-! ## Invariants -/

/-- What a call makes of a transfer is as it was made, and counts no more than before. -/
structure Keeps (t changed : Transfer) : Prop where
  id : changed.id = t.id
  key : changed.idempotencyKey = t.idempotencyKey
  amount : changed.amount = t.amount
  source : changed.sourceAccountId = t.sourceAccountId
  createdAt : changed.createdAt = t.createdAt
  counted : changed.status ∈ [TransferStatus.pending, .processing, .completed] →
    t.status ∈ [TransferStatus.pending, .processing, .completed]

theorem Keeps.volumeOf_le (h : Keeps t changed) (hnonneg : 0 ≤ t.amount) :
    volumeOf now accountId changed ≤ volumeOf now accountId t := by
  rw [volumeOf, volumeOf]
  split
  next hcounts =>
    have hbefore : counts now accountId t = true := by
      simp only [counts, Bool.and_eq_true, decide_eq_true_eq] at hcounts ⊢
      rw [← h.source, ← h.createdAt]
      exact ⟨hcounts.1, h.counted hcounts.2.1, hcounts.2.2⟩
    rw [if_pos hbefore, h.amount]
  next =>
    split
    · exact hnonneg
    · exact le_rfl

/-- A transfer that is changed. -/
theorem sound_set (h : Sound limits clock s) (hclock : clock ≤ now)
    (hget : s.transfers.get t.id = some t) (hkeeps : Keeps t changed) (hbegun : Begun changed) :
    Sound limits now { s with transfers := s.transfers.set changed } := by
  have hmem : t ∈ s.transfers := (Table.get_some hget).1
  have hfound : s.transfers.get changed.id = some t := hkeeps.id ▸ hget
  constructor
  · refine Table.forall_set ?_ h.keys
    rw [hkeeps.key, hkeeps.id]
    exact h.keys t hmem
  · refine Table.forall_set ?_ h.nonneg
    rw [hkeeps.amount]
    exact h.nonneg t hmem
  · refine Table.forall_set ?_ h.cents
    rw [hkeeps.amount]
    exact h.cents t hmem
  · intro later hlater accountId
    exact (volumeAt_set hfound (hkeeps.volumeOf_le (h.nonneg t hmem)) rfl).trans
      (h.volume later (hclock.trans hlater) accountId)
  · exact Table.forall_set hbegun h.begun

theorem Sound.later (h : Sound limits clock s) (hclock : clock ≤ now)
    (htransfers : s'.transfers = s.transfers)
    (hindex : s'.idempotencyIndex = s.idempotencyIndex) : Sound limits now s' := by
  constructor
  · rw [htransfers, hindex]
    exact h.keys
  · exact htransfers ▸ h.nonneg
  · exact htransfers ▸ h.cents
  · intro later hlater accountId
    rw [volumeAt, htransfers]
    exact h.volume later (hclock.trans hlater) accountId
  · exact htransfers ▸ h.begun

theorem kept_id (now : Int) (t : Transfer) : (kept now t).id = t.id := by
  rw [kept]
  split <;> rfl

theorem kept_keeps (now : Int) (t : Transfer) : Keeps t (kept now t) := by
  rw [kept]
  split
  next hstatus => exact ⟨rfl, rfl, rfl, rfl, rfl, fun _ => by rw [hstatus]; decide⟩
  next => exact ⟨rfl, rfl, rfl, rfl, rfl, id⟩

theorem Made.begun (h : Made limits told input s t) : Begun (kept told.now t) := by
  have hstatus := h.status
  rw [kept]
  cases hfuture : isFutureDated told.now t.scheduledFor with
  | true =>
    rw [hfuture, if_pos rfl] at hstatus
    rw [if_neg (by rw [hstatus]; nofun)]
    refine ⟨fun hcompleted => ?_, by rw [hstatus]; nofun, ?_⟩
    · rw [hstatus] at hcompleted
      contradiction
    · intro due _ _ settledAt hsettled
      rw [h.completedAt] at hsettled
      exact absurd hsettled (Option.not_mem_none _)
  | false =>
    rw [hfuture, if_neg Bool.false_ne_true] at hstatus
    rw [if_pos hstatus]
    refine ⟨fun _ => ⟨told.now, rfl⟩, nofun, fun due hdue hlater => ?_⟩
    rw [show t.scheduledFor = some due from hdue] at hfuture
    have hpast := of_decide_eq_false hfuture
    exact absurd (h.createdAt ▸ hlater) hpast

theorem unused_key (h : Sound limits clock s) {key : String} (hunused : existing key s = none)
    (ht : t ∈ s.transfers) : t.idempotencyKey ≠ key := by
  rintro rfl
  rw [existing, h.keys t ht, Option.bind_some, Table.get_of_mem ht] at hunused
  contradiction

/-- The volume after a transfer has been made, at its time or later. -/
theorem volumeAt_made (h : Sound limits clock s) (hclock : clock ≤ told.now)
    (hfresh : s.transfers.get (transferId told) = none) (hmade : Made limits told input s t)
    (hcents : IsCents input.amount) (hlater : told.now ≤ now)
    (htransfers : s'.transfers = s.transfers.set (kept told.now t)) :
    volumeAt now accountId s' ≤ limits.daily := by
  have hkeeps := kept_keeps told.now t
  have hnone : s.transfers.get (kept told.now t).id = none := by
    rw [hkeeps.id, hmade.id]
    exact hfresh
  have hset := total_set_fresh (volumeOf now accountId) hnone
  have hbefore := h.volume now (hclock.trans hlater) accountId
  rw [volumeAt_eq_total, htransfers, hset]
  rw [volumeAt_eq_total] at hbefore
  rw [volumeOf]
  split
  next hcounts =>
    have hsource : t.sourceAccountId = accountId := by
      simp only [counts, Bool.and_eq_true, decide_eq_true_eq] at hcounts
      exact hkeeps.source ▸ hcounts.1
    have hamount : (kept told.now t).amount = input.amount := by
      rw [hkeeps.amount, hmade.amount]
      exact hcents.round
    have hwithin := hmade.within
    have hvolume : volumeAt told.now t.sourceAccountId s =
        getDailyVolume told.now t.sourceAccountId s := (volumeAt_cents h.cents).round.symm
    rw [← hvolume, hsource, volumeAt_eq_total] at hwithin
    have hwindow : Records.total (volumeOf now accountId) s.transfers ≤
        Records.total (volumeOf told.now accountId) s.transfers :=
      total_le_total fun t ht => volumeOf_le (h.nonneg t ht) hlater
    rw [hamount]
    linarith
  next => rwa [add_zero]

theorem sound_made (h : Sound limits clock s) (hclock : clock ≤ told.now)
    (hfresh : s.transfers.get (transferId told) = none)
    (hunused : existing input.idempotencyKey s = none) (hmade : Made limits told input s t)
    (hcents : IsCents input.amount) :
    Sound limits told.now { s with
      transfers := s.transfers.set (kept told.now t)
      idempotencyIndex := Function.update s.idempotencyIndex t.idempotencyKey (some t.id) } := by
  have hkeeps := kept_keeps told.now t
  have hamount : (kept told.now t).amount = input.amount := by
    rw [hkeeps.amount, hmade.amount]
    exact hcents.round
  constructor
  · refine Table.forall_set ?_ fun other hother => ?_
    · rw [hkeeps.key, hkeeps.id]
      exact Function.update_self ..
    · have hkey := unused_key h hunused hother
      rw [← hmade.key] at hkey
      exact (Function.update_of_ne hkey _ _).trans (h.keys other hother)
  · refine Table.forall_set ?_ h.nonneg
    rw [hamount]
    exact hmade.positive.le
  · exact Table.forall_set (hamount ▸ hcents) h.cents
  · exact fun now hlater accountId => volumeAt_made h hclock hfresh hmade hcents hlater rfl
  · exact Table.forall_set hmade.begun h.begun

theorem sound_called (h : Sound limits clock s) (htimely : Timely (s, clock) c)
    (hc : Called limits s c s') : Sound limits c.2.now s' := by
  have hclock := htimely.clock
  cases hc with
  | same transfers index => exact h.later hclock transfers index
  | initiated fresh unused made => exact sound_made h hclock fresh unused made htimely.cents
  | @settled id told t found unsettled =>
    obtain ⟨hmem, hid⟩ := Table.get_some found
    subst hid
    have hpending : t.status = .pending := unsettled.resolve_right (h.begun t hmem).settles
    refine sound_set h hclock found ⟨rfl, rfl, rfl, rfl, rfl, fun _ => ?_⟩
      ⟨fun _ => ⟨told.now, rfl⟩, nofun, fun due hdue _ settledAt hsettled => ?_⟩
    · rw [hpending]
      decide
    · obtain rfl := Option.some.inj hsettled
      exact htimely.punctual t found hpending due hdue
  | @cancelled id told t found pending =>
    obtain ⟨hmem, hid⟩ := Table.get_some found
    subst hid
    exact sound_set h hclock found ⟨rfl, rfl, rfl, rfl, rfl, fun hin => absurd hin (by simp)⟩
      ⟨nofun, nofun, (h.begun t hmem).punctual⟩
  | @reversed id told reason t found completed within =>
    obtain ⟨hmem, hid⟩ := Table.get_some found
    subst hid
    exact sound_set h hclock found ⟨rfl, rfl, rfl, rfl, rfl, fun hin => absurd hin (by simp)⟩
      ⟨nofun, nofun, (h.begun t hmem).punctual⟩

theorem get_set_key (hget : s.transfers.get changed.id = some t)
    (hkey : changed.idempotencyKey = t.idempotencyKey) :
    ∀ other ∈ s.transfers, ∃ t' ∈ (s.transfers.set changed).get other.id,
      t'.idempotencyKey = other.idempotencyKey := by
  intro other hother
  by_cases he : other.id = changed.id
  · rw [← he, Table.get_of_mem hother] at hget
    obtain rfl := Option.some.inj hget
    exact ⟨changed, he ▸ Table.get_set_self _ _, hkey⟩
  · exact ⟨other, (Table.get_set_ne he).trans (Table.get_of_mem hother), rfl⟩

/-- No transfer is removed, and none gets another key. -/
theorem kept_called (hc : Called limits s c s') : ∀ t ∈ s.transfers,
    ∃ t' ∈ s'.transfers.get t.id, t'.idempotencyKey = t.idempotencyKey := by
  cases hc with
  | same transfers index =>
    intro t ht
    rw [transfers]
    exact ⟨t, Table.get_of_mem ht, rfl⟩
  | @initiated input told new fresh unused made =>
    intro t ht
    refine ⟨t, (Table.get_set_ne fun he => ?_).trans (Table.get_of_mem ht), rfl⟩
    rw [kept_id, made.id] at he
    rw [← he, Table.get_of_mem ht] at fresh
    contradiction
  | @settled id told old found unsettled =>
    obtain rfl := Table.key_of_get found
    exact get_set_key found rfl
  | @cancelled id told old found pending =>
    obtain rfl := Table.key_of_get found
    exact get_set_key found rfl
  | @reversed id told reason old found completed within =>
    obtain rfl := Table.key_of_get found
    exact get_set_key found rfl

/-- A completed transfer is changed by nothing but a reversal in time. -/
theorem completed_called (h : Sound limits clock s) (hc : Called limits s c s') :
    ∀ t ∈ s.transfers, t.status = .completed → t ∈ s'.transfers ∨
      ∃ reason, c.1 = .reverseTransfer t.id reason ∧
        ∃ settledAt ∈ t.completedAt, c.2.now - settledAt ≤ limits.reversalWindowMs := by
  intro t ht hcompleted
  have hget := Table.get_of_mem ht
  cases hc with
  | same transfers index => exact .inl (transfers ▸ ht)
  | @initiated input told new fresh unused made =>
    refine .inl (Table.mem_set_fresh ?_ ht)
    rw [kept_id, made.id]
    exact fresh
  | @settled id told old found unsettled =>
    obtain rfl := Table.key_of_get found
    refine .inl (Table.mem_set.mpr (.inr ⟨ht, fun he => ?_⟩))
    obtain rfl := Table.key_injective ht (Table.get_some found).1 he
    rw [hcompleted] at unsettled
    simp at unsettled
  | @cancelled id told old found pending =>
    obtain rfl := Table.key_of_get found
    refine .inl (Table.mem_set.mpr (.inr ⟨ht, fun he => ?_⟩))
    obtain rfl := Table.key_injective ht (Table.get_some found).1 he
    rw [hcompleted] at pending
    contradiction
  | @reversed id told reason old found completed within =>
    obtain rfl := Table.key_of_get found
    by_cases he : t.id = old.id
    · obtain rfl := Table.key_injective ht (Table.get_some found).1 he
      obtain ⟨settledAt, hsettled⟩ := (h.begun t ht).completed hcompleted
      rw [hsettled] at within
      exact .inr ⟨reason, rfl, settledAt, hsettled, within⟩
    · exact .inl (Table.mem_set.mpr (.inr ⟨ht, he⟩))

/-! ## Runs -/

theorem start_sound (hdaily : 0 ≤ limits.daily) : Sound limits clock start where
  keys := fun _ h => absurd h (Table.not_mem_empty _)
  nonneg := fun _ h => absurd h (Table.not_mem_empty _)
  cents := fun _ h => absurd h (Table.not_mem_empty _)
  volume := fun _ _ _ => hdaily
  begun := fun _ h => absurd h (Table.not_mem_empty _)

def plainHost : Host := ⟨fun text => text, fun _ => "100"⟩

def dollars : TransferLimits := ⟨25000, 100000, dayMs, 60000⟩

/-- A transfer of 50 is scheduled for one second after it is made, and settled at a time. -/
def settledAfter (time : Int) : List (Call × Told) :=
  [(.registerAccount ⟨some "payer", "USD", none⟩, ⟨0, "1"⟩),
    (.registerAccount ⟨some "payee", "USD", none⟩, ⟨0, "2"⟩),
    (.initiateTransfer { sourceAccountId := "payer", destinationAccountId := "payee", amount := 50
                         destinationCurrency := none, quoteId := none, idempotencyKey := "key"
                         scheduledFor := some (some 1000) }, ⟨0, "3"⟩),
    (.settleTransfer "tr_3", ⟨time, ""⟩)]

end Transfers
