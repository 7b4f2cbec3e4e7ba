import AgenticPay.Webhooks
import Mathlib.Tactic.Linarith

/-!
# What happens to a delivery

A log, what has happened to its delivery and the requests for it that are under way belong together,
and a turn that changes one log leaves the others with theirs.
-/
namespace Webhooks

open Records Awaits

/-- What has happened to a delivery. -/
def history (id : String) (s : State) : List Event := (s.trace.filter (·.1 = id)).map (·.2)

/-- The number of sendings after an event, from that before it. -/
def Event.counts (n : Nat) : Event → Nat
  | .scheduled _ | .requeued => 0
  | .sent _ => n + 1
  | .delivered => n

/-- The sendings since the delivery was scheduled or last put back. -/
def sendings (h : List Event) : Nat := h.foldl Event.counts 0

def Waiting.sends (id : String) : Waiting → Bool
  | .request logId _ _ _ => logId = id
  | .replayed .. => false

/-- The requests for a log that are under way. -/
def inFlight (tasks : List Waiting) (id : String) : Nat := tasks.countP (Waiting.sends id)

/-- Nothing is sent once it is delivered. -/
def Final (h : List Event) : Prop :=
  h.Pairwise fun e e' => e = .delivered → ∀ request, e' ≠ .sent request

/-- What is asked of a log, of what has happened to its delivery and of the number of its requests
under way: it is delivered once and for all, never sent again, sent once at a time and as often as
its policy has it, and always with the JSON that it was scheduled with. -/
structure Lawful (endpoints : Endpoints) (log : DeliveryLog) (h : List Event) (n : Nat) :
    Prop where
  delivered : .delivered ∈ h ↔ log.status = .delivered
  final : Final h
  single : n ≤ 1
  bounded : ∀ endpoint, endpoints.get log.endpointId = some endpoint →
    1 ≤ endpoint.retryPolicy.maxRetries → (sendings h : ℚ) ≤ endpoint.retryPolicy.maxRetries
  complete : ∀ request, .sent request ∈ h → .scheduled request.body ∈ h

/-- What comes with it. -/
structure Kept (endpoints : Endpoints) (log : DeliveryLog) (h : List Event) (n : Nat) : Prop
    extends Lawful endpoints log h n where
  begins : ∃ text rest, h = .scheduled text :: rest ∧ (∀ t, .scheduled t ∉ rest) ∧
    log.payloadPreview = text.take 256
  attempt : log.attempt = sendings h
  settled : log.status = .delivered → n = 0
  endpoint : ∃ endpoint, endpoints.get log.endpointId = some endpoint

/-- A log that may be attempted, with the attempts that count then: it is not delivered and, unless
it has expired, not under way, has attempts left and a JSON that its preview does not cut. -/
structure Attemptable (endpoint : WebhookEndpointConfig) (attempts : Nat) (now : Int)
    (log : DeliveryLog) (h : List Event) (n : Nat) : Prop where
  undelivered : log.status ≠ .delivered
  ready : isExpired log endpoint.retryPolicy now = false → n = 0 ∧
    (1 ≤ endpoint.retryPolicy.maxRetries → (attempts + 1 : ℚ) ≤ endpoint.retryPolicy.maxRetries) ∧
      ∀ text, .scheduled text ∈ h → text.length ≤ 256

/-- Every log is lawful, and nothing has happened where there is none. -/
def Orderly (endpoints : Endpoints) (s : State) (flight : String → Nat) : Prop :=
  ∀ id, (s.deliveryLogs.get id).elim (history id s = []) fun log =>
    Lawful endpoints log (history id s) (flight id)

/-- Every log is kept, and nothing is under way where there is none. -/
def Sane (endpoints : Endpoints) (s : State) (flight : String → Nat) : Prop :=
  ∀ id, (s.deliveryLogs.get id).elim (history id s = [] ∧ flight id = 0) fun log =>
    Kept endpoints log (history id s) (flight id)

variable {endpoints : Endpoints} {s s' : State} {flight flight' : String → Nat} {id : String}
  {log log' : DeliveryLog} {h : List Event} {n n' : Nat} {e : Event} {events : List Event}
  {endpoint : WebhookEndpointConfig} {now : Int}

/-! ## Histories -/

@[simp] theorem sendings_snoc (h : List Event) (e : Event) :
    sendings (h ++ [e]) = e.counts (sendings h) := by
  rw [sendings, List.foldl_append]
  rfl

@[simp] theorem history_write_self (log : DeliveryLog) (events : List Event) (s : State) :
    history log.id (s.write log events) = history log.id s ++ events := by
  have hall : (events.map fun e => (log.id, e)).filter (·.1 = log.id) =
      events.map fun e => (log.id, e) := by
    rw [List.filter_eq_self]
    intro p hp
    obtain ⟨e, -, rfl⟩ := List.mem_map.mp hp
    exact decide_eq_true rfl
  rw [history, State.write, List.filter_append, List.map_append, hall, List.map_map]
  exact congrArg (history log.id s ++ ·) (List.map_id events)

theorem history_write_ne (hid : id ≠ log.id) :
    history id (s.write log events) = history id s := by
  have hnone : (events.map fun e => (log.id, e)).filter (·.1 = id) = [] := by
    rw [List.filter_eq_nil_iff]
    intro p hp
    obtain ⟨e, -, rfl⟩ := List.mem_map.mp hp
    simpa using hid.symm
  rw [history, State.write, List.filter_append, hnone, List.append_nil]
  rfl

@[simp] theorem get_write_self (log : DeliveryLog) (events : List Event) (s : State) :
    (s.write log events).deliveryLogs.get log.id = some log := Table.get_set_self ..

theorem get_write_ne (hid : id ≠ log.id) :
    (s.write log events).deliveryLogs.get id = s.deliveryLogs.get id := Table.get_set_ne hid

@[simp] theorem get_requeue_self (now : Int) (s : State) (log : DeliveryLog) :
    (requeue now s log).deliveryLogs.get log.id = some (reset now log) :=
  get_write_self (reset now log) _ s

theorem get_requeue_ne (hid : id ≠ log.id) :
    (requeue now s log).deliveryLogs.get id = s.deliveryLogs.get id :=
  Table.get_set_ne hid

@[simp] theorem history_requeue_self (now : Int) (s : State) (log : DeliveryLog) :
    history log.id (requeue now s log) = history log.id s ++ [.requeued] :=
  history_write_self (reset now log) _ s

/-! ## One log -/

theorem Final.snoc (hfinal : Final h)
    (he : ∀ request, e = .sent request → Event.delivered ∉ h) : Final (h ++ [e]) := by
  refine List.pairwise_append.mpr ⟨hfinal, List.pairwise_singleton _ _, ?_⟩
  intro e' he' e'' he'' hdelivered request hsent
  rw [List.mem_singleton] at he''
  rw [hdelivered] at he'
  exact he request (he''.symm.trans hsent) he'

namespace Kept

theorem scheduled (hk : Kept endpoints log h n) :
    ∃ text, .scheduled text ∈ h ∧ log.payloadPreview = text.take 256 ∧
      ∀ t, .scheduled t ∈ h → t = text := by
  obtain ⟨text, rest, rfl, hrest, hpreview⟩ := hk.begins
  refine ⟨text, List.mem_cons_self, hpreview, fun t ht => ?_⟩
  obtain he | ht := List.mem_cons.mp ht
  · cases he
    rfl
  · exact absurd ht (hrest t)

/-- What becomes of a log that keeps its endpoint and its preview, with an event. -/
theorem begins_snoc (hk : Kept endpoints log h n) (he : ∀ t, e ≠ .scheduled t)
    (hpreview : log'.payloadPreview = log.payloadPreview) :
    ∃ text rest, h ++ [e] = .scheduled text :: rest ∧ (∀ t, .scheduled t ∉ rest) ∧
      log'.payloadPreview = text.take 256 := by
  obtain ⟨text, rest, rfl, hrest, htext⟩ := hk.begins
  refine ⟨text, rest ++ [e], rfl, fun t ht => ?_, hpreview.trans htext⟩
  obtain ht | ht := List.mem_append.mp ht
  · exact hrest t ht
  · exact he t (List.mem_singleton.mp ht).symm

theorem undelivered (hk : Kept endpoints log h n) (hs : log.status ≠ .delivered) :
    .delivered ∉ h := fun hmem => hs (hk.delivered.mp hmem)

theorem undelivered_snoc (hk : Kept endpoints log h n) (hs : log.status ≠ .delivered)
    (he : e ≠ .delivered) : .delivered ∉ h ++ [e] := by
  intro hmem
  obtain hmem | hmem := List.mem_append.mp hmem
  · exact hk.undelivered hs hmem
  · exact he (List.mem_singleton.mp hmem).symm

theorem complete_snoc (hk : Kept endpoints log h n)
    (he : ∀ request, e = .sent request → .scheduled request.body ∈ h) (request : Request)
    (hsent : .sent request ∈ h ++ [e]) : .scheduled request.body ∈ h ++ [e] := by
  obtain hsent | hsent := List.mem_append.mp hsent
  · exact List.mem_append_left _ (hk.complete request hsent)
  · exact List.mem_append_left _ (he request (List.mem_singleton.mp hsent).symm)

/-- A log that has just been scheduled. -/
theorem new {text : Text} (hpreview : log.payloadPreview = text.take 256)
    (hattempt : log.attempt = 0) (hstatus : log.status = .pending)
    (hfound : endpoints.get log.endpointId = some endpoint) :
    Kept endpoints log [.scheduled text] 0 where
  begins := ⟨text, [], rfl, fun t => List.not_mem_nil, hpreview⟩
  attempt := hattempt
  delivered := by simp [hstatus]
  settled := fun _ => rfl
  single := Nat.zero_le 1
  final := List.pairwise_singleton _ _
  endpoint := ⟨endpoint, hfound⟩
  bounded := by
    intro endpoint' _ hone
    have hnone : sendings [.scheduled text] = 0 := rfl
    rw [hnone, Nat.cast_zero]
    linarith
  complete := by
    intro request hsent
    cases List.mem_singleton.mp hsent

/-- A log that is not delivered is put back. -/
theorem reset (hk : Kept endpoints log h n) (hs : log.status ≠ .delivered) :
    Kept endpoints (reset now log) (h ++ [.requeued]) n where
  begins := hk.begins_snoc (fun t he => by cases he) rfl
  attempt := (sendings_snoc h .requeued).symm
  delivered := iff_of_false (hk.undelivered_snoc hs fun he => by cases he) fun hstatus => by
    cases hstatus
  settled := fun hstatus => by cases hstatus
  single := hk.single
  final := hk.final.snoc fun request he => by cases he
  endpoint := hk.endpoint
  bounded := by
    intro endpoint _ hone
    rw [sendings_snoc]
    simp only [Event.counts, Nat.cast_zero]
    linarith
  complete := hk.complete_snoc fun request he => by cases he

/-- A log that is not delivered lapses. -/
theorem lapsed (hk : Kept endpoints log h n) (hs : log.status ≠ .delivered) :
    Kept endpoints (lapsed now log) h n where
  begins := hk.begins
  attempt := hk.attempt
  delivered := iff_of_false (hk.undelivered hs) fun hstatus => by cases hstatus
  settled := fun hstatus => by cases hstatus
  single := hk.single
  final := hk.final
  endpoint := hk.endpoint
  bounded := hk.bounded
  complete := hk.complete

/-- A log that may be attempted is sent. -/
theorem processed (hk : Kept endpoints log h n)
    (hfound : endpoints.get log.endpointId = some endpoint)
    (ha : Attemptable endpoint log.attempt now log h n)
    (hlive : isExpired log endpoint.retryPolicy now = false) (url : String) :
    Kept endpoints (processed now log)
      (h ++ [.sent ⟨url, log.eventId, log.payloadPreview⟩]) (n + 1) := by
  obtain ⟨hn, hleft, hfits⟩ := ha.ready hlive
  have hnot := hk.undelivered ha.undelivered
  exact {
    begins := hk.begins_snoc (fun t he => by cases he) rfl
    attempt := by
      rw [sendings_snoc, ← hk.attempt]
      rfl
    delivered := iff_of_false (hk.undelivered_snoc ha.undelivered fun he => by cases he)
      fun hstatus => by cases hstatus
    settled := fun hstatus => by cases hstatus
    single := by omega
    final := hk.final.snoc fun _ _ => hnot
    endpoint := hk.endpoint
    bounded := by
      intro endpoint' hfound' hone
      cases hfound.symm.trans hfound'
      have hle := hleft hone
      rw [sendings_snoc, ← hk.attempt]
      simp only [Event.counts]
      push_cast
      exact hle
    complete := by
      refine hk.complete_snoc fun request he => ?_
      cases he
      obtain ⟨text, hmem, hpreview, -⟩ := hk.scheduled
      rw [List.take_of_length_le (hfits text hmem)] at hpreview
      rw [hpreview]
      exact hmem }

/-- A log that is sent lawfully could be attempted. -/
theorem attemptable (hk : Kept endpoints log h n) (hs : log.status ≠ .delivered)
    (hfound : endpoints.get log.endpointId = some endpoint) {url : String}
    (hlaw : isExpired log endpoint.retryPolicy now = false →
      Lawful endpoints (Webhooks.processed now log)
        (h ++ [.sent ⟨url, log.eventId, log.payloadPreview⟩]) (n + 1)) :
    Attemptable endpoint log.attempt now log h n where
  undelivered := hs
  ready := by
    intro hlive
    have hl := hlaw hlive
    refine ⟨?_, fun hone => ?_, fun text hmem => ?_⟩
    · have hsingle := hl.single
      omega
    · have hle := hl.bounded endpoint hfound hone
      rw [sendings_snoc, ← hk.attempt] at hle
      simp only [Event.counts] at hle
      push_cast at hle
      exact hle
    · obtain ⟨text', -, hpreview, hunique⟩ := hk.scheduled
      have hsent := hl.complete ⟨url, log.eventId, log.payloadPreview⟩
        (List.mem_append_right _ (List.mem_singleton_self _))
      obtain hbody | hbody := List.mem_append.mp hsent
      · have htext : log.payloadPreview = text := (hunique _ hbody).trans (hunique _ hmem).symm
        rw [← htext, hpreview]
        exact List.length_take_le 256 text'
      · cases List.mem_singleton.mp hbody

/-- A request is answered, and the log is delivered or not. -/
theorem answered (hk : Kept endpoints log h n) (hn : 0 < n)
    (hpreview : log'.payloadPreview = log.payloadPreview)
    (hendpoint : log'.endpointId = log.endpointId) (hattempt : log'.attempt = log.attempt) :
    Kept endpoints log' (h ++ if log'.status = .delivered then [.delivered] else []) (n - 1) := by
  have hsingle := hk.single
  have hopen : log.status ≠ .delivered := fun hs => by
    have hzero := hk.settled hs
    omega
  have hnot := hk.undelivered hopen
  split_ifs with hs
  · exact {
      begins := hk.begins_snoc (fun t he => by cases he) hpreview
      attempt := by
        rw [sendings_snoc, hattempt, hk.attempt]
        rfl
      delivered := by simp [hs]
      settled := fun _ => by omega
      single := by omega
      final := hk.final.snoc fun request he => by cases he
      endpoint := hendpoint ▸ hk.endpoint
      bounded := by
        rw [sendings_snoc, hendpoint]
        exact hk.bounded
      complete := hk.complete_snoc fun request he => by cases he }
  · rw [List.append_nil]
    exact {
      begins := hpreview ▸ hk.begins
      attempt := hattempt.trans hk.attempt
      delivered := by simp [hs, hnot]
      settled := fun hs' => absurd hs' hs
      single := by omega
      final := hk.final
      endpoint := hendpoint ▸ hk.endpoint
      bounded := hendpoint ▸ hk.bounded
      complete := hk.complete }

end Kept

/-- Whether an open log may be attempted without its attempts is seen when it is put back. -/
theorem attemptable_reset (hs : log.status ≠ .delivered) :
    Attemptable endpoint 0 now (reset now log) (h ++ [.requeued]) n ↔
      Attemptable endpoint 0 now log h n := by
  have hmem : ∀ text, .scheduled text ∈ h ++ [Event.requeued] ↔ .scheduled text ∈ h := by simp
  have hexpired : isExpired (reset now log) endpoint.retryPolicy now =
      isExpired log endpoint.retryPolicy now := rfl
  constructor
  · intro ha
    refine ⟨hs, fun hlive => ?_⟩
    obtain ⟨hn, hleft, hfits⟩ := ha.ready hlive
    exact ⟨hn, hleft, fun text htext => hfits text ((hmem text).mpr htext)⟩
  · intro ha
    refine ⟨?_, fun hlive => ?_⟩
    · intro hstatus
      cases hstatus
    obtain ⟨hn, hleft, hfits⟩ := ha.ready (hexpired ▸ hlive)
    exact ⟨hn, hleft, fun text htext => hfits text ((hmem text).mp htext)⟩

/-! ## All logs -/

theorem Sane.kept (hs : Sane endpoints s flight) (hget : s.deliveryLogs.get id = some log) :
    Kept endpoints log (history id s) (flight id) := by
  have hid := hs id
  rwa [hget] at hid

theorem Sane.absent (hs : Sane endpoints s flight) (hget : s.deliveryLogs.get id = none) :
    history id s = [] ∧ flight id = 0 := by
  have hid := hs id
  rwa [hget] at hid

/-- A log that is written with what it is kept with leaves all others as they are. -/
theorem Sane.write (hs : Sane endpoints s flight)
    (hk : Kept endpoints log (history log.id s ++ events) (flight' log.id))
    (hothers : ∀ id, id ≠ log.id → flight' id = flight id) :
    Sane endpoints (s.write log events) flight' := by
  intro id
  by_cases hid : id = log.id
  · rw [hid, get_write_self, history_write_self]
    exact hk
  · rw [get_write_ne hid, history_write_ne hid, hothers id hid]
    exact hs id

theorem Sane.orderly (hs : Sane endpoints s flight) : Orderly endpoints s flight := by
  intro id
  cases hget : s.deliveryLogs.get id with
  | none => exact (hs.absent hget).1
  | some log => exact (hs.kept hget).toLawful

/-- What is neither a log nor an event does not matter. -/
theorem Sane.congr (hs : Sane endpoints s flight) (hlogs : s'.deliveryLogs = s.deliveryLogs)
    (htrace : s'.trace = s.trace) : Sane endpoints s' flight := by
  intro id
  rw [history, hlogs, htrace]
  exact hs id

end Webhooks
