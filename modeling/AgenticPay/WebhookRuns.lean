import AgenticPay.WebhookHistories

/-!
# Interleaved deliveries

A turn begins at most one attempt. What an attempt makes of its log, an answer of the log that was
sent, and any other turn of the rest. Calls are made and tasks resumed in any order: a delivery is
lawful throughout a run exactly if no attempt of it is begun at a wrong time, for neither the state
of the log nor the requests that are under way are looked at when an attempt begins, and the preview
is sent in place of the payload.
-/
namespace Webhooks

open Records Awaits Transaction

/-- The attempt that a turn begins, by hand or for an entry of the queue. -/
inductive Attempt where
  | direct (logId : String)
  | replay (entry : DeadLetterEntry)

def Attempt.logId : Attempt → String
  | .direct logId => logId
  | .replay entry => entry.deliveryLogId

/-- The attempts that count: a replay puts the log back first. -/
def Attempt.counted (log : DeliveryLog) : Attempt → Nat
  | .direct _ => log.attempt
  | .replay _ => 0

/-- What a turn does before its attempt. -/
def Attempt.prepare (now : Int) (s : State) : Attempt → State
  | .direct _ => s
  | .replay entry => prepareReplay entry now s

def Call.begins (s : State) : Call → Option Attempt
  | .attemptDelivery logId => some (.direct logId)
  | .replaySingle entryId =>
    ((s.dlqEntries.get entryId).filter (·.purgedAt.isNone)).map .replay
  | .replayBatch entryIds => (nextEntry true s entryIds).map fun r => .replay r.1
  | .replayAll merchantId =>
    (nextEntry false s ((listDLQ merchantId none none s).map (·.id))).map fun r => .replay r.1
  | _ => none

def Waiting.begins (s : State) : Waiting → Option Attempt
  | .replayed _ logId _ (some loop) =>
    (s.deliveryLogs.get logId).bind fun _ =>
      (nextEntry loop.lookedUp s loop.entryIds).map fun r => .replay r.1
  | _ => none

variable {endpoints : Endpoints} {s s' : State} {flight : String → Nat} {id logId : String}
  {log : DeliveryLog} {endpoint : WebhookEndpointConfig} {now : Int} {told : Told}
  {caller : Caller} {attempt : Attempt} {g : Config State Waiting} {tasks : List Waiting}
  {task : Waiting} {entry : DeadLetterEntry} {ids : List String}

/-! ## Requests under way -/

theorem inFlight_append (tasks tasks' : List Waiting) (id : String) :
    inFlight (tasks ++ tasks') id = inFlight tasks id + inFlight tasks' id :=
  List.countP_append

theorem inFlight_erase {i : Nat} (hwaiting : tasks[i]? = some task) (id : String) :
    inFlight tasks id = inFlight [task] id + inFlight (tasks.eraseIdx i) id := by
  obtain ⟨hi, hget⟩ := List.getElem?_eq_some_iff.mp hwaiting
  have hperm : (task :: tasks.eraseIdx i).Perm tasks :=
    hget ▸ List.getElem_cons_eraseIdx_perm hi
  rw [← inFlight_append]
  exact (hperm.countP_eq _).symm

theorem inFlight_returned (log : DeliveryLog) (caller : Caller) (id : String) :
    inFlight (returned log caller).tasks id = 0 := by
  cases caller <;> rfl

theorem inFlight_request (policy : RetryPolicy) (startMs : Int) :
    inFlight [.request logId policy startMs caller] id = if logId = id then 1 else 0 := by
  by_cases hid : logId = id <;> simp [inFlight, Waiting.sends, hid]

/-- A property of the state and of the requests under way holds at the ends of a turn. -/
def Leads (J : State → (String → Nat) → Prop) (flight : String → Nat) (ends : Ends) : Prop :=
  J ends.2 fun id => flight id + inFlight ends.1.tasks id

theorem leads_iff {t : Turn Waiting (Except String Result)} {J : State → (String → Nat) → Prop}
    (ht : ∀ id, inFlight t.tasks id = 0) : Leads J flight (t, s) ↔ J s flight := by
  have hflight : (fun id => flight id + inFlight t.tasks id) = flight := by
    funext id
    rw [ht id, Nat.add_zero]
  show J s (fun id => flight id + inFlight t.tasks id) ↔ J s flight
  rw [hflight]

/-- The ends of a turn among the tasks that wait elsewhere. -/
theorem leads_tasks {J : State → (String → Nat) → Prop} {ends : Ends} {base : List Waiting}
    (hbase : ∀ id, inFlight base id = flight id) :
    J ends.2 (inFlight (base ++ ends.1.tasks)) ↔ Leads J flight ends := by
  have hflight : inFlight (base ++ ends.1.tasks) =
      fun id => flight id + inFlight ends.1.tasks id := by
    funext id
    rw [inFlight_append, hbase]
  rw [hflight]
  rfl

/-! ## Attempts -/

theorem attemptDelivery_expired (hget : s.deliveryLogs.get log.id = some log)
    (hendpoint : endpoints.get log.endpointId = some endpoint)
    (hexpired : isExpired log endpoint.retryPolicy told.now = true) :
    attemptDelivery endpoints log.id caller told s =
      (returned (lapsed told.now log) caller, s.write (lapsed told.now log) []) := by
  rw [attemptDelivery, hget]
  simp only [hendpoint, hexpired, if_true]

theorem attemptDelivery_sent (hget : s.deliveryLogs.get log.id = some log)
    (hendpoint : endpoints.get log.endpointId = some endpoint)
    (hlive : isExpired log endpoint.retryPolicy told.now = false) :
    attemptDelivery endpoints log.id caller told s =
      (.waits (.request log.id endpoint.retryPolicy told.now caller),
        s.write (processed told.now log)
          [.sent ⟨endpoint.url, log.eventId, log.payloadPreview⟩]) := by
  rw [attemptDelivery, hget]
  simp only [hendpoint, hlive]
  rfl

/-- An attempt of a log that may be attempted. -/
theorem attempt_sane (hs : Sane endpoints s flight)
    (ha : ∀ log endpoint, s.deliveryLogs.get logId = some log →
      endpoints.get log.endpointId = some endpoint →
        Attemptable endpoint log.attempt told.now log (history logId s) (flight logId)) :
    Leads (Sane endpoints) flight (attemptDelivery endpoints logId caller told s) := by
  cases hget : s.deliveryLogs.get logId with
  | none =>
    rw [attemptDelivery, hget]
    exact (leads_iff fun id => rfl).mpr hs
  | some log =>
    have hk := hs.kept hget
    obtain ⟨endpoint, hendpoint⟩ := hk.endpoint
    have hready := ha log endpoint hget hendpoint
    obtain rfl := Table.key_of_get hget
    cases hlive : isExpired log endpoint.retryPolicy told.now with
    | true =>
      rw [attemptDelivery_expired hget hendpoint hlive, leads_iff (inFlight_returned _ _)]
      refine hs.write ?_ fun id _ => rfl
      rw [List.append_nil]
      exact hk.lapsed hready.undelivered
    | false =>
      rw [attemptDelivery_sent hget hendpoint hlive]
      refine hs.write ?_ fun id hid => ?_
      · show Kept endpoints (processed told.now log) (history log.id s ++ _)
          (flight log.id + inFlight [.request log.id endpoint.retryPolicy told.now caller] log.id)
        rw [inFlight_request, if_pos rfl]
        exact hk.processed hendpoint hready hlive endpoint.url
      · have hne : ¬ log.id = id := fun he => hid he.symm
        show flight id + inFlight [.request log.id endpoint.retryPolicy told.now caller] id =
          flight id
        rw [inFlight_request, if_neg hne, Nat.add_zero]

theorem Orderly.lawful (ho : Orderly endpoints s flight) (hget : s.deliveryLogs.get id = some log) :
    Lawful endpoints log (history id s) (flight id) := by
  have hid := ho id
  rwa [hget] at hid

/-- What is known of a log when its attempt has been orderly. -/
theorem attempt_orderly (hget : s.deliveryLogs.get log.id = some log)
    (hendpoint : endpoints.get log.endpointId = some endpoint)
    (ho : Leads (Orderly endpoints) flight (attemptDelivery endpoints log.id caller told s)) :
    .delivered ∉ history log.id s ∧
      (isExpired log endpoint.retryPolicy told.now = false →
        Lawful endpoints (processed told.now log) (history log.id s ++
          [.sent ⟨endpoint.url, log.eventId, log.payloadPreview⟩]) (flight log.id + 1)) := by
  cases hlive : isExpired log endpoint.retryPolicy told.now with
  | true =>
    rw [attemptDelivery_expired hget hendpoint hlive, leads_iff (inFlight_returned _ _)] at ho
    have hl := ho.lawful (get_write_self (lapsed told.now log) [] s)
    rw [history_write_self, List.append_nil] at hl
    refine ⟨fun hmem => ?_, fun h => by cases h⟩
    cases hl.delivered.mp hmem
  | false =>
    rw [attemptDelivery_sent hget hendpoint hlive] at ho
    have hl := Orderly.lawful ho (get_write_self (processed told.now log) _ s)
    rw [history_write_self] at hl
    refine ⟨fun hmem => ?_, fun _ => ?_⟩
    · cases hl.delivered.mp (List.mem_append_left _ hmem)
    · have hself : inFlight [.request log.id endpoint.retryPolicy told.now caller] log.id = 1 := by
        rw [inFlight_request, if_pos rfl]
      rw [← hself]
      exact hl

theorem requeue_sane (hs : Sane endpoints s flight) (hget : s.deliveryLogs.get log.id = some log)
    (hopen : log.status ≠ .delivered) : Sane endpoints (requeue now s log) flight :=
  hs.write ((hs.kept hget).reset hopen) fun _ _ => rfl

/-- All logs of a list that are open are put back. -/
theorem requeues_sane {logs : List DeliveryLog} (hs : Sane endpoints s flight)
    (hids : (logs.map (·.id)).Nodup)
    (hlogs : ∀ log ∈ logs, s.deliveryLogs.get log.id = some log ∧ log.status ≠ .delivered) :
    Sane endpoints (logs.foldl (requeue now) s) flight := by
  induction logs generalizing s with
  | nil => exact hs
  | cons log logs ih =>
    rw [List.map_cons, List.nodup_cons] at hids
    obtain ⟨hget, hopen⟩ := hlogs log List.mem_cons_self
    refine ih (requeue_sane hs hget hopen) hids.2 fun other hother => ?_
    obtain ⟨hfound, hstatus⟩ := hlogs other (List.mem_cons_of_mem _ hother)
    have hne : other.id ≠ log.id := fun he => hids.1 (he ▸ List.mem_map_of_mem hother)
    exact ⟨(get_requeue_ne hne).trans hfound, hstatus⟩

theorem bulkRetry_sane (hs : Sane endpoints s flight) (merchantId : Option String) :
    Leads (Sane endpoints) flight (bulkRetryDeadLetters endpoints merchantId told s) := by
  refine (leads_iff fun id => rfl).mpr (requeues_sane hs ?_ fun log hlog => ?_)
  · exact s.deliveryLogs.nodup.sublist
      ((List.filter_sublist.trans List.filter_sublist).map DeliveryLog.id)
  · obtain ⟨hdead, -⟩ := List.mem_filter.mp hlog
    obtain ⟨hmem, hfilter⟩ := List.mem_filter.mp hdead
    have hstatus : log.status = .deadLetter := by simpa using (Bool.and_eq_true_iff.mp hfilter).2
    refine ⟨Table.get_of_mem hmem, ?_⟩
    rw [hstatus]
    decide

/-- The log that a replay is for is put back. -/
theorem prepareReplay_found (hget : s.deliveryLogs.get entry.deliveryLogId = some log) :
    prepareReplay entry now s = requeue now (countReplay entry now s) log := by
  have hcount : (countReplay entry now s).deliveryLogs.get entry.deliveryLogId = some log := hget
  rw [prepareReplay]
  simp only [hcount]

theorem prepareReplay_absent (hget : s.deliveryLogs.get entry.deliveryLogId = none) :
    prepareReplay entry now s = countReplay entry now s := by
  have hcount : (countReplay entry now s).deliveryLogs.get entry.deliveryLogId = none := hget
  rw [prepareReplay]
  simp only [hcount]

theorem replay_sane (hs : Sane endpoints s flight)
    (ha : ∀ log endpoint, s.deliveryLogs.get entry.deliveryLogId = some log →
      endpoints.get log.endpointId = some endpoint →
        Attemptable endpoint 0 told.now log (history entry.deliveryLogId s)
          (flight entry.deliveryLogId)) :
    Leads (Sane endpoints) flight (attemptDelivery endpoints entry.deliveryLogId caller told
      (prepareReplay entry told.now s)) := by
  have hcount : Sane endpoints (countReplay entry told.now s) flight := hs.congr rfl rfl
  cases hget : s.deliveryLogs.get entry.deliveryLogId with
  | none =>
    rw [prepareReplay_absent hget]
    refine attempt_sane hcount fun log endpoint hget' => ?_
    cases hget.symm.trans hget'
  | some log =>
    have hkey : log.id = entry.deliveryLogId := Table.key_of_get hget
    obtain ⟨endpoint, hendpoint⟩ := (hs.kept hget).endpoint
    have hready := ha log endpoint hget hendpoint
    have hopen := hready.undelivered
    rw [prepareReplay_found hget]
    rw [← hkey] at hget hready ⊢
    refine attempt_sane (requeue_sane hcount hget hopen) fun log' endpoint' hget' hendpoint' => ?_
    cases (get_requeue_self told.now _ log).symm.trans hget'
    cases hendpoint.symm.trans hendpoint'
    rw [history_requeue_self]
    exact (attemptable_reset hopen).mpr hready

theorem attempt_of_orderly (hs : Sane endpoints s flight)
    (hget : s.deliveryLogs.get attempt.logId = some log)
    (hendpoint : endpoints.get log.endpointId = some endpoint)
    (ho : Leads (Orderly endpoints) flight (attemptDelivery endpoints attempt.logId caller told
      (attempt.prepare told.now s))) :
    Attemptable endpoint (attempt.counted log) told.now log (history attempt.logId s)
      (flight attempt.logId) := by
  have hk := hs.kept hget
  have hkey : log.id = attempt.logId := Table.key_of_get hget
  rw [← hkey] at hget hk ho ⊢
  cases attempt with
  | direct logId =>
    obtain ⟨hnot, hlaw⟩ := attempt_orderly hget hendpoint ho
    exact hk.attemptable (fun hstatus => hnot (hk.delivered.mpr hstatus)) hendpoint hlaw
  | replay entry =>
    have hentry : s.deliveryLogs.get entry.deliveryLogId = some log := by
      rw [← show log.id = entry.deliveryLogId from hkey]
      exact hget
    rw [Attempt.prepare, prepareReplay_found hentry] at ho
    have hself : (requeue told.now (countReplay entry told.now s) log).deliveryLogs.get
        (reset told.now log).id = some (reset told.now log) := get_requeue_self ..
    obtain ⟨hnot, hlaw⟩ := attempt_orderly hself hendpoint ho
    have hhistory : history (reset told.now log).id
        (requeue told.now (countReplay entry told.now s) log) = history log.id s ++ [.requeued] :=
      history_requeue_self ..
    rw [hhistory] at hnot hlaw
    have hopen : log.status ≠ .delivered := fun hstatus =>
      hnot (List.mem_append_left _ (hk.delivered.mpr hstatus))
    exact (attemptable_reset hopen).mp
      ((hk.reset hopen).attemptable (fun hstatus => by cases hstatus) hendpoint hlaw)

/-! ## Answers -/

/-- What an answer leaves of a log. -/
structure Keeps (log log' : DeliveryLog) : Prop where
  id : log'.id = log.id
  endpointId : log'.endpointId = log.endpointId
  payloadPreview : log'.payloadPreview = log.payloadPreview
  attempt : log'.attempt = log.attempt

theorem handleRetryOrDead_keeps (policy : RetryPolicy) (category : FailureCategory)
    (statusCode : Option Nat) (now : Int) (log : DeliveryLog) :
    Keeps log (handleRetryOrDead policy category statusCode now log).2 := by
  rw [handleRetryOrDead]
  by_cases hlast : policy.maxRetries ≤ (log.attempt : ℚ)
  · rw [if_pos hlast]
    exact ⟨rfl, rfl, rfl, rfl⟩
  · rw [if_neg hlast]
    cases dateAt (now + nextDelay policy log.attempt) <;> exact ⟨rfl, rfl, rfl, rfl⟩

theorem caught_keeps (policy : RetryPolicy) (message : String) (startMs now : Int)
    (log : DeliveryLog) : Keeps log (caught policy message startMs now log).2 := by
  obtain ⟨hid, hendpoint, hpreview, hattempt⟩ := handleRetryOrDead_keeps policy
    (classifyError message none) none now
    { log with responseLatencyMs := some (now - startMs), lastError := some message }
  exact ⟨hid, hendpoint, hpreview, hattempt⟩

theorem answered_keeps (policy : RetryPolicy) (answer : Answer) (startMs now : Int)
    (log : DeliveryLog) : Keeps log (answered policy answer startMs now log).2 := by
  cases answer with
  | failed message => exact caught_keeps policy message startMs now log
  | status code =>
    rw [answered]
    split_ifs
    · exact ⟨rfl, rfl, rfl, rfl⟩
    · have hfirst := handleRetryOrDead_keeps policy (classifyError "" (some code)) (some code) now
        { log with responseLatencyMs := some (now - startMs), statusCode := some code }
      dsimp only
      split
      · exact ⟨hfirst.id, hfirst.endpointId, hfirst.payloadPreview, hfirst.attempt⟩
      · obtain ⟨hid, hendpoint, hpreview, hattempt⟩ := caught_keeps policy _ startMs now _
        exact ⟨hid.trans hfirst.id, hendpoint.trans hfirst.endpointId,
          hpreview.trans hfirst.payloadPreview, hattempt.trans hfirst.attempt⟩

/-- A request that is answered is under way no more. -/
theorem answer_sane {flight' : String → Nat} {policy : RetryPolicy} {startMs : Int}
    (hs : Sane endpoints s flight)
    (hflight : ∀ id, flight id = inFlight [.request logId policy startMs caller] id + flight' id) :
    Leads (Sane endpoints) flight' (answerDelivery logId policy startMs caller told s) := by
  simp only [inFlight_request] at hflight
  cases hget : s.deliveryLogs.get logId with
  | none =>
    have hnone := (hs.absent hget).2
    rw [hflight, if_pos rfl] at hnone
    omega
  | some log =>
    obtain rfl := Table.key_of_get hget
    have hself : flight' log.id = flight log.id - 1 := by
      rw [hflight, if_pos rfl]
      omega
    have hothers : ∀ id, id ≠ log.id → flight' id = flight id := by
      intro id hid
      rw [hflight, if_neg hid.symm, Nat.zero_add]
    have hpos : 0 < flight log.id := by
      rw [hflight, if_pos rfl]
      omega
    have hkeeps := answered_keeps policy told.answer startMs told.now log
    rw [answerDelivery, hget]
    dsimp only
    generalize answered policy told.answer startMs told.now log = r at hkeeps
    obtain ⟨outcome, log'⟩ := r
    have hwrite : ∀ log'', log''.status = log'.status → Keeps log log'' → Sane endpoints
        (s.write log'' (if log'.status = .delivered then [.delivered] else [])) flight' := by
      intro log'' hstatus hkeeps''
      refine hs.write ?_ fun id hid => hothers id (hkeeps''.id ▸ hid)
      rw [hkeeps''.id, hself, ← hstatus]
      exact (hs.kept hget).answered hpos hkeeps''.payloadPreview hkeeps''.endpointId
        hkeeps''.attempt
    cases outcome with
    | ok _ =>
      refine (leads_iff (inFlight_returned _ caller)).mpr (hwrite _ rfl ?_)
      exact ⟨hkeeps.id, hkeeps.endpointId, hkeeps.payloadPreview, hkeeps.attempt⟩
    | error message => exact (leads_iff fun id => rfl).mpr (hwrite log' rfl hkeeps)

/-! ## Turns -/

/-- The logs and what has happened to them are as they were. -/
def Same (s s' : State) : Prop := s'.deliveryLogs = s.deliveryLogs ∧ s'.trace = s.trace

theorem Sane.same (hs : Sane endpoints s flight) (h : Same s s') : Sane endpoints s' flight :=
  hs.congr h.1 h.2

theorem same_foldl {α : Type} {f : State → α → State} (hf : ∀ s a, Same s (f s a))
    (as : List α) (s : State) : Same s (as.foldl f s) := by
  induction as generalizing s with
  | nil => exact ⟨rfl, rfl⟩
  | cons a as ih => exact ⟨(ih (f s a)).1.trans (hf s a).1, (ih (f s a)).2.trans (hf s a).2⟩

theorem enqueueDeadLetter_same (log : DeliveryLog) (id : String) (now : Int) (s : State) :
    Same s (enqueueDeadLetter log id now s).2 := by
  rw [enqueueDeadLetter]
  split <;> exact ⟨rfl, rfl⟩

theorem schedule_sane {endpointId merchantId eventId eventType : String}
    {payload : List (String × Json.Value)} {idempotencyKey : Option String} {ends : Ends}
    (hs : Sane endpoints s flight)
    (h : scheduleDelivery endpoints endpointId merchantId eventId eventType payload idempotencyKey
      told s = some ends) : Leads (Sane endpoints) flight ends := by
  rw [scheduleDelivery] at h
  cases hendpoint : endpoints.get endpointId with
  | none =>
    rw [hendpoint] at h
    cases h
    exact (leads_iff fun id => rfl).mpr hs
  | some endpoint =>
    rw [hendpoint] at h
    cases hscheduled : scheduledWith idempotencyKey s with
    | some existing =>
      rw [hscheduled] at h
      cases h
      exact (leads_iff fun id => rfl).mpr hs
    | none =>
      simp only [hscheduled] at h
      split_ifs at h with hused
      cases h
      have hfresh : s.deliveryLogs.get (told.randomUUID 0) = none := by simpa using hused
      obtain ⟨hhistory, hflight⟩ := hs.absent hfresh
      refine (leads_iff fun id => rfl).mpr (Sane.congr (hs.write ?_ fun id _ => rfl) rfl rfl)
      rw [hhistory, hflight]
      exact Kept.new rfl rfl rfl hendpoint

/-- A call that begins no attempt. -/
theorem call_idle {c : Call} {ends : Ends} (hb : c.begins s = none)
    (h : call endpoints c told s = some ends) (hs : Sane endpoints s flight) :
    Leads (Sane endpoints) flight ends := by
  cases c with
  | scheduleDelivery => exact schedule_sane hs h
  | attemptDelivery logId => cases hb
  | bulkRetryDeadLetters merchantId =>
    cases h
    exact bulkRetry_sane hs merchantId
  | enqueueDeadLetter log =>
    cases h
    exact (leads_iff fun id => rfl).mpr (hs.same (enqueueDeadLetter_same ..))
  | syncDLQFromDeliveryLogs =>
    cases h
    exact (leads_iff fun id => rfl).mpr
      (hs.same (same_foldl (fun s r => enqueueDeadLetter_same ..) _ s))
  | replaySingle entryId =>
    cases h
    simp only [Call.begins, Option.map_eq_none_iff] at hb
    rw [replaySingle]
    cases hget : s.dlqEntries.get entryId with
    | none => exact (leads_iff fun id => rfl).mpr hs
    | some entry =>
      have hpurged : entry.purgedAt.isSome = true :=
        Option.isSome_iff_ne_none.mpr (by simpa [hget, Option.filter] using hb)
      simp only [hpurged, if_true]
      exact (leads_iff fun id => rfl).mpr hs
  | replayBatch entryIds =>
    cases h
    simp only [Call.begins, Option.map_eq_none_iff] at hb
    simp only [replayBatch, replayRest, hb]
    exact (leads_iff fun id => rfl).mpr hs
  | replayAll merchantId =>
    cases h
    simp only [Call.begins, Option.map_eq_none_iff] at hb
    simp only [replayAll, replayRest, hb]
    exact (leads_iff fun id => rfl).mpr hs
  | purgeDLQEntry entryId =>
    cases h
    rw [purgeDLQEntry]
    cases s.dlqEntries.get entryId with
    | none => exact (leads_iff fun id => rfl).mpr hs
    | some entry => exact (leads_iff fun id => rfl).mpr (hs.congr rfl rfl)
  | purgeByCategory category merchantId =>
    cases h
    have hpurge : ∀ s entry, Same s (purge told.now s entry) := fun s entry => ⟨rfl, rfl⟩
    exact (leads_iff fun id => rfl).mpr (hs.same (same_foldl hpurge _ s))

/-- A call that begins an attempt makes it. -/
theorem call_attempts (endpoints : Endpoints) (told : Told) {c : Call}
    (hb : c.begins s = some attempt) : ∃ caller,
    call endpoints c told s = some (attemptDelivery endpoints attempt.logId caller told
      (attempt.prepare told.now s)) := by
  cases c with
  | attemptDelivery logId =>
    cases hb
    exact ⟨.direct, rfl⟩
  | replaySingle entryId =>
    obtain ⟨entry, hentry, rfl⟩ := Option.map_eq_some_iff.mp hb
    obtain ⟨hget, hkept⟩ := Option.filter_eq_some_iff.mp hentry
    have hpurged : entry.purgedAt = none := Option.isNone_iff_eq_none.mp hkept
    refine ⟨.replay entry.id told.now none, ?_⟩
    simp only [call, replaySingle, hget, hpurged]
    rfl
  | replayBatch entryIds =>
    obtain ⟨⟨entry, rest⟩, hnext, rfl⟩ := Option.map_eq_some_iff.mp hb
    refine ⟨.replay entry.id told.now (some ⟨true, rest, []⟩), ?_⟩
    simp only [call, replayBatch, replayRest, hnext]
    rfl
  | replayAll merchantId =>
    obtain ⟨⟨entry, rest⟩, hnext, rfl⟩ := Option.map_eq_some_iff.mp hb
    refine ⟨.replay entry.id told.now (some ⟨false, rest, []⟩), ?_⟩
    simp only [call, replayAll, replayRest, hnext]
    rfl
  | _ => cases hb

theorem resume_idle (hb : task.begins s = none) (hs : Sane endpoints s flight)
    {flight' : String → Nat} (hflight : ∀ id, flight id = inFlight [task] id + flight' id) :
    Leads (Sane endpoints) flight' (resume endpoints task told s) := by
  cases task with
  | request logId policy startMs caller => exact answer_sane hs hflight
  | replayed entryId logId replayedAt loop =>
    have he : flight' = flight := by
      funext id
      rw [hflight]
      exact (Nat.zero_add _).symm
    rw [he, resume, finishReplay]
    cases hget : s.deliveryLogs.get logId with
    | none => exact (leads_iff fun id => rfl).mpr hs
    | some log =>
      cases loop with
      | none => exact (leads_iff fun id => rfl).mpr hs
      | some loop =>
        simp only [Waiting.begins, hget, Option.bind_some, Option.map_eq_none_iff] at hb
        simp only [replayRest, hb]
        exact (leads_iff fun id => rfl).mpr hs

theorem resume_attempts (endpoints : Endpoints) (told : Told)
    (hb : task.begins s = some attempt) : (∃ caller,
    resume endpoints task told s = attemptDelivery endpoints attempt.logId caller told
      (attempt.prepare told.now s)) ∧ ∀ id, inFlight [task] id = 0 := by
  cases task with
  | request logId policy startMs caller => cases hb
  | replayed entryId logId replayedAt loop =>
    cases loop with
    | none => cases hb
    | some loop =>
      obtain ⟨log, hget, hb⟩ := Option.bind_eq_some_iff.mp hb
      obtain ⟨⟨entry, rest⟩, hnext, rfl⟩ := Option.map_eq_some_iff.mp hb
      refine ⟨⟨.replay entry.id told.now (some { loop with
        entryIds := rest
        results := loop.results ++
          [⟨entryId, logId, log.status = .delivered, log.status, replayedAt⟩] }), ?_⟩,
        fun id => rfl⟩
      simp only [resume, finishReplay, hget, replayRest, hnext]
      rfl

/-! ## Runs -/

/-- The attempt that an act begins, and the time at which it does. -/
def begins (g : Config State Waiting) : Act Call Told → Option (Attempt × Int)
  | .call c told => (c.begins g.state).map (·, told.now)
  | .resume i told => (g.tasks[i]?).bind fun task => (task.begins g.state).map (·, told.now)

/-- The attempt that the act begins, if it begins one, is of a log that may be attempted. -/
def Proper (endpoints : Endpoints) (g : Config State Waiting) (a : Act Call Told) : Prop :=
  ∀ attempt now log endpoint, begins g a = some (attempt, now) →
    g.state.deliveryLogs.get attempt.logId = some log →
      endpoints.get log.endpointId = some endpoint →
        Attemptable endpoint (attempt.counted log) now log (history attempt.logId g.state)
          (inFlight g.tasks attempt.logId)

variable {now : Int} {attempt : Attempt} {g : Config State Waiting}

theorem commit_attempts (endpoints : Endpoints) {a : Act Call Told}
    (hb : begins g a = some (attempt, now)) :
    ∃ caller told, told.now = now ∧ ∀ J : State → (String → Nat) → Prop,
      J (commit (machine (webhooks endpoints)) g a).state
        (inFlight (commit (machine (webhooks endpoints)) g a).tasks) ↔
      Leads J (inFlight g.tasks) (attemptDelivery endpoints attempt.logId caller told
        (attempt.prepare told.now g.state)) := by
  cases a with
  | call c told =>
    obtain ⟨attempt', hc, he⟩ := Option.map_eq_some_iff.mp hb
    cases he
    obtain ⟨caller, hcall⟩ := call_attempts endpoints told hc
    refine ⟨caller, told, rfl, fun J => ?_⟩
    generalize attemptDelivery endpoints attempt.logId caller told
      (attempt.prepare told.now g.state) = ends at hcall
    rw [commit_called (P := webhooks endpoints) (t := ends.1) (s := ends.2) hcall]
    exact leads_tasks fun id => rfl
  | resume i told =>
    obtain ⟨task, hwaiting, hb⟩ := Option.bind_eq_some_iff.mp hb
    obtain ⟨attempt', ht, he⟩ := Option.map_eq_some_iff.mp hb
    cases he
    obtain ⟨⟨caller, hresume⟩, hnone⟩ := resume_attempts endpoints told ht
    refine ⟨caller, told, rfl, fun J => ?_⟩
    generalize attemptDelivery endpoints attempt.logId caller told
      (attempt.prepare told.now g.state) = ends at hresume
    rw [commit_resumed (P := webhooks endpoints) (t := ends.1) (s := ends.2) hwaiting hresume]
    refine leads_tasks fun id => ?_
    rw [inFlight_erase hwaiting, hnone, Nat.zero_add]

theorem commit_idle {a : Act Call Told} (hb : begins g a = none)
    (hs : Sane endpoints g.state (inFlight g.tasks)) :
    Sane endpoints (commit (machine (webhooks endpoints)) g a).state
      (inFlight (commit (machine (webhooks endpoints)) g a).tasks) := by
  obtain hmoves | he := commit_moves (webhooks endpoints) g a
  · generalize commit (machine (webhooks endpoints)) g a = g' at hmoves
    cases hmoves with
    | called hcalled =>
      exact (leads_tasks fun id => rfl).mpr
        (call_idle (Option.map_eq_none_iff.mp hb) hcalled hs)
    | @resumed i told task t s' hwaiting hresumed =>
      simp only [begins, hwaiting, Option.bind_some, Option.map_eq_none_iff] at hb
      have hleads : Leads (Sane endpoints) (inFlight (g.tasks.eraseIdx i))
          (resume endpoints task told g.state) := resume_idle hb hs (inFlight_erase hwaiting)
      rw [show resume endpoints task told g.state = (t, s') from hresumed] at hleads
      exact (leads_tasks fun id => rfl).mpr hleads
  · rwa [he]

/-- The deliveries before any call. -/
def start : Config State Waiting := ⟨{}, []⟩

theorem sane_start : Sane endpoints start.state (inFlight start.tasks) := fun _ => ⟨rfl, rfl⟩

theorem sane_commit {a : Act Call Told} (hs : Sane endpoints g.state (inFlight g.tasks))
    (hproper : Proper endpoints g a) :
    Sane endpoints (commit (machine (webhooks endpoints)) g a).state
      (inFlight (commit (machine (webhooks endpoints)) g a).tasks) := by
  cases hb : begins g a with
  | none => exact commit_idle hb hs
  | some r =>
    obtain ⟨caller, told, hnow, hcommit⟩ := commit_attempts endpoints hb
    refine (hcommit _).mpr ?_
    have hready := fun log endpoint => hproper r.1 r.2 log endpoint hb
    rw [← hnow] at hready
    cases hattempt : r.1 with
    | direct logId =>
      rw [hattempt] at hready
      exact attempt_sane hs hready
    | replay entry =>
      rw [hattempt] at hready
      exact replay_sane hs hready

theorem proper_of_orderly {a : Act Call Told} (hs : Sane endpoints g.state (inFlight g.tasks))
    (ho : Orderly endpoints (commit (machine (webhooks endpoints)) g a).state
      (inFlight (commit (machine (webhooks endpoints)) g a).tasks)) : Proper endpoints g a := by
  intro attempt now log endpoint hb hget hendpoint
  obtain ⟨caller, told, rfl, hcommit⟩ := commit_attempts endpoints hb
  exact attempt_of_orderly hs hget hendpoint ((hcommit _).mp ho)

/-- Every delivery is lawful throughout a run exactly if every attempt of the run is begun of a log
that may be attempted. -/
theorem deliveries_lawful_iff (endpoints : Endpoints) (acts : List (Act Call Told)) :
    Along (machine (webhooks endpoints)) (Proper endpoints) start acts ↔
      ∀ mid, mid <+: acts →
        Orderly endpoints (run (machine (webhooks endpoints)) start mid).state
          (inFlight (run (machine (webhooks endpoints)) start mid).tasks) :=
  along_iff_all (I := fun g : Config State Waiting => Orderly endpoints g.state (inFlight g.tasks))
    (J := fun g : Config State Waiting => Sane endpoints g.state (inFlight g.tasks))
    (fun _ _ => sane_commit) (fun _ _ => proper_of_orderly) (fun _ => Sane.orderly) sane_start

/-- One endpoint with the default policy. -/
def shop : Endpoints := (∅ : Endpoints).set ⟨"endpoint", "https://shop.example", true, {}⟩

def toldAt (now : Int) : Told := ⟨now, fun _ => "log", .status 200⟩

def schedule (payload : List (String × Json.Value)) : Act Call Told :=
  .call (.scheduleDelivery "endpoint" "merchant" "event" "paid" payload none) (toldAt 0)

def attemptAt (now : Int) : Act Call Told := .call (.attemptDelivery "log") (toldAt now)

/-- The only delivery, attempted twice at once. -/
def overlap : List (Act Call Told) := [schedule [], attemptAt 1, attemptAt 2]

/-- The only delivery, attempted again when it is delivered. -/
def again : List (Act Call Told) := [schedule [], attemptAt 1, .resume 0 (toldAt 2), attemptAt 3]

/-- Sixty nulls, of which the JSON has 310 code units. -/
def nulls : List (String × Json.Value) := [("note", .array (List.replicate 60 .null))]

theorem nulls_length : 256 < (payloadJson nulls).length := by
  simp only [payloadJson, Json.Value.codeUnits, Json.Value.stringify, String.toList_ofList]
  decide +kernel

/-- What the first attempt sends. -/
theorem history_attempt (payload : List (String × Json.Value)) :
    history "log" (run (machine (webhooks shop)) start [schedule payload, attemptAt 1]).state =
      [.scheduled (payloadJson payload),
        .sent ⟨"https://shop.example", "event", (payloadJson payload).take 256⟩] := by
  with_unfolding_all rfl

theorem attempt_found (payload : List (String × Json.Value)) :
    ((run (machine (webhooks shop)) start [schedule payload, attemptAt 1]).state.deliveryLogs.get
      "log").isSome = true := by
  with_unfolding_all rfl

/-- Two requests for a log are under way at once, a delivered log is processed again, and a payload
is cut. -/
theorem deliveries_unlawful :
    ¬ Orderly shop (run (machine (webhooks shop)) start overlap).state
        (inFlight (run (machine (webhooks shop)) start overlap).tasks) ∧
      ¬ Orderly shop (run (machine (webhooks shop)) start again).state
        (inFlight (run (machine (webhooks shop)) start again).tasks) ∧
      ¬ Orderly shop (run (machine (webhooks shop)) start [schedule nulls, attemptAt 1]).state
        (inFlight (run (machine (webhooks shop)) start [schedule nulls, attemptAt 1]).tasks) := by
  refine ⟨fun ho => ?_, fun ho => ?_, fun ho => ?_⟩
  · have hsome : ((run (machine (webhooks shop)) start overlap).state.deliveryLogs.get
        "log").isSome = true := by decide +kernel
    obtain ⟨log, hget⟩ := Option.isSome_iff_exists.mp hsome
    exact absurd (ho.lawful hget).single (by decide +kernel)
  · have hstatus : ((run (machine (webhooks shop)) start again).state.deliveryLogs.get
        "log").map (·.status) = some .processing := by decide +kernel
    obtain ⟨log, hget, hprocessing⟩ := Option.map_eq_some_iff.mp hstatus
    have hdelivered : log.status = .delivered :=
      (ho.lawful hget).delivered.mp (by decide +kernel)
    cases hprocessing.symm.trans hdelivered
  · obtain ⟨log, hget⟩ := Option.isSome_iff_exists.mp (attempt_found nulls)
    have hcomplete := (ho.lawful hget).complete
    rw [history_attempt] at hcomplete
    have hmem := hcomplete ⟨"https://shop.example", "event", (payloadJson nulls).take 256⟩ (by simp)
    have hwhole : (payloadJson nulls).take 256 = payloadJson nulls := by simpa using hmem
    have hlength := congrArg List.length hwhole
    have hlong := nulls_length
    rw [List.length_take] at hlength
    omega

end Webhooks
