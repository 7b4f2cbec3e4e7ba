import AgenticPay.Transaction
import AgenticPay.PayoutReviews

/-!
# Passes over the batches to be retried

A pass works through the list of the batches that were due when it began, and waits at each one that
it settles. A batch is sent no earlier than its last failure allows, and a pass comes to its end, as
long as a pass that goes on finds the batches of its list as they were: failed, with their backoff
elapsed.
-/
namespace Payouts

open Records Awaits Transaction

/-- The time, and for each batch the time that its latest failure has put it off to. -/
structure Watch where
  clock : Int
  dueAt : BatchId → Option Int

def timeOf : Act Call Told → Int
  | .call _ told => told.now
  | .resume _ told => told.now

def Watch.after (w : Watch) (act : Act Call Told) (g : Engine) : Watch where
  clock := timeOf act
  dueAt := fun id =>
    (((g.state.batches.get id).filter (·.status = .failed)).bind (·.nextAttemptAt)).or (w.dueAt id)

variable (showNumber : ℚ → String) (config : Settings)

abbrev watched : System (Act Call Told) (Engine × Watch) Unit
    (Turn Waiting (Except String Response)) :=
  watching (machine (engine showNumber config)) fun _ act g w => w.after act g

/-- No batch that the turn sends had been put off to a later time. -/
def SendsWhenDue (p : Engine × Watch) (act : Act Call Told) : Prop :=
  ∀ c ∈ (commit (machine (engine showNumber config)) p.1 act).state.sent.drop
      p.1.state.sent.length,
    ∀ dueAt ∈ p.2.dueAt c.batch.id, dueAt ≤ timeOf act

instance (p : Engine × Watch) (act : Act Call Told) :
    Decidable (SendsWhenDue showNumber config p act) :=
  inferInstanceAs (Decidable (∀ c ∈ (commit (machine (engine showNumber config)) p.1
    act).state.sent.drop p.1.state.sent.length, ∀ dueAt ∈ p.2.dueAt c.batch.id,
      dueAt ≤ timeOf act))

/-- The due list of the pass that a task is part of. -/
def Waiting.dueList : Waiting → Option (List BatchId)
  | .settling batchId _ (.retry rest retried) => some (retried ++ batchId :: rest)
  | .retrying batchId rest retried => some (retried ++ batchId :: rest)
  | .settling _ _ (.evaluation ..) => none
  | .settling _ _ .approval => none
  | .evaluating .. => none

/-- The due list of the pass that a turn is part of. -/
def dueListOf (g : Engine) : Act Call Told → Option (List BatchId)
  | .call .retryDueBatches told => some (dueBatches told.now g.state)
  | .call _ _ => none
  | .resume i _ => g.tasks[i]?.bind Waiting.dueList

/-- A pass has retried its whole due list, or it waits and goes on with the same list. -/
def GoesOn (due : List BatchId) : Turn Waiting (Except String Response) → Prop
  | .done (.ok (.batches retried)) => retried = due
  | .done (.ok .unit) => False
  | .done (.ok (.done _)) => False
  | .done (.error _) => False
  | .waits task => task.dueList = some due

instance (due : List BatchId) (turn : Turn Waiting (Except String Response)) :
    Decidable (GoesOn due turn) :=
  match turn with
  | .done (.ok (.batches retried)) => inferInstanceAs (Decidable (retried = due))
  | .done (.ok .unit) => isFalse id
  | .done (.ok (.done _)) => isFalse id
  | .done (.error _) => isFalse id
  | .waits task => inferInstanceAs (Decidable (task.dueList = some due))

/-- The turn ends no pass that has batches left. -/
def PassesGoOn (p : Engine × Watch) (act : Act Call Told) : Prop :=
  ∀ r ∈ (machine (engine showNumber config) act p.1).toOption,
    ∀ due ∈ dueListOf p.1 act, GoesOn due r.1

instance (p : Engine × Watch) (act : Act Call Told) :
    Decidable (PassesGoOn showNumber config p act) :=
  inferInstanceAs (Decidable (∀ r ∈ (machine (engine showNumber config) act p.1).toOption,
    ∀ due ∈ dueListOf p.1 act, GoesOn due r.1))

/-! ## What a pass that goes on has to find -/

/-- The time that the next attempt is put off to has come. -/
def backoffElapsed (now : Int) (batch : PayoutBatch) : Bool :=
  decide (∀ dueAt ∈ batch.nextAttemptAt, dueAt ≤ now)

/-- Each batch that the pass comes to up to its next wait has failed, and its backoff has
elapsed. -/
def StillDue (now : Int) : List BatchId → Table PayoutBatch.id → Prop
  | [], _ => True
  | id :: rest, t => ∃ batch ∈ t.get id,
      (batch.status = .failed ∧ backoffElapsed now batch = true) ∧
        (batch.requiresApproval = true →
          StillDue now rest (t.set { forRetry batch with status := .pending }))

instance decidableStillDue (now : Int) : (ids : List BatchId) → (t : Table PayoutBatch.id) →
    Decidable (StillDue now ids t)
  | [], _ => isTrue trivial
  | id :: rest, t =>
    have := fun batch : PayoutBatch =>
      decidableStillDue now rest (t.set { forRetry batch with status := .pending })
    inferInstanceAs (Decidable (∃ batch ∈ t.get id, (_ ∧ _) ∧ (_ → StillDue now rest _)))

/-- Time goes on, a pass that goes on finds its batches still due, and no approver returns a batch
to the queue before its backoff has elapsed. -/
def Attends (p : Engine × Watch) (act : Act Call Told) : Prop :=
  p.2.clock ≤ timeOf act ∧
    match act with
    | .resume i told =>
      ∀ task ∈ p.1.tasks[i]?, StillDue told.now task.toRetry p.1.state.batches
    | .call (.retryFailedBatch batchId approver) told =>
      ∀ batch ∈ batchWith p.1.state batchId .failed, assertApprover approver = .ok () →
        batch.rejectedBy = none → batch.attempts < batch.maxAttempts →
          backoffElapsed told.now batch = true
    | .call .. => True

instance (p : Engine × Watch) (act : Act Call Told) : Decidable (Attends p act) :=
  match act with
  | .resume i told => inferInstanceAs (Decidable (_ ∧ ∀ task ∈ p.1.tasks[i]?,
      StillDue told.now task.toRetry p.1.state.batches))
  | .call (.retryFailedBatch batchId approver) told =>
    inferInstanceAs (Decidable (_ ∧ ∀ batch ∈ batchWith p.1.state batchId .failed,
      assertApprover approver = .ok () → batch.rejectedBy = none →
        batch.attempts < batch.maxAttempts → backoffElapsed told.now batch = true))
  | .call (.setPendingAmount ..) _ | .call (.configureSchedule _) _ | .call (.removeSchedule _) _
  | .call .evaluatePayouts _ | .call .retryDueBatches _ | .call (.approveManualPayout ..) _
  | .call (.rejectManualPayout ..) _ | .call (.releaseReservedFunds ..) _ =>
    inferInstanceAs (Decidable (_ ∧ True))

variable {showNumber config} {now : Int} {s s' s₀ : State} {v v' : View} {batch : PayoutBatch}
  {ids retried due : List BatchId} {t : Table PayoutBatch.id} {dueAt : BatchId → Option Int}

/-! ## Times -/

/-- The batches that are retried have waited. -/
def patient (now : Int) : Conditions := ⟨backoffElapsed now, fun _ _ => true, fun _ => true⟩

/-- What a batch is put off to has passed, or the batch has failed and says so itself. -/
def PutOff (dueAt : BatchId → Option Int) (now : Int) (batch : PayoutBatch) : Prop :=
  ∀ due ∈ dueAt batch.id, due ≤ now ∨ (batch.status = .failed ∧ batch.nextAttemptAt = some due)

structure Timely (dueAt : BatchId → Option Int) (now : Int) (s : State) : Prop where
  absent : ∀ id, s.batches.get id = none → dueAt id = none
  putOff : ∀ batch ∈ s.batches, PutOff dueAt now batch

/-- What has been sent since then had not been put off to a later time. -/
def SentSince (dueAt : BatchId → Option Int) (now : Int) (s₀ s : State) : Prop :=
  ∃ sent, s.sent = s₀.sent ++ sent ∧ ∀ c ∈ sent, ∀ due ∈ dueAt c.batch.id, due ≤ now

theorem PutOff.passed (h : PutOff dueAt now batch) (hnot : batch.status ≠ .failed) :
    ∀ due ∈ dueAt batch.id, due ≤ now :=
  fun due hdue => (h due hdue).resolve_right fun hfailed => hnot hfailed.1

theorem PutOff.elapsed (h : PutOff dueAt now batch) (hwaited : backoffElapsed now batch = true) :
    ∀ due ∈ dueAt batch.id, due ≤ now := by
  intro due hdue
  obtain hpassed | ⟨_, hnext⟩ := h due hdue
  · exact hpassed
  · exact of_decide_eq_true hwaited due hnext

theorem Timely.set (h : Timely dueAt now s) (hs' : s'.batches = s.batches.set batch)
    (hbatch : PutOff dueAt now batch) : Timely dueAt now s' where
  absent := by
    intro id hnone
    rw [hs', Table.get_set] at hnone
    split_ifs at hnone with he
    exact h.absent id hnone
  putOff := by
    intro b hb
    rw [hs'] at hb
    rcases Table.mem_set.mp hb with rfl | ⟨hold, _⟩
    · exact hbatch
    · exact h.putOff b hold

/-- A change of a batch that nothing puts off any more. -/
theorem Timely.change {batch' : PayoutBatch} (h : Timely dueAt now s)
    (hs' : s'.batches = s.batches.set batch') (hid : batch'.id = batch.id)
    (hpassed : ∀ due ∈ dueAt batch.id, due ≤ now) : Timely dueAt now s' :=
  h.set hs' fun due hdue => .inl (hpassed due (hid ▸ hdue))

theorem Timely.congr (h : Timely dueAt now s) (hs' : s'.batches = s.batches) :
    Timely dueAt now s' := by
  constructor
  · rw [hs']
    exact h.absent
  · rw [hs']
    exact h.putOff

theorem SentSince.congr (h : SentSince dueAt now s₀ s) (hs' : s'.sent = s.sent) :
    SentSince dueAt now s₀ s' := by
  rw [SentSince, hs']
  exact h

theorem Step.timely (h : Step config (patient now) v v')
    (hv : Timely dueAt now v.state ∧ SentSince dueAt now s₀ v.state) :
    Timely dueAt now v'.state ∧ SentSince dueAt now s₀ v'.state := by
  obtain ⟨htimely, hsent⟩ := hv
  cases h with
  | idle batches _ quiet => exact ⟨htimely.congr batches, hsent.congr quiet.sent⟩
  | credited => exact ⟨htimely.congr rfl, hsent.congr rfl⟩
  | created fresh _ _ batches _ _ sent =>
    refine ⟨htimely.set batches fun due hdue => ?_, hsent.congr sent⟩
    rw [htimely.absent _ fresh.unused] at hdue
    contradiction
  | @sent s f batch actorId found notSent =>
    have hpassed := (htimely.putOff batch (Table.get_some found).1).passed (by simp [notSent])
    obtain ⟨details, hnew⟩ := send_sent batch actorId s
    obtain ⟨sent, he, hall⟩ := hsent
    refine ⟨htimely.change (send_batches batch actorId s) rfl hpassed,
      sent ++ [_], by rw [hnew, he, List.append_assoc], fun c hc => ?_⟩
    rcases List.mem_append.mp hc with hold | hlast
    · exact hall c hold
    · rw [List.mem_singleton.mp hlast]
      exact hpassed
  | changed found change batches _ quiet =>
    have hput := htimely.putOff _ (Table.get_some found).1
    cases change with
    | retried _ ready =>
      exact ⟨htimely.change batches rfl (hput.elapsed ready), hsent.congr quiet.sent⟩
    | cleared notFailed =>
      exact ⟨htimely.change batches rfl (hput.passed notFailed), hsent.congr quiet.sent⟩
  | rejected found notSent keeps _ _ _ _ _ _ _ batches _ sent =>
    have hput := htimely.putOff _ (Table.get_some found).1
    exact ⟨htimely.change batches keeps.id (hput.passed (by simp [notSent])), hsent.congr sent⟩
  | released found _ _ _ _ _ batches quiet =>
    have hput := htimely.putOff _ (Table.get_some found).1
    exact ⟨htimely.set batches hput, hsent.congr quiet.sent⟩
  | answered found _ keeps notFailed _ _ _ batches _ quiet =>
    have hput := htimely.putOff _ (Table.get_some found).1
    exact ⟨htimely.change batches keeps.id (hput.passed notFailed), hsent.congr quiet.sent⟩
  | dropped => exact ⟨htimely, hsent⟩

theorem Timely.later (h : Timely dueAt now s) {now' : Int} (hle : now ≤ now') :
    Timely dueAt now' s :=
  ⟨h.absent, fun batch hb due hdue => (h.putOff batch hb due hdue).imp_left (·.trans hle)⟩

/-- What a turn leaves is put off as the watch then says. -/
theorem Timely.after {w : Watch} {act : Act Call Told} {g : Engine}
    (h : Timely w.dueAt (timeOf act) g.state) :
    Timely (w.after act g).dueAt (w.after act g).clock g.state where
  absent := by
    intro id hnone
    show Option.or _ _ = none
    rw [hnone, h.absent id hnone]
    rfl
  putOff := by
    intro batch hb due hdue
    have hor : due ∈ (((g.state.batches.get batch.id).filter (·.status = .failed)).bind
      (·.nextAttemptAt)).or (w.dueAt batch.id) := hdue
    rw [Table.get_of_mem hb, Option.filter_some] at hor
    by_cases hfailed : batch.status = .failed
    · rw [if_pos (decide_eq_true hfailed), Option.bind_some] at hor
      cases hnext : batch.nextAttemptAt with
      | none =>
        rw [hnext] at hor
        exact .inl ((h.putOff batch hb due hor).resolve_right (by simp [hnext]))
      | some later =>
        rw [hnext] at hor
        exact .inr ⟨hfailed, by rw [← Option.some.inj hor]⟩
    · rw [if_neg (by simp [hfailed])] at hor
      exact .inl ((h.putOff batch hb).passed hfailed due hor)

/-! ## Passes -/

theorem StillDue.retries (h : StillDue now ids t) (ht : ∀ id batch, t.get id = some batch →
      batch.status = .failed → s.batches.get id = some batch) :
    Retries (backoffElapsed now) s ids := by
  induction ids generalizing t with
  | nil => trivial
  | cons id rest ih =>
    obtain ⟨batch, hget, ⟨hfailed, hwaited⟩, hrest⟩ := h
    have hfound := ht id batch hget hfailed
    rw [Retries, hfound]
    refine ⟨fun found hmem _ => ?_, fun hall => ih (hrest (hall batch rfl).2) ?_⟩
    · rw [← Option.some.inj hmem]
      exact hwaited
    · -- the batch that has been retried has not failed any more
      intro id' found hget' hfailed'
      rw [Table.get_set] at hget'
      split_ifs at hget' with he
      · rw [← Option.some.inj hget'] at hfailed'
        contradiction
      · exact ht id' found hget' hfailed'

theorem stillDue_of_nodup (hnodup : ids.Nodup) (hids : ∀ id ∈ ids, ∃ batch ∈ t.get id,
      batch.status = .failed ∧ backoffElapsed now batch = true) : StillDue now ids t := by
  induction ids generalizing t with
  | nil => trivial
  | cons id rest ih =>
    obtain ⟨hnotin, hrest⟩ := List.nodup_cons.mp hnodup
    obtain ⟨batch, hget, hdue⟩ := hids id List.mem_cons_self
    refine ⟨batch, hget, hdue, fun _ => ih hrest fun id' hmem => ?_⟩
    have hne : id' ≠ PayoutBatch.id { forRetry batch with status := .pending } := by
      rintro rfl
      rw [← Table.key_of_get hget] at hnotin
      exact hnotin hmem
    obtain ⟨found, hfound, hdue'⟩ := hids id' (List.mem_cons_of_mem _ hmem)
    exact ⟨found, (Table.get_set_ne hne).trans hfound, hdue'⟩

theorem stillDue_due (now : Int) (s : State) : StillDue now (dueBatches now s) s.batches := by
  refine stillDue_of_nodup (s.batches.nodup.sublist (List.filter_sublist.map _)) fun id hid => ?_
  obtain ⟨batch, hbatch, rfl⟩ := List.mem_map.mp hid
  obtain ⟨hmem, hisDue⟩ := List.mem_filter.mp hbatch
  obtain ⟨hfailed, _, _, dueAt, hnext, hle⟩ := of_decide_eq_true hisDue
  refine ⟨batch, Table.get_of_mem hmem, hfailed, decide_eq_true fun other hother => ?_⟩
  obtain rfl := Option.some.inj (hnext.symm.trans hother)
  exact hle

theorem retryNext_goesOn (retried : List BatchId) (h : StillDue now ids s.batches) :
    GoesOn (retried ++ ids) (retryNext ids retried s).1 := by
  induction ids generalizing retried s with
  | nil => exact (List.append_nil retried).symm
  | cons id rest ih =>
    obtain ⟨batch, hget, ⟨hfailed, _⟩, hrest⟩ := h
    obtain rfl := Table.key_of_get hget
    have hallowed : transition (forRetry batch) .pending =
        .ok { forRetry batch with status := .pending } := by
      refine transition_ok.mpr ⟨?_, rfl⟩
      show PayoutStatus.pending ∈ allowedTransitions batch.status
      rw [hfailed]
      decide
    rw [retryNext, show s.batches.get batch.id = some batch from hget]
    dsimp only
    rw [hallowed]
    dsimp only
    split_ifs with hrequires
    · have hgoes := ih (s := (s.setBatch
        { forRetry batch with status := .pending }).record (.batch batch.id) .retried "system"
          (some "Retry after backoff elapsed")) (retried ++ [batch.id]) (hrest hrequires)
      rwa [List.append_assoc] at hgoes
    · have hself : ((s.setBatch { forRetry batch with status := .pending }).record
          (.batch batch.id) .retried "system" (some "Retry after backoff elapsed")).batches.get
            batch.id = some { forRetry batch with status := .pending } :=
        Table.get_set_self s.batches { forRetry batch with status := .pending }
      rw [settle, hself]
      dsimp only
      rw [if_neg (by simp)]
      rfl

/-- The rail answers for a batch that is under way without an error. -/
theorem finishSettlement_ok {told : Told} {batchId : BatchId} {actorId : String}
    (h : ∀ batch, s.batches.get batchId = some batch → batch.status = .executing) :
    (finishSettlement config told batchId actorId s).1 = .ok () := by
  have hfails : ∀ {batch : PayoutBatch} {detail : String}, batch.status = .executing →
      (failSettlement config told batch actorId detail s).1 = .ok () := by
    intro batch detail hexecuting
    rw [failSettlement, transition, hexecuting, if_pos (by decide)]
  rw [finishSettlement]
  cases hget : s.batches.get batchId with
  | none => rfl
  | some batch =>
    have hexecuting := h batch hget
    dsimp only
    split
    next => exact hfails hexecuting
    next transactionHash _ =>
      split_ifs
      · exact hfails hexecuting
      · rw [transition, hexecuting, if_pos (by decide)]

/-! ## Runs -/

/-- What is put off is known, and what the rail has not answered for is under way. -/
structure Punctual (p : Engine × Watch) : Prop where
  timely : Timely p.2.dueAt p.2.clock p.1.state
  underWay : UnderWay (view p.1)

variable {p : Engine × Watch} {act : Act Call Told}

theorem Attends.meets (config : Settings) (h : Attends p act) :
    Meets config (patient (timeOf act)) p.1 act := by
  cases act with
  | call c told =>
    cases c with
    | setPendingAmount => rfl
    | configureSchedule | removeSchedule | approveManualPayout => trivial
    | evaluatePayouts => exact fun _ _ _ _ => rfl
    | retryDueBatches =>
      exact (stillDue_due told.now p.1.state).retries fun _ _ hget _ => hget
    | rejectManualPayout | releaseReservedFunds => exact fun _ _ _ _ => rfl
    | retryFailedBatch => exact h.2
  | resume i told =>
    intro task hwaiting
    have hdue := h.2 task hwaiting
    cases task with
    | settling => trivial
    | evaluating => exact fun _ _ _ => rfl
    | retrying => exact hdue.retries fun _ _ hget _ => hget

/-- What a turn sends had not been put off, and what it leaves is put off as before. -/
theorem Punctual.turn (showNumber : ℚ → String) (config : Settings) (h : Punctual p)
    (hattends : Attends p act) :
    Timely p.2.dueAt (timeOf act)
        (commit (machine (engine showNumber config)) p.1 act).state ∧
      SentSince p.2.dueAt (timeOf act) p.1.state
        (commit (machine (engine showNumber config)) p.1 act).state ∧
      UnderWay (view (commit (machine (engine showNumber config)) p.1 act)) := by
  have hsteps := commit_steps showNumber (hattends.meets config)
  have hstart : Timely p.2.dueAt (timeOf act) p.1.state ∧
      SentSince p.2.dueAt (timeOf act) p.1.state p.1.state :=
    ⟨h.timely.later hattends.1, [], (List.append_nil _).symm, fun _ hc => absurd hc
      List.not_mem_nil⟩
  have hend : ∀ {v}, Steps config (patient (timeOf act)) (view p.1) v →
      (Timely p.2.dueAt (timeOf act) v.state ∧
        SentSince p.2.dueAt (timeOf act) p.1.state v.state) ∧ UnderWay v := by
    intro v hsteps
    induction hsteps with
    | refl => exact ⟨hstart, h.underWay⟩
    | tail _ hstep ih => exact ⟨hstep.timely ih.1, hstep.underWay ih.2⟩
  obtain ⟨⟨htimely, hsent⟩, hunder⟩ := hend hsteps
  exact ⟨htimely, hsent, hunder⟩

theorem Punctual.commit (h : Punctual p) (hattends : Attends p act) :
    Punctual (Transaction.commit (watched showNumber config) p act) := by
  obtain ⟨htimely, -, hunder⟩ := h.turn showNumber config hattends
  obtain he | ⟨-, he⟩ := commit_watching (machine (engine showNumber config))
    (fun _ act g (w : Watch) => w.after act g) p act
  · rw [he]
    exact ⟨htimely.after, hunder⟩
  · rw [he]
    exact h

theorem SentSince.sendsWhenDue (h : SentSince p.2.dueAt (timeOf act) p.1.state
      (Transaction.commit (machine (engine showNumber config)) p.1 act).state) :
    SendsWhenDue showNumber config p act := by
  obtain ⟨sent, he, hall⟩ := h
  rw [SendsWhenDue, he, List.drop_left]
  exact hall

theorem settling_goesOn {told : Told} {batchId : BatchId} {actorId : String} {after : After}
    (h : ∀ batch, s.batches.get batchId = some batch → batch.status = .executing)
    (hdue : due ∈ Waiting.dueList (.settling batchId actorId after)) :
    GoesOn due (resume showNumber config told s (.settling batchId actorId after)).1 := by
  rw [resume, finishSettlement_ok h]
  cases after with
  | evaluation | approval => contradiction
  | retry rest retried => exact hdue

theorem Punctual.passesGoOn (h : Punctual p) (hattends : Attends p act) :
    PassesGoOn showNumber config p act := by
  rintro ⟨turn, g⟩ hr due hdue
  cases act with
  | call c told =>
    cases c with
    | retryDueBatches =>
      obtain rfl := Option.some.inj hdue
      have hgoes := retryNext_goesOn [] (stillDue_due told.now p.1.state)
      simp only [machine, engine, request, Except.toOption, Option.mem_def, Option.some.injEq,
        Prod.mk.injEq] at hr
      rw [← hr.1]
      exact hgoes
    | setPendingAmount | configureSchedule | removeSchedule | evaluatePayouts
    | approveManualPayout | rejectManualPayout | retryFailedBatch | releaseReservedFunds =>
      contradiction
  | resume i told =>
    obtain ⟨task, hwaiting, hlist⟩ := Option.bind_eq_some_iff.mp hdue
    have hstill := hattends.2 task hwaiting
    simp only [machine, hwaiting, engine, Except.toOption, Option.mem_def, Option.some.injEq,
      Prod.mk.injEq] at hr
    rw [← hr.1]
    cases task with
    | settling batchId actorId after =>
      refine settling_goesOn (fun batch hget => ?_) hlist
      have hflight : batchId ∈ inFlight p.1.tasks :=
        List.mem_filterMap.mpr ⟨_, List.mem_of_getElem? hwaiting, rfl⟩
      obtain ⟨found, hfound, hexecuting⟩ := h.underWay.executing batchId hflight
      rw [← Option.some.inj (hfound.symm.trans hget)]
      exact hexecuting
    | evaluating => contradiction
    | retrying batchId rest retried =>
      obtain rfl := Option.some.inj hlist
      have hgoes := retryNext_goesOn (retried ++ [batchId]) hstill
      rwa [List.append_assoc] at hgoes

def watchedFrom (began : Int) : Engine × Watch := (initial, ⟨began, fun _ => none⟩)

theorem punctual_start (began : Int) : Punctual (watchedFrom began) where
  timely := ⟨fun _ _ => rfl, fun _ h => absurd h (Table.not_mem_empty _)⟩
  underWay := ⟨List.nodup_nil, fun _ h => absurd h List.not_mem_nil⟩

/-- In every order of calls and waits in which a pass that goes on finds its batches still due, no
batch is sent before the time that its latest failure has put it off to, and every pass retries its
whole due list. -/
theorem retried_run (showNumber : ℚ → String) (config : Settings) (began : Int)
    (acts : List (Act Call Told))
    (h : Along (watched showNumber config) Attends (watchedFrom began) acts) :
    Along (watched showNumber config)
      (fun p act => SendsWhenDue showNumber config p act ∧ PassesGoOn showNumber config p act)
      (watchedFrom began) acts := by
  refine along_of_invariant (fun p act hp hattends => hp.commit hattends) (punctual_start began) h
    fun p act hp hattends => ⟨?_, hp.passesGoOn hattends⟩
  obtain ⟨-, hsent, -⟩ := hp.turn showNumber config hattends
  exact hsent.sendsWhenDue

/-- Three batches are refused at once and are due after half a minute. -/
def threeRefused : List (Act Call Told) :=
  [daily "m-1" 1000, daily "m-2" 1000, daily "m-3" 1000, sets "m-1" 200, sets "m-2" 300,
    sets "m-3" 400, .call .evaluatePayouts (tells 0 noAnswer),
    .resume 0 (tells 0 (.throws "RAIL_DOWN")), .resume 0 (tells 0 noAnswer),
    .resume 0 (tells 0 (.throws "RAIL_DOWN")), .resume 0 (tells 0 noAnswer),
    .resume 0 (tells 0 (.throws "RAIL_DOWN")), .resume 0 (tells 0 noAnswer)]

/-- An approver returns a batch to the queue, and a pass retries the other two. -/
def retriesTwo : List (Act Call Told) :=
  threeRefused ++ [.call (.retryFailedBatch 2 finance) (tells 60000 noAnswer),
    .call .retryDueBatches (tells 60000 noAnswer), .resume 0 (tells 60000 (.settles "0xabc")),
    .resume 0 (tells 60001 noAnswer), .resume 0 (tells 60001 (.throws "RAIL_DOWN")),
    .resume 0 (tells 60002 noAnswer), .call .retryDueBatches (tells 180000 noAnswer)]

theorem retriesTwo_run : Along (watched noText settings)
      (fun p act => SendsWhenDue noText settings p act ∧ PassesGoOn noText settings p act)
      (watchedFrom 0) retriesTwo ∧
    (run (machine (engine noText settings)) initial retriesTwo).state.sent.map (·.batch.id) =
      [1, 2, 3, 1, 3, 3] :=
  ⟨retried_run noText settings 0 retriesTwo (by decide +kernel), by decide +kernel⟩

/-- An approver returns the second batch while a pass waits for the first. -/
def returnedMeanwhile : List (Act Call Told) :=
  threeRefused ++ [.call .retryDueBatches (tells 60000 noAnswer),
    .call (.retryFailedBatch 2 finance) (tells 60000 noAnswer),
    .resume 0 (tells 60000 (.settles "0xabc")), .resume 0 (tells 60000 noAnswer)]

/-- While a pass waits for the first batch, a second pass retries the other two, in vain. -/
def overtakenMeanwhile : List (Act Call Told) :=
  threeRefused ++ [.call .retryDueBatches (tells 60000 noAnswer),
    .call .retryDueBatches (tells 60000 noAnswer), .resume 1 (tells 60000 (.throws "RAIL_DOWN")),
    .resume 0 (tells 60001 (.settles "0xabc")), .resume 1 (tells 60001 noAnswer)]

/-- A pass ends at a batch that has been returned, before it has come to the third, and a pass sends
a batch again that has failed in between. -/
theorem passes_go_wrong :
    ¬ Along (watched noText settings) (PassesGoOn noText settings) (watchedFrom 0)
        returnedMeanwhile ∧
      ¬ Along (watched noText settings) (SendsWhenDue noText settings) (watchedFrom 0)
        overtakenMeanwhile := by
  decide +kernel

end Payouts
