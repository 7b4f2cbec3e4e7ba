import AgenticPay.PayoutSteps
import AgenticPay.Separators

/-!
# What is sent to the rail

A batch that owes a review is sent right after its approval, a batch is sent once at a time and as
often as it may be, and no rejected batch is sent, as long as a pass that goes on after a wait comes
to no batch that has been rejected or used up meanwhile.
-/
namespace Payouts

open Records Awaits Transaction
open Separators (last_cut_inj not_mem_toString)

/-- The batch has not been rejected, and attempts are left. -/
def mayRetry (batch : PayoutBatch) : Bool :=
  batch.rejectedBy = none ∧ batch.attempts < batch.maxAttempts

def reviewing : Conditions := ⟨mayRetry, fun _ _ => true, fun _ => true⟩

/-- The last approval of the batch is given since the batch has last become pending. -/
def Approved (batchId : BatchId) (trail : List PayoutAuditEntry) : Prop :=
  ∃ approver before after, assertApprover approver = .ok () ∧
    trail = before ++ ⟨.batch batchId, .approved, approver.id, none⟩ :: after ∧
      ∀ e ∈ after, e.subject = .batch batchId → e.action ≠ .created ∧ e.action ≠ .retried

/-- A batch that may be sent as it is. -/
structure Sendable (c : SentBatch) : Prop where
  approved : c.batch.requiresApproval = true → Approved c.batch.id c.trail
  attempts : c.batch.attempts ≤ c.batch.maxAttempts
  rejectedBy : c.batch.rejectedBy = none
  rejected : ∀ e ∈ c.trail, e.subject = .batch c.batch.id → e.action ≠ .rejected

/-- What holds of every batch. -/
structure Orderly (batch : PayoutBatch) : Prop where
  attempts : batch.attempts ≤ batch.maxAttempts
  left : batch.status = .pending → batch.attempts < batch.maxAttempts
  rejected : batch.rejectedBy ≠ none → batch.status = .failed

/-- The batch has been rejected. -/
def Barred (s : State) (batchId : BatchId) : Prop :=
  ∃ batch, s.batches.get batchId = some batch ∧ batch.rejectedBy ≠ none

/-- The attempts that have been made with a batch. -/
def attemptsOf (batchId : BatchId) (s : State) : Nat :=
  ((s.batches.get batchId).map (·.attempts)).getD 0

/-- Every batch has begun its cycle, and a cycle of the calendar has one batch. -/
structure Cycles (s : State) : Prop where
  begun : ∀ batch ∈ s.batches, s.materialisedCycles batch.cycleKey ≠ none
  unique : ∀ batch ∈ s.batches, ∀ batch' ∈ s.batches, IsCalendar batch.cycleKey →
    batch'.cycleKey = batch.cycleKey → batch'.id = batch.id

/-- The batches that the rail has not answered for are under way, each once. -/
structure UnderWay (v : View) : Prop where
  nodup : v.flight.Nodup
  executing : ∀ id ∈ v.flight, ∃ batch,
    v.state.batches.get id = some batch ∧ batch.status = .executing

/-- A rejection in the trail has barred its batch. -/
def Noted (s : State) : Prop :=
  ∀ e ∈ s.auditTrail, e.action = .rejected → ∃ id, e.subject = .batch id ∧ Barred s id

structure Reviewed (v : View) : Prop where
  cycles : Cycles v.state
  underWay : UnderWay v
  orderly : ∀ batch ∈ v.state.batches, Orderly batch
  counted : ∀ id, (sentOf id v.state).length = attemptsOf id v.state
  noted : Noted v.state
  sent : ∀ c ∈ v.state.sent, Sendable c

variable {showNumber : ℚ → String} {config : Settings} {P : Conditions} {v v' : View}
  {s s' : State} {batch batch' : PayoutBatch} {batchId : BatchId} {f f' : List BatchId}

/-! ## Keys of cycles -/

theorem sequenceKey_not_calendar (schedule : PayoutSchedule) (n : Nat) :
    ¬ IsCalendar (sequenceKey schedule n) := by
  rintro ⟨schedule', period, now, -, h⟩
  have hlists := congrArg String.toList h
  rw [sequenceKey, calendarKey, String.toList_append, String.toList_append, String.toList_append,
    String.toList_append, List.append_assoc, List.append_assoc] at hlists
  have hnumber : ':' ∉ (toString n).toList := not_mem_toString (n : Int) (by decide)
  have hsequence : ':' ∉ "seq-".toList ++ (toString n).toList := by simpa using hnumber
  have hafter : "seq-".toList ++ (toString n).toList = (toString (now / (period : Int))).toList :=
    last_cut_inj hsequence (not_mem_toString _ (by decide)) hlists
  have hmem : 's' ∈ (toString (now / (period : Int))).toList :=
    hafter ▸ List.mem_append_left _ (by decide)
  exact not_mem_toString _ (by decide) hmem

theorem Cycles.set (h : Cycles s) (hs' : s'.batches = s.batches.set batch')
    (hfound : s.batches.get batch'.id = some batch) (hkey : batch'.cycleKey = batch.cycleKey)
    (hcycles : s'.materialisedCycles = s.materialisedCycles) : Cycles s' := by
  -- each batch has the key that it had
  have hold : ∀ c ∈ s'.batches, ∃ d ∈ s.batches, d.id = c.id ∧ d.cycleKey = c.cycleKey := by
    intro c hc
    rw [hs'] at hc
    rcases Table.mem_set.mp hc with rfl | ⟨hc, _⟩
    · exact ⟨batch, (Table.get_some hfound).1, Table.key_of_get hfound, hkey.symm⟩
    · exact ⟨c, hc, rfl, rfl⟩
  constructor
  · intro c hc
    obtain ⟨d, hd, -, hdkey⟩ := hold c hc
    rw [hcycles, ← hdkey]
    exact h.begun d hd
  · intro c hc c' hc' hcalendar he
    obtain ⟨d, hd, hid, hdkey⟩ := hold c hc
    obtain ⟨d', hd', hid', hdkey'⟩ := hold c' hc'
    rw [← hid, ← hid']
    exact h.unique d hd d' hd' (hdkey ▸ hcalendar) (by rw [hdkey, hdkey', he])

theorem Cycles.created (h : Cycles s) (fresh : Fresh config s batch)
    (hs' : s'.batches = s.batches.set batch) (hcycles : s'.materialisedCycles =
      Function.update s.materialisedCycles batch.cycleKey (some batch.id)) : Cycles s' := by
  -- no batch has the key of a new cycle of the calendar
  have hnew : ∀ c ∈ s.batches, IsCalendar batch.cycleKey → c.cycleKey ≠ batch.cycleKey := by
    intro c hc hcalendar he
    rcases fresh.key with ⟨-, hnone⟩ | ⟨schedule, n, -, hkey⟩
    · exact h.begun c hc (he ▸ hnone)
    · exact sequenceKey_not_calendar schedule n (hkey ▸ hcalendar)
  constructor
  · intro c hc
    rw [hcycles]
    by_cases he : c.cycleKey = batch.cycleKey
    · rw [he, Function.update_self]
      exact Option.some_ne_none _
    · rw [Function.update_of_ne he]
      rw [hs'] at hc
      rcases Table.mem_set.mp hc with rfl | ⟨hc, _⟩
      · exact absurd rfl he
      · exact h.begun c hc
  · intro c hc c' hc' hcalendar he
    rw [hs'] at hc hc'
    rcases Table.mem_set.mp hc with rfl | ⟨hold, _⟩ <;>
      rcases Table.mem_set.mp hc' with rfl | ⟨hold', _⟩
    · rfl
    · exact absurd he (hnew c' hold' hcalendar)
    · exact absurd he.symm (hnew c hold (he ▸ hcalendar))
    · exact h.unique c hold c' hold' hcalendar he

theorem Step.cycles (h : Step config P v v') (hv : Cycles v.state) : Cycles v'.state := by
  cases h with
  | idle batches _ quiet =>
    constructor
    · rw [batches, quiet.cycles]
      exact hv.begun
    · rw [batches]
      exact hv.unique
  | credited => exact ⟨hv.begun, hv.unique⟩
  | created fresh _ _ batches _ cycles => exact hv.created fresh batches cycles
  | @sent s f batch actorId found => exact hv.set (send_batches batch actorId s) found rfl rfl
  | @changed s s' f batch batch' found change batches _ quiet =>
    cases change with
    | retried => exact hv.set batches found rfl quiet.cycles
    | cleared => exact hv.set batches found rfl quiet.cycles
  | rejected found _ keeps _ _ _ _ _ _ _ batches cycles =>
    exact hv.set batches (keeps.id ▸ found) keeps.cycleKey cycles
  | released found _ _ _ _ _ batches quiet => exact hv.set batches found rfl quiet.cycles
  | answered found _ keeps _ _ _ _ batches _ quiet =>
    exact hv.set batches (keeps.id ▸ found) keeps.cycleKey quiet.cycles
  | dropped => exact hv

/-! ## Batches -/

theorem orderly_set {t : Table PayoutBatch.id} (h : ∀ b ∈ s.batches, Orderly b)
    (ht : t = s.batches.set batch) (hbatch : Orderly batch) : ∀ b ∈ t, Orderly b := by
  intro b hb
  rw [ht] at hb
  rcases Table.mem_set.mp hb with rfl | ⟨hold, _⟩
  · exact hbatch
  · exact h b hold

/-- A batch that has not failed has not been rejected. -/
theorem Orderly.notRejected (h : Orderly batch) (hnot : batch.status ≠ .failed) :
    batch.rejectedBy = none := by
  by_contra hrejected
  exact hnot (h.rejected hrejected)

theorem Step.orderly (h : Step config reviewing v v')
    (hv : ∀ b ∈ v.state.batches, Orderly b) : ∀ b ∈ v'.state.batches, Orderly b := by
  cases h with
  | idle batches => exact batches ▸ hv
  | credited => exact hv
  | created fresh _ _ batches =>
    refine orderly_set hv batches ⟨?_, fun _ => ?_, fun h => absurd fresh.rejectedBy h⟩
    · rw [fresh.attempts]
      exact Nat.zero_le _
    · rw [fresh.attempts, fresh.maxAttempts]
      exact config.attempts
  | @sent s f batch actorId found notSent =>
    have horderly := hv batch (Table.get_some found).1
    refine orderly_set hv (send_batches batch actorId s) ⟨horderly.left notSent, ?_, ?_⟩
    · simp
    · exact absurd (horderly.notRejected (by rw [notSent]; decide))
  | @changed s s' f batch batch' found change batches =>
    have horderly := hv batch (Table.get_some found).1
    cases change with
    | retried failed ready =>
      obtain ⟨hrejected, hleft⟩ : batch.rejectedBy = none ∧ batch.attempts < batch.maxAttempts :=
        of_decide_eq_true ready
      exact orderly_set hv batches ⟨horderly.attempts, fun _ => hleft, absurd hrejected⟩
    | cleared =>
      exact orderly_set hv batches ⟨horderly.attempts, horderly.left, horderly.rejected⟩
  | rejected found _ keeps status _ _ _ _ _ _ batches =>
    have horderly := hv _ (Table.get_some found).1
    refine orderly_set hv batches ⟨?_, ?_, fun _ => status⟩
    · rw [keeps.attempts, keeps.maxAttempts]
      exact horderly.attempts
    · rw [status]
      intro h
      contradiction
  | released found failed _ _ _ _ batches =>
    have horderly := hv _ (Table.get_some found).1
    exact orderly_set hv batches ⟨horderly.attempts, horderly.left, horderly.rejected⟩
  | answered found _ keeps notFailed status rejectedBy _ batches =>
    have horderly := hv _ (Table.get_some found).1
    refine orderly_set hv batches ⟨?_, ?_, ?_⟩
    · rw [keeps.attempts, keeps.maxAttempts]
      exact horderly.attempts
    · intro hpending
      rcases status with h | h <;> exact absurd (h.symm.trans hpending) (by decide)
    · rw [rejectedBy]
      exact absurd (horderly.notRejected notFailed)
  | dropped => exact hv

/-! ## Calls under way -/

theorem UnderWay.set (h : UnderWay ⟨s, f⟩) (hs' : s'.batches = s.batches.set batch)
    (hbatch : batch.id ∈ f → batch.status = .executing) : UnderWay ⟨s', f⟩ where
  nodup := h.nodup
  executing := by
    intro id hmem
    dsimp only
    rw [hs']
    by_cases he : id = batch.id
    · exact ⟨batch, by rw [he, Table.get_set_self], hbatch (he ▸ hmem)⟩
    · rw [Table.get_set_ne he]
      exact h.executing id hmem

/-- A batch that is not under way is not in flight. -/
theorem UnderWay.not_mem (h : UnderWay ⟨s, f⟩) (hfound : s.batches.get batch.id = some batch)
    (hnot : batch.status ≠ .executing) : batch.id ∉ f := by
  intro hmem
  obtain ⟨found, hget, hexecuting⟩ := h.executing _ hmem
  obtain rfl := Option.some.inj (hfound.symm.trans hget)
  exact hnot hexecuting

theorem UnderWay.sublist (h : UnderWay ⟨s, f⟩) (hsub : f'.Sublist f) : UnderWay ⟨s, f'⟩ :=
  ⟨h.nodup.sublist hsub, fun id hmem => h.executing id (hsub.subset hmem)⟩

theorem Step.underWay (h : Step config P v v') (hv : UnderWay v) : UnderWay v' := by
  cases h with
  | idle batches => exact ⟨hv.nodup, batches ▸ hv.executing⟩
  | credited => exact ⟨hv.nodup, hv.executing⟩
  | created fresh _ _ batches =>
    refine hv.set batches fun hmem => ?_
    obtain ⟨found, hget, _⟩ := hv.executing _ hmem
    exact absurd (fresh.unused.symm.trans hget) (by simp)
  | @sent s f batch actorId found notSent =>
    have hnotin : batch.id ∉ f := hv.not_mem found (by rw [notSent]; decide)
    have hsent : UnderWay ⟨send batch actorId s, f⟩ :=
      hv.set (send_batches batch actorId s) fun hmem => absurd hmem hnotin
    constructor
    · exact List.nodup_append.mpr ⟨hv.nodup, List.nodup_singleton _, by
        rintro a ha b hb rfl
        exact hnotin (List.mem_singleton.mp hb ▸ ha)⟩
    · intro id hmem
      rcases List.mem_append.mp hmem with hold | hnew
      · exact hsent.executing id hold
      · obtain rfl := List.mem_singleton.mp hnew
        exact ⟨_, Table.get_set_self s.batches _, rfl⟩
  | @changed s s' f batch batch' found change batches =>
    cases change with
    | retried failed =>
      have hnotin := hv.not_mem found (by rw [failed]; decide)
      exact hv.set batches fun hmem => absurd hmem hnotin
    | cleared =>
      refine hv.set batches fun hmem => ?_
      obtain ⟨under, hget, hexecuting⟩ := hv.executing _ hmem
      obtain rfl := Option.some.inj (found.symm.trans hget)
      exact hexecuting
  | rejected found notSent keeps _ _ _ _ _ _ _ batches =>
    have hnotin := hv.not_mem found (by rw [notSent]; decide)
    exact hv.set batches fun hmem => absurd (keeps.id ▸ hmem) hnotin
  | released found failed _ _ _ _ batches =>
    have hnotin := hv.not_mem found (by rw [failed]; decide)
    exact hv.set batches fun hmem => absurd hmem hnotin
  | @answered s s' f f' batch batch' found flight keeps _ _ _ _ batches =>
    obtain ⟨hnotin, hnodup⟩ := List.nodup_cons.mp (flight.nodup_iff.mp hv.nodup)
    have hrest : UnderWay ⟨s, f'⟩ :=
      ⟨hnodup, fun id hmem => hv.executing id (flight.mem_iff.mpr (List.mem_cons_of_mem _ hmem))⟩
    exact hrest.set batches fun hmem => absurd (keeps.id ▸ hmem) hnotin
  | dropped flight => exact hv.sublist flight

/-! ## Sendings -/

theorem attemptsOf_set (hs' : s'.batches = s.batches.set batch')
    (hfound : s.batches.get batch'.id = some batch) (hattempts : batch'.attempts = batch.attempts)
    (id : BatchId) : attemptsOf id s' = attemptsOf id s := by
  rw [attemptsOf, hs', Table.get_set, attemptsOf]
  split_ifs with he
  · rw [he, hfound, Option.map_some, Option.map_some, hattempts]
  · rfl

theorem counted_set (h : ∀ id, (sentOf id s).length = attemptsOf id s)
    (hs' : s'.batches = s.batches.set batch') (hfound : s.batches.get batch'.id = some batch)
    (hattempts : batch'.attempts = batch.attempts) (hsent : s'.sent = s.sent) :
    ∀ id, (sentOf id s').length = attemptsOf id s' := by
  intro id
  rw [attemptsOf_set hs' hfound hattempts, sentOf, hsent]
  exact h id

theorem Step.counted (h : Step config P v v')
    (hv : ∀ id, (sentOf id v.state).length = attemptsOf id v.state) :
    ∀ id, (sentOf id v'.state).length = attemptsOf id v'.state := by
  cases h with
  | idle batches _ quiet =>
    intro id
    rw [attemptsOf, batches, sentOf, quiet.sent]
    exact hv id
  | credited => exact hv
  | @created s s' f batch fresh _ _ batches _ _ hsent =>
    intro id
    have hattempts : attemptsOf id s' = attemptsOf id s := by
      rw [attemptsOf, batches, Table.get_set, attemptsOf]
      split_ifs with he
      · rw [he, fresh.unused, Option.map_some, fresh.attempts]
        rfl
      · rfl
    rw [hattempts, sentOf, hsent]
    exact hv id
  | @sent s f batch actorId found =>
    intro id
    have hold := hv id
    rw [attemptsOf] at hold
    rw [attemptsOf, send_batches, Table.get_set]
    obtain ⟨details, hsent⟩ := send_sent batch actorId s
    rw [sentOf, hsent, List.filter_append, List.length_append]
    split_ifs with he
    · rw [he, found] at hold
      rw [he]
      simpa [sentOf] using hold
    · have hne : batch.id ≠ id := fun h => he h.symm
      simpa [sentOf, hne] using hold
  | @changed s s' f batch batch' found change batches _ quiet =>
    cases change with
    | retried => exact counted_set hv batches found rfl quiet.sent
    | cleared => exact counted_set hv batches found rfl quiet.sent
  | rejected found _ keeps _ _ _ _ _ _ _ batches _ hsent =>
    exact counted_set hv batches (keeps.id ▸ found) keeps.attempts hsent
  | released found _ _ _ _ _ batches quiet => exact counted_set hv batches found rfl quiet.sent
  | answered found _ keeps _ _ _ _ batches _ quiet =>
    exact counted_set hv batches (keeps.id ▸ found) keeps.attempts quiet.sent
  | dropped => exact hv

theorem barred_set {id : BatchId} (h : Barred s id) (hs' : s'.batches = s.batches.set batch')
    (hfound : s.batches.get batch'.id = some batch)
    (hrejected : batch.rejectedBy ≠ none → batch'.rejectedBy ≠ none) : Barred s' id := by
  obtain ⟨barred, hget, hbarred⟩ := h
  rw [Barred, hs']
  by_cases he : id = batch'.id
  · rw [he] at hget ⊢
    obtain rfl := Option.some.inj (hfound.symm.trans hget)
    exact ⟨batch', Table.get_set_self _ _, hrejected hbarred⟩
  · exact ⟨barred, (Table.get_set_ne he).trans hget, hbarred⟩

theorem Noted.notes (h : Noted s) (hnotes : Notes s s')
    (hbarred : ∀ id, Barred s id → Barred s' id) : Noted s' := by
  obtain ⟨entries, htrail, hentries⟩ := hnotes
  intro e he hrejected
  rw [htrail] at he
  rcases List.mem_append.mp he with hold | hnew
  · obtain ⟨id, hsubject, hid⟩ := h e hold hrejected
    exact ⟨id, hsubject, hbarred id hid⟩
  · exact absurd hrejected (hentries e hnew)

theorem Noted.set (h : Noted s) (hnotes : Notes s s') (hs' : s'.batches = s.batches.set batch')
    (hfound : s.batches.get batch'.id = some batch)
    (hrejected : batch.rejectedBy ≠ none → batch'.rejectedBy ≠ none) : Noted s' :=
  h.notes hnotes fun _ hbarred => barred_set hbarred hs' hfound hrejected

theorem Step.noted (h : Step config P v v') (hv : Noted v.state) : Noted v'.state := by
  cases h with
  | idle batches _ quiet =>
    refine hv.notes quiet.notes fun id hbarred => ?_
    rw [Barred, batches]
    exact hbarred
  | credited => exact hv
  | @created s s' f batch fresh _ _ batches _ _ _ notes =>
    refine hv.notes notes fun id hbarred => ?_
    obtain ⟨barred, hget, hrejected⟩ := hbarred
    have hne : id ≠ batch.id := by
      rintro rfl
      exact absurd (fresh.unused.symm.trans hget) (by simp)
    exact ⟨barred, by rw [batches, Table.get_set_ne hne, hget], hrejected⟩
  | @sent s f batch actorId found =>
    have hnotes : Notes s (send batch actorId s) := notes_record rfl (by simp)
    exact hv.set hnotes (send_batches batch actorId s) found fun h => h
  | @changed s s' f batch batch' found change batches _ quiet =>
    cases change with
    | retried => exact hv.set quiet.notes batches found fun h => h
    | cleared => exact hv.set quiet.notes batches found fun h => h
  | @rejected s s' f batch batch' actorId found _ keeps _ hby _ _ _ _ _ batches _ _ trail =>
    obtain ⟨entries, htrail, hentries⟩ := trail
    have hby' : batch'.rejectedBy ≠ none := by simp [hby]
    have hfound : s.batches.get batch'.id = some batch := keeps.id ▸ found
    intro e he hrejected
    rw [htrail] at he
    rcases List.mem_append.mp he with hold | hnew
    · obtain ⟨id, hsubject, hbarred⟩ := hv e hold hrejected
      exact ⟨id, hsubject, barred_set hbarred batches hfound fun _ => hby'⟩
    · refine ⟨batch.id, hentries e hnew, batch', ?_, hby'⟩
      rw [batches, ← keeps.id, Table.get_set_self]
  | released found _ _ _ _ _ batches quiet => exact hv.set quiet.notes batches found fun h => h
  | answered found _ keeps _ _ rejectedBy _ batches _ quiet =>
    exact hv.set quiet.notes batches (keeps.id ▸ found) fun h => rejectedBy ▸ h
  | dropped => exact hv

/-- A batch that is sent may be sent. -/
theorem sendable (actorId : String) (hfound : s.batches.get batch.id = some batch)
    (hpending : batch.status = .pending)
    (hreviewed : batch.requiresApproval = true → ∃ approver, assertApprover approver = .ok () ∧
      s.auditTrail.getLast? = some ⟨.batch batch.id, .approved, approver.id, none⟩)
    (horderly : Orderly batch) (hnoted : Noted s) : ∀ c ∈ (send batch actorId s).sent,
      c ∈ s.sent ∨ Sendable c := by
  obtain ⟨details, hsent⟩ := send_sent batch actorId s
  intro c hc
  rw [hsent] at hc
  rcases List.mem_append.mp hc with hold | hnew
  · exact .inl hold
  have hnot : batch.rejectedBy = none := horderly.notRejected (by rw [hpending]; decide)
  obtain rfl := List.mem_singleton.mp hnew
  refine .inr ⟨fun hrequires => ?_, horderly.left hpending, hnot, ?_⟩
  · obtain ⟨approver, hallowed, hlast⟩ := hreviewed hrequires
    obtain ⟨before, hbefore⟩ := List.getLast?_eq_some_iff.mp hlast
    refine ⟨approver, before, [⟨.batch batch.id, .executing, actorId, details⟩], hallowed, ?_, ?_⟩
    · dsimp only
      rw [hbefore, List.append_assoc]
      rfl
    · simp
  · intro e he hsubject hrejected
    rcases List.mem_append.mp he with htrail | hentry
    · obtain ⟨id, hid, barred, hget, hbarred⟩ := hnoted e htrail hrejected
      obtain rfl : batch.id = id := Subject.batch.inj (hsubject.symm.trans hid)
      obtain rfl := Option.some.inj (hfound.symm.trans hget)
      exact hbarred hnot
    · rw [List.mem_singleton.mp hentry] at hrejected
      contradiction

theorem Step.reviewed (h : Step config reviewing v v') (hv : Reviewed v) : Reviewed v' where
  cycles := h.cycles hv.cycles
  underWay := h.underWay hv.underWay
  orderly := h.orderly hv.orderly
  counted := h.counted hv.counted
  noted := h.noted hv.noted
  sent := by
    have hkept : v'.state.sent = v.state.sent → ∀ c ∈ v'.state.sent, Sendable c := by
      intro he
      rw [he]
      exact hv.sent
    cases h with
    | idle _ _ quiet => exact hkept quiet.sent
    | credited => exact hv.sent
    | created _ _ _ _ _ _ hsent => exact hkept hsent
    | @sent s f batch actorId found notSent reviewed =>
      intro c hc
      have horderly := hv.orderly batch (Table.get_some found).1
      exact (sendable actorId found notSent reviewed horderly hv.noted c hc).elim
        (hv.sent c) fun h => h
    | changed _ _ _ _ quiet => exact hkept quiet.sent
    | rejected _ _ _ _ _ _ _ _ _ _ _ _ hsent => exact hkept hsent
    | released _ _ _ _ _ _ _ quiet => exact hkept quiet.sent
    | answered _ _ _ _ _ _ _ _ _ quiet => exact hkept quiet.sent
    | dropped => exact hv.sent

/-! ## Runs -/

/-- The batches that a pass has still to come to. -/
def Waiting.toRetry : Waiting → List BatchId
  | .retrying _ rest _ => rest
  | .settling .. | .evaluating .. => []

/-- A pass that goes on after a wait retries no batch that has been rejected or used up. -/
def Rechecks (g : Engine) : Act Call Told → Prop
  | .resume i _ => ∀ task ∈ g.tasks[i]?, Retries mayRetry g.state task.toRetry
  | .call .. => True

instance (g : Engine) (act : Act Call Told) : Decidable (Rechecks g act) :=
  match act with
  | .resume i _ =>
    inferInstanceAs (Decidable (∀ task ∈ g.tasks[i]?, Retries mayRetry g.state task.toRetry))
  | .call .. => isTrue trivial

theorem retries_due (s : State) (now : Int) : Retries mayRetry s (dueBatches now s) := by
  refine retries_of_ready fun id hmem batch hget _ => ?_
  obtain ⟨due, hdue, rfl⟩ := List.mem_map.mp hmem
  obtain ⟨hin, hisDue⟩ := List.mem_filter.mp hdue
  obtain rfl := Option.some.inj ((Table.get_of_mem hin).symm.trans hget)
  obtain ⟨_, hrejected, hleft, _⟩ := of_decide_eq_true hisDue
  exact decide_eq_true ⟨hrejected, hleft⟩

theorem Rechecks.meets {g : Engine} {act : Act Call Told} (h : Rechecks g act) :
    Meets config reviewing g act := by
  cases act with
  | call c told =>
    cases c with
    | setPendingAmount => rfl
    | configureSchedule | removeSchedule | approveManualPayout => trivial
    | evaluatePayouts => exact fun _ _ _ _ => rfl
    | retryDueBatches => exact retries_due g.state told.now
    | rejectManualPayout | releaseReservedFunds => exact fun _ _ _ _ => rfl
    | retryFailedBatch => exact fun _ _ _ hrejected hleft => decide_eq_true ⟨hrejected, hleft⟩
  | resume i told =>
    intro task hwaiting
    cases task with
    | settling => trivial
    | evaluating => exact fun _ _ _ => rfl
    | retrying => exact h _ hwaiting

theorem reviewed_initial : Reviewed (view initial) where
  cycles := ⟨fun _ h => absurd h (Table.not_mem_empty _),
    fun _ h => absurd h (Table.not_mem_empty _)⟩
  underWay := ⟨List.nodup_nil, fun _ h => absurd h List.not_mem_nil⟩
  orderly := fun _ h => absurd h (Table.not_mem_empty _)
  counted := fun _ => rfl
  noted := fun _ h => absurd h List.not_mem_nil
  sent := fun _ h => absurd h List.not_mem_nil

/-- In every order of calls and waits in which a pass that goes on retries no batch that has been
rejected or used up, what is sent may be sent, once at a time and as often as it may be, and no two
batches are of one cycle of the calendar. -/
theorem reviewed_run (showNumber : ℚ → String) (config : Settings) (acts : List (Act Call Told))
    (h : Along (machine (engine showNumber config)) Rechecks initial acts) :
    (∀ c ∈ (run (machine (engine showNumber config)) initial acts).state.sent, Sendable c) ∧
      (inFlight (run (machine (engine showNumber config)) initial acts).tasks).Nodup ∧
      ∀ batch ∈ (run (machine (engine showNumber config)) initial acts).state.batches,
        (sentOf batch.id (run (machine (engine showNumber config)) initial acts).state).length ≤
            batch.maxAttempts ∧
          ∀ batch' ∈ (run (machine (engine showNumber config)) initial acts).state.batches,
            IsCalendar batch.cycleKey → batch'.cycleKey = batch.cycleKey → batch' = batch := by
  have hmeets : Along (machine (engine showNumber config)) (Meets config reviewing) initial acts :=
    h.imp fun _ _ hrechecks => hrechecks.meets
  have hend := run_steps (I := Reviewed) showNumber (fun _ _ hstep hv => hstep.reviewed hv)
    reviewed_initial hmeets
  refine ⟨hend.sent, hend.underWay.nodup, fun batch hbatch => ⟨?_, ?_⟩⟩
  · have hcounted := hend.counted batch.id
    rw [attemptsOf, show (view _).state.batches.get batch.id = _ from Table.get_of_mem hbatch]
      at hcounted
    exact hcounted.trans_le (hend.orderly batch hbatch).attempts
  · intro batch' hbatch' hcalendar hkey
    exact Table.key_injective hbatch' hbatch
      (hend.cycles.unique batch hbatch batch' hbatch' hcalendar hkey)

/-- A batch that owes a review fails, is returned to the queue and is rejected. -/
def reviews : List (Act Call Told) :=
  [daily "m-1" 100, sets "m-1" 200, .call .evaluatePayouts (tells 0 noAnswer),
    .call (.approveManualPayout 1 finance) (tells 0 noAnswer),
    .resume 1 (tells 0 (.throws "RAIL_DOWN")),
    .call (.retryFailedBatch 1 finance) (tells 0 noAnswer),
    .call (.rejectManualPayout 1 finance) (tells 0 noAnswer)]

theorem reviews_sent : ∃ c ∈ (run (machine (engine noText settings)) initial reviews).state.sent,
    c.batch.requiresApproval = true ∧ Sendable c := by
  have hsent : ∃ c ∈ (run (machine (engine noText settings)) initial reviews).state.sent,
      c.batch.requiresApproval = true := by decide +kernel
  obtain ⟨c, hc, hrequires⟩ := hsent
  exact ⟨c, hc, hrequires, (reviewed_run noText settings reviews (by decide +kernel)).1 c hc⟩

/-- Two batches are refused, and the second is rejected while a pass retries the first. -/
def rejectedMeanwhile : List (Act Call Told) :=
  [daily "m-1" 1000, daily "m-2" 1000, sets "m-1" 200, sets "m-2" 300,
    .call .evaluatePayouts (tells 0 noAnswer), .resume 0 (tells 0 (.throws "RAIL_DOWN")),
    .resume 0 (tells 0 noAnswer), .resume 0 (tells 0 (.throws "RAIL_DOWN")),
    .resume 0 (tells 0 noAnswer), .call .retryDueBatches (tells 60000 noAnswer),
    .call (.retryFailedBatch 2 finance) (tells 60000 noAnswer),
    .call (.rejectManualPayout 2 finance) (tells 60000 noAnswer),
    .resume 0 (tells 60000 (.settles "0xabc")), .resume 0 (tells 60000 noAnswer)]

/-- The pass goes on to the batch that has been rejected. -/
theorem rejected_sent :
    (run (machine (engine noText settings)) initial rejectedMeanwhile).state.sent.getLast?.map
      (fun c => (c.batch.id, c.batch.rejectedBy, c.batch.fundsReleased)) =
        some (2, some "approver", true) := by
  decide +kernel

end Payouts
