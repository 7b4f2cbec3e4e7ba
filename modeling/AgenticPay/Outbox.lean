import AgenticPay.Records
import AgenticPay.Transaction
import Mathlib.Data.List.Perm.Basic

/-!
# Publishers of the outbox

A run of a publisher reads a batch of pending events and then publishes all of them at once: each is
claimed by an update that only a pending event meets, handed to the event bus, and updated by what
has become of that. What the next status is rests on the attempts that the run has read. Every call
of the database is one step. Left out are the depth of the queue, the last error and the time of
publication, which no step reads.
-/
namespace Outbox

open Records Transaction

inductive OutboxEventStatus where
  | pending
  | publishing
  | published
  | deadLetter
  deriving DecidableEq

/-- A row, with the event that its payload has or lacks. -/
structure OutboxEventRecord where
  id : String
  event : Option String
  status : OutboxEventStatus
  attempts : Nat
  createdAt : Int
  deriving DecidableEq

/-- How far the publication of one event is. -/
inductive Stage where
  | claiming
  | publishing
  | finishing (succeeded : Bool)
  deriving DecidableEq

/-- The publication of an event by a run, with the row as the run has read it. -/
structure PublishOne where
  run : Nat
  record : OutboxEventRecord
  stage : Stage

inductive Run where
  | counting (batchSize : Nat)
  | finding (batchSize : Nat)
  | publishing
  | moving
  | ended
  deriving DecidableEq

/-- The rows, the runs and the publications that are not settled, and beside them the events that
were handed to the event bus. -/
structure State where
  rows : Table OutboxEventRecord.id
  runs : List Run
  ones : List PublishOne
  handed : List String

/-- A run begins, a run goes on, and a publication goes on, with what the event bus has come to. -/
inductive Act where
  | publishDueBatch (batchSize : Nat)
  | proceed (run : Nat)
  | publishOne (one : Nat) (succeeds : Bool)

/-- The earliest of the rows, up to so many. How the database orders rows of one time is open. -/
abbrev Page := Nat → List OutboxEventRecord → List OutboxEventRecord

variable (page : Page) (maxAttempts : Nat)

/-- The change that claims a row. -/
def claimed (row : OutboxEventRecord) : OutboxEventRecord :=
  { row with status := .publishing, attempts := row.attempts + 1 }

def isDue (row : OutboxEventRecord) : Bool :=
  row.status = .pending && row.attempts < maxAttempts

/-- Pending rows without attempts left become dead letters. -/
def exhausted (row : OutboxEventRecord) : OutboxEventRecord :=
  if row.status = .pending ∧ maxAttempts ≤ row.attempts then { row with status := .deadLetter }
  else row

theorem exhausted_id (row : OutboxEventRecord) : (exhausted maxAttempts row).id = row.id := by
  rw [exhausted]
  split <;> rfl

def moveExhaustedEventsToDeadLetter (rows : Table OutboxEventRecord.id) :
    Table OutboxEventRecord.id :=
  rows.map (exhausted maxAttempts) (exhausted_id maxAttempts)

/-- The status after an attempt, by the attempts of the row as it was read. -/
def finalStatus (record : OutboxEventRecord) (succeeded : Bool) : OutboxEventStatus :=
  if succeeded then .published
  else if maxAttempts ≤ record.attempts + 1 then .deadLetter
  else .pending

/-- One step of a run. After the events of its batch it goes on when all of them are settled. -/
def proceed (i : Nat) (run : Run) (s : State) : Except Unit (Unit × State) :=
  match run with
  | .counting batchSize => .ok ((), { s with runs := s.runs.set i (.finding batchSize) })
  | .finding batchSize =>
    let events := page batchSize (s.rows.records.filter (isDue maxAttempts))
    .ok ((), { s with
      runs := s.runs.set i .publishing
      ones := s.ones ++ events.map fun record => ⟨i, record, .claiming⟩ })
  | .publishing =>
    if s.ones.any (·.run = i) then .error ()
    else .ok ((), { s with runs := s.runs.set i .moving })
  | .moving => .ok ((), { s with
      runs := s.runs.set i .ended
      rows := moveExhaustedEventsToDeadLetter maxAttempts s.rows })
  | .ended => .error ()

/-- The update that claims the row has been carried out. A payload without an event is not handed to
the event bus. -/
def claim (j : Nat) (one : PublishOne) (s : State) : State :=
  match s.rows.get one.record.id with
  | none => { s with ones := s.ones.eraseIdx j }
  | some row =>
    if row.status = .pending then
      match one.record.event with
      | none => { s with
          rows := s.rows.set (claimed row)
          ones := s.ones.set j { one with stage := .finishing false } }
      | some _ => { s with
          rows := s.rows.set (claimed row)
          ones := s.ones.set j { one with stage := .publishing }
          handed := s.handed ++ [row.id] }
    else { s with ones := s.ones.eraseIdx j }

def finish (j : Nat) (one : PublishOne) (succeeded : Bool) (s : State) : State :=
  match s.rows.get one.record.id with
  | none => { s with ones := s.ones.eraseIdx j }
  | some row => { s with
      rows := s.rows.set { row with status := finalStatus maxAttempts one.record succeeded }
      ones := s.ones.eraseIdx j }

def publishOne (j : Nat) (one : PublishOne) (succeeds : Bool) (s : State) : State :=
  match one.stage with
  | .claiming => claim j one s
  | .publishing => { s with ones := s.ones.set j { one with stage := .finishing succeeds } }
  | .finishing succeeded => finish maxAttempts j one succeeded s

def outbox : System Act State Unit Unit
  | .publishDueBatch batchSize, s => .ok ((), { s with runs := s.runs ++ [.counting batchSize] })
  | .proceed i, s =>
    match s.runs[i]? with
    | none => .error ()
    | some run => proceed page maxAttempts i run s
  | .publishOne j succeeds, s =>
    match s.ones[j]? with
    | none => .error ()
    | some one => .ok ((), publishOne maxAttempts j one succeeds s)

end Outbox

/-!
## Overlapping runs of the outbox

An event is claimed by one run at a time, and what has been published or given up stays so. That an
event is handed to the event bus no more than it may be rests on the attempts that its row has when
it is claimed, which the update that claims it does not ask for.
-/
namespace Outbox

open Records Transaction

/-- The event that a run has claimed and not yet updated. -/
def PublishOne.busy? (one : PublishOne) : Option String :=
  match one.stage with
  | .claiming => none
  | .publishing => some one.record.id
  | .finishing _ => some one.record.id

def busy (ones : List PublishOne) : List String := ones.filterMap PublishOne.busy?

/-- No event is published by two runs, none is handed over more than it may be, and an event that is
marked as being published is so by a run that has not ended. -/
structure Orderly (maxAttempts : Nat) (s : State) : Prop where
  alone : (busy s.ones).Nodup
  bounded : ∀ id, s.handed.count id ≤ maxAttempts
  left : ∀ row ∈ s.rows, row.status = .publishing →
    ∃ one ∈ s.ones, one.busy? = some row.id ∧ s.runs[one.run]? = some .publishing

def Ended (row : OutboxEventRecord) : Prop := row.status = .published ∨ row.status = .deadLetter

/-- An event that is published or a dead letter stays as it is, and is not handed over. -/
def Final (s s' : State) : Prop :=
  ∀ row ∈ s.rows, Ended row →
    s'.rows.get row.id = some row ∧ s'.handed.count row.id = s.handed.count row.id

/-- An event that is claimed has attempts left. -/
def Claims (maxAttempts : Nat) (s : State) : Act → Prop
  | .publishDueBatch _ => True
  | .proceed _ => True
  | .publishOne j _ => ∀ one ∈ s.ones[j]?, one.stage = .claiming →
    ∀ row ∈ s.rows.get one.record.id, row.status = .pending → row.attempts < maxAttempts

instance (maxAttempts : Nat) (s : State) : (act : Act) → Decidable (Claims maxAttempts s act)
  | .publishDueBatch _ => isTrue trivial
  | .proceed _ => isTrue trivial
  | .publishOne j _ => inferInstanceAs (Decidable (∀ one ∈ s.ones[j]?, one.stage = .claiming →
    ∀ row ∈ s.rows.get one.record.id, row.status = .pending → row.attempts < maxAttempts))

/-- What all steps keep. -/
structure Kept (maxAttempts : Nat) (s : State) : Prop where
  alone : (busy s.ones).Nodup
  held : ∀ id ∈ busy s.ones, ∃ row ∈ s.rows.get id, row.status = .publishing
  left : ∀ row ∈ s.rows, row.status = .publishing → row.id ∈ busy s.ones
  counted : ∀ row ∈ s.rows, s.handed.count row.id ≤ row.attempts
  bounded : ∀ id, s.handed.count id ≤ maxAttempts
  going : ∀ one ∈ s.ones, s.runs[one.run]? = some .publishing

/-- What a step does to the rows, to the events that are claimed and to those handed over. -/
inductive Turned (maxAttempts : Nat) (s s' : State) : Prop
  | same (rows : s'.rows = s.rows) (ones : (busy s'.ones).Perm (busy s.ones))
      (handed : s'.handed = s.handed)
  | claimed {row : OutboxEventRecord} (found : s.rows.get row.id = some row)
      (pending : row.status = .pending) (attempts : row.attempts < maxAttempts)
      (rows : s'.rows = s.rows.set (claimed row))
      (ones : (busy s'.ones).Perm (row.id :: busy s.ones))
      (handed : s'.handed = s.handed ∨ s'.handed = s.handed ++ [row.id])
  | finished {row : OutboxEventRecord} {status : OutboxEventStatus}
      (found : s.rows.get row.id = some row) (settled : status ≠ .publishing)
      (rows : s'.rows = s.rows.set { row with status })
      (ones : (row.id :: busy s'.ones).Perm (busy s.ones)) (handed : s'.handed = s.handed)
  | exhausted (rows : s'.rows = moveExhaustedEventsToDeadLetter maxAttempts s.rows)
      (ones : (busy s'.ones).Perm (busy s.ones)) (handed : s'.handed = s.handed)

variable {page : Page} {maxAttempts : Nat} {s s' : State} {row : OutboxEventRecord} {act : Act}
  {one one' : PublishOne} {ones : List PublishOne} {j : Nat} {id : String}

/-! ## Publications under way -/

theorem busy_erase (h : ones[j]? = some one) :
    (one.busy?.toList ++ busy (ones.eraseIdx j)).Perm (busy ones) := by
  obtain ⟨hlt, hget⟩ := List.getElem?_eq_some_iff.mp h
  have hperm := (List.getElem_cons_eraseIdx_perm hlt).filterMap PublishOne.busy?
  rw [hget, List.filterMap_cons] at hperm
  cases hbusy : one.busy? with
  | none =>
    rw [hbusy] at hperm
    exact hperm
  | some _ =>
    rw [hbusy] at hperm
    exact hperm

theorem busy_set (one' : PublishOne) (h : ones[j]? = some one) :
    (busy (ones.set j one')).Perm (one'.busy?.toList ++ busy (ones.eraseIdx j)) := by
  obtain ⟨hlt, -⟩ := List.getElem?_eq_some_iff.mp h
  have hperm := (List.set_perm_cons_eraseIdx hlt one').filterMap PublishOne.busy?
  rw [List.filterMap_cons] at hperm
  cases hbusy : one'.busy? with
  | none =>
    rw [hbusy] at hperm
    exact hperm
  | some _ =>
    rw [hbusy] at hperm
    exact hperm

theorem busy_append_claiming (ones : List PublishOne) (i : Nat)
    (events : List OutboxEventRecord) :
    busy (ones ++ events.map fun record => ⟨i, record, .claiming⟩) = busy ones := by
  rw [busy, List.filterMap_append, List.filterMap_map]
  have hnone : events.filterMap (PublishOne.busy? ∘ fun record => ⟨i, record, .claiming⟩) = [] :=
    List.filterMap_eq_nil_iff.mpr fun _ _ => rfl
  rw [hnone, List.append_nil, busy]

theorem mem_busy (h : ones[j]? = some one) (hbusy : one.busy? = some id) : id ∈ busy ones :=
  List.mem_filterMap.mpr ⟨one, List.mem_of_getElem? h, hbusy⟩

/-! ## Rows -/

/-- An event that is pending is under way nowhere. -/
theorem pending_free (h : Kept maxAttempts s) (hfound : s.rows.get row.id = some row)
    (hpending : row.status = .pending) : row.id ∉ busy s.ones := by
  intro hmem
  obtain ⟨other, hget, hstatus⟩ := h.held row.id hmem
  rw [hfound] at hget
  obtain rfl := Option.some.inj hget
  rw [hpending] at hstatus
  contradiction

theorem exhausted_eq (h : row.status ≠ .pending) : exhausted maxAttempts row = row :=
  if_neg fun hboth => h hboth.1

theorem exhausted_kept (row : OutboxEventRecord) :
    (exhausted maxAttempts row).attempts = row.attempts ∧
      ((exhausted maxAttempts row).status = .publishing → row.status = .publishing) := by
  rw [exhausted]
  split
  · exact ⟨rfl, fun h => by cases h⟩
  · exact ⟨rfl, id⟩

theorem get_exhausted (hmem : row ∈ s.rows) (h : row.status ≠ .pending) :
    (moveExhaustedEventsToDeadLetter maxAttempts s.rows).get row.id = some row := by
  have hmoved : row ∈ moveExhaustedEventsToDeadLetter maxAttempts s.rows :=
    List.mem_map.mpr ⟨row, hmem, exhausted_eq h⟩
  exact Table.get_of_mem hmoved

/-! ## Steps -/

theorem count_claimed (h : s'.handed = s.handed ∨ s'.handed = s.handed ++ [row.id]) :
    s'.handed.count row.id ≤ s.handed.count row.id + 1 := by
  obtain hsame | hmore := h
  · rw [hsame]
    exact Nat.le_succ _
  · rw [hmore, List.count_append, List.count_singleton_self]

theorem count_other (h : s'.handed = s.handed ∨ s'.handed = s.handed ++ [row.id])
    (hne : id ≠ row.id) : s'.handed.count id = s.handed.count id := by
  obtain hsame | hmore := h
  · rw [hsame]
  · have hnone : [row.id].count id = 0 := List.count_eq_zero.mpr (by simpa using hne)
    rw [hmore, List.count_append, hnone, Nat.add_zero]

theorem kept_same (h : Kept maxAttempts s) (hrows : s'.rows = s.rows)
    (hones : (busy s'.ones).Perm (busy s.ones)) (hhanded : s'.handed = s.handed)
    (hgoing : ∀ one ∈ s'.ones, s'.runs[one.run]? = some .publishing) : Kept maxAttempts s' where
  alone := hones.nodup_iff.mpr h.alone
  held id hmem := by
    rw [hrows]
    exact h.held id (hones.mem_iff.mp hmem)
  left row hmem hstatus := by
    rw [hrows] at hmem
    exact hones.mem_iff.mpr (h.left row hmem hstatus)
  counted row hmem := by
    rw [hrows] at hmem
    rw [hhanded]
    exact h.counted row hmem
  bounded := by
    rw [hhanded]
    exact h.bounded
  going := hgoing

/-- A pending event with attempts left is claimed. -/
theorem kept_claimed (h : Kept maxAttempts s) (hfound : s.rows.get row.id = some row)
    (hpending : row.status = .pending) (hattempts : row.attempts < maxAttempts)
    (hrows : s'.rows = s.rows.set (claimed row))
    (hones : (busy s'.ones).Perm (row.id :: busy s.ones))
    (hhanded : s'.handed = s.handed ∨ s'.handed = s.handed ++ [row.id])
    (hgoing : ∀ one ∈ s'.ones, s'.runs[one.run]? = some .publishing) : Kept maxAttempts s' := by
  have hcount := count_claimed hhanded
  have hcounted := h.counted row (Table.get_some hfound).1
  refine ⟨?_, fun id hmem => ?_, fun r hmem hstatus => ?_, fun r hmem => ?_, fun id => ?_, hgoing⟩
  · exact hones.nodup_iff.mpr (List.nodup_cons.mpr ⟨pending_free h hfound hpending, h.alone⟩)
  · rw [hrows, Table.get_set]
    split
    next => exact ⟨claimed row, rfl, rfl⟩
    next hne =>
      obtain he | hold := List.mem_cons.mp (hones.mem_iff.mp hmem)
      · exact absurd he hne
      · exact h.held id hold
  · rw [hrows] at hmem
    refine hones.mem_iff.mpr ?_
    obtain rfl | ⟨hold, -⟩ := Table.mem_set.mp hmem
    · exact List.mem_cons_self
    · exact List.mem_cons_of_mem _ (h.left r hold hstatus)
  · rw [hrows] at hmem
    obtain rfl | ⟨hold, hne⟩ := Table.mem_set.mp hmem
    · exact hcount.trans (Nat.succ_le_succ hcounted)
    · rw [count_other hhanded hne]
      exact h.counted r hold
  · by_cases he : id = row.id
    · rw [he]
      exact (hcount.trans (Nat.succ_le_succ hcounted)).trans hattempts
    · rw [count_other hhanded he]
      exact h.bounded id

/-- The row of an event that was under way gets another status. -/
theorem kept_finished {status : OutboxEventStatus} (h : Kept maxAttempts s)
    (hfound : s.rows.get row.id = some row) (hsettled : status ≠ .publishing)
    (hrows : s'.rows = s.rows.set { row with status })
    (hones : (row.id :: busy s'.ones).Perm (busy s.ones)) (hhanded : s'.handed = s.handed)
    (hgoing : ∀ one ∈ s'.ones, s'.runs[one.run]? = some .publishing) : Kept maxAttempts s' := by
  obtain ⟨hfree, halone⟩ := List.nodup_cons.mp (hones.nodup_iff.mpr h.alone)
  refine ⟨halone, fun id hmem => ?_, fun r hmem hstatus => ?_, fun r hmem => ?_, ?_, hgoing⟩
  · have hne : id ≠ row.id := by
      rintro rfl
      exact hfree hmem
    rw [hrows, Table.get_set, if_neg hne]
    exact h.held id (hones.mem_iff.mp (List.mem_cons_of_mem _ hmem))
  · rw [hrows] at hmem
    obtain rfl | ⟨hold, hne⟩ := Table.mem_set.mp hmem
    · exact absurd hstatus hsettled
    · obtain he | hbusy := List.mem_cons.mp (hones.mem_iff.mpr (h.left r hold hstatus))
      · exact absurd he hne
      · exact hbusy
  · rw [hrows] at hmem
    rw [hhanded]
    obtain rfl | ⟨hold, -⟩ := Table.mem_set.mp hmem
    · exact h.counted row (Table.get_some hfound).1
    · exact h.counted r hold
  · rw [hhanded]
    exact h.bounded

theorem kept_exhausted (h : Kept maxAttempts s)
    (hrows : s'.rows = moveExhaustedEventsToDeadLetter maxAttempts s.rows)
    (hones : (busy s'.ones).Perm (busy s.ones)) (hhanded : s'.handed = s.handed)
    (hgoing : ∀ one ∈ s'.ones, s'.runs[one.run]? = some .publishing) : Kept maxAttempts s' := by
  refine ⟨hones.nodup_iff.mpr h.alone, fun id hmem => ?_, fun r hmem hstatus => ?_,
    fun r hmem => ?_, ?_, hgoing⟩
  · obtain ⟨row, hget, hstatus⟩ := h.held id (hones.mem_iff.mp hmem)
    obtain ⟨hrow, rfl⟩ := Table.get_some hget
    rw [hrows]
    exact ⟨row, get_exhausted hrow (by rw [hstatus]; exact nofun), hstatus⟩
  · rw [hrows] at hmem
    obtain ⟨row, hrow, rfl⟩ := List.mem_map.mp hmem
    rw [exhausted_id]
    exact hones.mem_iff.mpr (h.left row hrow ((exhausted_kept row).2 hstatus))
  · rw [hrows] at hmem
    obtain ⟨row, hrow, rfl⟩ := List.mem_map.mp hmem
    rw [hhanded, exhausted_id, (exhausted_kept row).1]
    exact h.counted row hrow
  · rw [hhanded]
    exact h.bounded

theorem kept_turned (h : Kept maxAttempts s) (hturned : Turned maxAttempts s s')
    (hgoing : ∀ one ∈ s'.ones, s'.runs[one.run]? = some .publishing) : Kept maxAttempts s' := by
  cases hturned with
  | same rows ones handed => exact kept_same h rows ones handed hgoing
  | claimed found pending attempts rows ones handed =>
    exact kept_claimed h found pending attempts rows ones handed hgoing
  | finished found settled rows ones handed =>
    exact kept_finished h found settled rows ones handed hgoing
  | exhausted rows ones handed => exact kept_exhausted h rows ones handed hgoing

/-- What has ended is neither pending nor under way, so that no step comes to it. -/
theorem final_turned (h : Kept maxAttempts s) (hturned : Turned maxAttempts s s') : Final s s' := by
  intro row hmem hended
  have hget := Table.get_of_mem hmem
  have hpending : row.status ≠ .pending := by
    obtain hstatus | hstatus := hended <;> rw [hstatus] <;> exact nofun
  have hpublishing : row.status ≠ .publishing := by
    obtain hstatus | hstatus := hended <;> rw [hstatus] <;> exact nofun
  cases hturned with
  | same rows ones handed =>
    rw [rows, handed]
    exact ⟨hget, rfl⟩
  | @claimed other found pending attempts rows ones handed =>
    have hne : row.id ≠ other.id := by
      intro he
      rw [← he, hget] at found
      exact hpending (Option.some.inj found ▸ pending)
    have hkept : (s.rows.set (claimed other)).get row.id = s.rows.get row.id :=
      Table.get_set_ne hne
    rw [rows, hkept]
    exact ⟨hget, count_other handed hne⟩
  | @finished other status found settled rows ones handed =>
    have hne : row.id ≠ other.id := by
      intro he
      obtain ⟨held, hheld, hstatus⟩ := h.held other.id (ones.mem_iff.mp List.mem_cons_self)
      rw [← he, hget] at hheld
      exact hpublishing (Option.some.inj hheld ▸ hstatus)
    rw [rows, Table.get_set, if_neg hne, handed]
    exact ⟨hget, rfl⟩
  | exhausted rows ones handed =>
    rw [rows, handed]
    exact ⟨get_exhausted hmem hpending, rfl⟩

/-! ## Acts -/

/-- A run that has no publication under way may go on. -/
theorem going_set {i : Nat} {run : Run}
    (hgoing : ∀ one ∈ s.ones, s.runs[one.run]? = some .publishing)
    (hnone : ∀ one ∈ s.ones, one.run ≠ i) :
    ∀ one ∈ s.ones, (s.runs.set i run)[one.run]? = some .publishing := by
  intro one hmem
  rw [List.getElem?_set_ne (hnone one hmem).symm]
  exact hgoing one hmem

theorem run_free {i : Nat} {run : Run}
    (hgoing : ∀ one ∈ s.ones, s.runs[one.run]? = some .publishing) (hrun : s.runs[i]? = some run)
    (hne : run ≠ .publishing) : ∀ one ∈ s.ones, one.run ≠ i := by
  rintro one hmem rfl
  exact hne (Option.some.inj (hrun.symm.trans (hgoing one hmem)))

theorem turned_proceed {i : Nat} {run : Run} {r : Unit} (h : Kept maxAttempts s)
    (hrun : s.runs[i]? = some run) (hok : proceed page maxAttempts i run s = .ok (r, s')) :
    Turned maxAttempts s s' ∧ ∀ one ∈ s'.ones, s'.runs[one.run]? = some .publishing := by
  cases run with
  | counting batchSize =>
    obtain ⟨-, rfl⟩ := Prod.mk.inj (Except.ok.inj hok)
    exact ⟨.same rfl (List.Perm.refl _) rfl,
      going_set h.going (run_free h.going hrun nofun)⟩
  | finding batchSize =>
    obtain ⟨-, rfl⟩ := Prod.mk.inj (Except.ok.inj hok)
    obtain ⟨hlt, -⟩ := List.getElem?_eq_some_iff.mp hrun
    refine ⟨.same rfl ?_ rfl, fun one hmem => ?_⟩
    · rw [busy_append_claiming]
    · obtain hold | hnew := List.mem_append.mp hmem
      · exact going_set h.going (run_free h.going hrun nofun) one hold
      · obtain ⟨record, -, rfl⟩ := List.mem_map.mp hnew
        exact List.getElem?_set_self hlt
  | publishing =>
    rw [proceed] at hok
    split_ifs at hok with hany
    obtain ⟨-, rfl⟩ := Prod.mk.inj (Except.ok.inj hok)
    refine ⟨.same rfl (List.Perm.refl _) rfl, going_set h.going fun one hmem he => ?_⟩
    exact hany (List.any_eq_true.mpr ⟨one, hmem, decide_eq_true he⟩)
  | moving =>
    obtain ⟨-, rfl⟩ := Prod.mk.inj (Except.ok.inj hok)
    exact ⟨.exhausted rfl (List.Perm.refl _) rfl,
      going_set h.going (run_free h.going hrun nofun)⟩
  | ended => contradiction

/-- A publication that goes on belongs to its run as before. -/
theorem going_ones {runs : List Run} {ones' : List PublishOne}
    (hgoing : ∀ one ∈ ones, runs[one.run]? = some .publishing)
    (hones : ∀ one' ∈ ones', ∃ one ∈ ones, one'.run = one.run) :
    ∀ one' ∈ ones', runs[one'.run]? = some .publishing := by
  intro one' hmem
  obtain ⟨one, hone, he⟩ := hones one' hmem
  rw [he]
  exact hgoing one hone

theorem erase_runs (ones : List PublishOne) (j : Nat) :
    ∀ one' ∈ ones.eraseIdx j, ∃ one ∈ ones, one'.run = one.run :=
  fun one' hmem => ⟨one', List.mem_of_mem_eraseIdx hmem, rfl⟩

theorem set_runs (h : ones[j]? = some one) (hrun : one'.run = one.run) :
    ∀ x ∈ ones.set j one', ∃ y ∈ ones, x.run = y.run := by
  intro x hmem
  obtain hold | rfl := List.mem_or_eq_of_mem_set hmem
  · exact ⟨x, hold, rfl⟩
  · exact ⟨one, List.mem_of_getElem? h, hrun⟩

theorem busy_claiming (hstage : one.stage = .claiming) : one.busy? = none := by
  rw [PublishOne.busy?, hstage]

theorem turned_claim (h : Kept maxAttempts s) (hone : s.ones[j]? = some one)
    (hstage : one.stage = .claiming)
    (hclaims : ∀ row ∈ s.rows.get one.record.id, row.status = .pending →
      row.attempts < maxAttempts) :
    Turned maxAttempts s (claim j one s) ∧
      ∀ one' ∈ (claim j one s).ones, (claim j one s).runs[one'.run]? = some .publishing := by
  have hidle := busy_claiming hstage
  have hleaves : (busy (s.ones.eraseIdx j)).Perm (busy s.ones) := by
    have hperm := busy_erase hone
    rwa [hidle] at hperm
  have htakes : ∀ (one' : PublishOne) (id : String), one'.busy? = some id →
      (busy (s.ones.set j one')).Perm (id :: busy s.ones) := by
    intro one' id hbusy
    have hperm := busy_set one' hone
    rw [hbusy] at hperm
    exact hperm.trans (hleaves.cons id)
  rw [claim]
  cases hget : s.rows.get one.record.id with
  | none =>
    exact ⟨.same rfl hleaves rfl, going_ones h.going (erase_runs _ _)⟩
  | some row =>
    obtain ⟨-, hid⟩ := Table.get_some hget
    have hfound : s.rows.get row.id = some row := by rw [hid, hget]
    dsimp only
    split
    next hpending =>
      have hattempts := hclaims row hget hpending
      split
      next =>
        exact ⟨.claimed hfound hpending hattempts rfl (hid ▸ htakes _ _ rfl) (.inl rfl),
          going_ones h.going (set_runs hone rfl)⟩
      next =>
        exact ⟨.claimed hfound hpending hattempts rfl (hid ▸ htakes _ _ rfl) (.inr rfl),
          going_ones h.going (set_runs hone rfl)⟩
    next => exact ⟨.same rfl hleaves rfl, going_ones h.going (erase_runs _ _)⟩

theorem finalStatus_settled (record : OutboxEventRecord) (succeeded : Bool) :
    finalStatus maxAttempts record succeeded ≠ .publishing := by
  rw [finalStatus]
  split_ifs <;> exact nofun

theorem turned_finish {succeeded : Bool} (h : Kept maxAttempts s) (hone : s.ones[j]? = some one)
    (hstage : one.stage = .finishing succeeded) :
    Turned maxAttempts s (finish maxAttempts j one succeeded s) ∧
      ∀ one' ∈ (finish maxAttempts j one succeeded s).ones,
        (finish maxAttempts j one succeeded s).runs[one'.run]? = some .publishing := by
  have hbusy : one.busy? = some one.record.id := by rw [PublishOne.busy?, hstage]
  have hleaves := busy_erase hone
  rw [hbusy] at hleaves
  obtain ⟨row, hget, -⟩ := h.held _ (mem_busy hone hbusy)
  obtain ⟨-, hid⟩ := Table.get_some hget
  have hfound : s.rows.get row.id = some row := by rw [hid, hget]
  rw [finish, Option.mem_def.mp hget]
  refine ⟨.finished hfound (finalStatus_settled one.record succeeded) rfl ?_ rfl,
    going_ones h.going (erase_runs _ _)⟩
  rw [hid]
  exact hleaves

theorem turned_publishOne {succeeds : Bool} (h : Kept maxAttempts s)
    (hone : s.ones[j]? = some one) (hclaims : Claims maxAttempts s (.publishOne j succeeds)) :
    Turned maxAttempts s (publishOne maxAttempts j one succeeds s) ∧
      ∀ one' ∈ (publishOne maxAttempts j one succeeds s).ones,
        (publishOne maxAttempts j one succeeds s).runs[one'.run]? = some .publishing := by
  cases hstage : one.stage with
  | claiming =>
    rw [publishOne, hstage]
    exact turned_claim h hone hstage (hclaims one hone hstage)
  | publishing =>
    have hbusy : one.busy? = some one.record.id := by rw [PublishOne.busy?, hstage]
    have hbefore := busy_erase hone
    rw [hbusy] at hbefore
    rw [publishOne, hstage]
    exact ⟨.same rfl ((busy_set _ hone).trans hbefore) rfl, going_ones h.going (set_runs hone rfl)⟩
  | finishing succeeded =>
    rw [publishOne, hstage]
    exact turned_finish h hone hstage

theorem turned_commit (h : Kept maxAttempts s) (hclaims : Claims maxAttempts s act) :
    Turned maxAttempts s (commit (outbox page maxAttempts) s act) ∧
      ∀ one ∈ (commit (outbox page maxAttempts) s act).ones,
        (commit (outbox page maxAttempts) s act).runs[one.run]? = some .publishing := by
  obtain ⟨r, hok⟩ | ⟨-, hsame⟩ := commit_cases (outbox page maxAttempts) s act
  · generalize commit (outbox page maxAttempts) s act = s' at hok
    cases act with
    | publishDueBatch batchSize =>
      obtain ⟨-, rfl⟩ := Prod.mk.inj (Except.ok.inj hok)
      refine ⟨.same rfl (List.Perm.refl _) rfl, fun one hmem => ?_⟩
      have hrun := h.going one hmem
      exact (List.getElem?_append_left (List.getElem?_eq_some_iff.mp hrun).1).trans hrun
    | proceed i =>
      rw [outbox] at hok
      cases hrun : s.runs[i]? with
      | none =>
        rw [hrun] at hok
        contradiction
      | some run =>
        rw [hrun] at hok
        exact turned_proceed h hrun hok
    | publishOne j succeeds =>
      rw [outbox] at hok
      cases hone : s.ones[j]? with
      | none =>
        rw [hone] at hok
        contradiction
      | some one =>
        rw [hone] at hok
        obtain ⟨-, rfl⟩ := Prod.mk.inj (Except.ok.inj hok)
        exact turned_publishOne h hone hclaims
  · rw [hsame]
    exact ⟨.same rfl (List.Perm.refl _) rfl, h.going⟩

/-! ## Runs -/

/-- Rows before any run has begun. -/
def started (rows : Table OutboxEventRecord.id) : State := ⟨rows, [], [], []⟩

theorem kept_started {rows : Table OutboxEventRecord.id}
    (h : ∀ row ∈ rows, row.status ≠ .publishing) : Kept maxAttempts (started rows) where
  alone := List.nodup_nil
  held _ hmem := absurd hmem List.not_mem_nil
  left row hmem hstatus := absurd hstatus (h row hmem)
  counted _ _ := Nat.zero_le _
  bounded _ := Nat.zero_le _
  going _ hmem := absurd hmem List.not_mem_nil

theorem Kept.orderly (h : Kept maxAttempts s) : Orderly maxAttempts s where
  alone := h.alone
  bounded := h.bounded
  left row hmem hstatus := by
    obtain ⟨one, hone, hbusy⟩ := List.mem_filterMap.mp (h.left row hmem hstatus)
    exact ⟨one, hone, hbusy, h.going one hone⟩

theorem kept_commit (h : Kept maxAttempts s) (hclaims : Claims maxAttempts s act) :
    Kept maxAttempts (commit (outbox page maxAttempts) s act) :=
  kept_turned h (turned_commit h hclaims).1 (turned_commit h hclaims).2

/-- In every run of acts in which no event is claimed without attempts left, the events are
published in order, and what has ended is not touched by any act. -/
theorem outbox_run {rows : Table OutboxEventRecord.id} {acts : List Act}
    (hrows : ∀ row ∈ rows, row.status ≠ .publishing)
    (h : Along (outbox page maxAttempts) (Claims maxAttempts) (started rows) acts) :
    Orderly maxAttempts (run (outbox page maxAttempts) (started rows) acts) ∧
      Along (outbox page maxAttempts)
        (fun s act => Final s (commit (outbox page maxAttempts) s act)) (started rows) acts :=
  ⟨(run_invariant (fun _ _ => kept_commit) (kept_started hrows) h).orderly,
    along_of_invariant (fun _ _ => kept_commit) (kept_started hrows) h
      fun _ _ hkept hclaims => final_turned hkept (turned_commit hkept hclaims).1⟩

/-! ## Runs that have read one event -/

/-- All rows, up to so many. -/
def firstRows : Page := fun batchSize rows => rows.take batchSize

def oneEvent : Table OutboxEventRecord.id :=
  (∅ : Table OutboxEventRecord.id).set ⟨"event", some "payment", .pending, 0, 0⟩

/-- A run up to the batch that it reads. -/
def reads (run : Nat) : List Act := [.publishDueBatch 25, .proceed run, .proceed run]

/-- The publication comes first, is claimed and fails. -/
def fails : List Act := [.publishOne 0 true, .publishOne 0 false, .publishOne 0 true]

/-- Two runs, one after the other has ended. -/
def oneByOne : List Act := reads 0 ++ fails ++ [.proceed 0, .proceed 0] ++ reads 1 ++ fails

/-- Three runs that have read the event before any of them publishes it. -/
def together : List Act := reads 0 ++ reads 1 ++ reads 2 ++ fails ++ fails ++ fails

theorem oneByOne_orderly :
    Orderly 2 (run (outbox firstRows 2) (started oneEvent) oneByOne) ∧
      Along (outbox firstRows 2) (fun s act => Final s (commit (outbox firstRows 2) s act))
        (started oneEvent) oneByOne :=
  outbox_run (by decide +kernel) (by decide +kernel)

/-- With two attempts allowed the event is handed over three times. -/
theorem together_thrice :
    ¬ Orderly 2 (run (outbox firstRows 2) (started oneEvent) together) := by
  intro h
  exact absurd (h.bounded "event") (by decide +kernel)

end Outbox
