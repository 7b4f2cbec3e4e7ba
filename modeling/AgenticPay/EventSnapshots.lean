import AgenticPay.EventStore
import AgenticPay.EventStoreRuns

/-!
# Replays from a snapshot

A replay from a snapshot goes on after the version of the snapshot, and its bound is on the global
sequence. The snapshot itself is not bounded: an event in it that lies beyond the bound stays in the
state. A name that is empty selects the events of all streams, with the version taken for a number
of the global sequence.
-/
namespace EventReplay

open Records EventStore Transaction

variable {α μ T β : Type} {rows : Rows α μ} {r : Row α μ} {c : Append α μ} {l : List β}
  {f : β → Nat} {aggregateType aggregateId : String} {registry : Registry α μ}
  {options : ReplayOptions}

/-! ## Lists that are numbered -/

/-- A sorted list, cut at a number. -/
theorem filter_append_filter (h : l.Pairwise fun a b => f a ≤ f b) (n : Nat) :
    l.filter (fun a => f a ≤ n) ++ l.filter (fun a => n < f a) = l := by
  induction h with
  | nil => rfl
  | @cons a l hhead _ ih =>
    by_cases hle : f a ≤ n
    · rw [List.filter_cons_of_pos (by simpa using hle),
        List.filter_cons_of_neg (by simpa using hle),
        List.cons_append, ih]
    · have hnone : l.filter (fun a => f a ≤ n) = [] := by
        refine List.filter_eq_nil_iff.mpr fun b hb => ?_
        have hab := hhead b hb
        simp only [decide_eq_true_eq]
        omega
      rw [hnone] at ih
      rw [List.filter_cons_of_neg (by simpa using hle),
        List.filter_cons_of_pos (by simpa using hle),
        hnone, List.nil_append]
      exact congrArg (a :: ·) ih

theorem length_filter_le (h : l.map f = List.range' 1 l.length) (n : Nat) :
    (l.filter fun a => f a ≤ n).length ≤ n := by
  have hnodup : ((l.filter fun a => f a ≤ n).map f).Nodup := by
    refine List.Nodup.sublist (List.filter_sublist.map f) ?_
    rw [h]
    exact List.nodup_range'
  have hsubset : (l.filter fun a => f a ≤ n).map f ⊆ List.range' 1 n := by
    intro k hk
    obtain ⟨a, ha, rfl⟩ := List.mem_map.mp hk
    obtain ⟨hmem, hle⟩ := List.mem_filter.mp ha
    have hone := (le_length_of_numbered h hmem).1
    exact List.mem_range'_1.mpr ⟨hone, by have := of_decide_eq_true hle; omega⟩
  have hle := (List.subperm_of_subset hnodup hsubset).length_le
  rwa [List.length_map, List.length_range'] at hle

/-- As many of a numbered list as there are numbers are the first ones. -/
theorem filter_eq_first (h : l.map f = List.range' 1 l.length) {p : β → Bool}
    (hp : ∀ a ∈ l.filter p, f a ≤ (l.filter p).length) :
    l.filter p = l.filter fun a => f a ≤ (l.filter p).length := by
  have hsame : l.filter p = (l.filter fun a => f a ≤ (l.filter p).length).filter p := by
    rw [List.filter_filter]
    refine List.filter_congr fun a ha => ?_
    cases hpa : p a with
    | true =>
      have hle := hp a (List.mem_filter.mpr ⟨ha, hpa⟩)
      rw [decide_eq_true hle, Bool.and_true]
    | false => rw [Bool.false_and]
  have hsub : ((l.filter fun a => f a ≤ (l.filter p).length).filter p).Sublist
      (l.filter fun a => f a ≤ (l.filter p).length) := List.filter_sublist
  rw [← hsame] at hsub
  exact hsub.eq_of_length_le (length_filter_le h _)

/-- The two parts of a list that is numbered. -/
theorem numbered_append {l' : List β} (h : (l ++ l').map f = List.range' 1 (l ++ l').length) :
    l.map f = List.range' 1 l.length ∧ ∀ a ∈ l', l.length < f a := by
  rw [List.map_append, List.length_append, ← List.range'_append_1] at h
  obtain ⟨hfirst, hrest⟩ := List.append_inj h (by rw [List.length_map, List.length_range'])
  refine ⟨hfirst, fun a ha => ?_⟩
  have hmem : f a ∈ List.range' (1 + l.length) l'.length := hrest ▸ List.mem_map_of_mem ha
  have hle := (List.mem_range'_1.mp hmem).1
  omega

/-- Of the numbers from one on, those below a bound are the first ones. -/
theorem filter_range' {p : Nat → Bool} (hdown : ∀ i j, i ≤ j → p j = true → p i = true) (n : Nat) :
    ∃ m, (List.range' 1 n).filter p = List.range' 1 m := by
  induction n with
  | zero => exact ⟨0, rfl⟩
  | succ n ih =>
    rw [List.range'_concat, Nat.one_mul, List.filter_append]
    cases hp : p (1 + n) with
    | true =>
      refine ⟨n + 1, ?_⟩
      have hall : (List.range' 1 n).filter p = List.range' 1 n := by
        refine List.filter_eq_self.mpr fun i hi => hdown i (1 + n) ?_ hp
        have hlt := (List.mem_range'_1.mp hi).2
        omega
      rw [hall, List.filter_cons_of_pos hp, List.filter_nil, List.range'_concat, Nat.one_mul]
    | false =>
      obtain ⟨m, hm⟩ := ih
      refine ⟨m, ?_⟩
      rw [hm, List.filter_cons_of_neg (by rw [hp]; exact Bool.false_ne_true), List.filter_nil,
        List.append_nil]

/-! ## Selected events -/

/-- The options of a replay without validation, up to a number of the global sequence. -/
def upTo (toSequence : Option ℚ) : ReplayOptions :=
  { toSequence := toSequence, validateSchemas := false }

def within (toSequence : Option ℚ) (e : StoredEvent α μ) : Bool :=
  toSequence.all fun bound => (e.sequenceNumber : ℚ) ≤ bound

theorem select_eq (options : ReplayOptions) (rows : Rows α μ) :
    select options rows = (fetch options rows).filter (within options.toSequence) := by
  unfold select within
  cases options.toSequence with
  | none => exact (List.filter_true _).symm
  | some bound => rfl

theorem process_foldl (hvalidate : options.validateSchemas = false) (hrun : options.dryRun = false)
    (reducer : T → StoredEvent α μ → T) (events : List (StoredEvent α μ))
    (result : ReplayResult α μ) (state : T) :
    (process registry (fun event state => (none, reducer state event)) options events result
      state).2 = events.foldl reducer state := by
  induction events generalizing result state with
  | nil => rfl
  | cons event events ih =>
    have hattempt : attempt registry (fun event state => (none, reducer state event)) options event
        state = (.processed, reducer state event) := by
      simp only [attempt, hvalidate, hrun, Bool.false_eq_true, if_false]
    rw [process, hattempt]
    exact ih _ _

/-- The events from a position on that a replay of a stream selects. -/
def selected (aggregateType aggregateId : String) (rows : Rows α μ) (fromSequence : Nat)
    (toSequence : Option ℚ) : List (StoredEvent α μ) :=
  (if aggregateType = "" ∨ aggregateId = "" then Rows.getAllEvents rows fromSequence
    else Rows.loadEvents rows aggregateType aggregateId fromSequence).filter (within toSequence)

theorem select_stream (toSequence : Option ℚ) (fromSequence : Nat) (position : Option Int)
    (hposition : position.getD 0 = fromSequence) :
    select { upTo toSequence with
      fromSequence := position, aggregateType := some aggregateType,
      aggregateId := some aggregateId } rows =
        selected aggregateType aggregateId rows fromSequence toSequence := by
  rw [select_eq, selected]
  refine congrArg (List.filter _) ?_
  simp only [fetch, upTo, truthy, hposition, Option.getD_none]
  by_cases htype : aggregateType = ""
  · rw [if_pos (.inl htype)]
    by_cases hid : aggregateId = "" <;> simp [Option.filter, htype, hid]
  · by_cases hid : aggregateId = ""
    · rw [if_pos (.inr hid)]
      simp [Option.filter, hid]
    · rw [if_neg (not_or.mpr ⟨htype, hid⟩)]
      simp [Option.filter, htype, hid]

theorem replayToState_eq (toSequence : Option ℚ) (fromSequence : Nat) (position : Option Int)
    (hposition : position.getD 0 = fromSequence) (state : T)
    (reducer : T → StoredEvent α μ → T) :
    replayToState registry aggregateType aggregateId state reducer
        { upTo toSequence with fromSequence := position } rows =
      (selected aggregateType aggregateId rows fromSequence toSequence).foldl reducer state := by
  rw [replayToState, replay]
  rw [process_foldl rfl rfl]
  rw [← select_stream toSequence fromSequence position hposition]

/-! ## Events of a stream -/

/-- The events in the order in which they were appended, and those of one stream. -/
def eventsOf (rows : Rows α μ) : List (StoredEvent α μ) := rows.map Row.event

def streamEvents (aggregateType aggregateId : String) (rows : Rows α μ) :
    List (StoredEvent α μ) :=
  (eventsOf rows).filter (·.streamId = streamKey aggregateType aggregateId)

theorem streamEvents_eq (rows : Rows α μ) : streamEvents aggregateType aggregateId rows =
    (rows.ofStream (streamKey aggregateType aggregateId)).map Row.event := by
  rw [streamEvents, eventsOf, List.filter_map]
  rfl

theorem eventsOf_numbered (h : Numbered rows) :
    (eventsOf rows).map (·.sequenceNumber) = List.range' 1 (eventsOf rows).length := by
  rw [eventsOf, List.map_map, List.length_map]
  exact h.sequence

theorem streamEvents_numbered (h : Numbered rows) (aggregateType aggregateId : String) :
    (streamEvents aggregateType aggregateId rows).map (·.version) =
      List.range' 1 (streamEvents aggregateType aggregateId rows).length := by
  rw [streamEvents_eq, List.map_map, List.length_map]
  exact h.versions _

theorem loadEvents_stream (h : Numbered rows) (fromVersion : Nat) :
    Rows.loadEvents rows aggregateType aggregateId fromVersion =
      (streamEvents aggregateType aggregateId rows).filter (fromVersion < ·.version) := by
  have hrows := h.inStream (streamKey aggregateType aggregateId)
    fun r => (fromVersion : Int) < r.version
  simp only [decide_eq_true_eq] at hrows
  rw [Rows.loadEvents, hrows, streamEvents_eq, List.filter_map]
  refine congrArg (List.map Row.event) (List.filter_congr fun r _ => ?_)
  exact decide_eq_decide.mpr Int.ofNat_lt

theorem getAllEvents_sequence (h : Numbered rows) (fromSequence : Nat) :
    Rows.getAllEvents rows fromSequence =
      (eventsOf rows).filter (fromSequence < ·.sequenceNumber) := by
  rw [Rows.getAllEvents, h.bySequence, eventsOf, List.filter_map]
  refine congrArg (List.map Row.event) (List.filter_congr fun r _ => ?_)
  exact decide_eq_decide.mpr Int.ofNat_lt

/-! ## The state at a snapshot and later -/

theorem commit_rows (h : Numbered rows) (c : Append α μ) :
    Numbered (commit Rows.appendEvent rows c) ∧
      ∃ more, commit Rows.appendEvent rows c = rows ++ more := by
  have happend := rows_append h c
  cases hcheck : checkVersion c.expectedVersion ((rows.findLatest c.key).map (·.version)) with
  | error conflict =>
    rw [hcheck] at happend
    rw [commit_of_error happend]
    exact ⟨h, [], (List.append_nil _).symm⟩
  | ok u =>
    rw [hcheck] at happend
    rw [commit_of_ok happend]
    exact ⟨h.snoc c, _, rfl⟩

/-- A run keeps the numbers, and the rows that are there. -/
theorem run_rows (h : Numbered rows) (cs : List (Append α μ)) :
    Numbered (run Rows.appendEvent rows cs) ∧
      ∃ more, run Rows.appendEvent rows cs = rows ++ more := by
  induction cs generalizing rows with
  | nil => exact ⟨h, [], (List.append_nil _).symm⟩
  | cons c cs ih =>
    obtain ⟨hcommit, first, hfirst⟩ := commit_rows h c
    obtain ⟨hrun, more, hmore⟩ := ih hcommit
    refine ⟨hrun, first ++ more, ?_⟩
    rw [run_cons, hmore, hfirst, List.append_assoc]

/-- A snapshot keeps the state at the number of events that the stream has then. -/
theorem createSnapshot_ok (h : Numbered rows) {state : T} {db : Database α μ T}
    {snapshots : Table (EventSnapshot.streamId (T := T))}
    (hcreate : createSnapshot aggregateType aggregateId state ⟨rows, snapshots⟩ = .ok db) :
    db.events = rows ∧ ∃ snapshot, getSnapshot db aggregateType aggregateId = some snapshot ∧
      snapshot.version = (streamEvents aggregateType aggregateId rows).length ∧
        snapshot.state = state := by
  have hload := h.loadStream aggregateType aggregateId
  have hversion := streamOf_version (streamKey aggregateType aggregateId)
    (rows.ofStream (streamKey aggregateType aggregateId))
  unfold createSnapshot at hcreate
  cases hstream : streamOf (streamKey aggregateType aggregateId)
      (rows.ofStream (streamKey aggregateType aggregateId)) with
  | none =>
    rw [hstream] at hload
    simp only [hload] at hcreate
    cases hcreate
  | some stream =>
    rw [hstream] at hload hversion
    simp only [hload] at hcreate
    have hkey : ((snapshots.get (streamKey aggregateType aggregateId)).getD
        ⟨streamKey aggregateType aggregateId, aggregateType, aggregateId, 0, state⟩).streamId =
          streamKey aggregateType aggregateId := by
      cases hget : snapshots.get (streamKey aggregateType aggregateId) with
      | none => rfl
      | some snapshot => exact Table.key_of_get hget
    generalize (snapshots.get (streamKey aggregateType aggregateId)).getD
      ⟨streamKey aggregateType aggregateId, aggregateType, aggregateId, 0, state⟩ = snapshot
      at hcreate hkey
    cases hcreate
    refine ⟨rfl, { snapshot with version := stream.version, state := state }, ?_, ?_, rfl⟩
    · rw [getSnapshot, Table.get_set, if_pos hkey.symm]
    · rw [streamEvents_eq, List.length_map]
      exact hversion

/-- A stream that has events can be kept. -/
theorem createSnapshot_exists (h : Numbered rows)
    (hevents : streamEvents aggregateType aggregateId rows ≠ []) (state : T)
    (snapshots : Table (EventSnapshot.streamId (T := T))) :
    ∃ db, createSnapshot aggregateType aggregateId state ⟨rows, snapshots⟩ = .ok db := by
  have hload := h.loadStream aggregateType aggregateId
  unfold createSnapshot
  cases hstream : streamOf (streamKey aggregateType aggregateId)
      (rows.ofStream (streamKey aggregateType aggregateId)) with
  | none =>
    rw [streamEvents_eq, streamOf_eq_none.mp hstream] at hevents
    exact absurd rfl hevents
  | some stream =>
    rw [hstream] at hload
    simp only [hload]
    exact ⟨_, rfl⟩

/-! ## Replays -/

/-- Every event in the snapshot is within the bound, and where a name is empty, its number in the
stream is its number in the global sequence. -/
def Bounded (aggregateType aggregateId : String) (rows : Rows α μ) (toSequence : Option ℚ) : Prop :=
  ∀ e ∈ Rows.loadEvents rows aggregateType aggregateId 0,
    (∀ bound ∈ toSequence, (e.sequenceNumber : ℚ) ≤ bound) ∧
      (aggregateType = "" ∨ aggregateId = "" → e.sequenceNumber = e.version)

theorem within_iff {toSequence : Option ℚ} {e : StoredEvent α μ} : within toSequence e = true ↔
    ∀ bound ∈ toSequence, (e.sequenceNumber : ℚ) ≤ bound := by
  cases toSequence with
  | none => simp [within]
  | some bound => simp [within]

theorem within_down {toSequence : Option ℚ} {i j : Nat} (hle : i ≤ j)
    (h : (toSequence.all fun bound => (j : ℚ) ≤ bound) = true) :
    (toSequence.all fun bound => (i : ℚ) ≤ bound) = true := by
  cases toSequence with
  | none => rfl
  | some bound =>
    have hj : (j : ℚ) ≤ bound := of_decide_eq_true h
    exact decide_eq_true ((Nat.cast_le.mpr hle).trans hj)

variable {more : Rows α μ}

theorem streamEvents_split (rows more : Rows α μ) :
    streamEvents aggregateType aggregateId (rows ++ more) =
      streamEvents aggregateType aggregateId rows ++
        streamEvents aggregateType aggregateId more := by
  rw [streamEvents, eventsOf, List.map_append, List.filter_append]
  rfl

/-- The events of the stream after its version at the snapshot are those of the later rows. -/
theorem streamEvents_later (h : Numbered (rows ++ more)) :
    (streamEvents aggregateType aggregateId (rows ++ more)).filter
        ((streamEvents aggregateType aggregateId rows).length < ·.version) =
      streamEvents aggregateType aggregateId more := by
  have hnumbered : (streamEvents aggregateType aggregateId (rows ++ more)).map (·.version) = _ :=
    streamEvents_numbered h _ _
  rw [streamEvents_split] at hnumbered ⊢
  obtain ⟨hold, hnew⟩ := numbered_append hnumbered
  rw [List.filter_append, List.filter_eq_self.mpr fun e he => decide_eq_true (hnew e he)]
  refine (congrArg (· ++ _) (List.filter_eq_nil_iff.mpr fun e he => ?_)).trans (List.nil_append _)
  have hle := (le_length_of_numbered hold he).2
  simp only [decide_eq_true_eq]
  omega

theorem loadEvents_all (h : Numbered rows) : Rows.loadEvents rows aggregateType aggregateId 0 =
    streamEvents aggregateType aggregateId rows := by
  rw [← Int.ofNat_zero, loadEvents_stream h]
  refine List.filter_eq_self.mpr fun e he => decide_eq_true ?_
  exact (le_length_of_numbered (streamEvents_numbered h _ _) he).1

/-- The replay of a stream with names. -/
theorem selected_named_iff (h : Numbered (rows ++ more))
    (hnames : ¬(aggregateType = "" ∨ aggregateId = "")) (toSequence : Option ℚ) :
    streamEvents aggregateType aggregateId rows ++
        selected aggregateType aggregateId (rows ++ more)
          (streamEvents aggregateType aggregateId rows).length toSequence =
      selected aggregateType aggregateId (rows ++ more) 0 toSequence ↔
    ∀ e ∈ streamEvents aggregateType aggregateId rows, within toSequence e = true := by
  rw [selected, selected, if_neg hnames, if_neg hnames, loadEvents_stream h, streamEvents_later h,
    Int.ofNat_zero, loadEvents_all h, streamEvents_split, List.filter_append, List.append_left_inj,
    eq_comm, List.filter_eq_self]

theorem getAllEvents_all (h : Numbered rows) : Rows.getAllEvents rows (0 : Nat) =
    eventsOf rows := by
  rw [getAllEvents_sequence h]
  refine List.filter_eq_self.mpr fun e he => decide_eq_true ?_
  exact (le_length_of_numbered (eventsOf_numbered h) he).1

/-- The numbers of the events within a bound. -/
theorem within_numbered (h : Numbered rows) (toSequence : Option ℚ) :
    ((eventsOf rows).filter (within toSequence)).map (·.sequenceNumber) =
      List.range' 1 ((eventsOf rows).filter (within toSequence)).length := by
  obtain ⟨m, hm⟩ := filter_range' (p := fun n => toSequence.all fun bound => (n : ℚ) ≤ bound)
    (fun _ _ hle => within_down hle) (eventsOf rows).length
  rw [← eventsOf_numbered h, List.filter_map] at hm
  have hlength := congrArg List.length hm
  rw [List.length_map, List.length_range'] at hlength
  rw [← hlength] at hm
  exact hm

/-- Where the events of the stream have the first numbers, they are the first events. -/
theorem streamEvents_first (h : Numbered (rows ++ more)) (hrows : Numbered rows)
    (hfirst : ∀ e ∈ streamEvents aggregateType aggregateId rows, e.sequenceNumber = e.version) :
    (eventsOf (rows ++ more)).filter
        (·.sequenceNumber ≤ (streamEvents aggregateType aggregateId rows).length) =
      streamEvents aggregateType aggregateId rows := by
  have hversions := streamEvents_numbered hrows aggregateType aggregateId
  have hsame : streamEvents aggregateType aggregateId rows = (eventsOf rows).filter
      (·.sequenceNumber ≤ (streamEvents aggregateType aggregateId rows).length) := by
    refine filter_eq_first (eventsOf_numbered hrows) fun e he => ?_
    rw [hfirst e he]
    exact (le_length_of_numbered hversions he).2
  have hlength : (streamEvents aggregateType aggregateId rows).length ≤ (eventsOf rows).length :=
    List.length_filter_le _ _
  have hnumbered := eventsOf_numbered h
  rw [eventsOf, List.map_append] at hnumbered ⊢
  have hlater := (numbered_append hnumbered).2
  rw [List.filter_append, ← eventsOf, ← hsame]
  refine (congrArg (_ ++ ·) (List.filter_eq_nil_iff.mpr fun e he => ?_)).trans (List.append_nil _)
  have hlt : (eventsOf rows).length < e.sequenceNumber := hlater e he
  simp only [decide_eq_true_eq]
  omega

/-- The replay of a stream with an empty name, which is one of all streams. -/
theorem selected_unnamed_iff (h : Numbered (rows ++ more)) (hrows : Numbered rows)
    (hnames : aggregateType = "" ∨ aggregateId = "") (toSequence : Option ℚ) :
    streamEvents aggregateType aggregateId rows ++
        selected aggregateType aggregateId (rows ++ more)
          (streamEvents aggregateType aggregateId rows).length toSequence =
      selected aggregateType aggregateId (rows ++ more) 0 toSequence ↔
    ∀ e ∈ streamEvents aggregateType aggregateId rows,
      within toSequence e = true ∧ e.sequenceNumber = e.version := by
  have hversions := streamEvents_numbered hrows aggregateType aggregateId
  rw [selected, selected, if_pos hnames, if_pos hnames, getAllEvents_all h,
    getAllEvents_sequence h]
  constructor
  · intro heq
    have hnumbered := within_numbered h toSequence
    rw [← heq] at hnumbered
    have hsequence := (numbered_append hnumbered).1
    rw [← hversions] at hsequence
    intro e he
    refine ⟨?_, List.map_inj_left.mp hsequence e he⟩
    have hmem : e ∈ (eventsOf (rows ++ more)).filter (within toSequence) :=
      heq ▸ List.mem_append_left _ he
    exact (List.mem_filter.mp hmem).2
  · intro hall
    have hfirst := streamEvents_first h hrows fun e he => (hall e he).2
    have hsorted := (sorted_of_numbered (eventsOf_numbered h)).sublist
      (List.filter_sublist (p := within toSequence))
    have hwithin : (streamEvents aggregateType aggregateId rows).filter (within toSequence) =
        streamEvents aggregateType aggregateId rows :=
      List.filter_eq_self.mpr fun e he => (hall e he).1
    have hold : ((eventsOf (rows ++ more)).filter (within toSequence)).filter
        (·.sequenceNumber ≤ (streamEvents aggregateType aggregateId rows).length) =
          streamEvents aggregateType aggregateId rows := by
      rw [List.filter_comm, hfirst, hwithin]
    rw [List.filter_comm]
    have hsplit := filter_append_filter hsorted
      (streamEvents aggregateType aggregateId rows).length
    rwa [hold] at hsplit

theorem selected_iff (h : Numbered (rows ++ more)) (hrows : Numbered rows)
    (toSequence : Option ℚ) :
    streamEvents aggregateType aggregateId rows ++
        selected aggregateType aggregateId (rows ++ more)
          (streamEvents aggregateType aggregateId rows).length toSequence =
      selected aggregateType aggregateId (rows ++ more) 0 toSequence ↔
    Bounded aggregateType aggregateId rows toSequence := by
  rw [Bounded, loadEvents_all hrows]
  by_cases hnames : aggregateType = "" ∨ aggregateId = ""
  · rw [selected_unnamed_iff h hrows hnames]
    refine forall₂_congr fun e _ => ?_
    rw [within_iff]
    exact and_congr_right fun _ => ⟨fun hsame _ => hsame, fun hsame => hsame hnames⟩
  · rw [selected_named_iff h hnames]
    refine forall₂_congr fun e _ => ?_
    rw [within_iff]
    exact ⟨fun hin => ⟨hin, fun hempty => absurd hempty hnames⟩, fun hin => hin.1⟩

/-- Appending every event to a list gives the list. -/
theorem foldl_snoc (events init : List β) :
    events.foldl (fun state event => state ++ [event]) init = init ++ events := by
  induction events generalizing init with
  | nil => exact (List.append_nil _).symm
  | cons event events ih => rw [List.foldl_cons, ih, List.append_assoc, List.singleton_append]

/-- A snapshot is taken of the state that the events of a stream have led to, and more events are
appended. For every reducer the replay from the snapshot gives the state of the whole replay,
exactly if every event in the snapshot is within the bound, and is numbered as in its stream where a
name is empty. -/
theorem snapshot_replay_iff (registry : Registry α μ) (pre post : List (Append α μ))
    (aggregateType aggregateId : String) (toSequence : Option ℚ) :
    (∀ (T : Type) (empty : T) (reducer : T → StoredEvent α μ → T)
        (snapshots : Table (EventSnapshot.streamId (T := T))) (db : Database α μ T),
      createSnapshot aggregateType aggregateId
          ((Rows.loadEvents (run Rows.appendEvent [] pre) aggregateType aggregateId 0).foldl
            reducer empty) ⟨run Rows.appendEvent [] pre, snapshots⟩ = .ok db →
        replayWithSnapshot registry empty aggregateType aggregateId reducer (upTo toSequence)
            { db with events := run Rows.appendEvent db.events post } =
          replayToState registry aggregateType aggregateId empty reducer (upTo toSequence)
            (run Rows.appendEvent db.events post)) ↔
      Bounded aggregateType aggregateId (run Rows.appendEvent [] pre) toSequence := by
  obtain ⟨hbefore, -⟩ := run_rows (represents_empty (α := α) (μ := μ)).toNumbered pre
  obtain ⟨hafter, more, hmore⟩ := run_rows hbefore post
  generalize run Rows.appendEvent ([] : Rows α μ) pre = rows at hbefore hafter hmore ⊢
  rw [hmore] at hafter
  rw [← selected_iff hafter hbefore, loadEvents_all hbefore]
  have hfull : ∀ {T : Type} (empty : T) (reducer : T → StoredEvent α μ → T),
      replayToState registry aggregateType aggregateId empty reducer (upTo toSequence)
          (rows ++ more) =
        (selected aggregateType aggregateId (rows ++ more) 0 toSequence).foldl reducer empty :=
    fun empty reducer => replayToState_eq toSequence 0 none rfl empty reducer
  have hsnapshot : ∀ {T : Type} {empty : T} {reducer : T → StoredEvent α μ → T}
      {snapshots : Table (EventSnapshot.streamId (T := T))} {db : Database α μ T},
      createSnapshot aggregateType aggregateId
          ((streamEvents aggregateType aggregateId rows).foldl reducer empty)
          ⟨rows, snapshots⟩ = .ok db →
        db.events = rows ∧
          replayWithSnapshot registry empty aggregateType aggregateId reducer (upTo toSequence)
              { db with events := rows ++ more } =
            (streamEvents aggregateType aggregateId rows ++
              selected aggregateType aggregateId (rows ++ more)
                (streamEvents aggregateType aggregateId rows).length toSequence).foldl reducer
                  empty := by
    intro T empty reducer snapshots db hcreate
    obtain ⟨hevents, snapshot, hget, hversion, hstate⟩ := createSnapshot_ok hbefore hcreate
    refine ⟨hevents, ?_⟩
    have hget' : getSnapshot { db with events := rows ++ more } aggregateType aggregateId =
      some snapshot := hget
    rw [replayWithSnapshot, hget', List.foldl_append, ← hstate, ← hversion]
    exact replayToState_eq toSequence snapshot.version (some snapshot.version) rfl snapshot.state
      reducer
  constructor
  · intro hall
    by_cases hevents : streamEvents aggregateType aggregateId rows = []
    · rw [hevents]
      rfl
    · have hcreate := createSnapshot_exists hbefore hevents
        ((streamEvents aggregateType aggregateId rows).foldl
          (fun state event => state ++ [event]) []) ∅
      obtain ⟨db, hcreate⟩ := hcreate
      obtain ⟨hdb, hreplay⟩ := hsnapshot hcreate
      have hagree := hall (List (StoredEvent α μ)) [] (fun state event => state ++ [event]) ∅ db
        hcreate
      rw [hdb, hmore, hreplay, hfull, foldl_snoc, foldl_snoc] at hagree
      exact hagree
  · intro hsame T empty reducer snapshots db hcreate
    obtain ⟨hevents, hreplay⟩ := hsnapshot hcreate
    rw [hevents, hmore, hreplay, hsame, hfull]

/-- Two payments are created and the first one is executed. -/
def payments : List (Append Unit Unit) :=
  [paymentCreated "pay-1" none, paymentCreated "pay-2" none,
    { paymentCreated "pay-1" none with type := "payment.executed" }]

/-- The number of events, as a state. -/
def counted (state : Nat) (_ : StoredEvent Unit Unit) : Nat := state + 1

/-- The replay of the first payment up to the second event of all counts one event, and from the
snapshot of its two events it counts both. -/
theorem snapshot_beyond_bound :
    (Rows.loadEvents (run Rows.appendEvent [] payments) "payment" "pay-1" 0).foldl counted 0 = 2 ∧
      (createSnapshot "payment" "pay-1" 2 ⟨run Rows.appendEvent [] payments, ∅⟩).toOption.map
        (replayWithSnapshot (fun _ => none) 0 "payment" "pay-1" counted (upTo (some 2))) = some 2 ∧
      replayToState (fun _ => none) "payment" "pay-1" 0 counted (upTo (some 2))
        (run Rows.appendEvent [] payments) = 1 := by
  decide +kernel

end EventReplay
