import AgenticPay.Transaction
import AgenticPay.EventStore
import Mathlib.Data.List.Dedup

/-!
# The two event stores

The store in the database answers as the one in memory does and lists the same, except for two
things. It takes any expected version of a stream that has no events, and it finds the streams by
cutting their ids at the colons, so a name with a colon is lost.
-/
namespace EventStore

open Records Transaction

variable {α μ : Type} {rows : Rows α μ} {r : Row α μ} {m : Memory α μ} {c : Append α μ}
  {key aggregateType aggregateId : String}

/-- The rows of a stream. -/
def Rows.ofStream (rows : Rows α μ) (key : String) : Rows α μ := rows.filter (·.streamId = key)

/-- The stream with these rows. -/
def streamOf (key : String) (rows : Rows α μ) : Option (EventStream α μ) :=
  match rows.head?, rows.getLast? with
  | some first, some last =>
    some ⟨key, first.aggregateId, first.aggregateType, rows.length, rows.map Row.event,
      first.createdAt, last.createdAt⟩
  | _, _ => none

/-- The rows are numbered from one, and so are those of each stream. -/
structure Numbered (rows : Rows α μ) : Prop where
  sequence : rows.map (·.sequenceNumber) = List.range' 1 rows.length
  versions : ∀ key, (rows.ofStream key).map (·.version) = List.range' 1 (rows.ofStream key).length
  keys : ∀ r ∈ rows, r.streamId = streamKey r.aggregateType r.aggregateId

/-! ## Lists that are numbered from one -/

section Numbers

variable {β : Type} {l : List β} {f : β → Nat} {a : β}

theorem le_length_of_numbered (h : l.map f = List.range' 1 l.length) (ha : a ∈ l) :
    1 ≤ f a ∧ f a ≤ l.length := by
  have hmem : f a ∈ List.range' 1 l.length := h ▸ List.mem_map_of_mem ha
  obtain ⟨hone, hlt⟩ := List.mem_range'_1.mp hmem
  exact ⟨hone, by omega⟩

theorem sorted_of_numbered (h : l.map f = List.range' 1 l.length) :
    l.Pairwise fun a b => f a ≤ f b := by
  refine List.pairwise_map.mp ?_
  rw [h]
  exact List.pairwise_le_range'

/-- Sorting what is taken from such a list changes nothing. -/
theorem sort_of_numbered (h : l.map f = List.range' 1 l.length) (p : β → Bool) :
    (l.filter p).insertionSort (fun a b => f a ≤ f b) = l.filter p :=
  ((sorted_of_numbered h).sublist List.filter_sublist).insertionSort_eq

/-- The first one in descending order has the last number. -/
theorem head_sort_of_numbered (h : l.map f = List.range' 1 l.length)
    (ha : (l.insertionSort fun a b => f b ≤ f a).head? = some a) : f a = l.length := by
  obtain ⟨rest, hsort⟩ := List.head?_eq_some_iff.mp ha
  have hperm := List.perm_insertionSort (fun a b => f b ≤ f a) l
  have hmem : a ∈ l := hperm.subset (hsort ▸ List.mem_cons_self)
  obtain ⟨hone, hle⟩ := le_length_of_numbered h hmem
  have hlast : l.length ∈ l.map f := by
    rw [h]
    exact List.mem_range'_1.mpr ⟨by omega, by omega⟩
  obtain ⟨b, hb, hnumber⟩ := List.mem_map.mp hlast
  have : Std.Total fun a b : β => f b ≤ f a := ⟨fun a b => Nat.le_total (f b) (f a)⟩
  have : IsTrans β fun a b => f b ≤ f a := ⟨fun _ _ _ hab hbc => hbc.trans hab⟩
  have hsorted := List.pairwise_insertionSort (fun a b => f b ≤ f a) l
  rw [hsort] at hsorted
  have hbsort : b ∈ a :: rest := hsort ▸ hperm.symm.subset hb
  obtain rfl | hrest := List.mem_cons.mp hbsort
  · exact hnumber
  · have hba := List.rel_of_pairwise_cons hsorted hrest
    omega

theorem last_of_numbered (h : l.map f = List.range' 1 l.length) (ha : l.getLast? = some a) :
    f a = l.length := by
  obtain ⟨init, rfl⟩ := List.getLast?_eq_some_iff.mp ha
  rw [List.map_append, List.map_singleton, List.length_append, List.length_singleton,
    List.range'_concat, Nat.one_mul] at h
  rw [List.length_append, List.length_singleton]
  have hlast := (List.append_inj' h rfl).2
  rw [List.singleton_inj.mp hlast, Nat.add_comm]

theorem max_of_numbered (h : l.map f = List.range' 1 l.length) :
    ((l.map f).max?).getD 0 = l.length := by
  cases l with
  | nil => rfl
  | cons a l =>
    have hmax : ((a :: l).map f).max? = some (a :: l).length := by
      rw [h]
      refine List.max?_eq_some_iff.mpr ⟨List.mem_range'_1.mpr ⟨by simp, by omega⟩, ?_⟩
      intro b hb
      have hlt := (List.mem_range'_1.mp hb).2
      omega
    rw [hmax, Option.getD_some]

/-- One more at the end, with the next number. -/
theorem numbered_snoc (h : l.map f = List.range' 1 l.length) (ha : f a = l.length + 1) :
    (l ++ [a]).map f = List.range' 1 (l ++ [a]).length := by
  rw [List.map_append, h, List.map_singleton, ha, List.length_append, List.length_singleton,
    List.range'_concat, Nat.one_mul, Nat.add_comm l.length 1]

end Numbers

/-! ## Queries -/

theorem ofStream_snoc (rows : Rows α μ) (r : Row α μ) (key : String) :
    Rows.ofStream (rows ++ [r]) key =
      rows.ofStream key ++ if r.streamId = key then [r] else [] := by
  rw [Rows.ofStream, List.filter_append, Rows.ofStream]
  by_cases h : r.streamId = key
  · rw [if_pos h, List.filter_cons_of_pos (by simpa using h), List.filter_nil]
  · rw [if_neg h, List.filter_cons_of_neg (by simpa using h), List.filter_nil]

theorem Numbered.maxSequence (h : Numbered rows) : (rows.maxSequence).getD 0 = rows.length :=
  max_of_numbered h.sequence

/-- The latest version of a stream is the number of its events, if it has any. -/
theorem Numbered.findLatest (h : Numbered rows) (key : String) :
    (rows.findLatest key).map (·.version) =
      if rows.ofStream key = [] then none else some (rows.ofStream key).length := by
  cases hlatest : rows.findLatest key with
  | none =>
    have hnone : (rows.ofStream key).insertionSort (fun a b => b.version ≤ a.version) = [] :=
      List.head?_eq_none_iff.mp hlatest
    have hperm := List.perm_insertionSort (fun a b => b.version ≤ a.version) (rows.ofStream key)
    rw [hnone] at hperm
    rw [if_pos hperm.nil_eq.symm]
    rfl
  | some latest =>
    have hversion := head_sort_of_numbered (h.versions key) hlatest
    have hmem : latest ∈ rows.ofStream key :=
      (List.perm_insertionSort _ _).subset (List.mem_of_head? hlatest)
    rw [if_neg (List.ne_nil_of_mem hmem), Option.map_some, hversion]

theorem Numbered.nextVersion (h : Numbered rows) (key : String) :
    (rows.findLatest key).elim 1 (·.version + 1) = (rows.ofStream key).length + 1 := by
  have hlatest := h.findLatest key
  cases hfound : rows.findLatest key with
  | none =>
    rw [hfound] at hlatest
    split at hlatest
    · rename_i hnil
      rw [hnil]
      rfl
    · cases hlatest
  | some latest =>
    rw [hfound] at hlatest
    split at hlatest
    · cases hlatest
    · exact congrArg (· + 1) (Option.some.inj hlatest)

theorem Numbered.inStream (h : Numbered rows) (key : String) (p : Row α μ → Bool) :
    rows.findMany (fun r => r.streamId = key ∧ p r) (·.version) =
      (rows.ofStream key).filter p := by
  have hfilter : rows.filter (fun r => r.streamId = key ∧ p r) = (rows.ofStream key).filter p := by
    rw [Rows.ofStream, List.filter_filter]
    refine List.filter_congr fun r _ => ?_
    rw [Bool.decide_and, Bool.and_comm, Bool.decide_eq_true]
  rw [Rows.findMany, hfilter]
  exact sort_of_numbered (h.versions key) p

theorem Numbered.bySequence (h : Numbered rows) (p : Row α μ → Bool) :
    rows.findMany p (·.sequenceNumber) = rows.filter p :=
  sort_of_numbered h.sequence p

/-! ## Steps -/

/-- The rows hold what is kept in memory. -/
structure Represents (m : Memory α μ) (rows : Rows α μ) : Prop extends Numbered rows where
  events : m.globalSequence = rows.map Row.event
  streams : ∀ key, m.streams.get key = streamOf key (rows.ofStream key)

/-- An expected version, if there is one, is that of the stream. -/
def Expects (m : Memory α μ) (c : Append α μ) : Prop :=
  ∀ expected ∈ c.expectedVersion, (((m.streams.get c.key).map (·.version)).getD 0 : Nat) = expected

/-- The version that is expected of a stream without events is zero. -/
def StartsAtZero (m : Memory α μ) (c : Append α μ) : Prop :=
  m.streams.get c.key = none → ∀ expected ∈ c.expectedVersion, expected = 0

theorem checkVersion_ok {expectedVersion : Option ℚ} {version : Option Nat} {u : Unit} :
    checkVersion expectedVersion version = .ok u ↔
      ∀ expected ∈ expectedVersion, ∀ got ∈ version, (got : ℚ) = expected := by
  cases expectedVersion with
  | none => simp [checkVersion]
  | some expected =>
    cases version with
    | none => simp [checkVersion]
    | some got => by_cases h : (got : ℚ) = expected <;> simp [checkVersion, h]

/-- The event that a call appends. -/
def appended (rows : Rows α μ) (c : Append α μ) : StoredEvent α μ :=
  c.event ((rows.ofStream c.key).length + 1) (rows.length + 1)

theorem streamOf_eq_none : streamOf key rows = none ↔ rows = [] := by
  cases rows with
  | nil => exact iff_of_true rfl rfl
  | cons r rest =>
    refine iff_of_false ?_ (List.cons_ne_nil _ _)
    rw [streamOf, List.head?_cons, List.getLast?_cons]
    exact Option.some_ne_none _

theorem streamOf_version (key : String) (rows : Rows α μ) :
    ((streamOf key rows).map (·.version)).getD 0 = rows.length := by
  cases rows with
  | nil => rfl
  | cons r rest =>
    rw [streamOf, List.head?_cons, List.getLast?_cons]
    rfl

/-- A stream with one more event. -/
theorem streamOf_snoc (rows : Rows α μ) (r : Row α μ) (key : String) :
    streamOf key (rows ++ [r]) =
      let stream := (streamOf key rows).getD ⟨key, r.aggregateId, r.aggregateType, 0, [],
        r.createdAt, r.createdAt⟩
      some { stream with
        events := stream.events ++ [r.event]
        version := stream.version + 1
        updatedAt := r.createdAt } := by
  cases rows with
  | nil => rfl
  | cons first rest =>
    have hlast : (first :: rest ++ [r]).getLast? = some r := List.getLast?_concat
    simp only [streamOf, hlast]
    simp only [List.cons_append, List.head?_cons, List.getLast?_cons, Option.getD_some,
      List.length_append, List.length_cons, List.length_nil, List.map_cons, List.map_append,
      List.map_nil, Nat.zero_add]

theorem Numbered.snoc (h : Numbered rows) (c : Append α μ) :
    Numbered (rows ++ [Rows.create (appended rows c) c.now]) where
  sequence := numbered_snoc h.sequence rfl
  versions := by
    intro key
    rw [ofStream_snoc]
    split
    · rename_i hkey
      refine numbered_snoc (h.versions key) ?_
      rw [← hkey]
      rfl
    · rw [List.append_nil]
      exact h.versions key
  keys := by
    intro r hr
    obtain hold | hnew := List.mem_append.mp hr
    · exact h.keys r hold
    · rw [List.mem_singleton.mp hnew]
      rfl

theorem rows_append (h : Numbered rows) (c : Append α μ) :
    Rows.appendEvent c rows =
      (checkVersion c.expectedVersion ((rows.findLatest c.key).map (·.version))).map fun _ =>
        (appended rows c, rows ++ [Rows.create (appended rows c) c.now]) := by
  have hversion := h.nextVersion c.key
  have hsequence := h.maxSequence
  unfold Rows.appendEvent appended
  simp only [hversion, hsequence]
  cases checkVersion c.expectedVersion ((rows.findLatest c.key).map (·.version)) with
  | error conflict => rfl
  | ok u => rfl

theorem streamOf_key {stream : EventStream α μ} (h : streamOf key rows = some stream) :
    stream.streamId = key := by
  cases rows with
  | nil => cases h
  | cons first rest =>
    rw [streamOf, List.head?_cons, List.getLast?_cons] at h
    cases h
    rfl

/-- The stream of a call that is accepted, after it. -/
def storedStream (m : Memory α μ) (rows : Rows α μ) (c : Append α μ) : EventStream α μ :=
  let stream := (m.streams.get c.key).getD
    ⟨c.key, c.aggregateId, c.aggregateType, 0, [], c.now, c.now⟩
  { stream with
    events := stream.events ++ [appended rows c]
    version := (rows.ofStream c.key).length + 1
    updatedAt := c.now }

def stored (m : Memory α μ) (rows : Rows α μ) (c : Append α μ) : Memory α μ :=
  ⟨m.streams.set (storedStream m rows c), m.globalSequence ++ [appended rows c]⟩

theorem Represents.version (h : Represents m rows) (c : Append α μ) :
    ((m.streams.get c.key).getD
      ⟨c.key, c.aggregateId, c.aggregateType, 0, [], c.now, c.now⟩).version =
        (rows.ofStream c.key).length := by
  have hversion := streamOf_version c.key (rows.ofStream c.key)
  rw [← h.streams c.key] at hversion
  cases hget : m.streams.get c.key with
  | none =>
    rw [hget] at hversion
    exact hversion
  | some stream =>
    rw [hget] at hversion
    exact hversion

theorem memory_append (h : Represents m rows) (c : Append α μ) :
    Memory.appendEvent c m =
      (checkVersion c.expectedVersion (some (rows.ofStream c.key).length)).map fun _ =>
        (appended rows c, stored m rows c) := by
  have hlength : m.globalSequence.length = rows.length := by rw [h.events, List.length_map]
  unfold Memory.appendEvent stored storedStream appended
  simp only [h.version c, hlength]
  cases checkVersion c.expectedVersion (some (rows.ofStream c.key).length) with
  | error conflict => rfl
  | ok u => rfl

theorem streamOf_stored (h : Represents m rows) (c : Append α μ) :
    streamOf c.key (rows.ofStream c.key ++ [Rows.create (appended rows c) c.now]) =
      some (storedStream m rows c) := by
  have hsnoc := streamOf_snoc (rows.ofStream c.key) (Rows.create (appended rows c) c.now) c.key
  rw [← h.streams c.key] at hsnoc
  rw [storedStream, ← h.version c]
  exact hsnoc

theorem Represents.append (h : Represents m rows) (c : Append α μ) :
    Represents (stored m rows c) (rows ++ [Rows.create (appended rows c) c.now]) where
  toNumbered := h.toNumbered.snoc c
  events := by
    rw [stored, h.events, List.map_append]
    rfl
  streams := by
    intro key
    have hstored := streamOf_stored h c
    have hkey := streamOf_key hstored
    simp only [stored]
    rw [Table.get_set, ofStream_snoc, hkey]
    by_cases he : key = c.key
    · subst he
      have hrow : (Rows.create (appended rows c) c.now).streamId = c.key := rfl
      rw [if_pos rfl, if_pos hrow]
      exact hstored.symm
    · have hne : (Rows.create (appended rows c) c.now).streamId ≠ key := fun hrow => he hrow.symm
      rw [if_neg he, if_neg hne, List.append_nil]
      exact h.streams key

/-! ## Answers -/

/-- The expected version, where there is one, is not that of a stream that has no events yet, or it
is zero. -/
theorem startsAtZero_iff (h : Represents m rows) (c : Append α μ) : StartsAtZero m c ↔
    checkVersion c.expectedVersion (some (rows.ofStream c.key).length) =
      checkVersion c.expectedVersion ((rows.findLatest c.key).map (·.version)) := by
  have hnone : m.streams.get c.key = none ↔ rows.ofStream c.key = [] := by
    rw [h.streams c.key]
    exact streamOf_eq_none
  rw [h.toNumbered.findLatest, StartsAtZero, hnone]
  by_cases hnil : rows.ofStream c.key = []
  · rw [if_pos hnil, hnil]
    cases c.expectedVersion with
    | none => simp [checkVersion]
    | some expected =>
      by_cases hzero : expected = 0
      · simp [checkVersion, hzero]
      · simp [checkVersion, hzero, Ne.symm hzero]
  · rw [if_neg hnil]
    exact iff_of_true (fun he => absurd he hnil) rfl

theorem alike : Alike (Memory.appendEvent (α := α) (μ := μ)) Rows.appendEvent Represents
    StartsAtZero where
  answers := by
    intro m rows c h hzero
    rw [answer, answer, memory_append h, rows_append h.toNumbered,
      (startsAtZero_iff h c).mp hzero]
    cases checkVersion c.expectedVersion ((rows.findLatest c.key).map (·.version)) with
    | error conflict => rfl
    | ok u => rfl
  related := by
    intro m rows c h hzero
    have hcheck := (startsAtZero_iff h c).mp hzero
    have hmemory := memory_append h c
    have hrows := rows_append h.toNumbered c
    rw [hcheck] at hmemory
    cases hversion : checkVersion c.expectedVersion ((rows.findLatest c.key).map (·.version)) with
    | error conflict =>
      rw [hversion] at hmemory hrows
      rw [commit_of_error hmemory, commit_of_error hrows]
      exact h
    | ok u =>
      rw [hversion] at hmemory hrows
      rw [commit_of_ok hmemory, commit_of_ok hrows]
      exact h.append c
  differ := by
    intro m rows c h hanswer
    refine (startsAtZero_iff h c).mpr ?_
    rw [answer, answer, memory_append h, rows_append h.toNumbered] at hanswer
    cases hmemory : checkVersion c.expectedVersion (some (rows.ofStream c.key).length) with
    | error conflict =>
      cases hrows : checkVersion c.expectedVersion ((rows.findLatest c.key).map (·.version)) with
      | error conflict' =>
        rw [hmemory, hrows] at hanswer
        exact congrArg Except.error (Except.error.inj hanswer)
      | ok u =>
        rw [hmemory, hrows] at hanswer
        cases hanswer
    | ok u =>
      cases hrows : checkVersion c.expectedVersion ((rows.findLatest c.key).map (·.version)) with
      | error conflict =>
        rw [hmemory, hrows] at hanswer
        cases hanswer
      | ok u' => rfl

theorem represents_empty : Represents ({} : Memory α μ) [] where
  sequence := rfl
  versions _ := rfl
  keys _ hr := absurd hr List.not_mem_nil
  events := rfl
  streams _ := rfl

/-! ## Listings -/

/-- The store in the database lists what the one in memory lists, the streams in any order. -/
structure Lists (distinct : Distinct) (m : Memory α μ) (rows : Rows α μ) : Prop where
  loadEvents : ∀ aggregateType aggregateId fromVersion,
    m.loadEvents aggregateType aggregateId fromVersion =
      Rows.loadEvents rows aggregateType aggregateId fromVersion
  getAllEvents : ∀ fromSequence, m.getAllEvents fromSequence = Rows.getAllEvents rows fromSequence
  getEventsByType : ∀ type, m.getEventsByType type = Rows.getEventsByType rows type
  getAllStreams : m.getAllStreams.Perm (Rows.getAllStreams distinct rows)

theorem streamOf_events (key : String) (rows : Rows α μ) :
    ((streamOf key rows).map (·.events)).getD [] = rows.map Row.event := by
  cases rows with
  | nil => rfl
  | cons first rest =>
    rw [streamOf, List.head?_cons, List.getLast?_cons]
    rfl

theorem loadEvents_eq (h : Represents m rows) (aggregateType aggregateId : String)
    (fromVersion : Int) : m.loadEvents aggregateType aggregateId fromVersion =
      Rows.loadEvents rows aggregateType aggregateId fromVersion := by
  have hevents := streamOf_events (streamKey aggregateType aggregateId)
    (rows.ofStream (streamKey aggregateType aggregateId))
  rw [← h.streams] at hevents
  have hrows := h.toNumbered.inStream (streamKey aggregateType aggregateId)
    fun r => fromVersion < r.version
  simp only [decide_eq_true_eq] at hrows
  rw [Memory.loadEvents, Rows.loadEvents, hrows]
  cases hget : m.streams.get (streamKey aggregateType aggregateId) with
  | none =>
    rw [hget] at hevents
    have hnil : rows.ofStream (streamKey aggregateType aggregateId) = [] :=
      List.map_eq_nil_iff.mp hevents.symm
    rw [hnil]
    rfl
  | some stream =>
    rw [hget, Option.map_some, Option.getD_some] at hevents
    simp only
    rw [hevents, List.filter_map]
    rfl

theorem getAllEvents_eq (h : Represents m rows) (fromSequence : Int) :
    m.getAllEvents fromSequence = Rows.getAllEvents rows fromSequence := by
  rw [Memory.getAllEvents, Rows.getAllEvents, h.toNumbered.bySequence, h.events, List.filter_map]
  rfl

theorem getEventsByType_eq (h : Represents m rows) (type : String) :
    m.getEventsByType type = Rows.getEventsByType rows type := by
  rw [Memory.getEventsByType, Rows.getEventsByType, h.toNumbered.bySequence, h.events,
    List.filter_map]
  rfl

/-! ## Streams -/

theorem toList_streamKey (aggregateType aggregateId : String) :
    (streamKey aggregateType aggregateId).toList =
      aggregateType.toList ++ ':' :: aggregateId.toList := by
  rw [streamKey, String.toList_append, String.toList_append, List.append_assoc]
  rfl

/-- An id is cut where its two names meet, if they have no colon. -/
theorem splitId_streamKey (htype : ':' ∉ aggregateType.toList) (hid : ':' ∉ aggregateId.toList) :
    Rows.splitId (streamKey aggregateType aggregateId) = (aggregateType, aggregateId) := by
  simp only [Rows.splitId]
  rw [toList_streamKey, List.splitOn_append_cons_self_of_not_mem htype,
    List.splitOn_eq_singleton hid]
  simp only [List.map_cons, List.map_nil, String.ofList_toList]
  rfl

theorem not_mem_of_mem_splitOn {β : Type} [BEq β] [LawfulBEq β] {a : β} {l part : List β}
    (h : part ∈ l.splitOn a) : a ∉ part := by
  induction l generalizing part with
  | nil =>
    rw [List.splitOn_nil, List.mem_singleton] at h
    rw [h]
    exact List.not_mem_nil
  | cons b l ih =>
    rw [List.splitOn_cons_eq_if_modifyHead] at h
    split at h
    · obtain rfl | hrest := List.mem_cons.mp h
      · exact List.not_mem_nil
      · exact ih hrest
    · rename_i hne
      cases hparts : l.splitOn a with
      | nil => exact absurd hparts (List.splitOn_ne_nil a l)
      | cons head rest =>
        rw [hparts, List.modifyHead_cons] at h
        obtain rfl | hrest := List.mem_cons.mp h
        · intro hmem
          obtain rfl | hhead := List.mem_cons.mp hmem
          · exact hne (BEq.refl _)
          · exact ih (hparts ▸ List.mem_cons_self) hhead
        · exact ih (hparts ▸ List.mem_cons_of_mem _ hrest)

theorem getD_parts (streamId : String) (n : Nat) :
    ':' ∉ (((streamId.toList.splitOn ':').map String.ofList).getD n "undefined").toList := by
  rw [List.getD_eq_getElem?_getD, List.getElem?_map]
  cases hpart : (streamId.toList.splitOn ':')[n]? with
  | none => decide
  | some part =>
    rw [Option.map_some, Option.getD_some, String.toList_ofList]
    exact not_mem_of_mem_splitOn (List.mem_of_getElem? hpart)

/-- The names of an id that has one colon have none. -/
theorem no_colon_of_key {t i : String} (ht : ':' ∉ t.toList) (hi : ':' ∉ i.toList)
    (h : streamKey aggregateType aggregateId = streamKey t i) :
    ':' ∉ aggregateType.toList ∧ ':' ∉ aggregateId.toList := by
  have hcount := congrArg (List.count ':' ∘ String.toList) h
  simp only [Function.comp_apply, toList_streamKey, List.count_append, List.count_cons_self,
    List.count_eq_zero_of_not_mem ht, List.count_eq_zero_of_not_mem hi] at hcount
  exact ⟨List.count_eq_zero.mp (by omega), List.count_eq_zero.mp (by omega)⟩

/-- The two names of an event have no colon. -/
def Named (e : StoredEvent α μ) : Prop :=
  ':' ∉ e.aggregateType.toList ∧ ':' ∉ e.aggregateId.toList

theorem Numbered.loadStream (h : Numbered rows) (aggregateType aggregateId : String) :
    Rows.loadStream rows aggregateType aggregateId =
      (streamOf (streamKey aggregateType aggregateId)
        (rows.ofStream (streamKey aggregateType aggregateId))).map fun stream =>
          { stream with aggregateId := aggregateId, aggregateType := aggregateType } := by
  have hmany := h.inStream (streamKey aggregateType aggregateId) fun _ => true
  simp only [and_true, List.filter_true] at hmany
  have hversions := h.versions (streamKey aggregateType aggregateId)
  simp only [Rows.loadStream, hmany]
  generalize rows.ofStream (streamKey aggregateType aggregateId) = stream at hversions
  rw [streamOf]
  cases hlast : stream.getLast? with
  | none =>
    rw [List.getLast?_eq_none_iff.mp hlast]
    rfl
  | some last =>
    have hversion : last.version = stream.length := last_of_numbered hversions hlast
    cases stream.head? with
    | none => rfl
    | some first =>
      simp only [Option.map_some, hversion]

/-- Where no name has a colon, the streams are found under the parts of their ids. -/
theorem loadStream_of_named (h : Represents m rows) (hnamed : ∀ r ∈ rows, Named r.event)
    (hmem : r ∈ rows) :
    Rows.loadStream rows (Rows.splitId r.streamId).1 (Rows.splitId r.streamId).2 =
      m.streams.get r.streamId := by
  have hkey := h.keys r hmem
  obtain ⟨htype, hid⟩ : ':' ∉ r.aggregateType.toList ∧ ':' ∉ r.aggregateId.toList :=
    hnamed r hmem
  rw [hkey, splitId_streamKey htype hid, h.toNumbered.loadStream, h.streams, ← hkey, streamOf]
  cases hhead : (rows.ofStream r.streamId).head? with
  | none => rfl
  | some first =>
    obtain ⟨hfirst, hstream⟩ := List.mem_filter.mp (List.mem_of_head? hhead)
    obtain ⟨htype', hid'⟩ : ':' ∉ first.aggregateType.toList ∧ ':' ∉ first.aggregateId.toList :=
      hnamed first hfirst
    have hsame : streamKey first.aggregateType first.aggregateId =
        streamKey r.aggregateType r.aggregateId := by
      rw [← h.keys first hfirst, ← hkey]
      exact of_decide_eq_true hstream
    have hsplit := congrArg Rows.splitId hsame
    rw [splitId_streamKey htype' hid', splitId_streamKey htype hid] at hsplit
    obtain ⟨hnametype, hnameid⟩ := Prod.mk.inj hsplit
    cases (rows.ofStream r.streamId).getLast? with
    | none => rfl
    | some last =>
      simp only [Option.map_some, hnametype, hnameid]

theorem mem_streams (h : Represents m rows) {key : String} :
    key ∈ m.streams.records.map (·.streamId) ↔ key ∈ rows.map (·.streamId) := by
  have hget := h.streams key
  rw [← not_iff_not, ← Table.get_eq_none, hget, streamOf_eq_none, Rows.ofStream,
    List.filter_eq_nil_iff]
  simp only [decide_eq_true_eq, List.mem_map, not_exists, not_and]

theorem streams_perm_iff (h : Represents m rows) (distinct : Distinct) :
    m.getAllStreams.Perm (Rows.getAllStreams distinct rows) ↔ ∀ r ∈ rows, Named r.event := by
  constructor
  · intro hperm r hr
    obtain ⟨stream, hstream, hkey⟩ := List.mem_map.mp
      ((mem_streams h).mpr (List.mem_map_of_mem hr))
    obtain ⟨streamId, -, hload⟩ := List.mem_filterMap.mp (hperm.subset hstream)
    replace hload : Rows.loadStream rows (Rows.splitId streamId).1 (Rows.splitId streamId).2 =
      some stream := hload
    rw [h.toNumbered.loadStream] at hload
    obtain ⟨found, hfound, rfl⟩ := Option.map_eq_some_iff.mp hload
    have hfoundkey := streamOf_key hfound
    have hid : r.streamId = streamKey (Rows.splitId streamId).1 (Rows.splitId streamId).2 :=
      hkey.symm.trans hfoundkey
    exact no_colon_of_key (getD_parts streamId 0) (getD_parts streamId 1)
      ((h.keys r hr).symm.trans hid)
  · intro hnamed
    have hload : Rows.getAllStreams distinct rows =
        (distinct.ids (rows.map (·.streamId))).filterMap m.streams.get := by
      refine List.filterMap_congr fun streamId hmem => ?_
      obtain ⟨r, hr, rfl⟩ := List.mem_map.mp (distinct.mem_ids.mp hmem)
      exact loadStream_of_named h hnamed hr
    have hids : (m.streams.records.map (·.streamId)).Perm
        (distinct.ids (rows.map (·.streamId))) := by
      refine (List.perm_ext_iff_of_nodup m.streams.nodup (distinct.nodup _)).mpr fun key => ?_
      rw [distinct.mem_ids]
      exact mem_streams h
    rw [hload, Memory.getAllStreams, ← Table.filterMap_get m.streams]
    exact hids.filterMap _

theorem lists_iff (h : Represents m rows) (distinct : Distinct) :
    Lists distinct m rows ↔ ∀ e ∈ m.globalSequence, Named e := by
  have hstreams := streams_perm_iff h distinct
  rw [h.events, List.forall_mem_map, ← hstreams]
  exact ⟨fun hlists => hlists.getAllStreams, fun hperm =>
    ⟨loadEvents_eq h, getAllEvents_eq h, getEventsByType_eq h, hperm⟩⟩

/-! ## Runs -/

/-- A call that is accepted has two names without a colon. -/
def CallNamed (m : Memory α μ) (c : Append α μ) : Prop :=
  Expects m c → ':' ∉ c.aggregateType.toList ∧ ':' ∉ c.aggregateId.toList

/-- A call on a stream without events expects the version zero, if any, and a call that is accepted
has two names without a colon. -/
def Plain (m : Memory α μ) (c : Append α μ) : Prop := StartsAtZero m c ∧ CallNamed m c

theorem expects_iff (m : Memory α μ) (c : Append α μ) : Expects m c ↔
    checkVersion c.expectedVersion (some ((m.streams.get c.key).getD
      ⟨c.key, c.aggregateId, c.aggregateType, 0, [], c.now, c.now⟩).version) = .ok () := by
  rw [checkVersion_ok, Expects]
  cases m.streams.get c.key with
  | none => simp
  | some stream => simp

/-- A call that is accepted is the last event then, and no other call changes the memory. -/
theorem commit_globalSequence (m : Memory α μ) (c : Append α μ) :
    (Expects m c ∧ ∃ version, (commit Memory.appendEvent m c).globalSequence =
        m.globalSequence ++ [c.event version (m.globalSequence.length + 1)]) ∨
      ¬Expects m c ∧ commit Memory.appendEvent m c = m := by
  rw [expects_iff]
  cases hcheck : checkVersion c.expectedVersion (some ((m.streams.get c.key).getD
      ⟨c.key, c.aggregateId, c.aggregateType, 0, [], c.now, c.now⟩).version) with
  | error conflict =>
    refine .inr ⟨fun h => (by cases h), ?_⟩
    simp only [commit, Memory.appendEvent, hcheck]
    rfl
  | ok u =>
    refine .inl ⟨rfl, ?_⟩
    simp only [commit, Memory.appendEvent, hcheck]
    exact ⟨_, rfl⟩

theorem callNamed_iff (h : ∀ e ∈ m.globalSequence, Named e) (c : Append α μ) :
    CallNamed m c ↔ ∀ e ∈ (commit Memory.appendEvent m c).globalSequence, Named e := by
  obtain ⟨hexpects, version, hcommit⟩ | ⟨hnot, hcommit⟩ := commit_globalSequence m c
  · rw [hcommit, List.forall_mem_append, List.forall_mem_singleton]
    exact ⟨fun hnamed => ⟨h, hnamed hexpects⟩, fun hall _ => hall.2⟩
  · rw [hcommit]
    exact iff_of_true (fun hexpects => absurd hexpects hnot) h

/-- No event is lost. -/
theorem globalSequence_subset (m : Memory α μ) (cs : List (Append α μ)) :
    m.globalSequence ⊆ (run Memory.appendEvent m cs).globalSequence := by
  induction cs generalizing m with
  | nil => exact List.Subset.refl _
  | cons c cs ih =>
    have hcommit : m.globalSequence ⊆ (commit Memory.appendEvent m c).globalSequence := by
      obtain ⟨-, version, hcommit⟩ | ⟨-, hcommit⟩ := commit_globalSequence m c
      · rw [hcommit]
        exact List.subset_append_left _ _
      · rw [hcommit]
        exact List.Subset.refl _
    exact List.Subset.trans hcommit (ih _)

theorem along_callNamed_iff (cs : List (Append α μ)) :
    Along Memory.appendEvent CallNamed ({} : Memory α μ) cs ↔
      ∀ e ∈ (run Memory.appendEvent ({} : Memory α μ) cs).globalSequence, Named e := by
  rw [along_iff_stays (I := fun m => ∀ e ∈ m.globalSequence, Named e) (J := fun _ => True)
    (fun _ _ _ => trivial) (fun m c _ h => callNamed_iff h c) trivial
    fun e he => absurd he List.not_mem_nil]
  constructor
  · intro hall
    exact hall cs (List.prefix_refl cs)
  · rintro hall mid ⟨rest, rfl⟩ e he
    refine hall e ?_
    rw [run_append]
    exact globalSequence_subset _ rest he

/-- The two stores answer a sequence of calls alike, and list the same after it, exactly if every
call of it is plain. -/
theorem stores_agree_iff (distinct : Distinct) (calls : List (Append α μ)) :
    (answers Memory.appendEvent {} calls = answers Rows.appendEvent [] calls ∧
        Lists distinct (run Memory.appendEvent {} calls) (run Rows.appendEvent [] calls)) ↔
      Along Memory.appendEvent Plain {} calls := by
  rw [alike.answers_iff represents_empty]
  constructor
  · rintro ⟨hzero, hlists⟩
    have hrun := alike.run represents_empty hzero
    exact hzero.and ((along_callNamed_iff calls).mpr ((lists_iff hrun distinct).mp hlists))
  · intro hplain
    have hzero := hplain.imp fun _ _ h => h.1
    have hrun := alike.run represents_empty hzero
    exact ⟨hzero, (lists_iff hrun distinct).mpr
      ((along_callNamed_iff calls).mp (hplain.imp fun _ _ h => h.2))⟩

/-- The ids in the order in which they are last seen. -/
def lastSeen : Distinct where
  ids := List.dedup
  nodup := List.nodup_dedup
  mem_ids := List.mem_dedup

/-- The first event of a payment. -/
def paymentCreated (paymentId : String) (expectedVersion : Option ℚ) : Append Unit Unit :=
  ⟨"payment", paymentId, "payment.created", (), (), expectedVersion, "1b9d6bcd", 0⟩

theorem stores_differ :
    answers Memory.appendEvent {} [paymentCreated "pay-1" (some 5)] ≠
        answers Rows.appendEvent [] [paymentCreated "pay-1" (some 5)] ∧
      ¬Lists lastSeen (run Memory.appendEvent {} [paymentCreated "2024:pay-1" none])
        (run Rows.appendEvent [] [paymentCreated "2024:pay-1" none]) := by
  constructor
  · decide +kernel
  · intro hlists
    have hlength := hlists.getAllStreams.length_eq
    revert hlength
    decide +kernel

end EventStore
