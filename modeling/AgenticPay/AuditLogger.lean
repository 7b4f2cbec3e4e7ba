import AgenticPay.AuditChain
import AgenticPay.Transaction

/-!
# The immutable audit logger

The writes of overlapping calls come one after the other: each waits for a promise that the one
before it settles. A write reads the latest hash from the store, makes its entry, waits for the
store to append it, and adds it to the entries in memory whatever has become of that. A write that
cannot read the latest hash leaves a promise behind that no later write comes through.
-/
namespace ImmutableAudit

open Transaction

structure LogInput where
  actor : Option String
  action : String
  resource : String
  details : Option Record

/-- What becomes of an entry that is to be appended. A call that fails may have stored it. -/
inductive Appended where
  | stored
  | failed
  | failedStored
  deriving DecidableEq

/-- The entries, with the calls that wait for their turn and the entry that the store is to append.
Beside them the entries whose calls have succeeded, and the calls that have failed although no call
of the store was made for them. -/
structure Logger where
  inMemoryEntries : List ImmutableAuditLogEntry
  store : Option (List ImmutableAuditLogEntry)
  poisoned : Bool
  waiting : List LogInput
  appending : Option ImmutableAuditLogEntry
  returned : List ImmutableAuditLogEntry
  refused : List LogInput

/-- A call is made, the next write gets the latest hash or none, and the store has done with the
entry of the write. -/
inductive Act where
  | log (input : LogInput)
  | read (id timestamp : String) (fails : Bool)
  | append (result : Appended)

variable (host : Host)

def log (input : LogInput) (s : Logger) : Logger :=
  if s.poisoned then { s with refused := s.refused ++ [input] }
  else { s with waiting := s.waiting ++ [input] }

/-- The hash that the next entry is linked to. -/
def latestHash (s : Logger) : String :=
  ((s.store.bind (·.getLast?.map (·.hash))) <|> (s.inMemoryEntries.getLast?.map (·.hash))).getD
    AUDIT_GENESIS_HASH

def newEntry (id timestamp : String) (input : LogInput) (previousHash : String) :
    ImmutableAuditLogEntry where
  id
  timestamp
  actor := input.actor.getD "system"
  action := input.action
  resource := input.resource
  details := input.details.getD []
  previousHash
  hash := computeAuditHash host previousHash timestamp (input.actor.getD "system") input.action
    input.resource (input.details.getD [])

/-- The end of a write, and of its call. -/
def push (created : ImmutableAuditLogEntry) (s : Logger) : Logger :=
  { s with
    inMemoryEntries := s.inMemoryEntries ++ [created]
    appending := none
    returned := s.returned ++ [created] }

/-- The next write, up to its entry. Without a store it does not wait again. -/
def begin (id timestamp : String) (input : LogInput) (s : Logger) : Logger :=
  let created := newEntry host id timestamp input (latestHash s)
  match s.store with
  | none => push created s
  | some _ => { s with appending := some created }

/-- A read that fails makes its own call fail, and all that wait. -/
def read (id timestamp : String) (fails : Bool) (s : Logger) : Except Unit (Unit × Logger) :=
  match s.appending, s.waiting with
  | none, input :: rest =>
    if fails && s.store.isSome then
      .ok ((), { s with poisoned := true, waiting := [], refused := s.refused ++ rest })
    else .ok ((), begin host id timestamp input { s with waiting := rest })
  | _, _ => .error ()

def append (result : Appended) (s : Logger) : Except Unit (Unit × Logger) :=
  match s.appending with
  | none => .error ()
  | some created =>
    let store := if result = .failed then s.store else s.store.map (· ++ [created])
    .ok ((), push created { s with store })

def logger : System Act Logger Unit Unit
  | .log input, s => .ok ((), log input s)
  | .read id timestamp fails, s => read host id timestamp fails s
  | .append result, s => append result s

/-! ## What is to hold -/

/-- No call has failed for another one's store call, no entry of a call that has succeeded is
missing, both chains are valid, and no two entries come after the same hash. -/
structure Intact (s : Logger) : Prop where
  refused : s.refused = []
  returned : s.returned ⊆ s.inMemoryEntries
  memory : (verifyAuditChain host s.inMemoryEntries).valid = true
  stored : ∀ stored ∈ s.store, (verifyAuditChain host stored).valid = true
  memoryOnce : (s.inMemoryEntries.map (·.previousHash)).Nodup
  storedOnce : ∀ stored ∈ s.store, (stored.map (·.previousHash)).Nodup
  once : ∀ stored ∈ s.store, ∀ x ∈ s.inMemoryEntries, ∀ y ∈ stored,
    x.previousHash = y.previousHash → x = y

/-- No call is made after a read has failed, or waits when one fails, and whenever the store has
done with an entry, it holds as many entries as the memory, or none and has failed. -/
def Undisturbed (s : Logger) : Act → Prop
  | .log _ => s.poisoned = false
  | .read _ _ fails => (fails && s.store.isSome) = true → s.waiting.length ≤ 1
  | .append result => ∀ stored ∈ s.store,
    stored.length = s.inMemoryEntries.length ∨ stored.length = 0 ∧ result = .failed

instance (s : Logger) : (act : Act) → Decidable (Undisturbed s act)
  | .log _ => inferInstanceAs (Decidable (s.poisoned = false))
  | .read _ _ fails =>
    inferInstanceAs (Decidable ((fails && s.store.isSome) = true → s.waiting.length ≤ 1))
  | .append result => inferInstanceAs (Decidable (∀ stored ∈ s.store,
    stored.length = s.inMemoryEntries.length ∨ stored.length = 0 ∧ result = .failed))

def IsChain (entries : List ImmutableAuditLogEntry) : Prop :=
  ∃ head, HashChain.follow (links host) AUDIT_GENESIS_HASH entries = some head

/-- What all steps keep. -/
structure Linked (s : Logger) : Prop where
  memory : IsChain host s.inMemoryEntries
  stored : ∀ stored ∈ s.store, IsChain host stored
  begins : ∀ stored ∈ s.store, stored <+: s.inMemoryEntries ∨ s.inMemoryEntries = []
  appending : ∀ created ∈ s.appending, (links host).Fits (latestHash s) created
  returned : s.returned ⊆ s.inMemoryEntries
  refused : s.refused = []

variable {host} {s : Logger} {created : ImmutableAuditLogEntry} {id timestamp : String}
  {input : LogInput} {entries : List ImmutableAuditLogEntry} {result : Appended} {fails : Bool}

/-! ## Steps -/

/-- The hash of the last entry is the head of the chain. -/
theorem head_eq {head : String}
    (h : HashChain.follow (links host) AUDIT_GENESIS_HASH entries = some head) :
    (entries.getLast?.map (·.hash)).getD AUDIT_GENESIS_HASH = head := by
  cases entries using List.reverseRecOn with
  | nil => exact Option.some.inj h
  | append_singleton entries e =>
    rw [HashChain.follow_append] at h
    obtain ⟨mid, -, hlast⟩ := Option.bind_eq_some_iff.mp h
    rw [List.getLast?_append, List.getLast?_singleton, Option.some_or, Option.map_some]
    exact Option.some.inj (HashChain.follow_cons.mp hlast).2

theorem isChain_snoc (h : IsChain host entries)
    (hfits : (links host).Fits ((entries.getLast?.map (·.hash)).getD AUDIT_GENESIS_HASH) created) :
    IsChain host (entries ++ [created]) := by
  obtain ⟨head, hfollow⟩ := h
  rw [head_eq hfollow] at hfits
  exact ⟨_, HashChain.follow_snoc hfollow hfits⟩

theorem fits_newEntry (id timestamp : String) (input : LogInput) (previousHash : String) :
    (links host).Fits previousHash (newEntry host id timestamp input previousHash) :=
  ⟨rfl, rfl⟩

theorem linked_log (h : Linked host s) (hpoisoned : s.poisoned = false) :
    Linked host (log input s) := by
  rw [log, if_neg (by simp [hpoisoned])]
  exact ⟨h.memory, h.stored, h.begins, h.appending, h.returned, h.refused⟩

theorem returned_push (h : s.returned ⊆ s.inMemoryEntries) :
    (push created s).returned ⊆ (push created s).inMemoryEntries :=
  List.append_subset.mpr ⟨List.Subset.trans h (List.subset_append_left _ _),
    List.subset_append_right _ _⟩

/-- Without a store an entry is linked to the last one in memory. -/
theorem linked_begin (h : Linked host s) : Linked host (begin host id timestamp input s) := by
  rw [begin]
  split
  next hstore =>
    have hlatest : latestHash s =
        (s.inMemoryEntries.getLast?.map (·.hash)).getD AUDIT_GENESIS_HASH := by
      rw [latestHash, hstore]
      rfl
    have hnone : ∀ stored, stored ∉ s.store := by
      rw [hstore]
      exact fun _ hmem => absurd hmem (Option.not_mem_none _)
    refine ⟨isChain_snoc h.memory ?_, fun _ hmem => absurd hmem (hnone _),
      fun _ hmem => absurd hmem (hnone _), fun _ hmem => absurd hmem (Option.not_mem_none _),
      returned_push h.returned, h.refused⟩
    rw [← hlatest]
    exact fits_newEntry ..
  next =>
    refine ⟨h.memory, h.stored, h.begins, fun created hmem => ?_, h.returned, h.refused⟩
    obtain rfl := Option.some.inj hmem
    exact fits_newEntry ..

theorem linked_read (id timestamp : String) {rest : List LogInput} (h : Linked host s)
    (hnone : s.appending = none) (hwaiting : s.waiting = input :: rest)
    (hquiet : Undisturbed s (.read id timestamp fails)) :
    ∃ s', read host id timestamp fails s = .ok ((), s') ∧ Linked host s' := by
  rw [read, hnone, hwaiting]
  dsimp only
  split
  next hfails =>
    have hrest : rest = [] := by
      have hlength := hquiet hfails
      rw [hwaiting, List.length_cons] at hlength
      exact List.length_eq_zero_iff.mp (by omega)
    refine ⟨_, rfl, h.memory, h.stored, h.begins,
      fun _ hmem => absurd hmem (Option.not_mem_none _), h.returned, ?_⟩
    rw [hrest, List.append_nil]
    exact h.refused
  next =>
    exact ⟨_, rfl, linked_begin ⟨h.memory, h.stored, h.begins,
      fun _ hmem => absurd hmem (Option.not_mem_none _), h.returned, h.refused⟩⟩

/-- The store holds what the memory holds, or nothing. -/
theorem stored_cases (h : Linked host s) {stored : List ImmutableAuditLogEntry}
    (hstore : stored ∈ s.store)
    (hlength : stored.length = s.inMemoryEntries.length ∨ stored.length = 0 ∧ result = .failed) :
    stored = s.inMemoryEntries ∨ stored = [] ∧ result = .failed := by
  obtain hsame | ⟨hzero, hfailed⟩ := hlength
  · obtain hbegins | hempty := h.begins stored hstore
    · exact .inl (hbegins.eq_of_length hsame)
    · rw [hempty, List.length_nil] at hsame
      exact .inl ((List.length_eq_zero_iff.mp hsame).trans hempty.symm)
  · exact .inr ⟨List.length_eq_zero_iff.mp hzero, hfailed⟩

/-- Either way the entry that is to be appended is linked to the last one in memory. -/
theorem latestHash_memory {stored : List ImmutableAuditLogEntry} (hstore : s.store = some stored)
    (hcases : stored = s.inMemoryEntries ∨ stored = [] ∧ result = .failed) :
    latestHash s = (s.inMemoryEntries.getLast?.map (·.hash)).getD AUDIT_GENESIS_HASH := by
  rw [latestHash, hstore, Option.bind_some]
  obtain rfl | ⟨rfl, -⟩ := hcases
  · cases s.inMemoryEntries.getLast? <;> rfl
  · rfl

/-- What the store holds after an entry is the beginning of what the memory holds. -/
theorem stored_append (h : Linked host s)
    (hmemory : IsChain host (s.inMemoryEntries ++ [created]))
    (hquiet : Undisturbed s (.append result)) :
    ∀ stored ∈ if result = .failed then s.store else s.store.map (· ++ [created]),
      IsChain host stored ∧ stored <+: s.inMemoryEntries ++ [created] := by
  intro stored hmem
  split at hmem
  next =>
    refine ⟨h.stored stored hmem, ?_⟩
    obtain hsame | ⟨hempty, -⟩ := stored_cases h hmem (hquiet stored hmem)
    · rw [hsame]
      exact List.prefix_append _ _
    · rw [hempty]
      exact List.nil_prefix
  next hstored =>
    obtain ⟨before, hbefore, rfl⟩ := Option.map_eq_some_iff.mp hmem
    obtain hsame | ⟨-, hfailed⟩ := stored_cases h hbefore (hquiet before hbefore)
    · rw [hsame]
      exact ⟨hmemory, List.prefix_rfl⟩
    · exact absurd hfailed hstored

theorem latestHash_append (h : Linked host s) (hquiet : Undisturbed s (.append result)) :
    latestHash s = (s.inMemoryEntries.getLast?.map (·.hash)).getD AUDIT_GENESIS_HASH := by
  cases hstore : s.store with
  | none =>
    rw [latestHash, hstore]
    rfl
  | some stored => exact latestHash_memory hstore (stored_cases h hstore (hquiet stored hstore))

theorem linked_append (h : Linked host s) (hcreated : s.appending = some created)
    (hquiet : Undisturbed s (.append result)) :
    ∃ s', append result s = .ok ((), s') ∧ Linked host s' := by
  have hfits := h.appending created hcreated
  rw [latestHash_append h hquiet] at hfits
  have hmemory := isChain_snoc h.memory hfits
  have hstored := stored_append h hmemory hquiet
  rw [append, hcreated]
  exact ⟨_, rfl, hmemory, fun stored hmem => (hstored stored hmem).1,
    fun stored hmem => .inl (hstored stored hmem).2,
    fun _ hmem => absurd hmem (Option.not_mem_none _), returned_push h.returned, h.refused⟩

theorem linked_commit {act : Act} (h : Linked host s) (hquiet : Undisturbed s act) :
    Linked host (commit (logger host) s act) := by
  cases act with
  | log input => exact linked_log h hquiet
  | read id timestamp fails =>
    cases hcreated : s.appending with
    | some created => rwa [commit, logger, read, hcreated]
    | none =>
      cases hwaiting : s.waiting with
      | nil => rwa [commit, logger, read, hcreated, hwaiting]
      | cons input rest =>
        obtain ⟨s', hread, hlinked⟩ := linked_read id timestamp h hcreated hwaiting hquiet
        have hstep : logger host (.read id timestamp fails) s = .ok ((), s') := hread
        rwa [commit_of_ok hstep]
  | append result =>
    cases hcreated : s.appending with
    | none => rwa [commit, logger, append, hcreated]
    | some created =>
      obtain ⟨s', happend, hlinked⟩ := linked_append h hcreated hquiet
      have hstep : logger host (.append result) s = .ok ((), s') := happend
      rwa [commit_of_ok hstep]

/-! ## Hashes that do not come twice -/

/-- Other texts have other digests, no digest begins another one, and neither of a digest and the
genesis hash begins the other: what holds of SHA-256 as all digests have one length. -/
structure Distinct (sha256 : String → String) : Prop where
  injective : ∀ a b, sha256 a = sha256 b → a = b
  parted : ∀ a b r r', sha256 a ++ r = sha256 b ++ r' → sha256 a = sha256 b
  genesis : ∀ a r r', sha256 a ++ r ≠ AUDIT_GENESIS_HASH ++ r'

variable {head : String} {x y : ImmutableAuditLogEntry}

/-- The hash before an entry of a chain is the genesis hash or a digest. -/
theorem previous_digest
    (h : HashChain.follow (links host) AUDIT_GENESIS_HASH entries = some head) (hx : x ∈ entries) :
    x.previousHash = AUDIT_GENESIS_HASH ∨ ∃ text, x.previousHash = host.sha256 text := by
  cases entries using List.reverseRecOn with
  | nil => exact absurd hx List.not_mem_nil
  | append_singleton entries e =>
    obtain hfirst | ⟨y, -, hy⟩ := HashChain.previous_mem h x hx
    · exact .inl hfirst
    · exact .inr ⟨y.text host, hy⟩

theorem text_eq (entry : ImmutableAuditLogEntry) : entry.text host = entry.previousHash ++
    (entry.timestamp ++ (entry.actor ++ (entry.action ++
      (entry.resource ++ canonicalizeDetails host entry.details)))) := by
  simp only [ImmutableAuditLogEntry.text, hashedText, String.append_assoc]

/-- Entries with one digest come after one hash. -/
theorem previous_of_digest (hsha : Distinct host.sha256)
    (h : HashChain.follow (links host) AUDIT_GENESIS_HASH entries = some head) (hx : x ∈ entries)
    (hy : y ∈ entries) (hdigest : (links host).digest x = (links host).digest y) :
    x.previousHash = y.previousHash := by
  have htext := hsha.injective _ _ hdigest
  rw [text_eq, text_eq] at htext
  obtain hxfirst | ⟨a, ha⟩ := previous_digest h hx <;>
    obtain hyfirst | ⟨b, hb⟩ := previous_digest h hy
  · rw [hxfirst, hyfirst]
  · rw [hxfirst, hb] at htext
    exact absurd htext.symm (hsha.genesis b _ _)
  · rw [ha, hyfirst] at htext
    exact absurd htext (hsha.genesis a _ _)
  · rw [ha, hb] at htext
    rw [ha, hb]
    exact hsha.parted a b _ _ htext

theorem isChain_nodup (hsha : Distinct host.sha256) (h : IsChain host entries) :
    (entries.map (·.previousHash)).Nodup := by
  obtain ⟨head, hfollow⟩ := h
  refine HashChain.previous_nodup (L := links host)
    (fun x hx y hy => previous_of_digest hsha hfollow hx hy) (fun x _ hgenesis => ?_) hfollow
  exact hsha.genesis (x.text host) "" "" (congrArg (· ++ "") hgenesis)

theorem Linked.intact (hsha : Distinct host.sha256) (h : Linked host s) : Intact host s := by
  have honce := isChain_nodup hsha h.memory
  refine ⟨h.refused, h.returned, verifyAuditChain_valid.mpr h.memory,
    fun stored hmem => verifyAuditChain_valid.mpr (h.stored stored hmem), honce,
    fun stored hmem => isChain_nodup hsha (h.stored stored hmem),
    fun stored hmem x hx y hy heq => ?_⟩
  obtain hbegins | hempty := h.begins stored hmem
  · exact List.inj_on_of_nodup_map honce hx (hbegins.subset hy) heq
  · rw [hempty] at hx
    exact absurd hx List.not_mem_nil

/-! ## Runs -/

/-- A logger over a store, or over none. -/
def started (store : Option (List ImmutableAuditLogEntry)) : Logger :=
  ⟨[], store, false, [], none, [], []⟩

theorem linked_started {store : Option (List ImmutableAuditLogEntry)}
    (h : ∀ stored ∈ store, (verifyAuditChain host stored).valid = true) :
    Linked host (started store) where
  memory := ⟨AUDIT_GENESIS_HASH, rfl⟩
  stored stored hmem := verifyAuditChain_valid.mp (h stored hmem)
  begins _ _ := .inr rfl
  appending _ hmem := absurd hmem (Option.not_mem_none _)
  returned := List.Subset.refl _
  refused := rfl

/-- From a store that verifies, in every run that is not disturbed, all stays intact. -/
theorem logger_run {store : Option (List ImmutableAuditLogEntry)} {acts : List Act}
    (hsha : Distinct host.sha256)
    (hstore : ∀ stored ∈ store, (verifyAuditChain host stored).valid = true)
    (h : Along (logger host) Undisturbed (started store) acts) :
    Intact host (run (logger host) (started store) acts) :=
  (run_invariant (fun _ _ hlinked hquiet => linked_commit hlinked hquiet) (linked_started hstore)
    h).intact hsha

/-! ## Writes that succeed, and writes that fail -/

/-- The text with a mark before each letter and another one at its end. -/
def marked (text : List Char) : List Char := text.flatMap (['1', ·]) ++ ['2']

theorem marked_append_inj {s t r r' : List Char} (h : marked s ++ r = marked t ++ r') : s = t := by
  induction s generalizing t with
  | nil =>
    cases t with
    | nil => rfl
    | cons d t => exact absurd (List.cons.inj h).1 (by decide)
  | cons c s ih =>
    cases t with
    | nil => exact absurd (List.cons.inj h).1 (by decide)
    | cons d t =>
      obtain ⟨rfl, hrest⟩ := List.cons.inj (List.cons.inj h).2
      rw [ih hrest]

theorem marked_head (s r : List Char) : (marked s ++ r).head? ≠ some '0' := by
  cases s with
  | nil => exact nofun
  | cons c s => exact fun h => absurd (Option.some.inj h) (by decide)

theorem genesis_toList : AUDIT_GENESIS_HASH.toList = '0' :: List.replicate 63 '0' :=
  String.toList_ofList

/-- Texts that are marked in the place of digests, compared by their code points. -/
def markedHost : Host where
  sha256 text := String.ofList (marked text.toList)
  localeCompare a b := if a ≤ b then -1 else 1

theorem distinct_markedHost : Distinct markedHost.sha256 := by
  have htoList : ∀ a r, (markedHost.sha256 a ++ r).toList = marked a.toList ++ r.toList := by
    intro a r
    rw [markedHost, String.toList_append, String.toList_ofList]
  have hinj : ∀ a b r r', markedHost.sha256 a ++ r = markedHost.sha256 b ++ r' → a = b := by
    intro a b r r' h
    have hlists := congrArg String.toList h
    rw [htoList, htoList] at hlists
    exact String.toList_inj.mp (marked_append_inj hlists)
  refine ⟨fun a b h => hinj a b "" "" (congrArg (· ++ "") h), fun a b r r' h => ?_,
    fun a r r' h => ?_⟩
  · rw [hinj a b r r' h]
  · have hlists := congrArg String.toList h
    rw [htoList, String.toList_append, genesis_toList] at hlists
    exact marked_head _ _ (congrArg List.head? hlists)

def login : LogInput := ⟨none, "login", "session", none⟩

/-- Two overlapping calls, both of them written to the store. -/
def bothStored : List Act :=
  [.log login, .log login, .read "first" "2026" false, .append .stored, .read "second" "2026" false,
    .append .stored]

/-- Three calls one after the other, of which the store fails to append the second. -/
def appendFails : List Act :=
  [.log login, .read "first" "2026" false, .append .stored, .log login, .read "second" "2026" false,
    .append .failed, .log login, .read "third" "2026" false, .append .stored]

/-- Two calls one after the other; the first one cannot read the latest hash. -/
def readFails : List Act := [.log login, .read "first" "2026" true, .log login]

theorem bothStored_intact :
    Intact markedHost (run (logger markedHost) (started (some [])) bothStored) :=
  logger_run distinct_markedHost (by decide +kernel) (by decide +kernel)

/-- After an entry that is in memory only two entries come after one hash, and after a read that has
failed the next call fails. -/
theorem failures_not_intact :
    ¬ Intact markedHost (run (logger markedHost) (started (some [])) appendFails) ∧
      ¬ Intact markedHost (run (logger markedHost) (started (some [])) readFails) := by
  constructor
  · intro h
    exact absurd h.memoryOnce (by decide +kernel)
  · intro h
    have hrefused : (run (logger markedHost) (started (some [])) readFails).refused.length = 1 := by
      decide +kernel
    rw [h.refused] at hrefused
    exact absurd hrefused (by decide)

end ImmutableAudit
