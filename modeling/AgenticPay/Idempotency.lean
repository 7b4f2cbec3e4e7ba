import AgenticPay.Json
import AgenticPay.Records
import AgenticPay.Transaction
import Mathlib.Logic.Function.Basic

/-!
# The idempotency middleware

A request with a key is answered from the cache, refused, or admitted to its handler. A marker shows
that a request with the key is admitted. It is taken away when a response is sent, and when the
response of any request with the key is closed. Left out is the time of completion, which nothing
reads.
-/
namespace Idempotency

open Records Transaction

/-- A body that was read as JSON. -/
structure Body where
  value : Json.Value
  defined : value.Defined

structure Request where
  method : String
  originalUrl : String
  idempotencyKey : Option String
  xIdempotencyKey : Option String
  body : Option Body

/-- A response that is kept, with the body of the request that it answered. -/
structure CacheEntry where
  key : String
  response : Json.Value
  statusCode : Nat
  expiresAt : Int
  fingerprint : String
  body : Option Body

/-- A run of the handler for an admitted request. -/
structure Running where
  key : String
  fingerprint : String
  body : Option Body

structure Answer where
  key : String
  time : Int

/-- The two maps, the runs of handlers, the keys of the admitted requests whose responses are not
closed yet, the clock, and beside them the answers with a status below 500. -/
structure State where
  cache : Table CacheEntry.key
  inFlight : List String
  running : List Running
  unclosed : List String
  clock : Int
  answered : List Answer

/-- A request comes, a run of a handler answers through `res.json`, and a response is closed, each
some time after the act before it. -/
inductive Act where
  | request (elapsed : Nat) (req : Request)
  | complete (elapsed : Nat) (run : Nat) (statusCode : Nat) (response : Json.Value)
  | close (elapsed : Nat) (response : Nat)

/-- What comes of an act. -/
inductive Outcome where
  | next
  | refused (statusCode : Nat) (error message : String)
  | replayed (req : Request) (entry : CacheEntry)
  | admitted (key : String)
  | completed
  | closed

/-- The hash function, and the time and the number of entries that the cache keeps. -/
structure Config where
  sha256 : String → String
  ttl : Int
  maxEntries : Nat

variable (config : Config)

def MAX_KEY_LENGTH : Nat := 255

/-- An empty key is none. -/
def extractIdempotencyKey (req : Request) : Option String :=
  (req.idempotencyKey <|> req.xIdempotencyKey).filter (· ≠ "")

def validateKey (key : String) : Option String :=
  if MAX_KEY_LENGTH < (Json.Value.codeUnits key).length then
    some s!"Idempotency-Key must not exceed {MAX_KEY_LENGTH} characters."
  else none

def bodyValue (body : Option Body) : Json.Value := (body.map Body.value).getD .undefined

def stableStringify (value : Json.Value) : String := String.ofList value.stable.print

def fingerprintRequest (body : Option Body) : String :=
  config.sha256 (stableStringify (bodyValue body))

def cacheKey (req : Request) (key : String) : String := s!"{req.method}:{req.originalUrl}:{key}"

/-- The oldest entries go when there are too many. -/
def enforceCacheLimit (maxEntries : Nat) (cache : Table CacheEntry.key) : Table CacheEntry.key :=
  ⟨cache.records.drop (cache.records.length - maxEntries),
    cache.nodup.sublist ((List.drop_sublist _ _).map _)⟩

def mismatchMessage : String :=
  "This Idempotency-Key was already used with a different request body. " ++
    "Use a new key for a different request."

def inUseMessage : String :=
  "A request with this Idempotency-Key is already being processed. Retry after it completes."

/-- What is done when no response can be replayed. -/
def admission (key fingerprint : String) (body : Option Body) (s : State) : Outcome × State :=
  if s.inFlight.contains key then (.refused 409 "idempotency_key_in_use" inUseMessage, s)
  else (.admitted key, { s with
    inFlight := s.inFlight ++ [key]
    running := s.running ++ [⟨key, fingerprint, body⟩]
    unclosed := s.unclosed ++ [key] })

def keyed (req : Request) (key : String) (s : State) : Outcome × State :=
  let fingerprint := fingerprintRequest config req.body
  match s.cache.get (cacheKey req key) with
  | some cached =>
    if s.clock < cached.expiresAt then
      if cached.fingerprint ≠ fingerprint then
        (.refused 409 "idempotency_key_reuse_mismatch" mismatchMessage, s)
      else (.replayed req cached, s)
    else admission (cacheKey req key) fingerprint req.body
      { s with cache := s.cache.remove (cacheKey req key) }
  | none => admission (cacheKey req key) fingerprint req.body s

def request (req : Request) (s : State) : Outcome × State :=
  match extractIdempotencyKey req with
  | none => (.next, s)
  | some key =>
    match validateKey key with
    | some message => (.refused 400 "invalid_idempotency_key" message, s)
    | none => keyed config req key s

/-- The marker is taken away, and a response that is no server error is kept. -/
def json (run : Running) (statusCode : Nat) (response : Json.Value) (s : State) : State :=
  if statusCode < 500 then
    let entry : CacheEntry :=
      ⟨run.key, response, statusCode, s.clock + config.ttl, run.fingerprint, run.body⟩
    { s with
      inFlight := s.inFlight.filter (· ≠ run.key)
      cache := enforceCacheLimit config.maxEntries (s.cache.set entry)
      answered := s.answered ++ [⟨run.key, s.clock⟩] }
  else { s with inFlight := s.inFlight.filter (· ≠ run.key) }

def State.tick (elapsed : Nat) (s : State) : State := { s with clock := s.clock + elapsed }

def middleware : System Act State Unit Outcome
  | .request elapsed req, s => .ok (request config req (s.tick elapsed))
  | .complete elapsed i statusCode response, s =>
    match s.running[i]? with
    | none => .error ()
    | some run => .ok (.completed, json config run statusCode response
        { s.tick elapsed with running := s.running.eraseIdx i })
  | .close elapsed i, s =>
    match s.unclosed[i]? with
    | none => .error ()
    | some key => .ok (.closed, { s.tick elapsed with
        inFlight := s.inFlight.filter (· ≠ key)
        unclosed := s.unclosed.eraseIdx i })

end Idempotency

/-!
## Requests with a key

As long as no response is closed while the handler runs for its key, the marker is there for every
run, so that no second one begins. A fingerprint is that of one body only, up to the order of keys,
where no number of it is out of range.
-/
namespace Idempotency

open Records Transaction

/-- The bodies are equal up to the order of the keys of objects. -/
def SameBody : Option Body → Option Body → Prop
  | none, none => True
  | some a, some b => a.value.Reorders b.value
  | _, _ => False

/-- A run begins when no other one with its key goes on, and not before the time of an answer to one
is up. A response is replayed to a request with the body that it has answered. -/
def Permitted (config : Config) (s : State) (now : Int) : Outcome → Prop
  | .admitted key => (∀ run ∈ s.running, run.key ≠ key) ∧
    ∀ answer ∈ s.answered, answer.key = key → answer.time + config.ttl ≤ now
  | .replayed req entry => SameBody req.body entry.body
  | _ => True

def Proper (config : Config) (s : State) (act : Act) : Prop :=
  ∀ outcome s', middleware config act s = .ok (outcome, s') → Permitted config s s'.clock outcome

/-! ## Conditions -/

def FiniteBody (body : Option Body) : Prop := ∀ b ∈ body, b.value.Finite

instance (body : Option Body) : Decidable (FiniteBody body) :=
  inferInstanceAs (Decidable (∀ b ∈ body, b.value.Finite))

/-- No entry is evicted for size. -/
def Retains (config : Config) (s : State) : Act → Prop
  | .request _ _ => True
  | .complete _ i _ _ => ∀ run ∈ s.running[i]?, s.cache.records.length < config.maxEntries ∨
    (s.cache.get run.key).isSome = true ∧ s.cache.records.length ≤ config.maxEntries
  | .close _ _ => True

instance (config : Config) (s : State) : (act : Act) → Decidable (Retains config s act)
  | .request _ _ => isTrue trivial
  | .complete _ i _ _ => inferInstanceAs (Decidable (∀ run ∈ s.running[i]?,
    s.cache.records.length < config.maxEntries ∨
      (s.cache.get run.key).isSome = true ∧ s.cache.records.length ≤ config.maxEntries))
  | .close _ _ => isTrue trivial

/-- All numbers of a body are finite, and no response is closed while a handler runs for its key. -/
def Undisturbed (s : State) : Act → Prop
  | .request _ req => FiniteBody req.body
  | .complete _ _ _ _ => True
  | .close _ i => ∀ key ∈ s.unclosed[i]?, ∀ run ∈ s.running, run.key ≠ key

instance (s : State) : (act : Act) → Decidable (Undisturbed s act)
  | .request _ req => inferInstanceAs (Decidable (FiniteBody req.body))
  | .complete _ _ _ _ => isTrue trivial
  | .close _ i =>
    inferInstanceAs (Decidable (∀ key ∈ s.unclosed[i]?, ∀ run ∈ s.running, run.key ≠ key))

/-- What all acts keep. -/
structure Kept (config : Config) (s : State) : Prop where
  alone : (s.running.map Running.key).Nodup
  marked : ∀ run ∈ s.running, run.key ∈ s.inFlight
  runs : ∀ run ∈ s.running, run.fingerprint = fingerprintRequest config run.body ∧
    FiniteBody run.body
  cached : ∀ entry ∈ s.cache, entry.fingerprint = fingerprintRequest config entry.body ∧
    FiniteBody entry.body
  past : ∀ answer ∈ s.answered, answer.time ≤ s.clock
  answered : ∀ answer ∈ s.answered, answer.time + config.ttl ≤ s.clock ∨
    ∃ entry ∈ s.cache.get answer.key, answer.time + config.ttl ≤ entry.expiresAt

variable {config : Config} {s s' : State} {act : Act} {body body' : Option Body} {req : Request}
  {key fingerprint : String} {run : Running} {entry : CacheEntry} {outcome : Outcome}

/-! ## Fingerprints -/

theorem arrange_undefined {f : List (String × Json.Value) → List (String × Json.Value)}
    {v : Json.Value} (h : v.arrange f = .undefined) : v = .undefined := by
  cases v <;> first | rfl | contradiction

/-- A body is not absent. -/
theorem Body.ne_undefined (body : Body) : body.value ≠ .undefined := by
  intro h
  have hdefined := body.defined
  rw [h] at hdefined
  exact absurd hdefined (by decide)

theorem stable_inj {v w : Json.Value} (hv : v.Finite) (hw : w.Finite)
    (h : stableStringify v = stableStringify w) : v.stable = w.stable :=
  Json.Value.print_inj (Json.Value.every_arrange Json.Value.sorted_subset hv)
    (Json.Value.every_arrange Json.Value.sorted_subset hw) (String.ofList_injective h)

theorem finite_bodyValue (h : FiniteBody body) : (bodyValue body).Finite := by
  cases body with
  | none => decide
  | some body => exact h body rfl

/-- Bodies with one fingerprint are equal up to the order of keys. -/
theorem sameBody_of_fingerprint (hsha : Function.Injective config.sha256) (h : FiniteBody body)
    (h' : FiniteBody body')
    (heq : fingerprintRequest config body = fingerprintRequest config body') :
    SameBody body body' := by
  have hstable := stable_inj (finite_bodyValue h) (finite_bodyValue h') (hsha heq)
  cases body with
  | none =>
    cases body' with
    | none => trivial
    | some b => exact b.ne_undefined (arrange_undefined hstable.symm)
  | some a =>
    cases body' with
    | none => exact a.ne_undefined (arrange_undefined hstable)
    | some b =>
      exact Json.Value.reorders_of_print_stable a.defined b.defined (h a rfl) (h' b rfl)
        (congrArg Json.Value.print hstable)

/-! ## Requests -/

theorem kept_tick (h : Kept config s) (elapsed : Nat) : Kept config (s.tick elapsed) where
  alone := h.alone
  marked := h.marked
  runs := h.runs
  cached := h.cached
  past answer hmem := (h.past answer hmem).trans
    (Int.le_add_of_nonneg_right (Int.natCast_nonneg _))
  answered answer hmem := (h.answered answer hmem).imp_left
    fun hle => hle.trans (Int.le_add_of_nonneg_right (Int.natCast_nonneg _))

/-- An entry whose time is up leaves nothing to wait for. -/
theorem kept_remove (h : Kept config s) (hget : s.cache.get key = some entry)
    (hexpired : entry.expiresAt ≤ s.clock) :
    Kept config { s with cache := s.cache.remove key } where
  alone := h.alone
  marked := h.marked
  runs := h.runs
  cached e hmem := h.cached e (Table.mem_remove.mp hmem).1
  past := h.past
  answered answer hmem := by
    obtain hle | ⟨e, he, hle⟩ := h.answered answer hmem
    · exact .inl hle
    · by_cases hkey : answer.key = key
      · rw [hkey, hget] at he
        obtain rfl := Option.some.inj he
        exact .inl (hle.trans hexpired)
      · obtain ⟨hmem, hid⟩ := Table.get_some he
        have hkept : e ∈ s.cache.remove key := Table.mem_remove.mpr ⟨hmem, by rwa [hid]⟩
        have hfound := Table.get_of_mem hkept
        rw [hid] at hfound
        exact .inr ⟨e, hfound, hle⟩

/-- Without a marker no run goes on for the key. -/
theorem free_of_unmarked (h : Kept config s) (hfree : key ∉ s.inFlight) :
    ∀ run ∈ s.running, run.key ≠ key := by
  rintro run hmem rfl
  exact hfree (h.marked run hmem)

theorem kept_admit (h : Kept config s) (hfingerprint : fingerprint = fingerprintRequest config body)
    (hbody : FiniteBody body)
    (htime : ∀ answer ∈ s.answered, answer.key = key → answer.time + config.ttl ≤ s.clock) :
    Kept config (admission key fingerprint body s).2 ∧
      Permitted config s s.clock (admission key fingerprint body s).1 := by
  rw [admission]
  split
  next => exact ⟨h, trivial⟩
  next hcontains =>
    have hfree : key ∉ s.inFlight := fun hmem => hcontains (List.contains_iff_mem.mpr hmem)
    have hruns := free_of_unmarked h hfree
    refine ⟨⟨?_, fun run hmem => ?_, fun run hmem => ?_, h.cached, h.past, h.answered⟩, hruns,
      htime⟩
    · rw [List.map_append, List.map_singleton]
      refine h.alone.append (List.nodup_singleton _) (List.disjoint_singleton.mpr fun hmem => ?_)
      obtain ⟨run, hrun, hkey⟩ := List.mem_map.mp hmem
      exact hruns run hrun hkey
    · obtain hold | hnew := List.mem_append.mp hmem
      · exact List.mem_append_left _ (h.marked run hold)
      · obtain rfl := List.mem_singleton.mp hnew
        exact List.mem_append_right _ (List.mem_singleton_self _)
    · obtain hold | hnew := List.mem_append.mp hmem
      · exact h.runs run hold
      · obtain rfl := List.mem_singleton.mp hnew
        exact ⟨hfingerprint, hbody⟩

theorem kept_keyed (hsha : Function.Injective config.sha256) (h : Kept config s)
    (hbody : FiniteBody req.body) :
    Kept config (keyed config req key s).2 ∧
      Permitted config s s.clock (keyed config req key s).1 := by
  rw [keyed]
  split
  next cached hget =>
    split
    next =>
      split
      next => exact ⟨h, trivial⟩
      next hsame =>
        obtain ⟨hfingerprint, hfinite⟩ := h.cached cached (Table.get_some hget).1
        refine ⟨h, sameBody_of_fingerprint hsha hbody hfinite ?_⟩
        rw [← hfingerprint]
        exact (not_not.mp hsame).symm
    next hexpired =>
      have hexpired : cached.expiresAt ≤ s.clock := not_lt.mp hexpired
      refine kept_admit (kept_remove h hget hexpired) rfl hbody fun answer hmem hkey => ?_
      obtain hle | ⟨entry, hentry, hle⟩ := h.answered answer hmem
      · exact hle
      · rw [hkey, hget] at hentry
        obtain rfl := Option.some.inj hentry
        exact hle.trans hexpired
  next hget =>
    refine kept_admit h rfl hbody fun answer hmem hkey => ?_
    obtain hle | ⟨entry, hentry, -⟩ := h.answered answer hmem
    · exact hle
    · rw [hkey, hget] at hentry
      contradiction

theorem kept_request (hsha : Function.Injective config.sha256) (h : Kept config s)
    (hbody : FiniteBody req.body) :
    Kept config (request config req s).2 ∧
      Permitted config s s.clock (request config req s).1 := by
  rw [request]
  split
  next => exact ⟨h, trivial⟩
  next =>
    split
    next => exact ⟨h, trivial⟩
    next => exact kept_keyed hsha h hbody

theorem request_clock : (request config req s).2.clock = s.clock := by
  rw [request]
  split
  next => rfl
  next =>
    split
    next => rfl
    next =>
      rw [keyed]
      dsimp only [admission]
      split <;> split <;> try split
      all_goals rfl

/-! ## Answers -/

/-- Where there is room, nothing is evicted. -/
theorem enforceCacheLimit_eq {cache : Table CacheEntry.key} {maxEntries : Nat}
    (h : cache.records.length ≤ maxEntries) : enforceCacheLimit maxEntries cache = cache := by
  have hrecords : cache.records.drop (cache.records.length - maxEntries) = cache.records := by
    rw [Nat.sub_eq_zero_of_le h, List.drop_zero]
  exact Table.records_injective hrecords

theorem length_set (cache : Table CacheEntry.key) (entry : CacheEntry) :
    (cache.set entry).records.length =
      if (cache.get entry.key).isSome then cache.records.length else cache.records.length + 1 := by
  cases hget : cache.get entry.key with
  | none =>
    rw [Table.set_fresh hget, List.length_append]
    rfl
  | some old =>
    rw [Table.set_found hget, Table.replace, List.length_map]
    rfl

theorem unmark (h : ∀ run ∈ s.running, run.key ∈ s.inFlight)
    (hne : ∀ run ∈ s.running, run.key ≠ key) :
    ∀ run ∈ s.running, run.key ∈ s.inFlight.filter (· ≠ key) :=
  fun run hmem => List.mem_filter.mpr ⟨h run hmem, decide_eq_true (hne run hmem)⟩

/-- A run ends, and all others have other keys. -/
theorem kept_ended {i : Nat} (h : Kept config s) (hrun : s.running[i]? = some run) :
    Kept config { s with running := s.running.eraseIdx i } ∧
      ∀ other ∈ s.running.eraseIdx i, other.key ≠ run.key := by
  obtain ⟨hlt, hget⟩ := List.getElem?_eq_some_iff.mp hrun
  have hperm : (run :: s.running.eraseIdx i).Perm s.running :=
    hget ▸ List.getElem_cons_eraseIdx_perm hlt
  have hnodup := (hperm.map Running.key).nodup_iff.mpr h.alone
  rw [List.map_cons, List.nodup_cons] at hnodup
  have hold : ∀ other ∈ s.running.eraseIdx i, other ∈ s.running :=
    fun other hmem => List.mem_of_mem_eraseIdx hmem
  refine ⟨⟨hnodup.2, fun other hmem => h.marked other (hold other hmem),
    fun other hmem => h.runs other (hold other hmem), h.cached, h.past, h.answered⟩,
    fun other hmem heq => hnodup.1 (heq ▸ List.mem_map_of_mem hmem)⟩

theorem kept_json {statusCode : Nat} {response : Json.Value} (h : Kept config s)
    (hothers : ∀ other ∈ s.running, other.key ≠ run.key)
    (hrun : run.fingerprint = fingerprintRequest config run.body ∧ FiniteBody run.body)
    (hroom : s.cache.records.length < config.maxEntries ∨
      (s.cache.get run.key).isSome = true ∧ s.cache.records.length ≤ config.maxEntries) :
    Kept config (json config run statusCode response s) := by
  have hmarked := unmark h.marked hothers
  rw [json]
  split
  next =>
    dsimp only
    rw [enforceCacheLimit_eq]
    · have hpast : ∀ answer ∈ s.answered ++ [⟨run.key, s.clock⟩], answer.time ≤ s.clock := by
        intro answer hmem
        obtain hold | hnew := List.mem_append.mp hmem
        · exact h.past answer hold
        · obtain rfl := List.mem_singleton.mp hnew
          exact le_refl _
      refine ⟨h.alone, hmarked, h.runs, Table.forall_set hrun h.cached, hpast,
        fun answer hmem => ?_⟩
      · rw [Table.get_set]
        split
        next => exact .inr ⟨_, rfl, Int.add_le_add_right (hpast answer hmem) _⟩
        next hne =>
          obtain hold | hnew := List.mem_append.mp hmem
          · exact h.answered answer hold
          · obtain rfl := List.mem_singleton.mp hnew
            exact absurd rfl hne
    · rw [length_set]
      split
      next => exact hroom.elim (fun hlt => hlt.le) (fun hboth => hboth.2)
      next hfresh => exact hroom.elim (fun hlt => hlt) (fun hboth => absurd hboth.1 hfresh)
  next => exact ⟨h.alone, hmarked, h.runs, h.cached, h.past, h.answered⟩

/-! ## Acts -/

/-- Where nothing begins and nothing is replayed, nothing has to be permitted. -/
theorem proper_of_plain (hplain : ∀ outcome s', middleware config act s = .ok (outcome, s') →
    outcome = .completed ∨ outcome = .closed) : Proper config s act := by
  intro outcome s' hok
  obtain rfl | rfl := hplain outcome s' hok
  · trivial
  · trivial

theorem kept_request_act (hsha : Function.Injective config.sha256) (h : Kept config s)
    (elapsed : Nat) (hfinite : FiniteBody req.body) :
    Kept config (commit (middleware config) s (.request elapsed req)) ∧
      Proper config s (.request elapsed req) := by
  obtain ⟨hkept, hpermitted⟩ := kept_request hsha (kept_tick h elapsed) hfinite
  refine ⟨hkept, fun outcome s' hok => ?_⟩
  have hends : request config req (s.tick elapsed) = (outcome, s') := Except.ok.inj hok
  have hclock : (request config req (s.tick elapsed)).2.clock = (s.tick elapsed).clock :=
    request_clock
  rw [hends] at hpermitted hclock
  rw [hclock]
  exact hpermitted

theorem kept_complete (h : Kept config s) (elapsed i statusCode : Nat) (response : Json.Value)
    (hretains : Retains config s (.complete elapsed i statusCode response)) :
    Kept config (commit (middleware config) s (.complete elapsed i statusCode response)) ∧
      Proper config s (.complete elapsed i statusCode response) := by
  cases hrun : s.running[i]? with
  | none =>
    refine ⟨?_, proper_of_plain fun outcome s' hok => ?_⟩
    · rwa [commit, middleware, hrun]
    · rw [middleware, hrun] at hok
      contradiction
  | some run =>
    obtain ⟨hended, hothers⟩ := kept_ended (kept_tick h elapsed) hrun
    refine ⟨?_, proper_of_plain fun outcome s' hok => ?_⟩
    · rw [commit, middleware, hrun]
      exact kept_json hended hothers (h.runs run (List.mem_of_getElem? hrun)) (hretains run hrun)
    · rw [middleware, hrun] at hok
      exact .inl (Prod.mk.inj (Except.ok.inj hok)).1.symm

theorem kept_close (h : Kept config s) (elapsed i : Nat)
    (hquiet : Undisturbed s (.close elapsed i)) :
    Kept config (commit (middleware config) s (.close elapsed i)) ∧
      Proper config s (.close elapsed i) := by
  cases hkey : s.unclosed[i]? with
  | none =>
    refine ⟨?_, proper_of_plain fun outcome s' hok => ?_⟩
    · rwa [commit, middleware, hkey]
    · rw [middleware, hkey] at hok
      contradiction
  | some key =>
    have htick := kept_tick h elapsed
    refine ⟨?_, proper_of_plain fun outcome s' hok => ?_⟩
    · rw [commit, middleware, hkey]
      exact ⟨htick.alone, unmark htick.marked (hquiet key hkey), htick.runs, htick.cached,
        htick.past, htick.answered⟩
    · rw [middleware, hkey] at hok
      exact .inr (Prod.mk.inj (Except.ok.inj hok)).1.symm

theorem kept_commit (hsha : Function.Injective config.sha256) (h : Kept config s)
    (hact : Retains config s act ∧ Undisturbed s act) :
    Kept config (commit (middleware config) s act) ∧ Proper config s act := by
  obtain ⟨hretains, hquiet⟩ := hact
  cases act with
  | request elapsed req => exact kept_request_act hsha h elapsed hquiet
  | complete elapsed i statusCode response =>
    exact kept_complete h elapsed i statusCode response hretains
  | close elapsed i => exact kept_close h elapsed i hquiet

/-! ## Runs -/

/-- The middleware before any request, at any time. -/
def started (clock : Int) : State := ⟨∅, [], [], [], clock, []⟩

theorem kept_started (config : Config) (clock : Int) : Kept config (started clock) where
  alone := List.nodup_nil
  marked _ hmem := absurd hmem List.not_mem_nil
  runs _ hmem := absurd hmem List.not_mem_nil
  cached entry hmem := absurd hmem (Table.not_mem_empty entry)
  past _ hmem := absurd hmem List.not_mem_nil
  answered _ hmem := absurd hmem List.not_mem_nil

/-- In every run without evictions in which no response is closed while a handler runs for its key:
no two runs of a handler have one key at any time, and every act is proper. -/
theorem idempotency_run {clock : Int} {acts : List Act} (hsha : Function.Injective config.sha256)
    (h : Along (middleware config) (fun s act => Retains config s act ∧ Undisturbed s act)
      (started clock) acts) :
    ((Transaction.run (middleware config) (started clock) acts).running.map Running.key).Nodup ∧
      Along (middleware config) (Proper config) (started clock) acts := by
  have hstep : ∀ s act, Kept config s → Retains config s act ∧ Undisturbed s act →
      Kept config (commit (middleware config) s act) :=
    fun s act hkept hact => (kept_commit hsha hkept hact).1
  exact ⟨(run_invariant hstep (kept_started config clock) h).alone,
    along_of_invariant hstep (kept_started config clock) h
      fun s act hkept hact => (kept_commit hsha hkept hact).2⟩

/-! ## A response that is closed while its handler runs -/

/-- Texts in the place of their digests, a minute and a hundred entries. -/
def plainConfig : Config := ⟨fun text => text, 60000, 100⟩

def payment : Request := ⟨"POST", "/payments", some "key", none, some ⟨.object [], by decide⟩⟩

/-- A run that answers, is closed, and is replayed. -/
def answered : List Act :=
  [.request 0 payment, .complete 1 0 201 .null, .close 1 0, .request 1 payment]

/-- The response is closed before the handler answers, and the client tries again. -/
def closedEarly : List Act := [.request 0 payment, .close 1 0, .request 1 payment]

/-- The first answer is an error, and the close of its response comes after the next request. -/
def closedLate : List Act :=
  [.request 0 payment, .complete 1 0 503 .null, .request 1 payment, .close 1 0, .request 1 payment]

theorem answered_proper :
    ((Transaction.run (middleware plainConfig) (started 0) answered).running.map
        Running.key).Nodup ∧
      Along (middleware plainConfig) (Proper plainConfig) (started 0) answered :=
  idempotency_run (fun _ _ h => h) (by decide +kernel)

/-- Two runs of one handler overlap. -/
theorem closed_overlap :
    ¬ ((Transaction.run (middleware plainConfig) (started 0) closedEarly).running.map
        Running.key).Nodup ∧
      ¬ ((Transaction.run (middleware plainConfig) (started 0) closedLate).running.map
        Running.key).Nodup := by
  decide +kernel

end Idempotency
