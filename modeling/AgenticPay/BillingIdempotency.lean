import AgenticPay.BillingCoverage

/-!
# The usage of a subscription is its own

One index holds the idempotency keys of all subscriptions. What a call records is what it would
record if its subscription were the only one, unless another one has used its key.
-/
namespace Billing

open Transaction

/-- What has been recorded for a subscription. -/
def own (s : State) (id : SubscriptionId) : Option Subscription × List UsageEvent :=
  (s.subscriptions id, eventsOf s id)

/-- The service without the other subscriptions. -/
def alone (s : State) (id : SubscriptionId) : State :=
  { start with
    plans := s.plans
    subscriptions := fun id' => if id' = id then s.subscriptions id else none
    usageEvents := eventsOf s id
    usageIdempotency := fun key =>
      ((eventsOf s id).find? (·.idempotencyKey = some key)).map (·.id) }

/-- The event of the call and what has then been recorded for its subscription. -/
def outcome (env : Env) (input : UsageInput) (s : State) :
    Except Failure (UsageEvent × Option Subscription × List UsageEvent) :=
  (recordUsage env input s).map fun (event, s') => (event, own s' input.subscriptionId)

/-- The event has been recorded under the key of the call. -/
def UnderKey (input : UsageInput) (event : UsageEvent) : Prop :=
  input.idempotencyKey.getD "" ≠ "" ∧ event.idempotencyKey = input.idempotencyKey

instance (input : UsageInput) (event : UsageEvent) : Decidable (UnderKey input event) :=
  inferInstanceAs (Decidable (_ ∧ _))

/-- A call records usage for its subscription as if there were no other, adds its quantity when its
key is new there, adds nothing when it is not, and leaves the others alone. -/
structure Lawful (s : State) (env : Env) (input : UsageInput) : Prop where
  unaffected : outcome env input s = outcome env input (alone s input.subscriptionId)
  others : ∀ event s', recordUsage env input s = .ok (event, s') →
    ∀ id, id ≠ input.subscriptionId → own s' id = own s id
  records : ∀ event s', recordUsage env input s = .ok (event, s') →
    (∀ old ∈ eventsOf s input.subscriptionId, ¬ UnderKey input old) →
      event.quantity = input.quantity ∧
        own s' input.subscriptionId =
          ((s.subscriptions input.subscriptionId).map (addUsage · event),
            eventsOf s input.subscriptionId ++ [event])
  repeats : ∀ event s', recordUsage env input s = .ok (event, s') →
    (∃ old ∈ eventsOf s input.subscriptionId, UnderKey input old) →
      own s' input.subscriptionId = own s input.subscriptionId

/-- The call is for a subscription that takes usage. -/
def Admitted (s : State) (input : UsageInput) : Prop :=
  trim input.metric ≠ "" ∧ 0 < input.quantity ∧
    ∃ subscription ∈ s.subscriptions input.subscriptionId, subscription.status ≠ .cancelled

/-- No other subscription has used the key of the call. -/
def OwnKey (s : State) (input : UsageInput) : Prop :=
  ∀ event ∈ s.usageEvents, UnderKey input event → event.subscriptionId = input.subscriptionId

variable {host : Host} {env : Env} {s s' : State} {id : SubscriptionId} {input : UsageInput}
  {subscription : Subscription} {event : UsageEvent} {c : Call}

/-! ## The index of the keys -/

/-- The index has the event that has been recorded under each key. -/
structure Keyed (s : State) : Prop where
  indexed : Indexed s
  found : ∀ key id, s.usageIdempotency key = some id →
    ∃ event ∈ s.usageEvents, event.id = id ∧ event.idempotencyKey = some key
  stored : ∀ event ∈ s.usageEvents, ∀ key ∈ event.idempotencyKey, key ≠ "" →
    s.usageIdempotency key = some event.id

theorem Indexed.event_unique (hi : Indexed s) {event' : UsageEvent} (h : event ∈ s.usageEvents)
    (h' : event' ∈ s.usageEvents) (he : event.id = event'.id) : event = event' :=
  List.inj_on_of_nodup_map hi.events h h' he

theorem Keyed.find_id (h : Keyed s) (hmem : event ∈ s.usageEvents) :
    s.usageEvents.find? (·.id = event.id) = some event := by
  cases hfind : s.usageEvents.find? (·.id = event.id) with
  | none => exact absurd (decide_eq_true rfl) (List.find?_eq_none.mp hfind event hmem)
  | some found =>
    have hid : found.id = event.id := by simpa using List.find?_some hfind
    rw [h.indexed.event_unique (List.mem_of_find?_eq_some hfind) hmem hid]

theorem Keyed.recordedEvent_iff (h : Keyed s) :
    recordedEvent s input.idempotencyKey = some event ↔
      event ∈ s.usageEvents ∧ UnderKey input event := by
  rw [recordedEvent, UnderKey]
  cases hkey : input.idempotencyKey with
  | none => simp
  | some key =>
    by_cases hempty : key = ""
    · simp [hempty]
    · simp only [Option.getD_some, hempty, if_false, ne_eq, not_false_eq_true, true_and]
      constructor
      · intro hfound
        obtain ⟨id, hid, hfind⟩ := Option.bind_eq_some_iff.mp hfound
        obtain ⟨old, hmem, rfl, hold⟩ := h.found key id hid
        obtain rfl := Option.some.inj ((h.find_id hmem).symm.trans hfind)
        exact ⟨hmem, hold⟩
      · rintro ⟨hmem, he⟩
        rw [h.stored event hmem key he hempty, Option.bind_some, h.find_id hmem]

/-- At most one event is recorded under a key. -/
theorem Keyed.unique (h : Keyed s) {event' : UsageEvent} (hmem : event ∈ s.usageEvents)
    (hmem' : event' ∈ s.usageEvents) (hkey : UnderKey input event) (hkey' : UnderKey input event') :
    event = event' :=
  Option.some.inj ((h.recordedEvent_iff.mpr ⟨hmem, hkey⟩).symm.trans
    (h.recordedEvent_iff.mpr ⟨hmem', hkey'⟩))

theorem start_keyed : Keyed start where
  indexed := start_indexed
  found := fun _ _ h => absurd h.symm (Option.some_ne_none _)
  stored := fun _ h => absurd h List.not_mem_nil

/-- A call that records no usage leaves the events and the index. -/
theorem Served.usage (h : Served host env s c s') :
    (s'.usageEvents = s.usageEvents ∧ s'.usageIdempotency = s.usageIdempotency) ∨
      ∃ (input : UsageInput) (subscription : Subscription) (event : UsageEvent),
        recordedEvent s input.idempotencyKey = none ∧ event.id = "usg_" ++ env.uuid ∧
          event.idempotencyKey = input.idempotencyKey ∧ s' = storeUsage s subscription event := by
  have hcollects : ∀ {invoice t}, Collects s invoice t →
      t.usageEvents = s.usageEvents ∧ t.usageIdempotency = s.usageIdempotency := by
    intro _ _ h
    cases h <;> exact ⟨rfl, rfl⟩
  have hraised : ∀ {subscription plan kind untilMs invoice t},
      createInvoice env subscription plan kind untilMs s = .ok (invoice, t) →
        t.usageEvents = s.usageEvents ∧ t.usageIdempotency = s.usageIdempotency := by
    intro _ _ _ _ _ _ hcreated
    rw [(createInvoice_ok hcreated).state]
    exact ⟨rfl, rfl⟩
  cases h with
  | @metered input subscription event found notCancelled unrecorded event_eq =>
    exact .inr ⟨input, subscription, event, unrecorded, by rw [event_eq], by rw [event_eq], rfl⟩
  | settled resolved notTrialing prorated immediate created =>
    obtain ⟨hevents, hkeys⟩ := hraised created
    exact .inl ⟨hevents, hkeys⟩
  | closed found planFound created | invoiced found planFound created =>
    obtain ⟨hevents, hkeys⟩ := hraised created
    exact .inl ⟨hevents, hkeys⟩
  | paid found payable | voided found unpaid | collected found payable =>
    exact .inl (hcollects releasedState_collects)
  | @failed id invoice found payable first =>
    exact .inl (hcollects (startDunning_collects env s invoice))
  | @failedAgain id invoice dunning found payable retrying =>
    exact .inl (hcollects (failRetry_collects env s invoice dunning))
  | planned | offered | withdrawn | redeemed | undiscounted | subscribed | subscribedWith
  | cancelled | switched | rescheduled | repeated | configured => exact .inl ⟨rfl, rfl⟩

theorem Keyed.store (h : Keyed s) (hi : Indexed (storeUsage s subscription event))
    (hunrecorded : recordedEvent s input.idempotencyKey = none)
    (hkey : event.idempotencyKey = input.idempotencyKey) :
    Keyed (storeUsage s subscription event) := by
  -- nothing has been recorded under the key of the event
  have hnew : ∀ old ∈ s.usageEvents, ∀ key ∈ event.idempotencyKey, key ≠ "" →
      old.idempotencyKey ≠ some key := by
    intro old hmem key hk hne hold
    have hunder : UnderKey input old := by
      rw [UnderKey, ← hkey, hold, hk]
      exact ⟨hne, rfl⟩
    rw [h.recordedEvent_iff.mpr ⟨hmem, hunder⟩] at hunrecorded
    contradiction
  have hindex : (storeUsage s subscription event).usageIdempotency =
      if event.idempotencyKey.getD "" = "" then s.usageIdempotency
      else Function.update s.usageIdempotency (event.idempotencyKey.getD "") (some event.id) := rfl
  have hevents : (storeUsage s subscription event).usageEvents = s.usageEvents ++ [event] := rfl
  refine ⟨hi, fun key id hid => ?_, fun old hmem key hk hne => ?_⟩
  · rw [hindex] at hid
    rw [hevents]
    have hold : s.usageIdempotency key = some id →
        ∃ old ∈ s.usageEvents ++ [event], old.id = id ∧ old.idempotencyKey = some key := by
      intro hid
      obtain ⟨old, hmem, hold⟩ := h.found key id hid
      exact ⟨old, List.mem_append_left _ hmem, hold⟩
    cases hkey : event.idempotencyKey with
    | none =>
      rw [hkey] at hid
      exact hold hid
    | some key' =>
      rw [hkey, Option.getD_some] at hid
      split_ifs at hid with hempty
      · exact hold hid
      · by_cases he : key = key'
        · subst he
          rw [Function.update_self] at hid
          exact ⟨event, List.mem_append_right _ (List.mem_singleton.mpr rfl),
            Option.some.inj hid, hkey⟩
        · rw [Function.update_of_ne he] at hid
          exact hold hid
  · rw [hindex]
    rw [hevents] at hmem
    rcases List.mem_append.mp hmem with hold | hlast
    · have hstored := h.stored old hold key hk hne
      split_ifs with hempty
      · exact hstored
      · rw [Function.update_of_ne, hstored]
        intro he
        cases hkey : event.idempotencyKey with
        | none =>
          rw [hkey] at hempty
          exact hempty rfl
        | some key' =>
          rw [hkey, Option.getD_some] at he
          exact hnew old hold key' (hkey ▸ rfl) (he ▸ hne) (he ▸ hk)
    · obtain rfl := List.mem_singleton.mp hlast
      have hk' : old.idempotencyKey = some key := hk
      rw [hk', Option.getD_some, if_neg hne, Function.update_self]

theorem Keyed.commit (h : Keyed s) (a : Env × Call) : Keyed (commit (service host) s a) := by
  obtain ⟨hfresh, hserved⟩ | he := service_cases host s a
  · have hi := hserved.indexed hfresh h.indexed
    obtain ⟨hevents, hkeys⟩ | ⟨input, subscription, event, hunrecorded, _, hkey, he⟩ :=
      hserved.usage
    · exact ⟨hi, by rw [hevents, hkeys]; exact h.found, by rw [hevents, hkeys]; exact h.stored⟩
    · rw [he] at hi ⊢
      exact h.store hi hunrecorded hkey
  · rwa [he]

theorem keyed_run (host : Host) (calls : List (Env × Call)) :
    Keyed (run (service host) start calls) :=
  run_preserves (I := Keyed) (fun _ a h => h.commit a) start_keyed calls

/-! ## One subscription among others -/

theorem alone_keyed (h : Keyed s) (id : SubscriptionId) : Keyed (alone s id) := by
  have hmem : ∀ event ∈ eventsOf s id, event ∈ s.usageEvents := fun _ => List.mem_of_mem_filter
  refine ⟨⟨fun id' subscription hfound => ?_, List.nodup_nil, ?_⟩, fun key id' hfound => ?_,
    fun event hevent key hkey hne => ?_⟩
  · dsimp only [alone] at hfound
    split_ifs at hfound with he
    exact he ▸ h.indexed.subscriptions id subscription hfound
  · exact (List.filter_sublist.map _).nodup h.indexed.events
  · obtain ⟨event, hfind, rfl⟩ := Option.map_eq_some_iff.mp hfound
    exact ⟨event, List.mem_of_find?_eq_some hfind, rfl, by simpa using List.find?_some hfind⟩
  · have hkey' : event.idempotencyKey = some key := hkey
    cases hfind : (eventsOf s id).find? (·.idempotencyKey = some key) with
    | none => exact absurd (decide_eq_true hkey') (List.find?_eq_none.mp hfind event hevent)
    | some old =>
      have hold : old.idempotencyKey = some key := by simpa using List.find?_some hfind
      have hmemold := hmem old (List.mem_of_find?_eq_some hfind)
      have hid := (h.stored old hmemold key hold hne).symm.trans
        (h.stored event (hmem event hevent) key hkey' hne)
      dsimp only [alone]
      rw [hfind]
      exact hid

@[simp] theorem alone_subscriptions : (alone s id).subscriptions id = s.subscriptions id :=
  if_pos rfl

@[simp] theorem alone_events : eventsOf (alone s id) id = eventsOf s id := by
  rw [eventsOf, alone, eventsOf, List.filter_filter]
  simp

theorem own_storeUsage (hid : subscription.id = id) (hevent : event.subscriptionId = id) :
    own (storeUsage s subscription event) id =
      (some (addUsage subscription event), eventsOf s id ++ [event]) := by
  refine Prod.ext ?_ ?_
  · subst hid
    exact Function.update_self _ _ _
  · rw [own, eventsOf, storeUsage, List.filter_append, List.filter_singleton]
    simp [hevent, eventsOf]

/-- What a call leaves is decided by the record, the plans and the event under the key. -/
theorem outcome_congr (hi : Indexed s) (hplans : s.plans = s'.plans)
    (hown : own s input.subscriptionId = own s' input.subscriptionId)
    (hrecorded : Admitted s input →
      recordedEvent s input.idempotencyKey = recordedEvent s' input.idempotencyKey) :
    outcome env input s = outcome env input s' := by
  have hfind : s.subscriptions input.subscriptionId = s'.subscriptions input.subscriptionId :=
    congrArg Prod.fst hown
  have hevents : eventsOf s input.subscriptionId = eventsOf s' input.subscriptionId :=
    congrArg Prod.snd hown
  rw [outcome, outcome, recordUsage, recordUsage, findSubscription, findSubscription, ← hfind]
  refine map_bind_congr fun _ hmetric => map_bind_congr fun _ hquantity =>
    map_bind_congr fun subscription hfound => map_bind_congr fun _ hcancelled => ?_
  have hrecord := orElse_ok.mp hfound
  rw [← hrecorded ⟨validate_ok.mp hmetric, validate_ok.mp hquantity, subscription, hrecord,
    validate_ok.mp hcancelled⟩]
  have hid := hi.subscriptions _ _ hrecord
  cases recordedEvent s input.idempotencyKey with
  | some existing =>
    show Except.ok (existing, own s input.subscriptionId) = .ok (existing, own s' _)
    rw [hown]
  | none =>
    have hmetered : checkMetered s subscription input.metric =
        checkMetered s' subscription input.metric := by
      rw [checkMetered, checkMetered, hplans]
    dsimp only
    rw [hmetered]
    refine map_bind_congr fun _ _ => congrArg Except.ok (congrArg (Prod.mk _) ?_)
    refine (own_storeUsage hid hid).trans ?_
    rw [hevents]
    exact (own_storeUsage hid hid).symm

theorem recordedEvent_alone (h : Keyed s) (hown : OwnKey s input) :
    recordedEvent s input.idempotencyKey =
      recordedEvent (alone s input.subscriptionId) input.idempotencyKey := by
  refine Option.ext fun event => ?_
  rw [h.recordedEvent_iff, (alone_keyed h _).recordedEvent_iff]
  constructor
  · rintro ⟨hmem, hkey⟩
    exact ⟨List.mem_filter.mpr ⟨hmem, decide_eq_true (hown event hmem hkey)⟩, hkey⟩
  · rintro ⟨hmem, hkey⟩
    exact ⟨List.mem_of_mem_filter hmem, hkey⟩

/-- What the checks of a call that returns have found. -/
theorem recordUsage_ok (h : recordUsage env input s = .ok (event, s')) :
    Admitted s input ∧ ((recordedEvent s input.idempotencyKey = some event ∧ s' = s) ∨
      recordedEvent s input.idempotencyKey = none ∧
        ∃ subscription, s.subscriptions input.subscriptionId = some subscription ∧
          event = ⟨"usg_" ++ env.uuid, subscription.id, input.metric, input.quantity,
            input.idempotencyKey⟩ ∧ s' = storeUsage s subscription event) := by
  obtain ⟨_, hmetric, h⟩ := bind_returns h
  obtain ⟨_, hquantity, h⟩ := bind_returns h
  obtain ⟨subscription, hfound, h⟩ := bind_returns h
  obtain ⟨_, hcancelled, h⟩ := bind_returns h
  have hrecord := findSubscription_ok.mp hfound
  refine ⟨⟨validate_ok.mp hmetric, validate_ok.mp hquantity, subscription, hrecord,
    validate_ok.mp hcancelled⟩, ?_⟩
  cases hrecorded : recordedEvent s input.idempotencyKey with
  | some existing =>
    rw [hrecorded] at h
    cases h
    exact .inl ⟨rfl, rfl⟩
  | none =>
    rw [hrecorded] at h
    obtain ⟨_, _, h⟩ := bind_returns h
    cases h
    exact .inr ⟨rfl, subscription, hrecord, rfl, rfl⟩

theorem lawful_of_ownKey (h : Keyed s) (hown : Admitted s input → OwnKey s input) :
    Lawful s env input where
  unaffected := outcome_congr h.indexed rfl (Prod.ext alone_subscriptions.symm alone_events.symm)
    fun hadmitted => recordedEvent_alone h (hown hadmitted)
  others := by
    intro event s' hok id hid
    obtain ⟨_, ⟨_, rfl⟩ | ⟨_, subscription, hfound, hevent, rfl⟩⟩ := recordUsage_ok hok
    · rfl
    · have htarget := h.indexed.subscriptions _ _ hfound
      refine Prod.ext ?_ ?_
      · exact Function.update_of_ne (fun he => hid (he.trans htarget)) _ _
      · have hne : event.subscriptionId ≠ id := by
          rw [hevent, htarget]
          exact Ne.symm hid
        rw [own, own, eventsOf, eventsOf, storeUsage, List.filter_append, List.filter_singleton]
        simp [hne]
  records := by
    intro event s' hok hnew
    obtain ⟨hadmitted, ⟨hrecorded, _⟩ | ⟨_, subscription, hfound, hevent, rfl⟩⟩ :=
      recordUsage_ok hok
    · obtain ⟨hmem, hkey⟩ := h.recordedEvent_iff.mp hrecorded
      have hid := hown hadmitted event hmem hkey
      exact absurd hkey (hnew event (List.mem_filter.mpr ⟨hmem, decide_eq_true hid⟩))
    · have htarget := h.indexed.subscriptions _ _ hfound
      refine ⟨by rw [hevent], ?_⟩
      rw [own_storeUsage htarget (by rw [hevent, htarget]), hfound]
      rfl
  repeats := by
    rintro event s' hok ⟨old, hmem, hkey⟩
    obtain ⟨_, ⟨_, rfl⟩ | ⟨hunrecorded, _⟩⟩ := recordUsage_ok hok
    · rfl
    · rw [h.recordedEvent_iff.mpr ⟨List.mem_of_mem_filter hmem, hkey⟩] at hunrecorded
      contradiction

theorem recordUsage_repeat (hadmitted : Admitted s input)
    (hrecorded : recordedEvent s input.idempotencyKey = some event) :
    recordUsage env input s = .ok (event, s) := by
  obtain ⟨hmetric, hquantity, subscription, hfound, hcancelled⟩ := hadmitted
  have hfound' : findSubscription s input.subscriptionId = .ok subscription :=
    findSubscription_ok.mpr hfound
  have hmetered : validate (subscription.status ≠ .cancelled)
      "Cannot meter usage for a cancelled subscription" = .ok () := validate_ok.mpr hcancelled
  have hmetric' : validate (trim input.metric ≠ "") "metric is required" = .ok () :=
    validate_ok.mpr hmetric
  have hquantity' : validate (0 < input.quantity) "quantity must be greater than 0" = .ok () :=
    validate_ok.mpr hquantity
  simp only [recordUsage, hmetric', hquantity', hfound', hmetered, hrecorded, bind, Except.bind]
  rfl

theorem ownKey_of_lawful (h : Keyed s) (hlawful : Lawful s env input)
    (hadmitted : Admitted s input) : OwnKey s input := by
  intro event hmem hkey
  have houtcome : outcome env input s = .ok (event, own s input.subscriptionId) := by
    rw [outcome, recordUsage_repeat hadmitted (h.recordedEvent_iff.mpr ⟨hmem, hkey⟩)]
    rfl
  rw [hlawful.unaffected, outcome] at houtcome
  cases hok : recordUsage env input (alone s input.subscriptionId) with
  | error failure =>
    rw [hok] at houtcome
    contradiction
  | ok r =>
    rw [hok] at houtcome
    obtain ⟨event', s'⟩ := r
    obtain rfl : event' = event := congrArg Prod.fst (Except.ok.inj houtcome)
    obtain ⟨_, ⟨hrecorded, _⟩ | ⟨_, subscription, hfound, hevent, _⟩⟩ := recordUsage_ok hok
    · have hown := ((alone_keyed h _).recordedEvent_iff.mp hrecorded).1
      exact of_decide_eq_true (List.mem_filter.mp hown).2
    · rw [alone_subscriptions] at hfound
      rw [hevent]
      exact h.indexed.subscriptions _ _ hfound

/-- Two customers of different merchants. -/
def customers : List (Env × Call) :=
  [atDay 0 "1" (monthly "basic" 30), atDay 0 "2" (.subscribe "m" "c" "basic" none none),
    atDay 0 "3" (.subscribe "m'" "c'" "basic" none none),
    atDay 1 "4" (.recordUsage ⟨"sub_2", "calls", 5, some "k"⟩)]

/-- A call of the second customer under the key of the first one. -/
def secondUse : UsageInput := ⟨"sub_3", "calls", 7, some "k"⟩

end Billing
