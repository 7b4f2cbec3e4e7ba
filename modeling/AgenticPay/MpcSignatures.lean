import AgenticPay.MpcSessions
import AgenticPay.MpcShares

/-!
# What a session is signed with

A signing reads the shares one by one, from the nodes that its key has had at the start of the
signing. Shares of different splits give a seed that nobody has chosen, and what is signed with it
is kept like any other signature.
-/
namespace Mpc

open Shamir Awaits Transaction

variable {p : Primitives} {env : Env} {s s' : State} {keyId : KeyId} {sessionId : SessionId}
  {nodeId : NodeId} {key key' : ManagedKey} {session session' : SigningSession}
  {nodes : List NodeId} {share : Option Held} {held : Held} {c : Collection} {seed : Bytes}
  {x : Call} {task : Task} {r : Signing} {t : Turn Task (Except String Result)}
  {g : Config State Task} {a : Act Call Env}

/-- What is signed with a seed verifies with its public key. -/
def SignsCorrectly (p : Primitives) : Prop :=
  ∀ seed message publicKey signature, publicKeyFromSeed p seed = .ok publicKey →
    sign p seed message = .ok signature → verify p publicKey message signature = .ok true

/-- The signature verifies with a public key that the key has had since the start of the session. -/
def Verified (p : Primitives) (r : Signing) : Prop :=
  ∃ publicKey ∈ r.publicKeys, ∃ signature ∈ r.session.signature,
    verify p publicKey r.session.payload signature = .ok true

/-- Shares of one split, as many as its threshold. -/
def OneGeneration (shares : List Held) : Prop :=
  ∃ origin : Origin, (∀ held ∈ shares, held.origin = origin) ∧ origin.threshold ≤ shares.length

/-- A seed is reconstructed from shares of one split, as many as its threshold. -/
def CollectsOneSplit (g : Config State Task) : Act Call Env → Prop
  | .call .. => True
  | .resume i _ => ∀ c, g.tasks[i]? = some (.collected c) → OneGeneration c.collected

/-- No mixing: a seed is reconstructed from shares of one split, and no change of members hands out
a seed that a rotation has replaced. -/
def Unmixed (g : Config State Task) (a : Act Call Env) : Prop :=
  EndsBeforeRotation Set.univ g a ∧ CollectsOneSplit g a

/-! ## What is known of a signing in progress -/

/-- The public key of the seed of a share is one of those since the start of the session. -/
def Known (p : Primitives) (s : State) (c : Collection) (held : Held) : Prop :=
  p.ed25519PublicKey held.origin.secret ∈ s.publicKeys c.sessionId

structure InProgress (p : Primitives) (s : State) (c : Collection) : Prop where
  session : ∃ session, s.sessions c.sessionId = some session ∧ session.keyId = c.keyId ∧
    session.payload = c.payload
  collected : ∀ held ∈ c.collected, Known p s c held

/-- So are those of the shares that are still to be read. -/
def Reads (p : Primitives) (s : State) (c : Collection) (nodes : List NodeId) : Prop :=
  ∀ nodeId ∈ nodes, ∀ held ∈ s.hsm c.keyId nodeId, Known p s c held

def SigningSound (p : Primitives) (s : State) : Task → Prop
  | .asking c nodeId rest _ => InProgress p s c ∧ Reads p s c (nodeId :: rest)
  | .reading c rest share => InProgress p s c ∧ Reads p s c rest ∧ ∀ held ∈ share, Known p s c held
  | .collected c => InProgress p s c
  | .signature c signature => InProgress p s c ∧ ∃ publicKey ∈ s.publicKeys c.sessionId,
      verify p publicKey c.payload signature = .ok true
  | _ => True

/-! ## What a turn leaves of the signings -/

/-- New shares are those of a seed whose public key is that of the key. -/
structure Carries (p : Primitives) (s s' : State) : Prop where
  grows : Grows s s'
  publicKeys : ∀ sessionId, (s.sessions sessionId).isSome →
    s.publicKeys sessionId ⊆ s'.publicKeys sessionId
  shares : ∀ keyId nodeId held, s'.hsm keyId nodeId = some held →
    s.hsm keyId nodeId = some held ∨
      ∃ key, s'.keys keyId = some key ∧ p.ed25519PublicKey held.origin.secret = key.publicKey

theorem putAll_from {table : NodeId → Option Held} {shares : List Held}
    (hlength : nodes.length = shares.length) (h : putAll table nodes shares nodeId = some held) :
    table nodeId = some held ∨ held ∈ shares := by
  by_cases hmem : nodeId ∈ nodes
  · obtain ⟨put, hput, he⟩ := putAll_mem table hlength hmem
    obtain rfl := Option.some.inj (he.symm.trans h)
    exact .inr hput
  · rw [putAll_other hmem] at h
    exact .inl h

/-- Shares of one split that are put somewhere are those of the seed of the key. -/
theorem OneSplit.shares {shares : List Held} {table : NodeId → Option Held} {id : KeyId}
    (h : OneSplit p key shares) (hlength : nodes.length = shares.length)
    (htable : ∀ nodeId held, table nodeId = some held → s.hsm id nodeId = some held)
    (hkeys : s'.keys = Function.update s.keys id (some key))
    (hhsm : s'.hsm = Function.update s.hsm id (putAll table nodes shares)) :
    ∀ keyId nodeId held, s'.hsm keyId nodeId = some held →
      s.hsm keyId nodeId = some held ∨
        ∃ key, s'.keys keyId = some key ∧
          p.ed25519PublicKey held.origin.secret = key.publicKey := by
  intro keyId nodeId held hheld
  by_cases he : keyId = id
  · subst he
    rw [hhsm, Function.update_self] at hheld
    obtain hold | hnew := putAll_from hlength hheld
    · exact .inl (htable nodeId held hold)
    · obtain ⟨origin, horigin, hshares⟩ := h
      refine .inr ⟨key, keys_self hkeys, ?_⟩
      rw [hshares held hnew, horigin.publicKey]
  · rw [hhsm, Function.update_of_ne he] at hheld
    exact .inl hheld

theorem startedState_sessions : (startedState s sessionId key session).sessions =
    Function.update s.sessions sessionId (some session) := rfl

theorem startedState_publicKeys : (startedState s sessionId key session).publicKeys =
    Function.update s.publicKeys sessionId [key.publicKey] := rfl

theorem rotatedState_publicKeys {threshold : Nat} {publicKey : Bytes} {shares : List Held} :
    (rotatedState s keyId key threshold nodes publicKey shares).publicKeys =
      notePublicKey s keyId publicKey := rfl

theorem Called.carries (h : Called p env s x t s') : Carries p s s' := by
  refine ⟨h.grows, ?_, ?_⟩
  · intro id hsome publicKey hmem
    cases h with
    | quiet same => rwa [same.publicKeys]
    | @started id' _ _ _ key _ hunused _ _ =>
      have hne : id ≠ id' := by
        rintro rfl
        rw [hunused] at hsome
        contradiction
      rwa [startedState_publicKeys, Function.update_of_ne hne]
    | @rotated keyId _ _ _ _ publicKey _ _ _ _ =>
      rw [rotatedState_publicKeys, notePublicKey]
      split
      · exact List.mem_append_left _ hmem
      · exact hmem
    | _ => exact hmem
  · cases h with
    | quiet same =>
      intro keyId nodeId held hheld
      rw [same.hsm] at hheld
      exact .inl hheld
    | made _ hdealt _ =>
      exact hdealt.oneSplit.shares hdealt.split.length.symm (fun _ _ hold => hold)
        madeState_keys rfl
    | rotated _ hdealt =>
      exact hdealt.oneSplit.shares hdealt.split.length.symm (deleteAll_subset _ _)
        rotatedState_keys rfl
    | @revoked id _ _ _ =>
      intro keyId nodeId held hheld
      by_cases he : keyId = id
      · subst he
        rw [revokedState, setKey_hsm, setShares_hsm, Function.update_self] at hheld
        contradiction
      · rw [revokedState, setKey_hsm, setShares_hsm, Function.update_of_ne he] at hheld
        exact .inl hheld
    | _ => exact fun _ _ _ hheld => .inl hheld

theorem Resumed.carries (h : Resumed p env s task t s') (hread : ReadSound p Set.univ s task)
    (hends : ∀ m nodes shares version, task = .deleting m nodes shares version →
      s.rotations m.keyId = m.rotations) : Carries p s s' := by
  refine ⟨h.grows, ?_, ?_⟩
  · intro id _
    cases h with
    | _ => exact List.Subset.refl _
  · cases h with
    | @reshared m _ key _ _ _ _ _ =>
      intro keyId nodeId held hheld
      by_cases he : keyId = m.keyId
      · subst he
        rw [setShares_hsm, Function.update_self] at hheld
        exact .inl (deleteAll_subset _ _ _ _ hheld)
      · rw [setShares_hsm, Function.update_of_ne he] at hheld
        exact .inl hheld
    | @changed m nodes shares version key _ hfound hlength =>
      have hrotations := hends m nodes shares version rfl
      obtain ⟨hsplit, _⟩ := (hread.2 trivial).unrotated hrotations key hfound
      have hsame : SameSeed key { key with nodes, version := key.version + 1 } := ⟨rfl, rfl⟩
      exact (hsplit.same hsame).shares hlength (fun _ _ hold => hold) changedState_keys rfl
    | _ => exact fun _ _ _ hheld => .inl hheld

/-! ## The public keys of the sessions -/

/-- The public key of a session's key is one of those since its start. -/
def Current (s : State) : Prop :=
  ∀ sessionId session, s.sessions sessionId = some session →
    ∃ key, s.keys session.keyId = some key ∧ key.publicKey ∈ s.publicKeys sessionId

theorem Current.update_session (h : Current s) (hold : s.sessions sessionId = some session)
    (hs : s'.sessions = Function.update s.sessions sessionId (some session'))
    (hkeyId : session'.keyId = session.keyId) (hkeys : s'.keys = s.keys)
    (hpublicKeys : s'.publicKeys = s.publicKeys) : Current s' := by
  intro id found hfound
  rw [hs] at hfound
  rw [hkeys, hpublicKeys]
  by_cases he : id = sessionId
  · subst he
    rw [Function.update_self] at hfound
    rw [← Option.some.inj hfound, hkeyId]
    exact h id session hold
  · rw [Function.update_of_ne he] at hfound
    exact h id found hfound

theorem Current.update_key (h : Current s) (hold : s.keys keyId = some key)
    (hkeys : s'.keys = Function.update s.keys keyId (some key'))
    (hpublicKey : key'.publicKey = key.publicKey) (hs : s'.sessions = s.sessions)
    (hpublicKeys : s'.publicKeys = s.publicKeys) : Current s' := by
  intro id session hsession
  rw [hs] at hsession
  obtain ⟨found, hfound, hmem⟩ := h id session hsession
  rw [hpublicKeys]
  by_cases he : session.keyId = keyId
  · rw [he] at hfound ⊢
    obtain rfl := Option.some.inj (hold.symm.trans hfound)
    exact ⟨key', keys_self hkeys, hpublicKey ▸ hmem⟩
  · exact ⟨found, (keys_other hkeys he).trans hfound, hmem⟩

theorem Called.current (h : Called p env s x t s') (hc : Current s) : Current s' := by
  cases h with
  | quiet same =>
    intro id session hsession
    rw [same.keys, same.publicKeys]
    exact hc id session ((congrFun same.sessions id).symm.trans hsession)
  | @made keyId _ _ _ _ _ _ hunused _ _ =>
    intro id session hsession
    obtain ⟨found, hfound, hmem⟩ := hc id session hsession
    have hne : session.keyId ≠ keyId := by
      rintro rfl
      rw [hunused] at hfound
      contradiction
    exact ⟨found, (keys_other madeState_keys hne).trans hfound, hmem⟩
  | @started sessionId keyId payload timeoutMs key _ _ hkey _ =>
    intro id session hsession
    rw [startedState_sessions] at hsession
    rw [startedState_publicKeys]
    by_cases he : id = sessionId
    · subst he
      rw [Function.update_self] at hsession ⊢
      obtain rfl := Option.some.inj hsession
      exact ⟨key, hkey, List.mem_singleton_self _⟩
    · rw [Function.update_of_ne he] at hsession ⊢
      exact hc id session hsession
  | looked hfound => exact hc.update_session hfound rfl (same_maybeExpire ..).keyId rfl rfl
  | rejected hcontributes _ => exact hc.update_session hcontributes.found rfl rfl rfl rfl
  | approved hcontributes _ =>
    exact hc.update_session hcontributes.found rfl contributed_keyId rfl rfl
  | completed hcontributes _ _ _ =>
    exact hc.update_session hcontributes.found rfl contributed_keyId rfl rfl
  | @rotated keyId _ _ _ key publicKey _ _ hfound _ =>
    intro id session hsession
    obtain ⟨found, hold, hmem⟩ := hc id session hsession
    rw [rotatedState_publicKeys, notePublicKey]
    by_cases he : session.keyId = keyId
    · rw [if_pos ⟨session, hsession, he⟩]
      rw [he]
      exact ⟨_, keys_self rotatedState_keys,
        List.mem_append_right _ (List.mem_singleton_self publicKey)⟩
    · have hother : ¬ ∃ session ∈ s.sessions id, session.keyId = keyId := by
        rintro ⟨same, hsame, hid⟩
        obtain rfl := Option.some.inj (hsession.symm.trans hsame)
        exact he hid
      rw [if_neg hother]
      exact ⟨found, (keys_other rotatedState_keys he).trans hold, hmem⟩
  | revoked hfound => exact hc.update_key hfound revokedState_keys rfl rfl rfl
  | adding => exact hc
  | removing => exact hc

theorem Resumed.current (h : Resumed p env s task t s') (hc : Current s) : Current s' := by
  cases h with
  | signed hsession _ => exact hc.update_session hsession rfl rfl rfl rfl
  | caught hsession => exact hc.update_session hsession rfl rfl rfl rfl
  | refreshed hsession => exact hc.update_session hsession rfl (same_maybeExpire ..).keyId rfl rfl
  | changed hfound _ => exact hc.update_key hfound changedState_keys rfl rfl rfl
  | _ => exact hc

/-! ## The signings of a turn -/

theorem Known.carries (h : Known p s c held) (hsome : (s.sessions c.sessionId).isSome)
    (hc : Carries p s s') : Known p s' c held := hc.publicKeys c.sessionId hsome h

theorem InProgress.isSome (h : InProgress p s c) : (s.sessions c.sessionId).isSome := by
  obtain ⟨session, hsession, _⟩ := h.session
  exact Option.isSome_of_eq_some hsession

theorem InProgress.carries (h : InProgress p s c) (hc : Carries p s s') : InProgress p s' c where
  session := by
    obtain ⟨session, hsession, hkeyId, hpayload⟩ := h.session
    obtain ⟨session', hsession', hcontinues⟩ := hc.grows c.sessionId session hsession
    exact ⟨session', hsession', hcontinues.keyId.trans hkeyId, hcontinues.payload.trans hpayload⟩
  collected := fun held hmem => (h.collected held hmem).carries h.isSome hc

/-- The shares that have come since are those of the seed of the key, which is known by now. -/
theorem Reads.carries (h : Reads p s c nodes) (hi : InProgress p s c) (hc : Carries p s s')
    (hcurrent : Current s') : Reads p s' c nodes := by
  intro nodeId hmem held hheld
  obtain hold | ⟨key, hkey, hpublicKey⟩ := hc.shares c.keyId nodeId held hheld
  · exact (h nodeId hmem held hold).carries hi.isSome hc
  · obtain ⟨session, hsession, hkeyId, _⟩ := (hi.carries hc).session
    obtain ⟨found, hfound, hknown⟩ := hcurrent c.sessionId session hsession
    rw [hkeyId] at hfound
    obtain rfl := Option.some.inj (hkey.symm.trans hfound)
    rw [Known, hpublicKey]
    exact hknown

theorem SigningSound.carries (h : SigningSound p s task) (hc : Carries p s s')
    (hcurrent : Current s') : SigningSound p s' task := by
  cases task with
  | asking c nodeId rest available => exact ⟨h.1.carries hc, h.2.carries h.1 hc hcurrent⟩
  | reading c rest share =>
    exact ⟨h.1.carries hc, h.2.1.carries h.1 hc hcurrent,
      fun held hmem => (h.2.2 held hmem).carries h.1.isSome hc⟩
  | collected c => exact InProgress.carries h hc
  | signature c signature =>
    obtain ⟨hi, publicKey, hmem, hverify⟩ := h
    exact ⟨hi.carries hc, publicKey, hc.publicKeys c.sessionId hi.isSome hmem, hverify⟩
  | _ => trivial

theorem signingSound_nextNode (hi : InProgress p s c) (hr : Reads p s c nodes) :
    SigningSound p s (nextNode c nodes s') := by
  apply nextNode_rule nodes s'
  · exact fun _ => trivial
  · exact fun _ => hi
  · rintro _ nodeId rest _ rfl
    exact ⟨hi, hr⟩

theorem sign_ok {signature message : Bytes} (h : sign p seed message = .ok signature) :
    publicKeyFromSeed p seed = .ok (p.ed25519PublicKey seed) := by
  obtain ⟨_, hseed, _⟩ := bind_returns h
  rw [publicKeyFromSeed, hseed]
  rfl

theorem signingSound_signCollected (hp : SignsCorrectly p) (hi : InProgress p s c)
    (hone : OneGeneration c.collected) : SigningSound p s (signCollected p c) := by
  rw [signCollected]
  split
  next => trivial
  next seed hseed =>
    split
    next => trivial
    next signature hsignature =>
      obtain ⟨origin, horigin, henough⟩ := hone
      have hsecret := reconstruct_of_origin hseed horigin henough
      -- there is a share, and its seed is the one that has signed
      obtain ⟨held, hheld⟩ : ∃ held, held ∈ c.collected := by
        have htwo := (reconstruct_checks hseed).2
        rw [List.length_map] at htwo
        exact ⟨_, List.getElem_mem (Nat.zero_lt_of_lt htwo)⟩
      have hknown := hi.collected held hheld
      rw [Known, horigin held hheld, ← hsecret] at hknown
      exact ⟨hi, _, hknown, hp _ _ _ _ (sign_ok hsignature) hsignature⟩

theorem Called.signingSound (h : Called p env s x t s') (hg : Genuine p Set.univ s)
    (hc : Current s) :
    ∀ task ∈ t.tasks, SigningSound p s' task := by
  have hdone {r : Except String Result} :
      ∀ task ∈ (Turn.done r : Turn Task (Except String Result)).tasks, SigningSound p s' task :=
    fun _ hmem => absurd hmem List.not_mem_nil
  cases h with
  | @completed sessionId nodeId signature session node tracker key hcontributes _ hkey _ =>
    intro task hmem
    rw [List.mem_singleton.mp hmem]
    apply signingSound_nextNode
    · exact ⟨⟨_, Function.update_self .., contributed_keyId, contributed_payload⟩,
        fun _ hmem => absurd hmem List.not_mem_nil⟩
    · intro nodeId hmember held hheld
      obtain ⟨origin, horigin, hshares⟩ := hg session.keyId trivial key hkey
      obtain ⟨found, hfound, hknown⟩ := hc sessionId session hcontributes.found
      obtain rfl := Option.some.inj (hkey.symm.trans hfound)
      change p.ed25519PublicKey held.origin.secret ∈ s.publicKeys sessionId
      rw [hshares nodeId hmember held hheld, horigin.publicKey]
      exact hknown
  | adding =>
    intro task hmem
    rw [List.mem_singleton.mp hmem]
    trivial
  | removing =>
    intro task hmem
    rw [List.mem_singleton.mp hmem]
    trivial
  | _ => exact hdone

theorem Resumed.signingSound (h : Resumed p env s task t s') (hp : SignsCorrectly p)
    (hsound : SigningSound p s task)
    (hone : ∀ c, task = .collected c → OneGeneration c.collected) :
    ∀ task ∈ t.tasks, SigningSound p s' task := by
  intro new hmem
  cases h with
  | @asked c nodeId rest =>
    rw [List.mem_singleton.mp hmem]
    obtain ⟨hi, hr⟩ := hsound
    refine ⟨hi, fun n hn => hr n (List.mem_cons_of_mem _ hn), fun held hheld => ?_⟩
    rw [State.getShare] at hheld
    split at hheld
    · contradiction
    · exact hr nodeId List.mem_cons_self held hheld
  | skipped =>
    rw [List.mem_singleton.mp hmem]
    exact signingSound_nextNode hsound.1 fun n hn => hsound.2 n (List.mem_cons_of_mem _ hn)
  | read =>
    rw [List.mem_singleton.mp hmem]
    obtain ⟨hi, hr, hshare⟩ := hsound
    refine signingSound_nextNode ⟨hi.session, fun held hheld => ?_⟩ hr
    obtain hold | hnew := List.mem_append.mp hheld
    · exact hi.collected held hold
    · exact hshare held (Option.mem_toList.mp hnew)
  | @collected c =>
    rw [List.mem_singleton.mp hmem]
    exact signingSound_signCollected hp hsound (hone c rfl)
  | signed =>
    rw [List.mem_singleton.mp hmem]
    trivial
  | checked =>
    rw [List.mem_singleton.mp hmem]
    trivial
  | reshared =>
    rw [List.mem_singleton.mp hmem]
    trivial
  | ended => contradiction
  | caught => contradiction
  | refreshed => contradiction
  | changed => contradiction

theorem Called.verified (h : Called p env s x t s') (hv : ∀ r ∈ s.signings, Verified p r) :
    ∀ r ∈ s'.signings, Verified p r := by
  cases h with
  | quiet same => rwa [same.signings]
  | _ => exact hv

theorem Resumed.verified (h : Resumed p env s task t s') (hsound : SigningSound p s task)
    (hv : ∀ r ∈ s.signings, Verified p r) : ∀ r ∈ s'.signings, Verified p r := by
  cases h with
  | @signed c signature session key hsession hkey =>
    intro r hmem
    obtain hold | hlast := List.mem_append.mp hmem
    · exact hv r hold
    · rw [List.mem_singleton.mp hlast]
      obtain ⟨hi, publicKey, hpublicKey, hverify⟩ := hsound
      obtain ⟨found, hfound, _, hpayload⟩ := hi.session
      obtain rfl := Option.some.inj (hsession.symm.trans hfound)
      rw [← hpayload] at hverify
      exact ⟨publicKey, hpublicKey, signature, rfl, hverify⟩
  | _ => exact hv

/-! ## Every run -/

theorem keeps_signingSound (hp : SignsCorrectly p) :
    KeepsOn (coordinator p) (Genuine p Set.univ) (ReadSound p Set.univ) Unmixed
      (fun s => Current s ∧ ∀ r ∈ s.signings, Verified p r) (SigningSound p) where
  call := by
    intro g x env t s _ hshares hsound h _
    have hcalled := called_of_call h
    obtain ⟨hcurrent, hverified⟩ := hsound.state
    have hnext := hcalled.current hcurrent
    exact ⟨⟨hnext, hcalled.verified hverified⟩,
      fun _ _ htask => htask.carries hcalled.carries hnext,
      hcalled.signingSound hshares.state hcurrent⟩
  resume := by
    intro g i env task t s hq hshares hsound hwaiting h _
    have hresumed := resumed_of_resume h
    have hmem := List.mem_of_getElem? hwaiting
    obtain ⟨hcurrent, hverified⟩ := hsound.state
    have hnext := hresumed.current hcurrent
    have hcarries : Carries p g.state s := by
      apply hresumed.carries (hshares.tasks task hmem)
      rintro m nodes shares version rfl
      exact hq.1 m nodes shares version hwaiting trivial
    refine ⟨⟨hnext, hresumed.verified (hsound.tasks task hmem) hverified⟩,
      fun _ _ htask => htask.carries hcarries hnext,
      hresumed.signingSound hp (hsound.tasks task hmem) ?_⟩
    rintro c rfl
    exact hq.2 c hwaiting

/-- Signatures verify in every run that does not mix shares. -/
theorem verified_of_unmixed (p : Primitives) (hp : SignsCorrectly p)
    (nodes : NodeId → Option MpcNode) (acts : List (Act Call Env))
    (h : Along (machine (coordinator p)) Unmixed ⟨start nodes, []⟩ acts) :
    ∀ r ∈ (run (machine (coordinator p)) ⟨start nodes, []⟩ acts).state.signings, Verified p r := by
  have hgenuine : Genuine p Set.univ (start nodes) := by
    intro keyId _ key hkey
    contradiction
  have hcurrent : Current (start nodes) := by
    intro sessionId session hsession
    contradiction
  have hkeeps := (keeps_genuine p Set.univ).and (keeps_signingSound hp)
  have hboth := h.imp fun g a hq => And.intro hq.1 hq
  have hsound := sound_run hkeeps hboth
    ⟨⟨hgenuine, hcurrent, fun _ hmem => absurd hmem List.not_mem_nil⟩,
      fun _ hmem => absurd hmem List.not_mem_nil⟩
  exact hsound.state.2.2

/-! ## Two runs of a signing -/

/-- The first 32 bytes of a message that is continued with zeros. -/
def fit (message : Bytes) : Bytes := (message ++ List.replicate 32 0).take 32

/-- Signatures that are the seed and a fitted message. -/
def fittingPrimitives : Primitives where
  ed25519PublicKey := fun seed => seed
  ed25519Sign := fun seed message => seed ++ fit message
  ed25519Verify := fun publicKey message signature => signature == publicKey ++ fit message
  sha256 := fun message => message

theorem fitting_signsCorrectly : SignsCorrectly fittingPrimitives := by
  intro seed message publicKey signature hpublicKey hsignature
  obtain ⟨_, hseed, hpublicKey⟩ := bind_returns hpublicKey
  obtain ⟨_, _, hsignature⟩ := bind_returns hsignature
  obtain rfl := Except.ok.inj hpublicKey
  obtain rfl := Except.ok.inj hsignature
  rw [assertSeed] at hseed
  split_ifs at hseed with hlength
  have hseed : seed.length = 32 := not_not.mp hlength
  have hfit : (fit message).length = 32 := by
    rw [fit, List.length_take, List.length_append, List.length_replicate]
    omega
  simp [verify, fittingPrimitives, hseed, hfit]

def approves (nodeId : NodeId) : Act Call Env :=
  .call (.contribute "s" nodeId
    (List.replicate 32 9 ++ fit (messageDigest fittingPrimitives "s" [7]))) (atTime 1)

def goesOn : Act Call Env := .resume 0 (atTime 1)

/-- A key with the threshold 2, a session of it, and two approvals. -/
def signingApproved : List (Act Call Env) :=
  [.call (.runCeremony "k" 2 ["a", "b", "c"] (List.replicate 32 1)) (atTime 0),
    .call (.startSigningSession "s" "k" [7] none) (atTime 0), approves "a", approves "b"]

/-- The tasks whose resumption `Unmixed` is about. -/
def needsCare : Option Task → Bool
  | some (.collected _) => true
  | some (.deleting ..) => true
  | _ => false

theorem unmixed_resume {i : Nat} (h : needsCare g.tasks[i]? = false) :
    Unmixed g (.resume i env) := by
  constructor
  · intro m nodes shares version hwaiting _
    rw [hwaiting] at h
    contradiction
  · intro c hwaiting
    rw [hwaiting] at h
    contradiction

def originsOf : Option Task → List Origin
  | some (.collected c) => c.collected.map (·.origin)
  | _ => []

theorem unmixed_collected {i : Nat} (origin : Origin) (n : Nat)
    (h : originsOf g.tasks[i]? = List.replicate (n + 1) origin) (hn : origin.threshold ≤ n + 1) :
    Unmixed g (.resume i env) := by
  constructor
  · intro m nodes shares version hwaiting _
    rw [hwaiting] at h
    contradiction
  · intro c hwaiting
    rw [hwaiting] at h
    have hlength := congrArg List.length h
    rw [originsOf, List.length_map, List.length_replicate] at hlength
    refine ⟨origin, fun held hheld => ?_, hlength ▸ hn⟩
    have hmem : held.origin ∈ List.replicate (n + 1) origin := h ▸ List.mem_map_of_mem hheld
    exact List.eq_of_mem_replicate hmem

set_option maxRecDepth 4000 in
theorem signed_verified :
    let signings := (run (machine (coordinator fittingPrimitives)) ⟨start quorumNodes, []⟩
      (signingApproved ++ [goesOn, goesOn, goesOn, goesOn, goesOn, goesOn])).state.signings
    signings.length = 1 ∧ ∀ r ∈ signings, Verified fittingPrimitives r := by
  refine ⟨by decide +kernel, ?_⟩
  refine verified_of_unmixed fittingPrimitives fitting_signsCorrectly quorumNodes _ ?_
  exact ⟨⟨trivial, trivial⟩, ⟨trivial, trivial⟩, ⟨trivial, trivial⟩, ⟨trivial, trivial⟩,
    unmixed_resume (by decide +kernel), unmixed_resume (by decide +kernel),
    unmixed_resume (by decide +kernel), unmixed_resume (by decide +kernel),
    unmixed_collected ⟨List.replicate 32 1, 2, fun i k => (atTime 0).random i k⟩ 1 rfl le_rfl,
    unmixed_resume (by decide +kernel), trivial⟩

/-- The key is rotated between the two reads. -/
def rotatedMeanwhile : List (Act Call Env) :=
  signingApproved ++ [goesOn, goesOn,
    .call (.rotateKey "k" none none (List.replicate 32 2)) (atTime 1),
    goesOn, goesOn, goesOn, goesOn]

theorem fitting_verify {publicKey message signature : Bytes}
    (h : verify fittingPrimitives publicKey message signature = .ok true) :
    signature = publicKey ++ fit message := by
  rw [verify] at h
  split_ifs at h
  · contradiction
  · exact beq_iff_eq.mp (Except.ok.inj h)

/-- A signature by a seed that begins with a zero, for public keys that do not. -/
theorem not_verified_of_zero {signings : List Signing}
    (h : (signings.map fun r => (r.publicKeys, r.session.signature.map (·.take 1))) =
      [([List.replicate 32 1, List.replicate 32 2], some [0])]) :
    ¬ ∀ r ∈ signings, Verified fittingPrimitives r := by
  intro hall
  obtain ⟨r, rfl⟩ : ∃ r, signings = [r] := by
    apply List.length_eq_one_iff.mp
    rw [← List.length_map, h]
    rfl
  simp only [List.map_cons, List.map_nil, List.cons.injEq, Prod.mk.injEq, and_true] at h
  obtain ⟨hpublicKeys, hfirst⟩ := h
  obtain ⟨publicKey, hmem, signature, hfound, hverify⟩ := hall r (List.mem_singleton_self r)
  rw [hpublicKeys] at hmem
  rw [Option.mem_def.mp hfound, Option.map_some, fitting_verify hverify] at hfirst
  -- but the public keys begin with one and with two
  obtain rfl | hlast := List.mem_cons.mp hmem
  · simp at hfirst
  · rw [List.mem_singleton.mp hlast] at hfirst
    simp at hfirst

/-- The seed that comes out begins with a zero. -/
theorem mixed_signature :
    let signings := (run (machine (coordinator fittingPrimitives)) ⟨start quorumNodes, []⟩
      rotatedMeanwhile).state.signings
    SignsCorrectly fittingPrimitives ∧
      (signings.map fun r => (r.publicKeys, r.session.signature.map (·.take 1))) =
        [([List.replicate 32 1, List.replicate 32 2], some [0])] ∧
        ¬ ∀ r ∈ signings, Verified fittingPrimitives r := by
  intro signings
  have hsignings : (signings.map fun r => (r.publicKeys, r.session.signature.map (·.take 1))) =
      [([List.replicate 32 1, List.replicate 32 2], some [0])] := by
    decide +kernel
  exact ⟨fitting_signsCorrectly, hsignings, not_verified_of_zero hsignings⟩

end Mpc
