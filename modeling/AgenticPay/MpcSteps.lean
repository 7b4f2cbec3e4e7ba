import AgenticPay.MpcCoordinator

/-!
# What a turn of the coordinator can do

Every call and every resumption is one of a few steps, with what it has checked, the task that it
leaves and the state that it leaves. What holds of runs is derived from these steps.
-/
namespace Mpc

open Shamir Awaits Transaction

/-! ## Records and tables -/

section Tables

variable (s : State) (keyId : KeyId) (sessionId : SessionId) (key : ManagedKey)
  (session : SigningSession) (held : NodeId → Option Held)

@[simp] theorem setKey_keys : (s.setKey keyId key).keys = Function.update s.keys keyId (some key) :=
  rfl
@[simp] theorem setKey_sessions : (s.setKey keyId key).sessions = s.sessions := rfl
@[simp] theorem setKey_hsm : (s.setKey keyId key).hsm = s.hsm := rfl
@[simp] theorem setSession_keys : (s.setSession sessionId session).keys = s.keys := rfl
@[simp] theorem setSession_sessions : (s.setSession sessionId session).sessions =
    Function.update s.sessions sessionId (some session) := rfl
@[simp] theorem setSession_hsm : (s.setSession sessionId session).hsm = s.hsm := rfl
@[simp] theorem setShares_keys : (s.setShares keyId held).keys = s.keys := rfl
@[simp] theorem setShares_sessions : (s.setShares keyId held).sessions = s.sessions := rfl
@[simp] theorem setShares_hsm : (s.setShares keyId held).hsm = Function.update s.hsm keyId held :=
  rfl

end Tables

/-! ## The steps -/

/-- The shares of a split, which know where they come from. -/
structure SplitOf (env : Env) (seed : Bytes) (threshold totalShares : Nat) (shares : List Held) :
    Prop where
  accepts : Accepts seed threshold totalShares
  length : shares.length = totalShares
  origin : ∀ held ∈ shares, held.origin = ⟨seed, threshold, fun i k => env.random i k⟩

/-- What `ceremonyShares` and `rotationShares` check, and what they give. -/
structure Dealt (p : Primitives) (env : Env) (s : State) (threshold : Nat) (nodes : List NodeId)
    (seed publicKey : Bytes) (shares : List Held) : Prop where
  two_le : 2 ≤ threshold
  threshold_le : threshold ≤ nodes.length
  active : assertAllNodesActive s nodes = .ok ()
  publicKey : publicKeyFromSeed p seed = .ok publicKey
  split : SplitOf env seed threshold nodes.length shares

/-- A turn that leaves all that the coordinator and the backend have stored. -/
structure Quiet (s s' : State) : Prop where
  keys : s'.keys = s.keys
  sessions : s'.sessions = s.sessions
  tracker : s'.tracker = s.tracker
  hsm : s'.hsm = s.hsm
  publicKeys : s'.publicKeys = s.publicKeys
  rotations : s'.rotations = s.rotations
  updates : s'.updates = s.updates
  signings : s'.signings = s.signings

def madeState (s : State) (keyId : KeyId) (threshold : Nat) (nodes : List NodeId)
    (publicKey : Bytes) (shares : List Held) : State :=
  (s.setShares keyId (putAll (s.hsm keyId) nodes shares)).setKey keyId
    { publicKey, threshold, nodes, status := .active, version := 1 }

def rotatedState (s : State) (keyId : KeyId) (key : ManagedKey) (threshold : Nat)
    (nodes : List NodeId) (publicKey : Bytes) (shares : List Held) : State :=
  { (s.setShares keyId (putAll (deleteAll (s.hsm keyId) key.nodes) nodes shares)).setKey keyId
      { publicKey, threshold, nodes, status := .active, version := key.version + 1 } with
    publicKeys := notePublicKey s keyId publicKey
    rotations := Function.update s.rotations keyId (s.rotations keyId + 1)
    updates := Function.update s.updates keyId [] }

def newSession (env : Env) (keyId : KeyId) (key : ManagedKey) (payload : Bytes)
    (timeoutMs : Option Int) : SigningSession :=
  { keyId, payload, expiresAt := env.now + timeoutMs.getD defaultSigningTimeoutMs,
    status := .pending, quorum := key.nodes, contributions := [], signature := none,
    failureReason := none }

def startedState (s : State) (sessionId : SessionId) (key : ManagedKey)
    (session : SigningSession) : State :=
  { s.setSession sessionId session with
    publicKeys := Function.update s.publicKeys sessionId [key.publicKey] }

def revokedState (s : State) (keyId : KeyId) (key : ManagedKey) : State :=
  (s.setShares keyId fun _ => none).setKey keyId { key with status := .revoked }

/-- The change of members that starts to read the shares of a key. -/
def changeOf (s : State) (keyId : KeyId) (key : ManagedKey) (nodeId : NodeId)
    (remaining : Option (List NodeId)) : MemberChange :=
  { keyId, nodeId, remaining, rotations := s.rotations keyId, version := key.version }

/-- A contribution to a pending session by a node of its quorum. -/
structure Contributes (s : State) (sessionId : SessionId) (nodeId : NodeId)
    (session : SigningSession) (node : MpcNode) : Prop where
  found : s.sessions sessionId = some session
  pending : session.status = .pending
  member : nodeId ∈ session.quorum
  registered : s.nodes nodeId = some node

/-- The approval of a contribution is checked against the identity key of its node. -/
def approval (p : Primitives) (s : State) (sessionId : SessionId) (nodeId : NodeId)
    (signature : Bytes) (session : SigningSession) (node : MpcNode) :
    Except String EquivocationResult :=
  recordApproval p s.tracker sessionId nodeId node.identityPublicKey
    (messageDigest p sessionId session.payload) signature

def contributed (session : SigningSession) (nodeId : NodeId) (signature : Bytes) (node : MpcNode) :
    SigningSession :=
  addContribution session ⟨nodeId, signature, node.identityPublicKey⟩

def approvedState (s : State) (sessionId : SessionId) (session : SigningSession)
    (tracker : EquivocationTracker) : State :=
  { s with tracker }.setSession sessionId session

/-- The signing that a contribution starts. -/
def collectionOf (sessionId : SessionId) (session : SigningSession) (key : ManagedKey) :
    Collection :=
  { sessionId, keyId := session.keyId, payload := session.payload, limit := key.threshold,
    collected := [] }

/-- What a call can do. -/
inductive Called (p : Primitives) (env : Env) (s : State) :
    Call → Turn Task (Except String Result) → State → Prop
  | quiet {c r t} (same : Quiet s t) : Called p env s c (.done r) t
  | made {keyId threshold nodes seed publicKey shares r} (unused : s.keys keyId = none)
      (dealt : Dealt p env s threshold nodes seed publicKey shares) (nodup : nodes.Nodup) :
      Called p env s (.runCeremony keyId threshold nodes seed) (.done r)
        (madeState s keyId threshold nodes publicKey shares)
  | started {sessionId keyId payload timeoutMs key r} (unused : s.sessions sessionId = none)
      (found : s.keys keyId = some key) (active : key.status = .active) :
      Called p env s (.startSigningSession sessionId keyId payload timeoutMs) (.done r)
        (startedState s sessionId key (newSession env keyId key payload timeoutMs))
  | looked {c sessionId session r} (found : s.sessions sessionId = some session) :
      Called p env s c (.done r) (s.setSession sessionId (maybeExpire env session))
  | rejected {sessionId nodeId signature session node reason r}
      (contributes : Contributes s sessionId nodeId session node)
      (faulty : approval p s sessionId nodeId signature session node = .ok .badSignature ∨
        approval p s sessionId nodeId signature session node = .ok .equivocation) :
      Called p env s (.contribute sessionId nodeId signature) (.done r)
        (rejectSession s sessionId session reason)
  | approved {sessionId nodeId signature session node tracker r}
      (contributes : Contributes s sessionId nodeId session node)
      (recorded : approval p s sessionId nodeId signature session node = .ok (.ok tracker)) :
      Called p env s (.contribute sessionId nodeId signature) (.done r)
        (approvedState s sessionId (contributed session nodeId signature node) tracker)
  | completed {sessionId nodeId signature session node tracker key}
      (contributes : Contributes s sessionId nodeId session node)
      (recorded : approval p s sessionId nodeId signature session node = .ok (.ok tracker))
      (found : s.keys session.keyId = some key)
      (enough : (contributed session nodeId signature node).contributions.length ≥
        key.threshold) :
      Called p env s (.contribute sessionId nodeId signature)
        (.waits (nextNode (collectionOf sessionId session key) key.nodes s))
        (approvedState s sessionId (contributed session nodeId signature node) tracker)
  | rotated {keyId nodes threshold seed key publicKey shares r}
      (found : s.keys keyId = some key)
      (dealt : Dealt p env s (threshold.getD key.threshold) (nodes.getD key.nodes) seed publicKey
        shares) :
      Called p env s (.rotateKey keyId nodes threshold seed) (.done r)
        (rotatedState s keyId key (threshold.getD key.threshold) (nodes.getD key.nodes) publicKey
          shares)
  | adding {keyId nodeId key} (found : s.keys keyId = some key) (outside : nodeId ∉ key.nodes) :
      Called p env s (.addMember keyId nodeId)
        (.waits (.sharing (changeOf s keyId key nodeId none)
          (key.nodes.filterMap (s.getShare keyId)))) s
  | removing {keyId nodeId key} (found : s.keys keyId = some key) (inside : nodeId ∈ key.nodes)
      (enough : key.threshold ≤ (key.nodes.filter (· ≠ nodeId)).length) :
      Called p env s (.removeMember keyId nodeId)
        (.waits (.sharing (changeOf s keyId key nodeId (some (key.nodes.filter (· ≠ nodeId))))
          (key.nodes.filterMap (s.getShare keyId)))) s
  | revoked {keyId key r} (found : s.keys keyId = some key) :
      Called p env s (.revokeKey keyId) (.done r) (revokedState s keyId key)

def signedState (s : State) (c : Collection) (signature : Bytes) (session : SigningSession)
    (key : ManagedKey) : State :=
  { s.setSession c.sessionId { session with signature := some signature, status := .signed } with
    signings := s.signings ++ [⟨c.sessionId,
      { session with signature := some signature, status := .signed }, key,
      s.publicKeys c.sessionId⟩] }

def changedState (s : State) (m : MemberChange) (key : ManagedKey) (nodes : List NodeId)
    (shares : List Held) : State :=
  { (s.setShares m.keyId (putAll (s.hsm m.keyId) nodes shares)).setKey m.keyId
      { key with nodes, version := key.version + 1 } with
    updates := Function.update s.updates m.keyId
      (s.updates m.keyId ++ [(m.nodeId, m.remaining.isNone)]) }

/-- What the resumption of a task can do. -/
inductive Resumed (p : Primitives) (env : Env) (s : State) :
    Task → Turn Task (Except String Result) → State → Prop
  | ended {task r} : Resumed p env s task (.done r) s
  | asked {c nodeId rest} : Resumed p env s (.asking c nodeId rest true)
      (.waits (.reading c rest (s.getShare c.keyId nodeId))) s
  | skipped {c nodeId rest} : Resumed p env s (.asking c nodeId rest false)
      (.waits (nextNode c rest s)) s
  | read {c rest share} : Resumed p env s (.reading c rest share)
      (.waits (nextNode { c with collected := c.collected ++ share.toList } rest s)) s
  | collected {c} : Resumed p env s (.collected c) (.waits (signCollected p c)) s
  | signed {c signature session key} (foundSession : s.sessions c.sessionId = some session)
      (foundKey : s.keys c.keyId = some key) : Resumed p env s (.signature c signature)
        (.waits (.finalised c.sessionId)) (signedState s c signature session key)
  | caught {sessionId reason session r} (found : s.sessions sessionId = some session) :
      Resumed p env s (.failing sessionId reason) (.done r)
        (rejectSession s sessionId session reason)
  | refreshed {sessionId session r} (found : s.sessions sessionId = some session) :
      Resumed p env s (.finalised sessionId) (.done r)
        (s.setSession sessionId (maybeExpire env session))
  | checked {m shares key} (found : s.keys m.keyId = some key)
      (enough : key.threshold ≤ shares.length) :
      Resumed p env s (.sharing m shares) (.waits (.shared m shares)) s
  | reshared {m shares key seed held} (found : s.keys m.keyId = some key)
      (secret : reconstruct (shares.map (·.share)) = .ok seed)
      (split : SplitOf env seed key.threshold (m.next key).length held) :
      Resumed p env s (.shared m shares) (.waits (.deleting m (m.next key) held key.version))
        (s.setShares m.keyId (deleteAll (s.hsm m.keyId) key.nodes))
  | changed {m nodes shares version key r} (found : s.keys m.keyId = some key)
      (length : nodes.length = shares.length) :
      Resumed p env s (.deleting m nodes shares version) (.done r)
        (changedState s m key nodes shares)

variable {p : Primitives} {env : Env} {s s' : State} {keyId : KeyId} {sessionId : SessionId}
  {nodeId : NodeId} {key : ManagedKey} {session : SigningSession} {nodes : List NodeId}
  {shares : List Held} {threshold : Nat} {seed publicKey signature : Bytes} {c : Collection}
  {m : MemberChange} {task : Task} {t : Turn Task (Except String Result)}

theorem setShares_setShares (held held' : NodeId → Option Held) :
    (s.setShares keyId held).setShares keyId held' = s.setShares keyId held' := by
  simp only [State.setShares, Function.update_idem]

theorem splitSeed_ok {totalShares : Nat}
    (h : splitSeed env seed threshold totalShares = .ok shares) :
    SplitOf env seed threshold totalShares shares := by
  rw [splitSeed] at h
  split at h
  next => contradiction
  next list hsplit =>
    obtain ⟨haccepts, hlist⟩ := split_ok.mp hsplit
    obtain rfl := Except.ok.inj h
    refine ⟨haccepts, ?_, ?_⟩
    · simp [← hlist]
    · intro held hmem
      obtain ⟨s, _, rfl⟩ := List.mem_map.mp hmem
      rfl

theorem byzantine_ok {nodeCount : Nat} {envelope : ByzantineEnvelope}
    (h : assertByzantineCompatible threshold nodeCount = .ok envelope) :
    2 ≤ threshold ∧ threshold ≤ nodeCount := by
  rw [assertByzantineCompatible] at h
  split_ifs at h with htwo hfew
  all_goals exact ⟨Nat.le_of_not_lt htwo, Nat.le_of_not_lt hfew⟩

theorem rotationShares_ok
    (h : rotationShares p env threshold nodes seed s = .ok (publicKey, shares)) :
    Dealt p env s threshold nodes seed publicKey shares := by
  obtain ⟨envelope, hbyzantine, h⟩ := bind_returns h
  obtain ⟨_, hactive, h⟩ := bind_returns h
  obtain ⟨_, hpublicKey, h⟩ := bind_returns h
  obtain ⟨_, hsplit, h⟩ := bind_returns h
  obtain ⟨rfl, rfl⟩ := Prod.mk.inj (Except.ok.inj h)
  obtain ⟨htwo, hthreshold⟩ := byzantine_ok hbyzantine
  exact ⟨htwo, hthreshold, hactive, hpublicKey, splitSeed_ok hsplit⟩

theorem ceremonyShares_ok
    (h : ceremonyShares p env threshold nodes seed s = .ok (publicKey, shares)) :
    Dealt p env s threshold nodes seed publicKey shares ∧ nodes.Nodup := by
  obtain ⟨envelope, hbyzantine, h⟩ := bind_returns h
  obtain ⟨_, hactive, h⟩ := bind_returns h
  split_ifs at h with hduplicates
  obtain ⟨_, hpublicKey, h⟩ := bind_returns h
  obtain ⟨_, hsplit, h⟩ := bind_returns h
  obtain ⟨rfl, rfl⟩ := Prod.mk.inj (Except.ok.inj h)
  obtain ⟨htwo, hthreshold⟩ := byzantine_ok hbyzantine
  refine ⟨⟨htwo, hthreshold, hactive, hpublicKey, splitSeed_ok hsplit⟩, ?_⟩
  have hsame := nodes.dedup_sublist.eq_of_length (not_not.mp hduplicates)
  rw [← hsame]
  exact nodes.nodup_dedup

theorem distributeShares_eq (h : nodes.length = shares.length) :
    distributeShares keyId nodes shares s =
      .ok (s.setShares keyId (putAll (s.hsm keyId) nodes shares)) := if_neg (not_not.mpr h)

theorem Quiet.refl (s : State) : Quiet s s := ⟨rfl, rfl, rfl, rfl, rfl, rfl, rfl, rfl⟩

/-! What the steps do to the table of the keys. -/

theorem madeState_keys : (madeState s keyId threshold nodes publicKey shares).keys =
    Function.update s.keys keyId
      (some { publicKey, threshold, nodes, status := .active, version := 1 }) := rfl

theorem rotatedState_keys : (rotatedState s keyId key threshold nodes publicKey shares).keys =
    Function.update s.keys keyId
      (some { publicKey, threshold, nodes, status := .active, version := key.version + 1 }) := rfl

theorem revokedState_keys : (revokedState s keyId key).keys =
    Function.update s.keys keyId (some { key with status := .revoked }) := rfl

theorem changedState_keys : (changedState s m key nodes shares).keys =
    Function.update s.keys m.keyId (some { key with nodes, version := key.version + 1 }) := rfl

theorem keys_self (h : s'.keys = Function.update s.keys keyId (some key)) :
    s'.keys keyId = some key := by
  rw [h, Function.update_self]

theorem keys_other {keyId' : KeyId} (h : s'.keys = Function.update s.keys keyId (some key))
    (hne : keyId' ≠ keyId) : s'.keys keyId' = s.keys keyId' := by
  rw [h, Function.update_of_ne hne]

/-- The loop that collects shares ends, with enough of them or too few, or it asks the next node. -/
theorem nextNode_rule {motive : Task → Prop} {c : Collection} (nodes : List NodeId) (s : State)
    (failing : ∀ reason, motive (.failing c.sessionId reason))
    (collected : c.limit ≤ c.collected.length → motive (.collected c))
    (asking : c.collected.length < c.limit → ∀ nodeId rest available, nodes = nodeId :: rest →
      motive (.asking c nodeId rest available)) :
    motive (nextNode c nodes s) := by
  have hend : motive (endCollection c) := by
    rw [endCollection]
    split
    next => exact failing _
    next henough => exact collected (Nat.le_of_not_lt henough)
  rw [nextNode.eq_def]
  split
  next => exact hend
  next nodeId rest =>
    split
    next => exact hend
    next hfew => exact asking (Nat.lt_of_not_le hfew) nodeId rest _ rfl

/-! ## Every call is one of the steps -/

theorem runCeremony_called {t : Turn Task (Except String Result)}
    (hunused : s.keys keyId = none)
    (h : runCeremony p env keyId threshold nodes seed s = (t, s')) :
    Called p env s (.runCeremony keyId threshold nodes seed) t s' := by
  rw [runCeremony] at h
  split at h
  next text _ =>
    obtain ⟨rfl, rfl⟩ := Prod.mk.inj h
    exact .quiet (.refl s)
  next publicKey shares hplan =>
    obtain ⟨hdealt, hnodup⟩ := ceremonyShares_ok hplan
    rw [distributeShares_eq hdealt.split.length.symm] at h
    obtain ⟨rfl, rfl⟩ := Prod.mk.inj h
    exact .made hunused hdealt hnodup

theorem startSigningSession_called {payload : Bytes} {timeoutMs : Option Int}
    (hunused : s.sessions sessionId = none)
    (h : startSigningSession env sessionId keyId payload timeoutMs s = (t, s')) :
    Called p env s (.startSigningSession sessionId keyId payload timeoutMs) t s' := by
  rw [startSigningSession] at h
  split at h
  next =>
    obtain ⟨rfl, rfl⟩ := Prod.mk.inj h
    exact .quiet (.refl s)
  next key hkey =>
    split_ifs at h with hactive
    · obtain ⟨rfl, rfl⟩ := Prod.mk.inj h
      exact .quiet (.refl s)
    · obtain ⟨rfl, rfl⟩ := Prod.mk.inj h
      exact .started hunused hkey (not_not.mp hactive)

theorem rotateKey_called {nodes : Option (List NodeId)} {threshold : Option Nat}
    (h : rotateKey p env keyId nodes threshold seed s = (t, s')) :
    Called p env s (.rotateKey keyId nodes threshold seed) t s' := by
  rw [rotateKey] at h
  split at h
  next =>
    obtain ⟨rfl, rfl⟩ := Prod.mk.inj h
    exact .quiet (.refl s)
  next key hkey =>
    dsimp only at h
    split at h
    next =>
      obtain ⟨rfl, rfl⟩ := Prod.mk.inj h
      exact .quiet (.refl s)
    next publicKey shares hplan =>
      have hdealt := rotationShares_ok hplan
      rw [distributeShares_eq hdealt.split.length.symm] at h
      simp only [setShares_setShares, setShares_hsm, Function.update_self] at h
      obtain ⟨rfl, rfl⟩ := Prod.mk.inj h
      exact .rotated hkey hdealt

theorem addMember_called (h : addMember keyId nodeId s = (t, s')) :
    Called p env s (.addMember keyId nodeId) t s' := by
  rw [addMember] at h
  split at h
  next =>
    obtain ⟨rfl, rfl⟩ := Prod.mk.inj h
    exact .quiet (.refl s)
  next key hkey =>
    split_ifs at h with hinside
    · obtain ⟨rfl, rfl⟩ := Prod.mk.inj h
      exact .quiet (.refl s)
    · split at h
      next =>
        obtain ⟨rfl, rfl⟩ := Prod.mk.inj h
        exact .quiet (.refl s)
      next =>
        obtain ⟨rfl, rfl⟩ := Prod.mk.inj h
        exact .adding hkey hinside

theorem removeMember_called (h : removeMember keyId nodeId s = (t, s')) :
    Called p env s (.removeMember keyId nodeId) t s' := by
  rw [removeMember] at h
  split at h
  next =>
    obtain ⟨rfl, rfl⟩ := Prod.mk.inj h
    exact .quiet (.refl s)
  next key hkey =>
    split at h
    next =>
      obtain ⟨rfl, rfl⟩ := Prod.mk.inj h
      exact .quiet (.refl s)
    next hinside =>
      dsimp only at h
      split_ifs at h with hfew
      · obtain ⟨rfl, rfl⟩ := Prod.mk.inj h
        exact .quiet (.refl s)
      · obtain ⟨rfl, rfl⟩ := Prod.mk.inj h
        exact .removing hkey (not_not.mp hinside) (Nat.le_of_not_lt hfew)

theorem revokeKey_called (h : revokeKey keyId s = (t, s')) :
    Called p env s (.revokeKey keyId) t s' := by
  rw [revokeKey] at h
  split at h
  next =>
    obtain ⟨rfl, rfl⟩ := Prod.mk.inj h
    exact .quiet (.refl s)
  next key hkey =>
    obtain ⟨rfl, rfl⟩ := Prod.mk.inj h
    exact .revoked hkey

theorem getSigningSession_called (h : getSigningSession env sessionId s = (t, s')) :
    Called p env s (.getSigningSession sessionId) t s' := by
  rw [getSigningSession] at h
  split at h
  next =>
    obtain ⟨rfl, rfl⟩ := Prod.mk.inj h
    exact .quiet (.refl s)
  next session hsession =>
    obtain ⟨rfl, rfl⟩ := Prod.mk.inj h
    exact .looked hsession

theorem maybeExpire_pending (h : (maybeExpire env session).status = .pending) :
    maybeExpire env session = session := by
  rw [maybeExpire] at h ⊢
  split_ifs at h ⊢
  rfl

/-- A session that is stored is stored again. -/
theorem setSession_self (h : s.sessions sessionId = some session) :
    s.setSession sessionId session = s := by
  rw [State.setSession, ← h, Function.update_eq_self]

section Contributed

variable {node : MpcNode}

theorem contributed_keyId : (contributed session nodeId signature node).keyId = session.keyId := by
  rw [contributed, addContribution]
  split <;> rfl

theorem contributed_payload : (contributed session nodeId signature node).payload =
    session.payload := by
  rw [contributed, addContribution]
  split <;> rfl

theorem contributed_status : (contributed session nodeId signature node).status =
    session.status := by
  rw [contributed, addContribution]
  split <;> rfl

theorem contributed_mem : ∃ x ∈ (contributed session nodeId signature node).contributions,
    x.nodeId = nodeId := by
  rw [contributed, addContribution]
  split
  next hany =>
    obtain ⟨x, hx, he⟩ := List.any_eq_true.mp hany
    exact ⟨x, hx, of_decide_eq_true he⟩
  next => exact ⟨_, List.mem_append_right _ (List.mem_singleton_self _), rfl⟩

end Contributed

theorem completeContribution_called {node : MpcNode} {tracker : EquivocationTracker}
    (hcontributes : Contributes s sessionId nodeId session node)
    (hrecorded : approval p s sessionId nodeId signature session node = .ok (.ok tracker))
    (h : completeContribution sessionId (contributed session nodeId signature node)
      (approvedState s sessionId (contributed session nodeId signature node) tracker) = (t, s')) :
    Called p env s (.contribute sessionId nodeId signature) t s' := by
  rw [completeContribution] at h
  split at h
  next =>
    obtain ⟨rfl, rfl⟩ := Prod.mk.inj h
    exact .approved hcontributes hrecorded
  next key hkey =>
    rw [contributed_keyId] at hkey
    split_ifs at h with henough
    · obtain ⟨rfl, rfl⟩ := Prod.mk.inj h
      have hcollection : (⟨sessionId, (contributed session nodeId signature node).keyId,
          (contributed session nodeId signature node).payload, key.threshold, []⟩ : Collection) =
          collectionOf sessionId session key := by
        rw [contributed_keyId, contributed_payload]
        rfl
      rw [hcollection]
      exact .completed hcontributes hrecorded hkey henough.1
    · obtain ⟨rfl, rfl⟩ := Prod.mk.inj h
      exact .approved hcontributes hrecorded

theorem contributePending_called (hsession : s.sessions sessionId = some session)
    (hpending : session.status = .pending)
    (h : contributePending p sessionId nodeId signature session s = (t, s')) :
    Called p env s (.contribute sessionId nodeId signature) t s' := by
  rw [contributePending] at h
  by_cases hmember : nodeId ∈ session.quorum
  · rw [if_neg (not_not.mpr hmember)] at h
    split at h
    next =>
      obtain ⟨rfl, rfl⟩ := Prod.mk.inj h
      exact .quiet (.refl s)
    next node hnode =>
      have hcontributes : Contributes s sessionId nodeId session node :=
        ⟨hsession, hpending, hmember, hnode⟩
      dsimp only at h
      split at h
      next =>
        obtain ⟨rfl, rfl⟩ := Prod.mk.inj h
        exact .quiet (.refl s)
      next hbad =>
        obtain ⟨rfl, rfl⟩ := Prod.mk.inj h
        exact .rejected hcontributes (.inl hbad)
      next hequivocates =>
        obtain ⟨rfl, rfl⟩ := Prod.mk.inj h
        exact .rejected hcontributes (.inr hequivocates)
      next tracker hrecorded => exact completeContribution_called hcontributes hrecorded h
  · rw [if_pos hmember] at h
    obtain ⟨rfl, rfl⟩ := Prod.mk.inj h
    exact .quiet (.refl s)

theorem contribute_called (h : contribute p env sessionId nodeId signature s = (t, s')) :
    Called p env s (.contribute sessionId nodeId signature) t s' := by
  rw [contribute] at h
  split at h
  next =>
    obtain ⟨rfl, rfl⟩ := Prod.mk.inj h
    exact .quiet (.refl s)
  next session hsession =>
    dsimp only at h
    split_ifs at h with hclosed
    · obtain ⟨rfl, rfl⟩ := Prod.mk.inj h
      exact .looked hsession
    -- the session is pending, and looking at it has changed nothing
    · have hsame := maybeExpire_pending (not_not.mp hclosed)
      rw [hsame, setSession_self hsession] at h
      rw [hsame] at hclosed
      exact contributePending_called hsession (not_not.mp hclosed) h

theorem called_of_call {x : Call} (h : call p x env s = some (t, s')) : Called p env s x t s' := by
  cases x with
  | runCeremony keyId threshold nodes seed =>
    rw [call] at h
    split_ifs at h with hunused
    exact runCeremony_called hunused (Option.some.inj h)
  | startSigningSession sessionId keyId payload timeoutMs =>
    rw [call] at h
    split_ifs at h with hunused
    exact startSigningSession_called hunused (Option.some.inj h)
  | contribute sessionId nodeId signature => exact contribute_called (Option.some.inj h)
  | getSigningSession sessionId => exact getSigningSession_called (Option.some.inj h)
  | rotateKey keyId nodes threshold seed => exact rotateKey_called (Option.some.inj h)
  | addMember keyId nodeId => exact addMember_called (Option.some.inj h)
  | removeMember keyId nodeId => exact removeMember_called (Option.some.inj h)
  | revokeKey keyId => exact revokeKey_called (Option.some.inj h)
  | setNode nodeId node =>
    obtain ⟨rfl, rfl⟩ := Prod.mk.inj (Option.some.inj h)
    exact .quiet ⟨rfl, rfl, rfl, rfl, rfl, rfl, rfl, rfl⟩
  | setUnavailable nodeId unavailable =>
    obtain ⟨rfl, rfl⟩ := Prod.mk.inj (Option.some.inj h)
    exact .quiet ⟨rfl, rfl, rfl, rfl, rfl, rfl, rfl, rfl⟩

/-! ## Every resumption is one of the steps -/

theorem checkShares_resumed (h : checkShares m shares s = (t, s')) :
    Resumed p env s (.sharing m shares) t s' := by
  rw [checkShares] at h
  split at h
  next =>
    obtain ⟨rfl, rfl⟩ := Prod.mk.inj h
    exact .ended
  next key hkey =>
    dsimp only at h
    split_ifs at h with hfew
    · obtain ⟨rfl, rfl⟩ := Prod.mk.inj h
      exact .ended
    · obtain ⟨rfl, rfl⟩ := Prod.mk.inj h
      exact .checked hkey (Nat.le_of_not_lt hfew)

theorem reshare_resumed (h : reshare env m shares s = (t, s')) :
    Resumed p env s (.shared m shares) t s' := by
  rw [reshare] at h
  split at h
  next =>
    obtain ⟨rfl, rfl⟩ := Prod.mk.inj h
    exact .ended
  next key hkey =>
    split at h
    next =>
      obtain ⟨rfl, rfl⟩ := Prod.mk.inj h
      exact .ended
    next seed hseed =>
      split at h
      next =>
        obtain ⟨rfl, rfl⟩ := Prod.mk.inj h
        exact .ended
      next held hheld =>
        obtain ⟨rfl, rfl⟩ := Prod.mk.inj h
        exact .reshared hkey hseed (splitSeed_ok hheld)

theorem finishChange_resumed {version : Nat} (h : finishChange m nodes shares s = (t, s')) :
    Resumed p env s (.deleting m nodes shares version) t s' := by
  rw [finishChange] at h
  split at h
  next =>
    obtain ⟨rfl, rfl⟩ := Prod.mk.inj h
    exact .ended
  next key hkey =>
    by_cases hlength : nodes.length = shares.length
    · rw [distributeShares_eq hlength] at h
      obtain ⟨rfl, rfl⟩ := Prod.mk.inj h
      exact .changed hkey hlength
    · rw [distributeShares, if_pos hlength] at h
      obtain ⟨rfl, rfl⟩ := Prod.mk.inj h
      exact .ended

theorem finaliseSession_resumed (h : finaliseSession c signature s = (t, s')) :
    Resumed p env s (.signature c signature) t s' := by
  rw [finaliseSession] at h
  split at h
  next session key hsession hkey =>
    obtain ⟨rfl, rfl⟩ := Prod.mk.inj h
    exact .signed hsession hkey
  next =>
    obtain ⟨rfl, rfl⟩ := Prod.mk.inj h
    exact .ended

theorem resumed_of_resume (h : resume p task env s = (t, s')) : Resumed p env s task t s' := by
  cases task with
  | asking c nodeId rest available =>
    cases available with
    | true =>
      obtain ⟨rfl, rfl⟩ := Prod.mk.inj h
      exact .asked
    | false =>
      obtain ⟨rfl, rfl⟩ := Prod.mk.inj h
      exact .skipped
  | reading c rest share =>
    obtain ⟨rfl, rfl⟩ := Prod.mk.inj h
    exact .read
  | collected c =>
    obtain ⟨rfl, rfl⟩ := Prod.mk.inj h
    exact .collected
  | signature c signature => exact finaliseSession_resumed h
  | failing sessionId reason =>
    rw [resume, catchFailure] at h
    split at h
    next =>
      obtain ⟨rfl, rfl⟩ := Prod.mk.inj h
      exact .ended
    next session hsession =>
      obtain ⟨rfl, rfl⟩ := Prod.mk.inj h
      exact .caught hsession
  | finalised sessionId =>
    rw [resume, refreshSession] at h
    split at h
    next =>
      obtain ⟨rfl, rfl⟩ := Prod.mk.inj h
      exact .ended
    next session hsession =>
      obtain ⟨rfl, rfl⟩ := Prod.mk.inj h
      exact .refreshed hsession
  | sharing m shares => exact checkShares_resumed h
  | shared m shares => exact reshare_resumed h
  | deleting m nodes shares version => exact finishChange_resumed h

/-! ## What a turn does to a key -/

theorem Called.key_cases {x : Call} (h : Called p env s x t s') (hkey : s.keys keyId = some key) :
    s'.keys keyId = some key ∨
      (∃ nodes threshold seed publicKey shares, x = .rotateKey keyId nodes threshold seed ∧
        Dealt p env s (threshold.getD key.threshold) (nodes.getD key.nodes) seed publicKey shares ∧
          s'.keys keyId = some
            { publicKey, threshold := threshold.getD key.threshold, nodes := nodes.getD key.nodes,
              status := .active, version := key.version + 1 } ∧
          s'.rotations keyId = s.rotations keyId + 1) ∨
        x = .revokeKey keyId ∧ s'.keys keyId = some { key with status := .revoked } := by
  cases h with
  | quiet same => exact .inl ((congrFun same.keys keyId).trans hkey)
  | @made id _ _ _ _ _ _ hunused _ _ =>
    have hne : keyId ≠ id := by
      rintro rfl
      rw [hkey] at hunused
      contradiction
    exact .inl ((keys_other madeState_keys hne).trans hkey)
  | started => exact .inl hkey
  | looked => exact .inl hkey
  | rejected => exact .inl hkey
  | approved => exact .inl hkey
  | completed => exact .inl hkey
  | @rotated id nodes threshold seed _ publicKey shares _ hfound hdealt =>
    by_cases he : keyId = id
    · subst he
      obtain rfl := Option.some.inj (hfound.symm.trans hkey)
      exact .inr (.inl ⟨nodes, threshold, seed, publicKey, shares, rfl, hdealt,
        keys_self rotatedState_keys, Function.update_self ..⟩)
    · exact .inl ((keys_other rotatedState_keys he).trans hkey)
  | adding => exact .inl hkey
  | removing => exact .inl hkey
  | @revoked id _ _ hfound =>
    by_cases he : keyId = id
    · subst he
      obtain rfl := Option.some.inj (hfound.symm.trans hkey)
      exact .inr (.inr ⟨rfl, keys_self revokedState_keys⟩)
    · exact .inl ((keys_other revokedState_keys he).trans hkey)

theorem Resumed.key_cases (h : Resumed p env s task t s') (hkey : s.keys keyId = some key) :
    s'.keys keyId = some key ∨
      ∃ m nodes shares version, task = .deleting m nodes shares version ∧ m.keyId = keyId ∧
        s'.keys keyId = some { key with nodes, version := key.version + 1 } := by
  cases h with
  | @changed m nodes shares version _ _ hfound _ =>
    by_cases he : keyId = m.keyId
    · subst he
      obtain rfl := Option.some.inj (hfound.symm.trans hkey)
      exact .inr ⟨m, nodes, shares, version, rfl, rfl, keys_self changedState_keys⟩
    · exact .inl ((keys_other changedState_keys he).trans hkey)
  | _ => exact .inl hkey

theorem Called.new_key {x : Call} (h : Called p env s x t s') (hnone : s.keys keyId = none)
    (hkey : s'.keys keyId = some key) :
    ∃ threshold nodes seed publicKey shares, x = .runCeremony keyId threshold nodes seed ∧
      Dealt p env s threshold nodes seed publicKey shares ∧ nodes.Nodup ∧
        key = { publicKey, threshold, nodes, status := .active, version := 1 } := by
  have hold (he : s'.keys keyId = s.keys keyId) : False := by
    rw [he, hnone] at hkey
    contradiction
  have hused {id : KeyId} {found : ManagedKey} (hfound : s.keys id = some found) : keyId ≠ id := by
    rintro rfl
    rw [hnone] at hfound
    contradiction
  cases h with
  | quiet same => exact (hold (congrFun same.keys keyId)).elim
  | @made id threshold nodes seed publicKey shares _ _ hdealt hnodup =>
    by_cases he : keyId = id
    · subst he
      exact ⟨threshold, nodes, seed, publicKey, shares, rfl, hdealt, hnodup,
        Option.some.inj (hkey.symm.trans (keys_self madeState_keys))⟩
    · exact (hold (keys_other madeState_keys he)).elim
  | started => exact (hold rfl).elim
  | looked => exact (hold rfl).elim
  | rejected => exact (hold rfl).elim
  | approved => exact (hold rfl).elim
  | completed => exact (hold rfl).elim
  | rotated hfound _ => exact (hold (keys_other rotatedState_keys (hused hfound))).elim
  | adding => exact (hold rfl).elim
  | removing => exact (hold rfl).elim
  | revoked hfound => exact (hold (keys_other revokedState_keys (hused hfound))).elim

theorem Resumed.no_key (h : Resumed p env s task t s') (hnone : s.keys keyId = none) :
    s'.keys keyId = none := by
  cases h with
  | @changed m _ _ _ _ _ hfound _ =>
    have hne : keyId ≠ m.keyId := by
      rintro rfl
      rw [hnone] at hfound
      contradiction
    exact (keys_other changedState_keys hne).trans hnone
  | _ => exact hnone

end Mpc
