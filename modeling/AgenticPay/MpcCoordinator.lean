import AgenticPay.Awaits
import AgenticPay.MpcTypes

/-!
# The coordinator of threshold signing

Keys are made, rotated and revoked in one turn; a contribution that completes a quorum, and a change
of the members of a key, wait for the backend that holds the shares, which applies what it is asked
for at once. What has happened is kept beside the state: the public keys since the start of a
session, the rotations of a key, the changes of its members, and what each signature was made with.
-/
namespace Mpc

open Shamir Awaits

/-- A session that has become signed: its record and that of its key at that moment, and the public
keys that the key has had since the start of the session. -/
structure Signing where
  sessionId : SessionId
  session : SigningSession
  key : ManagedKey
  publicKeys : List Bytes

structure State where
  keys : KeyId → Option ManagedKey
  sessions : SessionId → Option SigningSession
  tracker : EquivocationTracker
  nodes : NodeId → Option MpcNode
  hsm : KeyId → NodeId → Option Held
  unavailable : NodeId → Bool
  publicKeys : SessionId → List Bytes
  rotations : KeyId → Nat
  /-- The nodes that have been added and removed since the last rotation. -/
  updates : KeyId → List (NodeId × Bool)
  signings : List Signing

/-- What a turn is told: the time, and random bytes. -/
structure Env where
  now : Int
  random : Nat → Nat → Byte

/-- A signing in progress: the shares that it has collected, of those that it needs. -/
structure Collection where
  sessionId : SessionId
  keyId : KeyId
  payload : Bytes
  limit : Nat
  collected : List Held

/-- A member to be added, or to be removed with the nodes that are to remain, and the rotations and
the version of the key when its shares were read. -/
structure MemberChange where
  keyId : KeyId
  nodeId : NodeId
  remaining : Option (List NodeId)
  rotations : Nat
  version : Nat

/-- What a task waits for. The rest of a chain of calls that does nothing but return is one wait. -/
inductive Task where
  /-- `isAvailable`, for the next node of the loop in `collectShares`. -/
  | asking (c : Collection) (nodeId : NodeId) (rest : List NodeId) (available : Bool)
  /-- `get`, in the same turn of the loop. -/
  | reading (c : Collection) (rest : List NodeId) (share : Option Held)
  /-- `collectShares` has returned. -/
  | collected (c : Collection)
  /-- `signWithShares` has returned. -/
  | signature (c : Collection) (signature : Bytes)
  /-- Something on the way to `finaliseSession` has thrown. -/
  | failing (sessionId : SessionId) (reason : String)
  /-- `finaliseSession` has returned. -/
  | finalised (sessionId : SessionId)
  /-- The reads of `collectAllShares`. -/
  | sharing (m : MemberChange) (shares : List Held)
  /-- `collectAllShares` has returned. -/
  | shared (m : MemberChange) (shares : List Held)
  /-- The deletions, with the next nodes, their shares and the version at the split. -/
  | deleting (m : MemberChange) (nodes : List NodeId) (shares : List Held) (version : Nat)

inductive Result where
  | key (key : Option ManagedKey)
  | session (session : Option SigningSession)
  | contributed (session : Option SigningSession) (completed : Bool)
  | noValue

abbrev Ends := Turn Task (Except String Result) × State

def fail (text : String) (s : State) : Ends := (.done (.error text), s)

def State.setKey (s : State) (keyId : KeyId) (key : ManagedKey) : State :=
  { s with keys := Function.update s.keys keyId (some key) }

def State.setSession (s : State) (sessionId : SessionId) (session : SigningSession) : State :=
  { s with sessions := Function.update s.sessions sessionId (some session) }

/-! ## The backend -/

/-- The in-memory `get`. -/
def State.getShare (s : State) (keyId : KeyId) (nodeId : NodeId) : Option Held :=
  if s.unavailable nodeId = true then none else s.hsm keyId nodeId

def State.setShares (s : State) (keyId : KeyId) (held : NodeId → Option Held) : State :=
  { s with hsm := Function.update s.hsm keyId held }

def putAll (held : NodeId → Option Held) (nodes : List NodeId) (shares : List Held) :
    NodeId → Option Held :=
  (nodes.zip shares).foldl (fun held r => Function.update held r.1 (some r.2)) held

def deleteAll (held : NodeId → Option Held) (nodes : List NodeId) : NodeId → Option Held :=
  nodes.foldl (fun held nodeId => Function.update held nodeId none) held

/-- `split`, with the record of where its shares come from. -/
def splitSeed (env : Env) (seed : Bytes) (threshold totalShares : Nat) :
    Except String (List Held) :=
  match h : split seed threshold totalShares fun i k => env.random i k with
  | .error text => .error text
  | .ok shares => .ok (shares.attach.map fun s =>
      { share := s.1
        origin := { secret := seed, threshold, random := fun i k => env.random i k }
        isShare := isShare_of_split h s.2 })

def distributeShares (keyId : KeyId) (nodes : List NodeId) (shares : List Held) (s : State) :
    Except String State :=
  if nodes.length ≠ shares.length then .error "share count must match node count"
  else .ok (s.setShares keyId (putAll (s.hsm keyId) nodes shares))

/-! ## Keys -/

def assertAllNodesActive (s : State) : List NodeId → Except String Unit
  | [] => .ok ()
  | id :: ids =>
    match s.nodes id with
    | none => .error s!"unknown node \"{id}\""
    | some node =>
      if node.status ≠ .active then
        let status := node.status.text
        .error s!"node \"{id}\" is not active (status={status})"
      else assertAllNodesActive s ids

variable (p : Primitives)

/-- What `runCeremony` does before it hands out the shares. -/
def ceremonyShares (env : Env) (threshold : Nat) (nodes : List NodeId) (seed : Bytes) (s : State) :
    Except String (Bytes × List Held) := do
  let _ ← assertByzantineCompatible threshold nodes.length
  assertAllNodesActive s nodes
  if nodes.dedup.length ≠ nodes.length then
    .error "ceremony node list must not contain duplicates"
  else
    let publicKey ← publicKeyFromSeed p seed
    let shares ← splitSeed env seed threshold nodes.length
    return (publicKey, shares)

def runCeremony (env : Env) (keyId : KeyId) (threshold : Nat) (nodes : List NodeId) (seed : Bytes)
    (s : State) : Ends :=
  match ceremonyShares p env threshold nodes seed s with
  | .error text => fail text s
  | .ok (publicKey, shares) =>
    match distributeShares keyId nodes shares s with
    | .error text => fail text s
    | .ok s =>
      let key : ManagedKey := { publicKey, threshold, nodes, status := .active, version := 1 }
      (.done (.ok (.key (some key))), s.setKey keyId key)

/-- What `rotateKey` does before it touches the shares. -/
def rotationShares (env : Env) (threshold : Nat) (nodes : List NodeId) (seed : Bytes) (s : State) :
    Except String (Bytes × List Held) := do
  let _ ← assertByzantineCompatible threshold nodes.length
  assertAllNodesActive s nodes
  let publicKey ← publicKeyFromSeed p seed
  let shares ← splitSeed env seed threshold nodes.length
  return (publicKey, shares)

/-- A new public key of a key, for the sessions of the key. -/
def notePublicKey (s : State) (keyId : KeyId) (publicKey : Bytes) : SessionId → List Bytes :=
  fun sessionId =>
    if ∃ session ∈ s.sessions sessionId, session.keyId = keyId then
      s.publicKeys sessionId ++ [publicKey]
    else s.publicKeys sessionId

def rotateKey (env : Env) (keyId : KeyId) (nodes : Option (List NodeId)) (threshold : Option Nat)
    (seed : Bytes) (s : State) : Ends :=
  match s.keys keyId with
  | none => fail s!"unknown key {keyId}" s
  | some key =>
    let nextNodes := nodes.getD key.nodes
    let nextThreshold := threshold.getD key.threshold
    match rotationShares p env nextThreshold nextNodes seed s with
    | .error text => fail text s
    | .ok (publicKey, shares) =>
      let s := s.setShares keyId (deleteAll (s.hsm keyId) key.nodes)
      match distributeShares keyId nextNodes shares s with
      | .error text => fail text s
      | .ok s =>
        let key : ManagedKey :=
          { publicKey, threshold := nextThreshold, nodes := nextNodes, status := .active,
            version := key.version + 1 }
        (.done (.ok (.key (some key))),
          { s.setKey keyId key with
            publicKeys := notePublicKey s keyId publicKey
            rotations := Function.update s.rotations keyId (s.rotations keyId + 1)
            updates := Function.update s.updates keyId [] })

/-- The turn of `addMember` up to the answers of the backend. -/
def addMember (keyId : KeyId) (nodeId : NodeId) (s : State) : Ends :=
  match s.keys keyId with
  | none => fail s!"unknown key {keyId}" s
  | some key =>
    if nodeId ∈ key.nodes then fail s!"node {nodeId} already holds a share for {keyId}" s
    else
      match assertAllNodesActive s (key.nodes ++ [nodeId]) with
      | .error text => fail text s
      | .ok () =>
        (.waits (.sharing
            { keyId, nodeId, remaining := none, rotations := s.rotations keyId,
              version := key.version }
            (key.nodes.filterMap (s.getShare keyId))), s)

/-- The turn of `removeMember` up to the answers of the backend. -/
def removeMember (keyId : KeyId) (nodeId : NodeId) (s : State) : Ends :=
  match s.keys keyId with
  | none => fail s!"unknown key {keyId}" s
  | some key =>
    if nodeId ∉ key.nodes then fail s!"node {nodeId} is not a member of {keyId}" s
    else
      let remaining := key.nodes.filter (· ≠ nodeId)
      let left := remaining.length
      let threshold := key.threshold
      if remaining.length < key.threshold then
        fail s!"removing {nodeId} would leave {left} nodes, below the threshold of {threshold}" s
      else
        (.waits (.sharing
            { keyId, nodeId, remaining := some remaining, rotations := s.rotations keyId,
              version := key.version }
            (key.nodes.filterMap (s.getShare keyId))), s)

/-- The end of `collectAllShares`. -/
def checkShares (m : MemberChange) (shares : List Held) (s : State) : Ends :=
  match s.keys m.keyId with
  | none => (.done (.ok .noValue), s)  -- the key is in hand, and keys are never removed
  | some key =>
    let count := shares.length
    let threshold := key.threshold
    if shares.length < key.threshold then
      fail s!"insufficient shares for re-share: have {count}, need {threshold}" s
    else (.waits (.shared m shares), s)

/-- The nodes after a change of the members. -/
def MemberChange.next (m : MemberChange) (key : ManagedKey) : List NodeId :=
  m.remaining.getD (key.nodes ++ [m.nodeId])

/-- The new split of a changed key, and the deletions. -/
def reshare (env : Env) (m : MemberChange) (shares : List Held) (s : State) : Ends :=
  match s.keys m.keyId with
  | none => (.done (.ok .noValue), s)  -- the key is in hand, and keys are never removed
  | some key =>
    match reconstruct (shares.map (·.share)) with
    | .error text => fail text s
    | .ok seed =>
      match splitSeed env seed key.threshold (m.next key).length with
      | .error text => fail text s
      | .ok held =>
        (.waits (.deleting m (m.next key) held key.version),
          s.setShares m.keyId (deleteAll (s.hsm m.keyId) key.nodes))

/-- The end of `addMember` and of `removeMember`. -/
def finishChange (m : MemberChange) (nodes : List NodeId) (shares : List Held) (s : State) :
    Ends :=
  match s.keys m.keyId with
  | none => (.done (.ok .noValue), s)  -- the key is in hand, and keys are never removed
  | some key =>
    match distributeShares m.keyId nodes shares s with
    | .error text => fail text s
    | .ok s =>
      let key : ManagedKey := { key with nodes, version := key.version + 1 }
      (.done (.ok (.key (some key))),
        { s.setKey m.keyId key with
          updates := Function.update s.updates m.keyId
            (s.updates m.keyId ++ [(m.nodeId, m.remaining.isNone)]) })

def revokeKey (keyId : KeyId) (s : State) : Ends :=
  match s.keys keyId with
  | none => (.done (.ok (.key none)), s)
  | some key =>
    let key : ManagedKey := { key with status := .revoked }
    (.done (.ok (.key (some key))), (s.setShares keyId fun _ => none).setKey keyId key)

/-! ## Sessions -/

def defaultSigningTimeoutMs : Int := 5 * 60 * 1000

def startSigningSession (env : Env) (sessionId : SessionId) (keyId : KeyId) (payload : Bytes)
    (timeoutMs : Option Int) (s : State) : Ends :=
  match s.keys keyId with
  | none => fail s!"unknown key {keyId}" s
  | some key =>
    if key.status ≠ .active then
      let status := key.status.text
      fail s!"key {keyId} is not active (status={status})" s
    else
      let session : SigningSession :=
        { keyId, payload, expiresAt := env.now + timeoutMs.getD defaultSigningTimeoutMs,
          status := .pending, quorum := key.nodes, contributions := [], signature := none,
          failureReason := none }
      (.done (.ok (.session (some session))),
        { s.setSession sessionId session with
          publicKeys := Function.update s.publicKeys sessionId [key.publicKey] })

def maybeExpire (env : Env) (session : SigningSession) : SigningSession :=
  if session.status = .pending ∧ isExpired session.expiresAt env.now = true then
    { session with status := .expired, failureReason := some "timeout" }
  else session

def getSigningSession (env : Env) (sessionId : SessionId) (s : State) : Ends :=
  match s.sessions sessionId with
  | none => (.done (.ok (.session none)), s)
  | some session =>
    let session := maybeExpire env session
    (.done (.ok (.session (some session))), s.setSession sessionId session)

/-- The end of the loop in `collectShares`. -/
def endCollection (c : Collection) : Task :=
  let count := c.collected.length
  let limit := c.limit
  let keyId := c.keyId
  if c.collected.length < c.limit then
    .failing c.sessionId s!"only {count} shares available for key {keyId}, need {limit}"
  else .collected c

/-- The loop in `collectShares`, from a node on. -/
def nextNode (c : Collection) (nodes : List NodeId) (s : State) : Task :=
  match nodes with
  | [] => endCollection c
  | nodeId :: rest =>
    if c.collected.length ≥ c.limit then endCollection c
    else .asking c nodeId rest !s.unavailable nodeId

/-- The record of a contribution, unless the node has contributed before. -/
def addContribution (session : SigningSession) (x : Contribution) : SigningSession :=
  if session.contributions.any (·.nodeId = x.nodeId) then session
  else { session with contributions := session.contributions ++ [x] }

/-- What `contribute` does with an approval that has been recorded. -/
def completeContribution (sessionId : SessionId) (session : SigningSession) (s : State) : Ends :=
  match s.keys session.keyId with
  | none =>
    let keyId := session.keyId
    fail s!"unknown key {keyId}" s
  | some key =>
    if session.contributions.length ≥ key.threshold ∧ session.status = .pending then
      let c : Collection :=
        { sessionId, keyId := session.keyId, payload := session.payload, limit := key.threshold,
          collected := [] }
      (.waits (nextNode c key.nodes s), s)
    else (.done (.ok (.contributed (some session) (decide (session.status = .signed)))), s)

def rejectSession (s : State) (sessionId : SessionId) (session : SigningSession) (reason : String) :
    State :=
  s.setSession sessionId { session with status := .rejected, failureReason := some reason }

/-- What `contribute` does for a session that is pending. -/
def contributePending (sessionId : SessionId) (nodeId : NodeId) (signature : Bytes)
    (session : SigningSession) (s : State) : Ends :=
  if nodeId ∉ session.quorum then
    fail s!"node {nodeId} is not part of this session's quorum" s
  else
    match s.nodes nodeId with
    | none => fail s!"unknown node {nodeId}" s
    | some node =>
      let digest := messageDigest p sessionId session.payload
      match recordApproval p s.tracker sessionId nodeId node.identityPublicKey digest
          signature with
      | .error text => fail text s
      | .ok .badSignature =>
        fail s!"node {nodeId} produced an invalid approval signature"
          (rejectSession s sessionId session "bad-signature")
      | .ok .equivocation =>
        fail s!"node {nodeId} equivocated on session {sessionId}"
          (rejectSession s sessionId session "equivocation")
      | .ok (.ok tracker) =>
        let session := addContribution session ⟨nodeId, signature, node.identityPublicKey⟩
        completeContribution sessionId session
          ({ s with tracker }.setSession sessionId session)

/-- The turn of `contribute` up to the first answer of the backend. -/
def contribute (env : Env) (sessionId : SessionId) (nodeId : NodeId) (signature : Bytes)
    (s : State) : Ends :=
  match s.sessions sessionId with
  | none => fail s!"unknown session {sessionId}" s
  | some session =>
    let session := maybeExpire env session
    let s := s.setSession sessionId session
    if session.status ≠ .pending then
      let status := session.status.text
      fail s!"session {sessionId} is not pending (status={status})" s
    else contributePending p sessionId nodeId signature session s

/-- The end of `signWithShares`. -/
def signCollected (c : Collection) : Task :=
  match reconstruct (c.collected.map (·.share)) with
  | .error text => .failing c.sessionId text
  | .ok seed =>
    match sign p seed c.payload with
    | .error text => .failing c.sessionId text
    | .ok signature => .signature c signature

/-- The end of `finaliseSession`. -/
def finaliseSession (c : Collection) (signature : Bytes) (s : State) : Ends :=
  match s.sessions c.sessionId, s.keys c.keyId with
  | some session, some key =>
    let session : SigningSession := { session with signature := some signature, status := .signed }
    (.waits (.finalised c.sessionId),
      { s.setSession c.sessionId session with
        signings := s.signings ++ [⟨c.sessionId, session, key, s.publicKeys c.sessionId⟩] })
  | _, _ => (.done (.ok .noValue), s)  -- neither sessions nor keys are ever removed

/-- The `catch` of `contribute`. -/
def catchFailure (sessionId : SessionId) (reason : String) (s : State) : Ends :=
  match s.sessions sessionId with
  | none => (.done (.ok .noValue), s)  -- sessions are never removed
  | some session => fail reason (rejectSession s sessionId session reason)

/-- The end of `contribute`. -/
def refreshSession (env : Env) (sessionId : SessionId) (s : State) : Ends :=
  match s.sessions sessionId with
  | none => (.done (.ok (.contributed none false)), s)
  | some session =>
    let session := maybeExpire env session
    (.done (.ok (.contributed (some session) (decide (session.status = .signed)))),
      s.setSession sessionId session)

/-! ## The program -/

/-- The calls of the coordinator, with the ids and the seeds that are drawn for them, and what the
registry of the nodes and the backend may do by themselves. -/
inductive Call where
  | runCeremony (keyId : KeyId) (threshold : Nat) (nodes : List NodeId) (seed : Bytes)
  | startSigningSession (sessionId : SessionId) (keyId : KeyId) (payload : Bytes)
      (timeoutMs : Option Int)
  | contribute (sessionId : SessionId) (nodeId : NodeId) (signature : Bytes)
  | getSigningSession (sessionId : SessionId)
  | rotateKey (keyId : KeyId) (nodes : Option (List NodeId)) (threshold : Option Nat)
      (seed : Bytes)
  | addMember (keyId : KeyId) (nodeId : NodeId)
  | removeMember (keyId : KeyId) (nodeId : NodeId)
  | revokeKey (keyId : KeyId)
  | setNode (nodeId : NodeId) (node : Option MpcNode)
  | setUnavailable (nodeId : NodeId) (unavailable : Bool)

/-- An id that is drawn has not been drawn before. -/
def call (c : Call) (env : Env) (s : State) : Option Ends :=
  match c with
  | .runCeremony keyId threshold nodes seed =>
    if s.keys keyId = none then some (runCeremony p env keyId threshold nodes seed s) else none
  | .startSigningSession sessionId keyId payload timeoutMs =>
    if s.sessions sessionId = none then
      some (startSigningSession env sessionId keyId payload timeoutMs s)
    else none
  | .contribute sessionId nodeId signature =>
    some (contribute p env sessionId nodeId signature s)
  | .getSigningSession sessionId => some (getSigningSession env sessionId s)
  | .rotateKey keyId nodes threshold seed => some (rotateKey p env keyId nodes threshold seed s)
  | .addMember keyId nodeId => some (addMember keyId nodeId s)
  | .removeMember keyId nodeId => some (removeMember keyId nodeId s)
  | .revokeKey keyId => some (revokeKey keyId s)
  | .setNode nodeId node =>
    some (.done (.ok .noValue), { s with nodes := Function.update s.nodes nodeId node })
  | .setUnavailable nodeId unavailable =>
    some (.done (.ok .noValue),
      { s with unavailable := Function.update s.unavailable nodeId unavailable })

def resume (task : Task) (env : Env) (s : State) : Ends :=
  match task with
  | .asking c nodeId rest available =>
    if available = true then (.waits (.reading c rest (s.getShare c.keyId nodeId)), s)
    else (.waits (nextNode c rest s), s)
  | .reading c rest share =>
    (.waits (nextNode { c with collected := c.collected ++ share.toList } rest s), s)
  | .collected c => (.waits (signCollected p c), s)
  | .signature c signature => finaliseSession c signature s
  | .failing sessionId reason => catchFailure sessionId reason s
  | .finalised sessionId => refreshSession env sessionId s
  | .sharing m shares => checkShares m shares s
  | .shared m shares => reshare env m shares s
  | .deleting m nodes shares _ => finishChange m nodes shares s

def coordinator : Program Call Env State Task (Except String Result) where
  call := call p
  resume := resume p

/-- Nothing has been done yet. -/
def start (nodes : NodeId → Option MpcNode) : State :=
  { keys := fun _ => none, sessions := fun _ => none, tracker := fun _ _ => none, nodes,
    hsm := fun _ _ => none, unavailable := fun _ => false, publicKeys := fun _ => [],
    rotations := fun _ => 0, updates := fun _ => [], signings := [] }

end Mpc
