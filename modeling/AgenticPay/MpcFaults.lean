import AgenticPay.MpcSessions

/-!
# Faulty nodes

As many faulty nodes as a key is said to tolerate do not reach its threshold by themselves. But any
one of them ends a session for all: an approval that is not valid, or not the one sent before,
rejects the session itself.
-/
namespace Mpc

open Shamir Awaits Transaction

variable {p : Primitives} {env : Env} {s s' : State} {sessionId : SessionId} {nodeId : NodeId}
  {session : SigningSession} {node : MpcNode} {signature : Bytes} {x : Call} {task : Task}
  {t : Turn Task (Except String Result)} {g : Config State Task} {a : Act Call Env}
  {faulty : Finset NodeId}

/-- An approval that is not valid, or not the one that its node has sent before. -/
def Faulty (p : Primitives) (s : State) (sessionId : SessionId) (nodeId : NodeId)
    (signature : Bytes) (session : SigningSession) (node : MpcNode) : Prop :=
  let valid := verify p node.identityPublicKey (messageDigest p sessionId session.payload) signature
  valid = .ok false ∨ valid = .ok true ∧ ∃ prior ∈ s.tracker sessionId nodeId, prior ≠ signature

/-- A contribution of a node of the quorum to a session that is open. -/
structure Live (s : State) (env : Env) (sessionId : SessionId) (nodeId : NodeId)
    (session : SigningSession) (node : MpcNode) : Prop extends
    Contributes s sessionId nodeId session node where
  live : isExpired session.expiresAt env.now = false

def Pending (s : State) (sessionId : SessionId) : Prop :=
  ∃ session, s.sessions sessionId = some session ∧ session.status = .pending

/-- The tasks of a signing of a session. -/
def SigningOf (sessionId : SessionId) : Task → Prop
  | .asking c _ _ _ => c.sessionId = sessionId
  | .reading c _ _ => c.sessionId = sessionId
  | .collected c => c.sessionId = sessionId
  | .signature c _ => c.sessionId = sessionId
  | .failing id _ => id = sessionId
  | .finalised id => id = sessionId
  | _ => False

/-- What the other contributions of a session count for. -/
structure Tolerates (p : Primitives) (sessionId : SessionId) (faulty : Finset NodeId)
    (g : Config State Task) (acts : List (Act Call Env)) : Prop where
  /-- No contribution of a faulty node moves the session out of `pending`. -/
  pending : ∀ pre nodeId signature env session,
    pre ++ [.call (.contribute sessionId nodeId signature) env] <+: acts → nodeId ∈ faulty →
      (run (machine (coordinator p)) g pre).state.sessions sessionId = some session →
        session.status = .pending → isExpired session.expiresAt env.now = false →
          Pending (run (machine (coordinator p)) g
            (pre ++ [.call (.contribute sessionId nodeId signature) env])).state sessionId
  /-- The faulty nodes alone never reach the threshold. -/
  minority : ∀ pre session key nodeCount envelope, pre <+: acts →
    (run (machine (coordinator p)) g pre).state.sessions sessionId = some session →
      (run (machine (coordinator p)) g pre).state.keys session.keyId = some key →
        assertByzantineCompatible key.threshold nodeCount = .ok envelope →
          (faulty ∩ session.quorum.toFinset).card ≤ envelope.faultTolerance →
            (session.contributions.filter (·.nodeId ∈ faulty)).length < key.threshold
  /-- A valid approval counts, and starts the signing if it is the last that is needed. -/
  counts : ∀ pre nodeId signature env session node key,
    pre ++ [.call (.contribute sessionId nodeId signature) env] <+: acts →
      Live (run (machine (coordinator p)) g pre).state env sessionId nodeId session node →
        verify p node.identityPublicKey (messageDigest p sessionId session.payload) signature =
          .ok true →
        ¬ Faulty p (run (machine (coordinator p)) g pre).state sessionId nodeId signature session
          node →
        (run (machine (coordinator p)) g pre).state.keys session.keyId = some key →
          let after := run (machine (coordinator p)) g
            (pre ++ [.call (.contribute sessionId nodeId signature) env])
          ∃ session', after.state.sessions sessionId = some session' ∧
            (∃ x ∈ session'.contributions, x.nodeId = nodeId) ∧
              (key.threshold ≤ session'.contributions.length →
                ∃ task ∈ after.tasks, SigningOf sessionId task)

/-- A faulty node sends approvals that are valid and always the same. -/
def FaultyAgree (p : Primitives) (sessionId : SessionId) (faulty : Finset NodeId)
    (g : Config State Task) (a : Act Call Env) : Prop :=
  ∀ nodeId signature env session node, a = .call (.contribute sessionId nodeId signature) env →
    nodeId ∈ faulty → Live g.state env sessionId nodeId session node →
      ¬ Faulty p g.state sessionId nodeId signature session node

section Approval

variable {tracker : EquivocationTracker} {publicKey digest : Bytes}

theorem recordApproval_error {text : String}
    (h : verify p publicKey digest signature = .error text) :
    recordApproval p tracker sessionId nodeId publicKey digest signature = .error text := by
  rw [recordApproval, h]
  rfl

theorem recordApproval_false (h : verify p publicKey digest signature = .ok false) :
    recordApproval p tracker sessionId nodeId publicKey digest signature = .ok .badSignature := by
  rw [recordApproval, h]
  rfl

theorem recordApproval_prior (h : verify p publicKey digest signature = .ok true)
    (hprior : ∃ prior ∈ tracker sessionId nodeId, prior ≠ signature) :
    recordApproval p tracker sessionId nodeId publicKey digest signature = .ok .equivocation := by
  rw [recordApproval, h]
  exact if_pos hprior

theorem recordApproval_true (h : verify p publicKey digest signature = .ok true)
    (hprior : ¬ ∃ prior ∈ tracker sessionId nodeId, prior ≠ signature) :
    recordApproval p tracker sessionId nodeId publicKey digest signature =
      .ok (.ok (Function.update tracker sessionId
        (Function.update (tracker sessionId) nodeId (some signature)))) := by
  rw [recordApproval, h]
  exact if_neg hprior

end Approval

theorem approval_faulty_iff :
    (approval p s sessionId nodeId signature session node = .ok .badSignature ∨
      approval p s sessionId nodeId signature session node = .ok .equivocation) ↔
      Faulty p s sessionId nodeId signature session node := by
  rw [approval, Faulty]
  cases hvalid : verify p node.identityPublicKey (messageDigest p sessionId session.payload)
      signature with
  | error text => simp [recordApproval_error hvalid]
  | ok valid =>
    cases valid with
    | false => simp [recordApproval_false hvalid]
    | true =>
      by_cases hprior : ∃ prior ∈ s.tracker sessionId nodeId, prior ≠ signature
      · rw [recordApproval_prior hvalid hprior]
        simpa using hprior
      · rw [recordApproval_true hvalid hprior]
        simpa using hprior

/-! ## The faulty nodes are a minority -/

theorem faultTolerance_lt {threshold nodeCount : Nat} {envelope : ByzantineEnvelope}
    (h : assertByzantineCompatible threshold nodeCount = .ok envelope) :
    envelope.faultTolerance < threshold := by
  have htwo := (byzantine_ok h).1
  rw [assertByzantineCompatible] at h
  split_ifs at h
  · rw [← Except.ok.inj h]
    exact Nat.zero_lt_of_lt htwo
  · rw [← Except.ok.inj h]
    dsimp only
    omega

/-- The nodes that may be faulty cannot sign alone, and the others can sign without them. -/
structure Withstands (envelope : ByzantineEnvelope) (threshold nodeCount : Nat) : Prop where
  alone : envelope.faultTolerance < threshold
  others : threshold ≤ nodeCount - envelope.faultTolerance

/-- Every coalition of at most `faultTolerance` nodes is too small and leaves enough nodes. -/
def Coalitions (envelope : ByzantineEnvelope) (threshold nodeCount : Nat) : Prop :=
  ∀ nodes faulty : Finset NodeId, nodes.card = nodeCount → faulty ⊆ nodes →
    faulty.card ≤ envelope.faultTolerance →
      faulty.card < threshold ∧ threshold ≤ (nodes \ faulty).card

theorem exists_coalition {count faults : Nat} (h : faults ≤ count) :
    ∃ nodes faulty : Finset NodeId, nodes.card = count ∧ faulty ⊆ nodes ∧
      faulty.card = faults := by
  obtain ⟨nodes, hnodes⟩ := Infinite.exists_subset_card_eq NodeId count
  obtain ⟨faulty, hfaulty, hcard⟩ := Finset.exists_subset_card_eq (hnodes ▸ h)
  exact ⟨nodes, faulty, hnodes, hfaulty, hcard⟩

theorem faultTolerance_le {threshold nodeCount : Nat} {envelope : ByzantineEnvelope}
    (h : assertByzantineCompatible threshold nodeCount = .ok envelope) :
    envelope.faultTolerance ≤ nodeCount := by
  have hlt := faultTolerance_lt h
  have hle := (byzantine_ok h).2
  omega

theorem withstands_iff_coalitions {threshold nodeCount : Nat} {envelope : ByzantineEnvelope}
    (h : assertByzantineCompatible threshold nodeCount = .ok envelope) :
    Withstands envelope threshold nodeCount ↔ Coalitions envelope threshold nodeCount := by
  constructor
  · intro hwithstands nodes faulty hnodes hfaulty hcard
    have hleft := Finset.card_sdiff_of_subset hfaulty
    have hothers := hwithstands.others
    exact ⟨hcard.trans_lt hwithstands.alone, by omega⟩
  · intro hcoalitions
    obtain ⟨nodes, faulty, hnodes, hfaulty, hcard⟩ := exists_coalition (faultTolerance_le h)
    obtain ⟨halone, hothers⟩ := hcoalitions nodes faulty hnodes hfaulty (le_of_eq hcard)
    rw [Finset.card_sdiff_of_subset hfaulty, hnodes, hcard] at hothers
    exact ⟨hcard ▸ halone, hothers⟩

theorem withstands_iff {threshold nodeCount : Nat} {envelope : ByzantineEnvelope}
    (h : assertByzantineCompatible threshold nodeCount = .ok envelope) :
    Withstands envelope threshold nodeCount ↔ threshold ≤ nodeCount - (nodeCount - 1) / 3 := by
  have halone := faultTolerance_lt h
  obtain ⟨htwo, hle⟩ := byzantine_ok h
  rw [assertByzantineCompatible, if_neg (Nat.not_lt.mpr htwo), if_neg (Nat.not_lt.mpr hle)] at h
  have hothers : threshold ≤ nodeCount - envelope.faultTolerance ↔
      threshold ≤ nodeCount - (nodeCount - 1) / 3 := by
    split_ifs at h
    · rw [← Except.ok.inj h]
      dsimp only
      omega
    · rw [← Except.ok.inj h]
      dsimp only
      omega
  exact ⟨fun hwithstands => hothers.mp hwithstands.others, fun hfew => ⟨halone, hothers.mpr hfew⟩⟩

/-- The envelope keeps its promise for exactly the thresholds that spare a third of the nodes. -/
theorem envelope_sound_iff {threshold nodeCount : Nat} {envelope : ByzantineEnvelope}
    (h : assertByzantineCompatible threshold nodeCount = .ok envelope) :
    (Withstands envelope threshold nodeCount ∧ Coalitions envelope threshold nodeCount) ↔
      threshold ≤ nodeCount - (nodeCount - 1) / 3 := by
  rw [← withstands_iff_coalitions h, and_self]
  exact withstands_iff h

theorem envelope_sound_three_of_four :
    Withstands ⟨3, 4, 1⟩ 3 4 ∧ Coalitions ⟨3, 4, 1⟩ 3 4 :=
  (envelope_sound_iff (show assertByzantineCompatible 3 4 = .ok ⟨3, 4, 1⟩ from rfl)).mpr
    (by decide)

/-- One node of a 4-of-4 key is tolerated, and can block every signature. -/
theorem four_of_four_blocked :
    ∃ envelope, assertByzantineCompatible 4 4 = .ok envelope ∧
      ¬ (envelope.faultTolerance < 4 ∧ 4 ≤ 4 - envelope.faultTolerance) :=
  ⟨⟨4, 4, 1⟩, rfl, by decide⟩

/-- The contributions of a session are by different nodes of its quorum. -/
structure Orderly (session : SigningSession) : Prop where
  distinct : (session.contributions.map (·.nodeId)).Nodup
  members : ∀ x ∈ session.contributions, x.nodeId ∈ session.quorum

theorem Orderly.minority (h : Orderly session) (faulty : Finset NodeId) :
    (session.contributions.filter (·.nodeId ∈ faulty)).length ≤
      (faulty ∩ session.quorum.toFinset).card := by
  have hsublist : ((session.contributions.filter (·.nodeId ∈ faulty)).map (·.nodeId)).Nodup :=
    h.distinct.sublist (List.filter_sublist.map _)
  rw [← List.length_map (·.nodeId), ← List.toFinset_card_of_nodup hsublist]
  apply Finset.card_le_card
  intro nodeId hmem
  obtain ⟨x, hx, rfl⟩ := List.mem_map.mp (List.mem_toFinset.mp hmem)
  obtain ⟨hx, hfaulty⟩ := List.mem_filter.mp hx
  exact Finset.mem_inter.mpr ⟨of_decide_eq_true hfaulty, List.mem_toFinset.mpr (h.members x hx)⟩

theorem Orderly.contributed (h : Orderly session) (hmember : nodeId ∈ session.quorum)
    (signature : Bytes) (node : MpcNode) :
    Orderly (contributed session nodeId signature node) := by
  rw [Mpc.contributed, addContribution]
  split
  next => exact h
  next hnew =>
    refine ⟨?_, fun x hx => ?_⟩
    · rw [List.map_append, List.map_singleton, ← List.concat_eq_append]
      apply h.distinct.concat
      intro hmem
      obtain ⟨x, hx, he⟩ := List.mem_map.mp hmem
      exact hnew (List.any_eq_true.mpr ⟨x, hx, decide_eq_true he⟩)
    · obtain hold | hlast := List.mem_append.mp hx
      · exact h.members x hold
      · rw [List.mem_singleton.mp hlast]
        exact hmember

theorem kept_orderly : Kept p fun _ session => Orderly session where
  fresh := fun _ _ => ⟨List.nodup_nil, fun _ hx => absurd hx List.not_mem_nil⟩
  same := by
    intro sessionId session session' h hsame
    refine ⟨?_, fun x hx => ?_⟩
    · rw [hsame.contributions]
      exact h.distinct
    · rw [hsame.contributions] at hx
      rw [hsame.quorum]
      exact h.members x hx
  contributed := fun hcontributes _ h => h.contributed hcontributes.member _ _

theorem orderly_run (nodes : NodeId → Option MpcNode) (acts : List (Act Call Env)) :
    All (fun _ session => Orderly session)
      (run (machine (coordinator p)) ⟨start nodes, []⟩ acts).state := by
  apply all_run kept_orderly
  intro _ _ h
  contradiction

/-! ## One contribution -/

theorem maybeExpire_live (h : isExpired session.expiresAt env.now = false) :
    maybeExpire env session = session := by
  rw [maybeExpire, if_neg]
  rintro ⟨_, hexpired⟩
  rw [h] at hexpired
  contradiction

theorem Live.contribute_eq (h : Live s env sessionId nodeId session node) :
    contribute p env sessionId nodeId signature s =
      contributePending p sessionId nodeId signature session s := by
  simp only [contribute, h.found, maybeExpire_live h.live, setSession_self h.found,
    h.pending, ne_eq, not_true_eq_false, if_false]

theorem Called.pending (h : Called p env s (.contribute sessionId nodeId signature) t s')
    (hsession : s.sessions sessionId = some session) (hpending : session.status = .pending)
    (hlive : isExpired session.expiresAt env.now = false)
    (hagrees : ∀ node, Live s env sessionId nodeId session node →
      ¬ Faulty p s sessionId nodeId signature session node) : Pending s' sessionId := by
  have hs : HasStatus s sessionId .pending := ⟨session, hsession, hpending⟩
  cases h with
  | quiet same => exact ⟨session, (congrFun same.sessions sessionId).trans hsession, hpending⟩
  | looked hfound =>
    refine hs.update rfl ?_
    rintro rfl
    obtain rfl := Option.some.inj (hsession.symm.trans hfound)
    rw [maybeExpire_live hlive, hpending]
  | @rejected _ _ _ found node reason r hcontributes hfaulty =>
    obtain rfl := Option.some.inj (hsession.symm.trans hcontributes.found)
    exact absurd (approval_faulty_iff.mp hfaulty) (hagrees node ⟨hcontributes, hlive⟩)
  | approved hcontributes _ =>
    exact hs.update rfl fun _ => contributed_status.trans hcontributes.pending
  | completed hcontributes _ _ _ =>
    exact hs.update rfl fun _ => contributed_status.trans hcontributes.pending

theorem call_contribute (sessionId : SessionId) (nodeId : NodeId) (signature : Bytes) (env : Env)
    (s : State) : (coordinator p).call (.contribute sessionId nodeId signature) env s =
      some (contribute p env sessionId nodeId signature s) := rfl

theorem commit_contribute {r : Ends} (h : contribute p env sessionId nodeId signature g.state = r) :
    commit (machine (coordinator p)) g (.call (.contribute sessionId nodeId signature) env) =
      ⟨r.2, g.tasks ++ r.1.tasks⟩ :=
  commit_called ((call_contribute sessionId nodeId signature env g.state).trans (congrArg some h))

/-- A faulty approval rejects an open session. -/
theorem Live.rejects (h : Live g.state env sessionId nodeId session node)
    (hfaulty : Faulty p g.state sessionId nodeId signature session node) :
    ¬ Pending (commit (machine (coordinator p)) g
      (.call (.contribute sessionId nodeId signature) env)).state sessionId := by
  have hstate : ∃ reason, (contribute p env sessionId nodeId signature g.state).2 =
      rejectSession g.state sessionId session reason := by
    rw [h.contribute_eq, contributePending, if_neg (not_not.mpr h.member), h.registered]
    obtain hbad | hequivocates := approval_faulty_iff.mpr hfaulty
    · rw [approval] at hbad
      simp only [hbad]
      exact ⟨_, rfl⟩
    · rw [approval] at hequivocates
      simp only [hequivocates]
      exact ⟨_, rfl⟩
  obtain ⟨reason, hstate⟩ := hstate
  rw [commit_contribute rfl, hstate]
  rintro ⟨found, hfound, hpending⟩
  rw [rejectSession, setSession_sessions, Function.update_self] at hfound
  rw [← Option.some.inj hfound] at hpending
  contradiction

theorem signingOf_nextNode (c : Collection) (nodes : List NodeId) (s : State) :
    SigningOf c.sessionId (nextNode c nodes s) := by
  apply nextNode_rule nodes s
  · exact fun _ => rfl
  · exact fun _ => rfl
  · exact fun _ _ _ _ _ => rfl

/-- An approval that is valid counts, and starts the signing if enough have approved. -/
theorem Live.accepts {key : ManagedKey} (h : Live g.state env sessionId nodeId session node)
    (hvalid : verify p node.identityPublicKey (messageDigest p sessionId session.payload)
      signature = .ok true)
    (hsame : ¬ Faulty p g.state sessionId nodeId signature session node)
    (hkey : g.state.keys session.keyId = some key) :
    let after := commit (machine (coordinator p)) g
      (.call (.contribute sessionId nodeId signature) env)
    ∃ session', after.state.sessions sessionId = some session' ∧
      (∃ x ∈ session'.contributions, x.nodeId = nodeId) ∧
        (key.threshold ≤ session'.contributions.length →
          ∃ task ∈ after.tasks, SigningOf sessionId task) := by
  intro after
  have hprior : ¬ ∃ prior ∈ g.state.tracker sessionId nodeId, prior ≠ signature :=
    fun hprior => hsame (.inr ⟨hvalid, hprior⟩)
  have hturn : contribute p env sessionId nodeId signature g.state =
      completeContribution sessionId (contributed session nodeId signature node)
        (approvedState g.state sessionId (contributed session nodeId signature node)
          (Function.update g.state.tracker sessionId
            (Function.update (g.state.tracker sessionId) nodeId (some signature)))) := by
    rw [h.contribute_eq, contributePending, if_neg (not_not.mpr h.member), h.registered]
    simp only [recordApproval_true hvalid hprior]
    rfl
  have hafter := commit_contribute hturn
  have hstored (tracker : EquivocationTracker) :
      (approvedState g.state sessionId (contributed session nodeId signature node)
        tracker).sessions sessionId = some (contributed session nodeId signature node) := by
    rw [approvedState, setSession_sessions, Function.update_self]
  have hkeys (tracker : EquivocationTracker) :
      (approvedState g.state sessionId (contributed session nodeId signature node) tracker).keys
        (contributed session nodeId signature node).keyId = some key := by
    rw [approvedState, setSession_keys, contributed_keyId]
    exact hkey
  refine ⟨contributed session nodeId signature node, ?_, contributed_mem, fun henough => ?_⟩
  · rw [show after = _ from hafter]
    simp only [completeContribution, hkeys]
    split
    · exact hstored _
    · exact hstored _
  · rw [show after = _ from hafter]
    simp only [completeContribution, hkeys]
    rw [if_pos ⟨henough, contributed_status.trans h.pending⟩]
    exact ⟨_, List.mem_append_right _ (List.mem_singleton_self _), signingOf_nextNode _ _ _⟩

/-! ## Every run -/

/-- Four active nodes. -/
def fourNodes : NodeId → Option MpcNode := fun nodeId =>
  if nodeId ∈ ["a", "b", "c", "d"] then some ⟨.active, List.replicate 32 9⟩ else none

/-- Signatures that are the key and the signed message. -/
def readablePrimitives : Primitives where
  ed25519PublicKey := fun seed => seed
  ed25519Sign := fun seed message => seed ++ message
  ed25519Verify := fun publicKey message signature => signature == publicKey ++ message
  sha256 := fun message => message

def at0 : Env := ⟨0, fun _ _ => 5⟩

/-- A key of four nodes with the threshold 3, and a session of it. -/
def sessionOfFour : List (Act Call Env) :=
  [.call (.runCeremony "k" 3 ["a", "b", "c", "d"] (List.replicate 32 1)) at0,
    .call (.startSigningSession "s" "k" (List.replicate 30 7) none) at0]

/-- One node sends 64 zeros. -/
def sendsZeros : Act Call Env := .call (.contribute "s" "d" (List.replicate 64 0)) at0

end Mpc
