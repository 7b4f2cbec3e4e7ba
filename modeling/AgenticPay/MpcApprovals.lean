import AgenticPay.MpcRevocation
import AgenticPay.MpcSessions

/-!
# Who has approved a signature

A contribution is checked against the quorum that the session has copied from its key at the start.
Neither the nodes that the key still has nor its status are looked at again, so a signature can rest
on approvals of nodes that have left the key, or on a key that has been revoked.
-/
namespace Mpc

open Shamir Awaits Transaction

variable {p : Primitives} {env : Env} {s s' : State} {keyId : KeyId} {sessionId : SessionId}
  {nodeId : NodeId} {key key' : ManagedKey} {session session' : SigningSession} {node : MpcNode}
  {signature : Bytes} {c : Collection} {x : Call} {task : Task} {r : Signing}
  {t : Turn Task (Except String Result)} {g : Config State Task} {a : Act Call Env}

/-- An approval with a valid signature over the digest of its session. -/
def Approves (p : Primitives) (sessionId : SessionId) (session : SigningSession)
    (x : Contribution) : Prop :=
  verify p x.identityPublicKey (messageDigest p sessionId session.payload) x.approvalSignature =
    .ok true

/-- The key of a signature is active, and as many of its members as it needs have approved. -/
structure Authorised (p : Primitives) (r : Signing) : Prop where
  active : r.key.status = .active
  approved : ∃ nodes : Finset NodeId, r.key.threshold ≤ nodes.card ∧
    ∀ nodeId ∈ nodes, nodeId ∈ r.key.nodes ∧
      ∃ x ∈ r.session.contributions, x.nodeId = nodeId ∧ Approves p r.sessionId r.session x

/-- The members of a key that have contributed to a session. -/
def contributors (session : SigningSession) (key : ManagedKey) : Finset NodeId :=
  (session.contributions.map (·.nodeId)).toFinset ∩ key.nodes.toFinset

/-- The key is active, and enough of its members have contributed. -/
structure Backed (session : SigningSession) (key : ManagedKey) : Prop where
  active : key.status = .active
  enough : key.threshold ≤ (contributors session key).card

instance : Decidable (Backed session key) :=
  decidable_of_iff (key.status = .active ∧ key.threshold ≤ (contributors session key).card)
    ⟨fun h => ⟨h.1, h.2⟩, fun h => ⟨h.active, h.enough⟩⟩

/-- A signing that has all the shares that it needs. -/
def holding : Task → Option Collection
  | .collected c => some c
  | .signature c _ => some c
  | _ => none

def Guarded (s : State) (c : Collection) : Prop :=
  ∃ session ∈ s.sessions c.sessionId, ∃ key ∈ s.keys c.keyId, Backed session key

/-- What becomes of a key is enough for the signings that hold its shares. -/
def LeavesBacked (g : Config State Task) (keyId : KeyId) (key : ManagedKey) : Prop :=
  ∀ task ∈ g.tasks, ∀ c ∈ holding task, c.keyId = keyId →
    ∀ session ∈ g.state.sessions c.sessionId, Backed session key

/-- A signing gets its last share only while it is backed, and the end of a change of members leaves
it so. -/
def ResumesBacked (g : Config State Task) : Task → Prop
  | .reading c _ share => c.limit ≤ (c.collected ++ share.toList).length → Guarded g.state c
  | .deleting m nodes _ _ =>
    ∀ key ∈ g.state.keys m.keyId, LeavesBacked g m.keyId { key with nodes }
  | _ => True

/-- From its last share on, the key of a signing stays active, with enough members that have
contributed. -/
def StaysBacked (g : Config State Task) : Act Call Env → Prop
  | .call (.rotateKey keyId nodes threshold seed) _ =>
    ∀ key ∈ g.state.keys keyId, Rotatable g.state key nodes threshold seed →
      LeavesBacked g keyId { key with
        status := .active, threshold := threshold.getD key.threshold,
        nodes := nodes.getD key.nodes }
  | .call (.revokeKey keyId) _ =>
    ∀ key ∈ g.state.keys keyId, LeavesBacked g keyId { key with status := .revoked }
  | .resume i _ => ∀ task ∈ g.tasks[i]?, ResumesBacked g task
  | _ => True

section Decidable

instance : Decidable (Guarded s c) :=
  inferInstanceAs (Decidable (∃ session ∈ s.sessions c.sessionId, ∃ key ∈ s.keys c.keyId,
    Backed session key))

instance : Decidable (LeavesBacked g keyId key) :=
  inferInstanceAs (Decidable (∀ task ∈ g.tasks, ∀ c ∈ holding task, c.keyId = keyId →
    ∀ session ∈ g.state.sessions c.sessionId, Backed session key))

instance (g : Config State Task) : (task : Task) → Decidable (ResumesBacked g task)
  | .asking .. | .collected _ | .signature .. | .failing .. | .finalised _ | .sharing ..
  | .shared .. => isTrue trivial
  | .reading c _ share =>
    inferInstanceAs (Decidable (c.limit ≤ (c.collected ++ share.toList).length →
      Guarded g.state c))
  | .deleting m nodes _ _ =>
    inferInstanceAs (Decidable (∀ key ∈ g.state.keys m.keyId,
      LeavesBacked g m.keyId { key with nodes }))

instance (g : Config State Task) : (a : Act Call Env) → Decidable (StaysBacked g a)
  | .call (.rotateKey keyId nodes threshold seed) _ =>
    inferInstanceAs (Decidable (∀ key ∈ g.state.keys keyId,
      Rotatable g.state key nodes threshold seed → LeavesBacked g keyId { key with
        status := .active, threshold := threshold.getD key.threshold,
        nodes := nodes.getD key.nodes }))
  | .call (.revokeKey keyId) _ =>
    inferInstanceAs (Decidable (∀ key ∈ g.state.keys keyId,
      LeavesBacked g keyId { key with status := .revoked }))
  | .call (.runCeremony ..) _ | .call (.startSigningSession ..) _ | .call (.contribute ..) _
  | .call (.getSigningSession _) _ | .call (.addMember ..) _ | .call (.removeMember ..) _
  | .call (.setNode ..) _ | .call (.setUnavailable ..) _ => isTrue trivial
  | .resume i _ => inferInstanceAs (Decidable (∀ task ∈ g.tasks[i]?, ResumesBacked g task))

end Decidable

/-! ## Contributions stay -/

theorem Backed.mono (h : Backed session key)
    (hinitial : session.contributions <+: session'.contributions) (hstatus : key'.status = .active)
    (hthreshold : key'.threshold = key.threshold) (hnodes : key'.nodes = key.nodes) :
    Backed session' key' where
  active := hstatus
  enough := by
    rw [hthreshold]
    apply h.enough.trans
    apply Finset.card_le_card
    rw [contributors, contributors, hnodes]
    apply Finset.inter_subset_inter_right
    intro nodeId hmem
    rw [List.mem_toFinset] at hmem ⊢
    exact (hinitial.map _).subset hmem

/-! ## Contributions are valid -/

theorem approval_valid {tracker : EquivocationTracker}
    (h : approval p s sessionId nodeId signature session node = .ok (.ok tracker)) :
    verify p node.identityPublicKey (messageDigest p sessionId session.payload) signature =
      .ok true := by
  obtain ⟨valid, hvalid, h⟩ := bind_returns h
  rw [hvalid]
  cases valid with
  | false =>
    rw [if_pos rfl] at h
    have hbad := Except.ok.inj h
    contradiction
  | true => rfl

theorem kept_approves (p : Primitives) :
    Kept p fun sessionId session =>
      ∀ x ∈ session.contributions, Approves p sessionId session x where
  fresh := fun _ _ _ hx => absurd hx List.not_mem_nil
  same := by
    intro sessionId session session' h hsame x hx
    rw [hsame.contributions] at hx
    rw [Approves, hsame.payload]
    exact h x hx
  contributed := by
    intro s sessionId nodeId signature session node tracker _ hrecorded h x hx
    rw [Approves, contributed_payload]
    rw [contributed, addContribution] at hx
    split at hx
    next => exact h x hx
    next =>
      obtain hold | hlast := List.mem_append.mp hx
      · exact h x hold
      · rw [List.mem_singleton.mp hlast]
        exact approval_valid hrecorded

/-! ## One turn -/

/-- Keys need two approvals at least, approvals are valid, and signatures have been authorised. -/
structure InOrder (p : Primitives) (s : State) : Prop where
  two_le : ∀ keyId key, s.keys keyId = some key → 2 ≤ key.threshold
  valid : All (fun sessionId session => ∀ x ∈ session.contributions,
    Approves p sessionId session x) s
  authorised : ∀ r ∈ s.signings, Authorised p r

/-- What is known of a signing in progress. -/
def Underway (s : State) : Task → Prop
  | .asking c _ _ _ => c.collected.length < c.limit
  | .collected c => Guarded s c
  | .signature c _ => Guarded s c
  | _ => True

theorem underway_nextNode {nodes : List NodeId}
    (h : c.limit ≤ c.collected.length → Guarded s c) : Underway s (nextNode c nodes s') := by
  apply nextNode_rule nodes s'
  · exact fun _ => trivial
  · exact h
  · exact fun hfew _ _ _ _ => hfew

theorem underway_signCollected (h : Guarded s c) : Underway s (signCollected p c) := by
  rw [signCollected]
  split
  · trivial
  · split
    · trivial
    · exact h

/-- A key that has not changed, or that leaves its signings backed, keeps a signing guarded. -/
theorem Guarded.keep (h : Guarded s c) (hgrows : Grows s s')
    (hkey : ∀ session key, s.sessions c.sessionId = some session → s.keys c.keyId = some key →
      Backed session key → ∃ key', s'.keys c.keyId = some key' ∧ Backed session key') :
    Guarded s' c := by
  obtain ⟨session, hsession, key, hfound, hbacked⟩ := h
  obtain ⟨session', hsession', hcontinues⟩ := hgrows c.sessionId session hsession
  obtain ⟨key', hkey', hbacked'⟩ := hkey session key hsession hfound hbacked
  exact ⟨session', hsession', key', hkey',
    hbacked'.mono hcontinues.contributions hbacked'.active rfl rfl⟩

theorem Underway.of_holding (h : ∀ c ∈ holding task, Guarded s c → Guarded s' c)
    (hu : Underway s task) : Underway s' task := by
  cases task with
  | asking => exact hu
  | collected c => exact h c rfl hu
  | signature c signature => exact h c rfl hu
  | _ => trivial

theorem Called.underway (h : Called p env g.state x t s') (hq : StaysBacked g (.call x env))
    (hmem : task ∈ g.tasks) (hu : Underway g.state task) : Underway s' task := by
  refine hu.of_holding fun c hholding hguarded => hguarded.keep h.grows ?_
  intro session key hsession hkey hbacked
  obtain hsame | hrotated | hrevoked := h.key_cases hkey
  · exact ⟨key, hsame, hbacked⟩
  · obtain ⟨nodes, threshold, seed, publicKey, shares, rfl, hdealt, hkey', _⟩ := hrotated
    have hleft := hq key hkey hdealt.rotatable task hmem c hholding rfl session hsession
    exact ⟨_, hkey', hleft.mono (List.prefix_refl _) rfl rfl rfl⟩
  · obtain ⟨rfl, hkey'⟩ := hrevoked
    exact ⟨_, hkey', hq key hkey task hmem c hholding rfl session hsession⟩

theorem Resumed.underway {waiting : Task} (h : Resumed p env g.state waiting t s')
    (hq : ResumesBacked g waiting) (hmem : task ∈ g.tasks) (hu : Underway g.state task) :
    Underway s' task := by
  refine hu.of_holding fun c hholding hguarded => hguarded.keep h.grows ?_
  intro session key hsession hkey hbacked
  obtain hsame | hchanged := h.key_cases hkey
  · exact ⟨key, hsame, hbacked⟩
  · obtain ⟨m, nodes, shares, version, rfl, hid, hkey'⟩ := hchanged
    have hleft := hq key (hid ▸ hkey) task hmem c hholding hid.symm session hsession
    exact ⟨_, hkey', hleft.mono (List.prefix_refl _) hleft.active rfl rfl⟩

theorem Backed.authorised (h : Backed r.session r.key)
    (hvalid : ∀ x ∈ r.session.contributions, Approves p r.sessionId r.session x) :
    Authorised p r where
  active := h.active
  approved := by
    refine ⟨contributors r.session r.key, h.enough, fun nodeId hmem => ?_⟩
    obtain ⟨hcontributed, hmember⟩ := Finset.mem_inter.mp hmem
    obtain ⟨x, hx, rfl⟩ := List.mem_map.mp (List.mem_toFinset.mp hcontributed)
    exact ⟨List.mem_toFinset.mp hmember, x, hx, rfl, hvalid x hx⟩

theorem Called.signings (h : Called p env s x t s') : s'.signings = s.signings := by
  cases h with
  | quiet same => exact same.signings
  | _ => rfl

theorem Called.two_le (h : Called p env s x t s')
    (htwo : ∀ keyId key, s.keys keyId = some key → 2 ≤ key.threshold) :
    ∀ keyId key, s'.keys keyId = some key → 2 ≤ key.threshold := by
  intro keyId key hkey
  cases hold : s.keys keyId with
  | none =>
    obtain ⟨threshold, nodes, seed, publicKey, shares, _, hdealt, _, rfl⟩ := h.new_key hold hkey
    exact hdealt.two_le
  | some old =>
    obtain hsame | ⟨nodes, threshold, seed, publicKey, shares, _, hdealt, hnew, _⟩ | ⟨_, hnew⟩ :=
      h.key_cases hold
    · exact htwo keyId key (hold.trans (hsame.symm.trans hkey))
    · obtain rfl := Option.some.inj (hnew.symm.trans hkey)
      exact hdealt.two_le
    · obtain rfl := Option.some.inj (hnew.symm.trans hkey)
      exact htwo keyId old hold

theorem Resumed.two_le (h : Resumed p env s task t s')
    (htwo : ∀ keyId key, s.keys keyId = some key → 2 ≤ key.threshold) :
    ∀ keyId key, s'.keys keyId = some key → 2 ≤ key.threshold := by
  intro keyId key hkey
  cases hold : s.keys keyId with
  | none =>
    rw [h.no_key hold] at hkey
    contradiction
  | some old =>
    obtain hsame | ⟨m, nodes, shares, version, _, _, hnew⟩ := h.key_cases hold
    · exact htwo keyId key (hold.trans (hsame.symm.trans hkey))
    · obtain rfl := Option.some.inj (hnew.symm.trans hkey)
      exact htwo keyId old hold

theorem Called.inOrder (h : Called p env s x t s') (hi : InOrder p s) : InOrder p s' where
  two_le := h.two_le hi.two_le
  valid := h.all (kept_approves p) hi.valid
  authorised := h.signings ▸ hi.authorised

theorem Resumed.inOrder (h : Resumed p env s task t s') (hi : InOrder p s)
    (hu : Underway s task) : InOrder p s' where
  two_le := h.two_le hi.two_le
  valid := h.all (kept_approves p) hi.valid
  authorised := by
    cases h with
    | @signed c signature session key hsession hkey =>
      intro r hmem
      obtain hold | hlast := List.mem_append.mp hmem
      · exact hi.authorised r hold
      · rw [List.mem_singleton.mp hlast]
        obtain ⟨session', hsession', key', hkey', hbacked⟩ := hu
        obtain rfl := Option.some.inj (hsession.symm.trans hsession')
        obtain rfl := Option.some.inj (hkey.symm.trans hkey')
        have hsigned : Backed { session with signature := some signature, status := .signed } key :=
          hbacked.mono (List.prefix_refl _) hbacked.active rfl rfl
        have hvalid := hi.valid c.sessionId session hsession
        exact hsigned.authorised hvalid
    | _ => exact hi.authorised

theorem Called.tasks (h : Called p env s x t s') (hi : InOrder p s) :
    ∀ task ∈ t.tasks, Underway s' task := by
  have hdone {r : Except String Result} :
      ∀ task ∈ (Turn.done r : Turn Task (Except String Result)).tasks, Underway s' task :=
    fun _ hmem => absurd hmem List.not_mem_nil
  cases h with
  | @completed _ _ _ session _ _ key _ _ hkey _ =>
    intro task hmem
    rw [List.mem_singleton.mp hmem]
    apply underway_nextNode
    intro henough
    -- nothing has been collected yet, and the key needs two shares
    have hnone : key.threshold ≤ 0 := henough
    exact absurd (hi.two_le _ _ hkey) (by omega)
  | adding =>
    intro task hmem
    rw [List.mem_singleton.mp hmem]
    trivial
  | removing =>
    intro task hmem
    rw [List.mem_singleton.mp hmem]
    trivial
  | _ => exact hdone

theorem Resumed.tasks (h : Resumed p env g.state task t s') (hq : ResumesBacked g task)
    (hu : Underway g.state task) : ∀ task ∈ t.tasks, Underway s' task := by
  intro new hmem
  cases h with
  | skipped =>
    rw [List.mem_singleton.mp hmem]
    exact underway_nextNode fun henough => absurd hu (Nat.not_lt.mpr henough)
  | read =>
    rw [List.mem_singleton.mp hmem]
    exact underway_nextNode hq
  | collected =>
    rw [List.mem_singleton.mp hmem]
    exact underway_signCollected hu
  | ended => exact absurd hmem List.not_mem_nil
  | caught => exact absurd hmem List.not_mem_nil
  | refreshed => exact absurd hmem List.not_mem_nil
  | changed => exact absurd hmem List.not_mem_nil
  | asked =>
    rw [List.mem_singleton.mp hmem]
    trivial
  | signed =>
    rw [List.mem_singleton.mp hmem]
    trivial
  | checked =>
    rw [List.mem_singleton.mp hmem]
    trivial
  | reshared =>
    rw [List.mem_singleton.mp hmem]
    trivial

/-! ## Every run -/

theorem keeps_underway (p : Primitives) :
    Keeps (coordinator p) StaysBacked (InOrder p) Underway where
  call := by
    intro g x env t s hq hsound h
    have hcalled := called_of_call h
    exact ⟨hcalled.inOrder hsound.state, fun task hmem hu => hcalled.underway hq hmem hu,
      hcalled.tasks hsound.state⟩
  resume := by
    intro g i env waiting t s hq hsound hwaiting h
    have hresumed := resumed_of_resume h
    have hbacked := hq waiting hwaiting
    have hu := hsound.tasks waiting (List.mem_of_getElem? hwaiting)
    exact ⟨hresumed.inOrder hsound.state hu, fun task hmem hu => hresumed.underway hbacked hmem hu,
      hresumed.tasks hbacked hu⟩

/-- Signatures are authorised in every run whose signings stay backed. -/
theorem authorised_of_staysBacked (p : Primitives) (nodes : NodeId → Option MpcNode)
    (acts : List (Act Call Env))
    (h : Along (machine (coordinator p)) StaysBacked ⟨start nodes, []⟩ acts) :
    ∀ r ∈ (run (machine (coordinator p)) ⟨start nodes, []⟩ acts).state.signings,
      Authorised p r := by
  have hstart : InOrder p (start nodes) := by
    refine ⟨?_, ?_, ?_⟩
    · intro keyId key hkey
      contradiction
    · intro sessionId session hsession
      contradiction
    · intro r hmem
      contradiction
  have hsound := sound_run (keeps_underway p) h ⟨hstart, fun _ hmem => absurd hmem List.not_mem_nil⟩
  exact hsound.state.authorised

def approve (nodeId : NodeId) : Act Call Env :=
  .call (.contribute "s" nodeId
    (List.replicate 32 9 ++ messageDigest openPrimitives "s" (List.replicate 30 7))) (atTime 1)

/-- The key `k` of the nodes `a`, `b` and `c`, two of which sign, and a session. -/
def sessionStarts : List (Act Call Env) :=
  [.call (.runCeremony "k" 2 ["a", "b", "c"] (List.replicate 32 1)) (atTime 0),
    .call (.startSigningSession "s" "k" (List.replicate 30 7) none) (atTime 0)]

/-- Two approvals, two shares, and the signature. -/
def approvedRun : List (Act Call Env) :=
  sessionStarts ++ [approve "a", approve "b"] ++ List.replicate 6 (.resume 0 (atTime 1))

theorem approvedRun_authorised :
    let signings := (run (machine (coordinator openPrimitives)) ⟨start quorumNodes, []⟩
      approvedRun).state.signings
    signings.length = 1 ∧ ∀ r ∈ signings, Authorised openPrimitives r := by
  intro signings
  have hrun : signings.length = 1 ∧
      Along (machine (coordinator openPrimitives)) StaysBacked ⟨start quorumNodes, []⟩
        approvedRun := by
    decide +kernel
  obtain ⟨hone, hbacked⟩ := hrun
  exact ⟨hone, authorised_of_staysBacked openPrimitives quorumNodes approvedRun hbacked⟩

/-- The first to approve is removed before the second one approves. -/
def removedRun : List (Act Call Env) :=
  sessionStarts ++ [approve "a", .call (.setUnavailable "c" true) (atTime 1),
    .call (.removeMember "k" "a") (atTime 1)] ++ List.replicate 3 (.resume 0 (atTime 1)) ++
    [.call (.setUnavailable "c" false) (atTime 1), approve "b"] ++
    List.replicate 6 (.resume 0 (atTime 1))

/-- One member has signed with a node that is none. -/
theorem not_authorised_of_removed {p : Primitives} {signings : List Signing}
    (h : (signings.map fun r =>
      (r.session.contributions.map (·.nodeId), r.key.nodes, r.key.threshold)) =
        [(["a", "b"], ["b", "c"], 2)]) : ¬ ∀ r ∈ signings, Authorised p r := by
  intro hall
  obtain ⟨r, rfl⟩ : ∃ r, signings = [r] := by
    apply List.length_eq_one_iff.mp
    rw [← List.length_map, h]
    rfl
  obtain ⟨nodes, henough, hnodes⟩ := (hall r (List.mem_singleton_self r)).approved
  simp only [List.map_cons, List.map_nil, List.cons.injEq, Prod.mk.injEq, and_true] at h
  obtain ⟨hcontributions, hmembers, hthreshold⟩ := h
  -- only `b` is both a member and a contributor
  have hsubset : nodes ⊆ {"b"} := by
    intro nodeId hmem
    obtain ⟨hmember, x, hx, rfl, _⟩ := hnodes nodeId hmem
    have hcontributed : x.nodeId ∈ r.session.contributions.map (·.nodeId) :=
      List.mem_map_of_mem hx
    rw [hcontributions] at hcontributed
    rw [hmembers] at hmember
    simp only [List.mem_cons, List.not_mem_nil, or_false] at hcontributed hmember
    rw [Finset.mem_singleton]
    obtain ha | hb := hcontributed
    · rw [ha] at hmember
      simp at hmember
    · exact hb
  have hcard := Finset.card_le_card hsubset
  rw [Finset.card_singleton] at hcard
  omega

theorem removed_node_counts :
    let signings := (run (machine (coordinator openPrimitives)) ⟨start quorumNodes, []⟩
      removedRun).state.signings
    (signings.map fun r => (r.session.contributions.map (·.nodeId), r.key.nodes, r.key.threshold)) =
        [(["a", "b"], ["b", "c"], 2)] ∧
      ¬ ∀ r ∈ signings, Authorised openPrimitives r := by
  intro signings
  have hsignings : (signings.map fun r =>
      (r.session.contributions.map (·.nodeId), r.key.nodes, r.key.threshold)) =
        [(["a", "b"], ["b", "c"], 2)] := by
    decide +kernel
  exact ⟨hsignings, not_authorised_of_removed hsignings⟩

end Mpc
