import AgenticPay.MpcSteps

/-!
# Revoked keys

Nothing but a rotation takes a key out of `revoked`, and a rotation does not look at the status.
-/
namespace Mpc

open Shamir Awaits Transaction

variable {p : Primitives} {env : Env} {s s' : State} {keyId keyId' : KeyId} {key : ManagedKey}
  {x : Call} {task : Task} {t : Turn Task (Except String Result)} {g : Config State Task}
  {a : Act Call Env}

def Revoked (s : State) (keyId : KeyId) : Prop :=
  ∃ key, s.keys keyId = some key ∧ key.status = .revoked

/-- What `rotateKey` checks. -/
structure Rotatable (s : State) (key : ManagedKey) (nodes : Option (List NodeId))
    (threshold : Option Nat) (seed : Bytes) : Prop where
  two_le : 2 ≤ threshold.getD key.threshold
  threshold_le : threshold.getD key.threshold ≤ (nodes.getD key.nodes).length
  le_254 : (nodes.getD key.nodes).length ≤ 254
  active : assertAllNodesActive s (nodes.getD key.nodes) = .ok ()
  seed : seed.length = 32

instance (s : State) (key : ManagedKey) (nodes : Option (List NodeId)) (threshold : Option Nat)
    (seed : Bytes) : Decidable (Rotatable s key nodes threshold seed) :=
  decidable_of_iff (2 ≤ threshold.getD key.threshold ∧
      threshold.getD key.threshold ≤ (nodes.getD key.nodes).length ∧
      (nodes.getD key.nodes).length ≤ 254 ∧
      assertAllNodesActive s (nodes.getD key.nodes) = .ok () ∧ seed.length = 32)
    ⟨fun h => ⟨h.1, h.2.1, h.2.2.1, h.2.2.2.1, h.2.2.2.2⟩,
      fun h => ⟨h.two_le, h.threshold_le, h.le_254, h.active, h.seed⟩⟩

/-- A rotation that passes its checks is not one of a revoked key. -/
def SparesRevoked (g : Config State Task) (a : Act Call Env) : Prop :=
  ∀ keyId nodes threshold seed env key, a = .call (.rotateKey keyId nodes threshold seed) env →
    g.state.keys keyId = some key → Rotatable g.state key nodes threshold seed →
      key.status ≠ .revoked

/-- Every key is revoked in all states after a call of `revokeKey` for it. -/
def RevokedForGood (p : Primitives) (g : Config State Task) (acts : List (Act Call Env)) : Prop :=
  ∀ pre post keyId env, pre ++ [.call (.revokeKey keyId) env] ++ post <+: acts →
    ((run (machine (coordinator p)) g pre).state.keys keyId).isSome →
      Revoked (run (machine (coordinator p)) g
        (pre ++ [.call (.revokeKey keyId) env] ++ post)).state keyId

theorem Dealt.rotatable {nodes : Option (List NodeId)} {threshold : Option Nat}
    {seed publicKey : Bytes} {shares : List Held}
    (h : Dealt p env s (threshold.getD key.threshold) (nodes.getD key.nodes) seed publicKey shares) :
    Rotatable s key nodes threshold seed where
  two_le := h.two_le
  threshold_le := h.threshold_le
  le_254 := h.split.accepts.le_254
  active := h.active
  seed := by
    obtain ⟨_, hseed, _⟩ := bind_returns h.publicKey
    rw [assertSeed] at hseed
    split_ifs at hseed with hlength
    exact not_not.mp hlength

theorem splitSeed_of_accepts (env : Env) {seed : Bytes} {threshold totalShares : Nat}
    (h : Accepts seed threshold totalShares) :
    ∃ shares, splitSeed env seed threshold totalShares = .ok shares := by
  rw [splitSeed]
  split
  next text hsplit =>
    rw [split_ok.mpr ⟨h, rfl⟩] at hsplit
    contradiction
  next shares hsplit => exact ⟨_, rfl⟩

theorem byzantine_of_le {threshold nodeCount : Nat} (htwo : 2 ≤ threshold)
    (hle : threshold ≤ nodeCount) :
    ∃ envelope, assertByzantineCompatible threshold nodeCount = .ok envelope := by
  rw [assertByzantineCompatible, if_neg (Nat.not_lt.mpr htwo), if_neg (Nat.not_lt.mpr hle)]
  dsimp only
  split
  · exact ⟨_, rfl⟩
  · exact ⟨_, rfl⟩

variable {nodes : Option (List NodeId)} {threshold : Option Nat} {seed : Bytes}

theorem Rotatable.rotationShares (h : Rotatable s key nodes threshold seed) (p : Primitives)
    (env : Env) : ∃ r, Mpc.rotationShares p env (threshold.getD key.threshold)
      (nodes.getD key.nodes) seed s = .ok r := by
  have haccepts : Accepts seed (threshold.getD key.threshold) (nodes.getD key.nodes).length :=
    ⟨by rw [h.seed]; decide, h.two_le, h.threshold_le, h.le_254⟩
  obtain ⟨shares, hshares⟩ := splitSeed_of_accepts env haccepts
  obtain ⟨envelope, hbyzantine⟩ := byzantine_of_le h.two_le h.threshold_le
  have hseed : assertSeed seed = .ok () := if_neg (not_not.mpr h.seed)
  refine ⟨(p.ed25519PublicKey seed, shares), ?_⟩
  rw [Mpc.rotationShares, hbyzantine, h.active, publicKeyFromSeed, hseed, hshares]
  rfl

theorem Rotatable.rotateKey (h : Rotatable s key nodes threshold seed)
    (hkey : s.keys keyId = some key) (p : Primitives) (env : Env) :
    ∃ publicKey shares, Mpc.rotateKey p env keyId nodes threshold seed s =
      (.done (.ok (.key (some
        { publicKey, threshold := threshold.getD key.threshold, nodes := nodes.getD key.nodes,
          status := .active, version := key.version + 1 }))),
        rotatedState s keyId key (threshold.getD key.threshold) (nodes.getD key.nodes) publicKey
          shares) := by
  obtain ⟨⟨publicKey, shares⟩, hshares⟩ := h.rotationShares p env
  refine ⟨publicKey, shares, ?_⟩
  have hlength := (rotationShares_ok hshares).split.length.symm
  simp only [Mpc.rotateKey, hkey, hshares, distributeShares_eq hlength, setShares_setShares,
    setShares_hsm, Function.update_self]
  rfl

/-! ## One turn -/

theorem Revoked.of_keys (hr : Revoked s keyId) (h : s'.keys keyId = s.keys keyId) :
    Revoked s' keyId := by
  obtain ⟨key, hkey, hstatus⟩ := hr
  exact ⟨key, h.trans hkey, hstatus⟩

theorem Called.spares (h : Called p env s x t s') (hr : Revoked s keyId)
    (hspares : ∀ nodes threshold seed key, x = .rotateKey keyId nodes threshold seed →
      s.keys keyId = some key → Rotatable s key nodes threshold seed → key.status ≠ .revoked) :
    Revoked s' keyId := by
  cases h with
  | quiet same => exact hr.of_keys (congrFun same.keys keyId)
  | @made keyId' threshold nodes seed publicKey shares r hunused _ _ =>
    have hne : keyId ≠ keyId' := by
      rintro rfl
      obtain ⟨key, hkey, _⟩ := hr
      rw [hkey] at hunused
      contradiction
    exact hr.of_keys (keys_other madeState_keys hne)
  | started => exact hr
  | looked => exact hr
  | rejected => exact hr
  | approved => exact hr
  | completed => exact hr
  | @rotated keyId' nodes threshold seed key publicKey shares r hfound hdealt =>
    have hne : keyId ≠ keyId' := by
      rintro rfl
      obtain ⟨key', hkey', hstatus⟩ := hr
      obtain rfl := Option.some.inj (hfound.symm.trans hkey')
      exact hspares _ _ _ _ rfl hfound hdealt.rotatable hstatus
    exact hr.of_keys (keys_other rotatedState_keys hne)
  | adding => exact hr
  | removing => exact hr
  | @revoked keyId' key r hfound =>
    by_cases he : keyId = keyId'
    · subst he
      exact ⟨_, keys_self revokedState_keys, rfl⟩
    · exact hr.of_keys (keys_other revokedState_keys he)

theorem Resumed.spares (h : Resumed p env s task t s') (hr : Revoked s keyId) :
    Revoked s' keyId := by
  cases h with
  | @changed m nodes shares version key r hfound _ =>
    by_cases he : keyId = m.keyId
    · obtain ⟨key', hkey', hstatus⟩ := hr
      rw [he] at hkey' ⊢
      obtain rfl := Option.some.inj (hfound.symm.trans hkey')
      exact ⟨_, keys_self changedState_keys, hstatus⟩
    · exact hr.of_keys (keys_other changedState_keys he)
  | _ => exact hr

theorem revoked_commit (hr : Revoked g.state keyId) (hspares : SparesRevoked g a) :
    Revoked (commit (machine (coordinator p)) g a).state keyId := by
  obtain hmoves | he := commit_moves (coordinator p) g a
  · generalize commit (machine (coordinator p)) g a = g' at hmoves
    cases hmoves with
    | called hcalled =>
      apply (called_of_call hcalled).spares hr
      rintro nodes threshold seed key rfl
      exact hspares _ _ _ _ _ _ rfl
    | resumed _ hresumed => exact (resumed_of_resume hresumed).spares hr
  · rwa [he]

/-- A key becomes revoked by a call of `revokeKey` only. -/
theorem Called.revoked_or (h : Called p env s x t s') (hr : Revoked s' keyId) :
    Revoked s keyId ∨ x = .revokeKey keyId ∧ (s.keys keyId).isSome := by
  cases h with
  | quiet same => exact .inl (hr.of_keys (congrFun same.keys keyId).symm)
  | @made keyId' threshold nodes seed publicKey shares r _ _ _ =>
    by_cases he : keyId = keyId'
    · subst he
      obtain ⟨key, hkey, hstatus⟩ := hr
      obtain rfl := Option.some.inj ((keys_self madeState_keys).symm.trans hkey)
      contradiction
    · exact .inl (hr.of_keys (keys_other madeState_keys he).symm)
  | started => exact .inl hr
  | looked => exact .inl hr
  | rejected => exact .inl hr
  | approved => exact .inl hr
  | completed => exact .inl hr
  | @rotated keyId' nodes threshold seed key publicKey shares r _ _ =>
    by_cases he : keyId = keyId'
    · subst he
      obtain ⟨key, hkey, hstatus⟩ := hr
      obtain rfl := Option.some.inj ((keys_self rotatedState_keys).symm.trans hkey)
      contradiction
    · exact .inl (hr.of_keys (keys_other rotatedState_keys he).symm)
  | adding => exact .inl hr
  | removing => exact .inl hr
  | @revoked keyId' key r hfound =>
    by_cases he : keyId = keyId'
    · subst he
      exact .inr ⟨rfl, by rw [hfound]; rfl⟩
    · exact .inl (hr.of_keys (keys_other revokedState_keys he).symm)

theorem Resumed.revoked_or (h : Resumed p env s task t s') (hr : Revoked s' keyId) :
    Revoked s keyId := by
  cases h with
  | @changed m nodes shares version key r hfound _ =>
    by_cases he : keyId = m.keyId
    · subst he
      obtain ⟨key', hkey', hstatus⟩ := hr
      obtain rfl := Option.some.inj ((keys_self changedState_keys).symm.trans hkey')
      exact ⟨key, hfound, hstatus⟩
    · exact hr.of_keys (keys_other changedState_keys he).symm
  | _ => exact hr

/-! ## Every run -/

theorem revoked_commit_or
    (hr : Revoked (commit (machine (coordinator p)) g a).state keyId) :
    Revoked g.state keyId ∨
      (∃ env, a = .call (.revokeKey keyId) env) ∧ (g.state.keys keyId).isSome := by
  obtain hmoves | he := commit_moves (coordinator p) g a
  · generalize commit (machine (coordinator p)) g a = g' at hmoves hr
    cases hmoves with
    | called hcalled =>
      obtain hold | ⟨rfl, hsome⟩ := (called_of_call hcalled).revoked_or hr
      · exact .inl hold
      · exact .inr ⟨⟨_, rfl⟩, hsome⟩
    | resumed _ hresumed => exact .inl ((resumed_of_resume hresumed).revoked_or hr)
  · rw [he] at hr
    exact .inl hr

/-- A key that is revoked after a run has been revoked in it. -/
theorem revoked_since {acts : List (Act Call Env)} (hstart : ¬ Revoked g.state keyId)
    (hr : Revoked (run (machine (coordinator p)) g acts).state keyId) :
    ∃ pre post env, acts = pre ++ [.call (.revokeKey keyId) env] ++ post ∧
      ((run (machine (coordinator p)) g pre).state.keys keyId).isSome := by
  induction acts using List.reverseRecOn with
  | nil => exact absurd hr hstart
  | append_singleton acts a ih =>
    rw [run_snoc] at hr
    obtain hold | ⟨⟨env, rfl⟩, hsome⟩ := revoked_commit_or hr
    · obtain ⟨pre, post, env, rfl, hsome⟩ := ih hold
      exact ⟨pre, post ++ [a], env, by simp, hsome⟩
    · exact ⟨acts, [], env, by simp, hsome⟩

theorem revoked_call (hkey : (g.state.keys keyId).isSome) (env : Env) :
    Revoked (commit (machine (coordinator p)) g (.call (.revokeKey keyId) env)).state keyId := by
  obtain ⟨key, hkey⟩ := Option.isSome_iff_exists.mp hkey
  have hcall : (coordinator p).call (.revokeKey keyId) env g.state =
      some (.done (.ok (.key (some { key with status := .revoked }))),
        revokedState g.state keyId key) := by
    simp only [coordinator, call, revokeKey, hkey]
    rfl
  rw [commit_called hcall]
  exact ⟨_, keys_self revokedState_keys, rfl⟩

/-- Revocations are for good in exactly the runs whose rotations spare revoked keys. -/
theorem revokedForGood_iff (p : Primitives) (nodes : NodeId → Option MpcNode)
    (acts : List (Act Call Env)) :
    RevokedForGood p ⟨start nodes, []⟩ acts ↔
      Along (machine (coordinator p)) SparesRevoked ⟨start nodes, []⟩ acts := by
  constructor
  · intro hgood
    refine along_iff_initial.mpr fun mid a hmid => ?_
    rintro keyId nodes' threshold seed env key rfl hkey hrotatable hstatus
    have hstart : ¬ Revoked (start nodes) keyId := by
      rintro ⟨_, hnone, _⟩
      contradiction
    obtain ⟨pre, post, env', rfl, hsome⟩ := revoked_since hstart ⟨key, hkey, hstatus⟩
    have hafter := hgood pre (post ++ [_]) keyId env' (by simpa using hmid) hsome
    rw [← List.append_assoc, run_snoc] at hafter
    obtain ⟨publicKey, shares, hrotate⟩ := hrotatable.rotateKey hkey p env
    rw [commit_called (congrArg some hrotate)] at hafter
    obtain ⟨key', hkey', hrevoked⟩ := hafter
    obtain rfl := Option.some.inj ((keys_self rotatedState_keys).symm.trans hkey')
    contradiction
  · intro hspares pre post keyId env hinitial hsome
    have halong := hspares.initial hinitial
    rw [List.append_assoc, along_append] at halong
    have hrevoked := revoked_call (p := p) hsome env
    rw [List.append_assoc, run_append]
    exact run_invariant (I := fun g => Revoked g.state keyId)
      (fun _ _ hr hspares => revoked_commit hr hspares) hrevoked halong.2.2

/-- Three active nodes. -/
def threeNodes : NodeId → Option MpcNode := fun nodeId =>
  if nodeId ∈ ["a", "b", "c"] then some ⟨.active, List.replicate 32 0⟩ else none

/-- The time 1000, and the same random byte every time. -/
def at1000 : Env := ⟨1000, fun _ _ => 5⟩

/-- Signatures that are the signed message with the key. -/
def plainPrimitives : Primitives where
  ed25519PublicKey := fun seed => seed
  ed25519Sign := fun seed message => seed ++ message
  ed25519Verify := fun publicKey message signature => signature == publicKey ++ message
  sha256 := fun message => message

def makeKey : Act Call Env :=
  .call (.runCeremony "k" 2 ["a", "b", "c"] (List.replicate 32 1)) at1000

def revokeIt : Act Call Env := .call (.revokeKey "k") at1000

def rotateIt : Act Call Env := .call (.rotateKey "k" none none (List.replicate 32 2)) at1000

theorem rotation_revives :
    ((run (machine (coordinator plainPrimitives)) ⟨start threeNodes, []⟩
        [makeKey, revokeIt, rotateIt]).state.keys "k").map (·.status) = some .active ∧
      ¬ RevokedForGood plainPrimitives ⟨start threeNodes, []⟩ [makeKey, revokeIt, rotateIt] := by
  have hactive : ((run (machine (coordinator plainPrimitives)) ⟨start threeNodes, []⟩
      [makeKey, revokeIt, rotateIt]).state.keys "k").map (·.status) = some .active := by
    decide +kernel
  refine ⟨hactive, fun hgood => ?_⟩
  obtain ⟨key, hkey, hrevoked⟩ :=
    hgood [makeKey] [rotateIt] "k" at1000 (List.prefix_refl _) (by decide +kernel)
  have hboth := hactive
  change ((run (machine (coordinator plainPrimitives)) ⟨start threeNodes, []⟩
    ([makeKey] ++ [revokeIt] ++ [rotateIt])).state.keys "k").map (·.status) = some .active at hboth
  rw [revokeIt, hkey, Option.map_some, hrevoked] at hboth
  contradiction

end Mpc
