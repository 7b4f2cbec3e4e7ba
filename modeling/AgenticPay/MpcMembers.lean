import AgenticPay.MpcRevocation
import AgenticPay.MpcSessions
import AgenticPay.MpcShares
import Mathlib.Data.Finset.Basic

/-!
# Changing the members of a key

A change of the members reads the shares and the nodes of a key, waits, deletes the shares, waits,
and then writes new shares and the nodes that it has worked out before. What other changes and
rotations have written in between is overwritten. A key comes out well if every change that ends
agrees with the nodes that the key has by then.
-/
namespace Mpc

open Shamir Awaits Transaction

variable {p : Primitives} {env : Env} {s s' : State} {keyId : KeyId} {nodeId : NodeId}
  {key : ManagedKey} {nodes nodes' : List NodeId} {shares : List Held}
  {table : NodeId → Option Held} {updates : List (NodeId × Bool)} {added : Bool}
  {m : MemberChange} {x : Call} {task : Task} {t : Turn Task (Except String Result)}
  {g : Config State Task} {a : Act Call Env}

/-- The last update of each node decides whether it is among the nodes. -/
def Reflects (updates : List (NodeId × Bool)) (nodes : List NodeId) : Prop :=
  ∀ pre post nodeId added, updates = pre ++ (nodeId, added) :: post →
    (∀ update ∈ post, update.1 ≠ nodeId) → (added = true ↔ nodeId ∈ nodes)

/-- A key as it is to be when nothing goes on. -/
structure Settled (p : Primitives) (s : State) (keyId : KeyId) (key : ManagedKey) : Prop where
  nodup : key.nodes.Nodup
  threshold_le : key.threshold ≤ key.nodes.length
  /-- Exactly the nodes of the key hold a share. -/
  holders : ∀ nodeId, (s.hsm keyId nodeId).isSome ↔ nodeId ∈ key.nodes
  /-- All shares come from one split of the seed behind the public key. -/
  oneSplit : AtNodes p key (s.hsm keyId)
  /-- No change of the members since the last rotation has been lost. -/
  reflected : Reflects (s.updates keyId) key.nodes

/-- A change of the members of the key that has not ended. -/
def Changes (keyId : KeyId) : Task → Prop
  | .sharing m _ => m.keyId = keyId
  | .shared m _ => m.keyId = keyId
  | .deleting m _ _ _ => m.keyId = keyId
  | _ => False

/-- The nodes that a change is about to write are those of the key by now, but for its own node. -/
structure TakesEffect (s : State) (m : MemberChange) (nodes : List NodeId) (key : ManagedKey) :
    Prop where
  unrotated : s.rotations m.keyId = m.rotations
  nodup : nodes.Nodup
  others : nodes.toFinset.erase m.nodeId = key.nodes.toFinset.erase m.nodeId
  /-- A node that leaves has not been given a share again. -/
  gone : m.nodeId ∉ nodes → (s.hsm m.keyId m.nodeId).isNone

instance (s : State) (m : MemberChange) (nodes : List NodeId) (key : ManagedKey) :
    Decidable (TakesEffect s m nodes key) :=
  decidable_of_iff (s.rotations m.keyId = m.rotations ∧ nodes.Nodup ∧
      nodes.toFinset.erase m.nodeId = key.nodes.toFinset.erase m.nodeId ∧
      (m.nodeId ∉ nodes → (s.hsm m.keyId m.nodeId).isNone))
    ⟨fun h => ⟨h.1, h.2.1, h.2.2.1, h.2.2.2⟩,
      fun h => ⟨h.unrotated, h.nodup, h.others, h.gone⟩⟩

/-- A change of the members of the key takes effect when it ends. -/
def EndsWell (keyId : KeyId) (s : State) : Task → Prop
  | .deleting m nodes _ _ => m.keyId = keyId →
      ∃ key ∈ s.keys m.keyId, TakesEffect s m nodes key
  | _ => True

instance (keyId : KeyId) (s : State) : (task : Task) → Decidable (EndsWell keyId s task)
  | .deleting m nodes _ _ => inferInstanceAs (Decidable (m.keyId = keyId →
      ∃ key ∈ s.keys m.keyId, TakesEffect s m nodes key))
  | .asking .. | .reading .. | .collected _ | .signature .. | .failing .. | .finalised _
  | .sharing .. | .shared .. => isTrue trivial

/-- Changes take effect when they end, and rotations do not name a node twice. -/
def Careful (keyId : KeyId) (g : Config State Task) : Act Call Env → Prop
  | .call (.rotateKey id nodes threshold seed) _ => id = keyId → ∀ key ∈ g.state.keys id,
      Rotatable g.state key nodes threshold seed → (nodes.getD key.nodes).Nodup
  | .resume i _ => ∀ task ∈ g.tasks[i]?, EndsWell keyId g.state task
  | _ => True

instance (keyId : KeyId) (g : Config State Task) :
    (a : Act Call Env) → Decidable (Careful keyId g a)
  | .call (.rotateKey id nodes threshold seed) _ =>
    inferInstanceAs (Decidable (id = keyId → ∀ key ∈ g.state.keys id,
      Rotatable g.state key nodes threshold seed → (nodes.getD key.nodes).Nodup))
  | .resume i _ =>
    inferInstanceAs (Decidable (∀ task ∈ g.tasks[i]?, EndsWell keyId g.state task))
  | .call (.runCeremony ..) _ | .call (.startSigningSession ..) _ | .call (.contribute ..) _
  | .call (.getSigningSession _) _ | .call (.addMember ..) _ | .call (.removeMember ..) _
  | .call (.revokeKey _) _ | .call (.setNode ..) _ | .call (.setUnavailable ..) _ => isTrue trivial

/-! ## Updates -/

theorem reflects_nil (nodes : List NodeId) : Reflects [] nodes := by
  intro pre post nodeId added h
  cases pre with
  | nil => contradiction
  | cons => contradiction

theorem Reflects.append (h : Reflects updates nodes) (hlast : added = true ↔ nodeId ∈ nodes')
    (hothers : ∀ n, n ≠ nodeId → (n ∈ nodes' ↔ n ∈ nodes)) :
    Reflects (updates ++ [(nodeId, added)]) nodes' := by
  intro pre post n b he hpost
  obtain rfl | ⟨front, last, rfl⟩ := post.eq_nil_or_concat
  · obtain ⟨_, hsame⟩ := List.append_inj' he rfl
    obtain ⟨rfl, rfl⟩ := Prod.mk.inj (List.singleton_inj.mp hsame)
    exact hlast
  · rw [List.concat_eq_append, ← List.cons_append, ← List.append_assoc] at he
    obtain ⟨hfront, hsame⟩ := List.append_inj' he rfl
    have hne : n ≠ nodeId := by
      have hupdate := hpost last (by simp)
      rw [← List.singleton_inj.mp hsame] at hupdate
      exact hupdate.symm
    rw [hothers n hne]
    exact h pre front n b hfront fun update hmem => hpost update (by simp [hmem])

/-! ## One turn -/

/-- What holds of the record of a key, the shares and the updates at any time. -/
structure Neat (key : ManagedKey) (table : NodeId → Option Held) (updates : List (NodeId × Bool)) :
    Prop where
  nodup : key.nodes.Nodup
  threshold_le : key.threshold ≤ key.nodes.length
  inside : ∀ nodeId, (table nodeId).isSome → nodeId ∈ key.nodes
  reflected : Reflects updates key.nodes

structure Tidy (keyId : KeyId) (s : State) : Prop where
  unmade : s.keys keyId = none → (∀ nodeId, s.hsm keyId nodeId = none) ∧ s.updates keyId = []
  made : ∀ key, s.keys keyId = some key → Neat key (s.hsm keyId) (s.updates keyId)

/-- A node that a change adds is among its nodes, and one that it removes is not. -/
def Shaped (task : Task) : Prop :=
  match task with
  | .sharing m _ | .shared m _ => ∀ remaining ∈ m.remaining, m.nodeId ∉ remaining
  | .deleting m nodes _ _ => m.remaining.isNone = true ↔ m.nodeId ∈ nodes
  | _ => True

theorem Tidy.frame (h : Tidy keyId s) (hkeys : s'.keys keyId = s.keys keyId)
    (hhsm : s'.hsm keyId = s.hsm keyId) (hupdates : s'.updates keyId = s.updates keyId) :
    Tidy keyId s' where
  unmade := by
    rw [hkeys, hhsm, hupdates]
    exact h.unmade
  made := by
    rw [hkeys, hhsm, hupdates]
    exact h.made

theorem Tidy.of_neat (hkey : s.keys keyId = some key)
    (hneat : Neat key (s.hsm keyId) (s.updates keyId)) : Tidy keyId s where
  unmade := by
    intro hnone
    rw [hkey] at hnone
    contradiction
  made := by
    intro found hfound
    obtain rfl := Option.some.inj (hkey.symm.trans hfound)
    exact hneat

theorem putAll_inside (h : (putAll table nodes shares nodeId).isSome) :
    nodeId ∈ nodes ∨ (table nodeId).isSome := by
  by_cases hmem : nodeId ∈ nodes
  · exact .inl hmem
  · rw [putAll_other hmem] at h
    exact .inr h

theorem putAll_filled (table : NodeId → Option Held) (hlength : nodes.length = shares.length)
    (hmem : nodeId ∈ nodes) : (putAll table nodes shares nodeId).isSome := by
  obtain ⟨share, _, he⟩ := putAll_mem table hlength hmem
  rw [he]
  rfl

theorem Called.tidy (h : Called p env g.state x t s') (hi : Tidy keyId g.state)
    (hq : Careful keyId g (.call x env)) (hrevoke : x ≠ .revokeKey keyId) : Tidy keyId s' := by
  cases h with
  | quiet same =>
    exact hi.frame (congrFun same.keys keyId) (congrFun same.hsm keyId)
      (congrFun same.updates keyId)
  | @made id threshold nodes _ publicKey shares _ hunused hdealt hnodup =>
    by_cases he : keyId = id
    · subst he
      obtain ⟨hnone, hupdates⟩ := hi.unmade hunused
      refine Tidy.of_neat (keys_self madeState_keys) ⟨hnodup, hdealt.threshold_le, ?_, ?_⟩
      · intro nodeId hsome
        rw [madeState, setKey_hsm, setShares_hsm, Function.update_self] at hsome
        obtain hin | hold := putAll_inside hsome
        · exact hin
        · rw [hnone nodeId] at hold
          contradiction
      · change Reflects (g.state.updates keyId) nodes
        rw [hupdates]
        exact reflects_nil nodes
    · exact hi.frame (keys_other madeState_keys he) (Function.update_of_ne he ..) rfl
  | @rotated id nodes threshold seed key publicKey shares _ hfound hdealt =>
    by_cases he : keyId = id
    · subst he
      have hnodup := hq rfl key hfound hdealt.rotatable
      refine Tidy.of_neat (keys_self rotatedState_keys) ⟨hnodup, hdealt.threshold_le, ?_, ?_⟩
      · intro nodeId hsome
        change (Function.update g.state.hsm keyId (putAll (deleteAll (g.state.hsm keyId) key.nodes)
          (nodes.getD key.nodes) shares) keyId nodeId).isSome at hsome
        rw [Function.update_self] at hsome
        obtain hin | hold := putAll_inside hsome
        · exact hin
        -- only nodes of the key have held a share, and those shares are deleted
        · by_cases hmem : nodeId ∈ key.nodes
          · rw [deleteAll_mem hmem] at hold
            contradiction
          · rw [deleteAll_other hmem] at hold
            exact absurd ((hi.made key hfound).inside nodeId hold) hmem
      · change Reflects (Function.update g.state.updates keyId [] keyId) _
        rw [Function.update_self]
        exact reflects_nil _
    · exact hi.frame (keys_other rotatedState_keys he) (Function.update_of_ne he ..)
        (Function.update_of_ne he ..)
  | @revoked id key _ hfound =>
    have hne : keyId ≠ id := by
      rintro rfl
      exact hrevoke rfl
    exact hi.frame (keys_other revokedState_keys hne) (Function.update_of_ne hne ..) rfl
  | _ => exact hi.frame rfl rfl rfl

theorem TakesEffect.mem_iff (h : TakesEffect s m nodes key) (hne : nodeId ≠ m.nodeId) :
    nodeId ∈ nodes ↔ nodeId ∈ key.nodes := by
  have hothers := Finset.ext_iff.mp h.others nodeId
  simpa [hne] using hothers

theorem TakesEffect.neat {shares : List Held} {version : Nat}
    (h : TakesEffect s m nodes key) (hi : Tidy m.keyId s) (hkey : s.keys m.keyId = some key)
    (hshaped : Shaped (.deleting m nodes shares version))
    (hread : ReadSound p {m.keyId} s (.deleting m nodes shares version)) :
    Neat { key with nodes, version := key.version + 1 } (putAll (s.hsm m.keyId) nodes shares)
      (s.updates m.keyId ++ [(m.nodeId, m.remaining.isNone)]) where
  nodup := h.nodup
  threshold_le := ((hread.2 rfl).unrotated h.unrotated key hkey).2
  inside := by
    intro nodeId hsome
    obtain hin | hold := putAll_inside hsome
    · exact hin
    · have hmember := (hi.made key hkey).inside nodeId hold
      by_cases hne : nodeId = m.nodeId
      · subst hne
        by_contra hnot
        have hnone := h.gone hnot
        rw [Option.isNone_iff_eq_none] at hnone
        rw [hnone] at hold
        contradiction
      · exact (h.mem_iff hne).mpr hmember
  reflected := (hi.made key hkey).reflected.append hshaped fun n hne => h.mem_iff hne

theorem Resumed.tidy (h : Resumed p env s task t s') (hi : Tidy keyId s)
    (hq : EndsWell keyId s task) (hshaped : Shaped task) (hread : ReadSound p {keyId} s task) :
    Tidy keyId s' := by
  cases h with
  | @reshared m shares key seed held hfound _ _ =>
    by_cases he : keyId = m.keyId
    · subst he
      have hneat := hi.made key hfound
      refine Tidy.of_neat (s := s.setShares m.keyId _) hfound
        ⟨hneat.nodup, hneat.threshold_le, ?_, hneat.reflected⟩
      intro nodeId hsome
      rw [setShares_hsm, Function.update_self] at hsome
      obtain ⟨share, hshare⟩ := Option.isSome_iff_exists.mp hsome
      exact hneat.inside nodeId (Option.isSome_of_eq_some (deleteAll_subset _ _ _ _ hshare))
    · exact hi.frame rfl (Function.update_of_ne he ..) rfl
  | @changed m nodes shares version key _ hfound _ =>
    by_cases he : keyId = m.keyId
    · subst he
      obtain ⟨found, hsame, heffect⟩ := hq rfl
      obtain rfl := Option.some.inj (hfound.symm.trans hsame)
      have hneat := heffect.neat hi hfound hshaped hread
      refine Tidy.of_neat (keys_self changedState_keys) ?_
      change Neat _ (Function.update s.hsm m.keyId _ m.keyId)
        (Function.update s.updates m.keyId _ m.keyId)
      rw [Function.update_self, Function.update_self]
      exact hneat
    · exact hi.frame (keys_other changedState_keys he) (Function.update_of_ne he ..)
        (Function.update_of_ne he ..)
  | _ => exact hi.frame rfl rfl rfl

theorem shaped_nextNode (c : Collection) (nodes : List NodeId) (s : State) :
    Shaped (nextNode c nodes s) := by
  apply nextNode_rule nodes s
  · exact fun _ => trivial
  · exact fun _ => trivial
  · exact fun _ _ _ _ _ => trivial

theorem Called.shaped (h : Called p env s x t s') : ∀ task ∈ t.tasks, Shaped task := by
  intro task hmem
  cases h with
  | completed =>
    rw [List.mem_singleton.mp hmem]
    exact shaped_nextNode ..
  | adding =>
    rw [List.mem_singleton.mp hmem]
    intro remaining hremaining
    contradiction
  | removing =>
    rw [List.mem_singleton.mp hmem]
    intro remaining hremaining
    obtain rfl := Option.some.inj hremaining
    simp [changeOf]
  | _ => contradiction

theorem next_shaped (hshaped : ∀ remaining ∈ m.remaining, m.nodeId ∉ remaining) :
    m.remaining.isNone = true ↔ m.nodeId ∈ m.next key := by
  rw [MemberChange.next]
  cases hremaining : m.remaining with
  | none => simp
  | some remaining => simpa using hshaped remaining hremaining

theorem Resumed.shaped (h : Resumed p env s task t s') (hshaped : Shaped task) :
    ∀ task ∈ t.tasks, Shaped task := by
  intro new hmem
  cases h with
  | checked =>
    rw [List.mem_singleton.mp hmem]
    exact hshaped
  | reshared =>
    rw [List.mem_singleton.mp hmem]
    exact next_shaped hshaped
  | skipped =>
    rw [List.mem_singleton.mp hmem]
    exact shaped_nextNode ..
  | read =>
    rw [List.mem_singleton.mp hmem]
    exact shaped_nextNode ..
  | @collected c =>
    rw [List.mem_singleton.mp hmem, signCollected]
    split
    · trivial
    · split
      · trivial
      · trivial
  | asked =>
    rw [List.mem_singleton.mp hmem]
    trivial
  | signed =>
    rw [List.mem_singleton.mp hmem]
    trivial
  | ended => contradiction
  | caught => contradiction
  | refreshed => contradiction
  | changed => contradiction

/-! ## Shares that are missing -/

/-- While a share is missing, a change of the members is about to hand out new ones. -/
def Covered (keyId : KeyId) (g : Config State Task) : Prop :=
  ∀ key, g.state.keys keyId = some key → ∀ nodeId ∈ key.nodes, g.state.hsm keyId nodeId = none →
    ∃ m nodes shares version, .deleting m nodes shares version ∈ g.tasks ∧ m.keyId = keyId

/-- A call leaves a key and its shares as they are, or every node of the key has a share. -/
theorem Called.filled (h : Called p env s x t s') (hrevoke : x ≠ .revokeKey keyId) :
    (s'.keys keyId = s.keys keyId ∧ s'.hsm keyId = s.hsm keyId) ∨
      ∀ key, s'.keys keyId = some key → ∀ nodeId ∈ key.nodes, (s'.hsm keyId nodeId).isSome := by
  cases h with
  | quiet same => exact .inl ⟨congrFun same.keys keyId, congrFun same.hsm keyId⟩
  | @made id threshold nodes _ publicKey shares _ _ hdealt _ =>
    by_cases he : keyId = id
    · subst he
      refine .inr fun key hkey nodeId hmem => ?_
      obtain rfl := Option.some.inj ((keys_self madeState_keys).symm.trans hkey)
      rw [madeState, setKey_hsm, setShares_hsm, Function.update_self]
      exact putAll_filled _ hdealt.split.length.symm hmem
    · exact .inl ⟨keys_other madeState_keys he, Function.update_of_ne he ..⟩
  | @rotated id nodes _ _ key _ shares _ _ hdealt =>
    by_cases he : keyId = id
    · subst he
      refine .inr fun found hkey nodeId hmem => ?_
      obtain rfl := Option.some.inj ((keys_self rotatedState_keys).symm.trans hkey)
      change (Function.update s.hsm keyId (putAll (deleteAll (s.hsm keyId) key.nodes)
        (nodes.getD key.nodes) shares) keyId nodeId).isSome
      rw [Function.update_self]
      exact putAll_filled _ hdealt.split.length.symm hmem
    · exact .inl ⟨keys_other rotatedState_keys he, Function.update_of_ne he ..⟩
  | @revoked id key _ _ =>
    have hne : keyId ≠ id := by
      rintro rfl
      exact hrevoke rfl
    exact .inl ⟨keys_other revokedState_keys hne, Function.update_of_ne hne ..⟩
  | _ => exact .inl ⟨rfl, rfl⟩

theorem covered_of_filled
    (h : ∀ key, g.state.keys keyId = some key → ∀ nodeId ∈ key.nodes,
      (g.state.hsm keyId nodeId).isSome) : Covered keyId g := by
  intro key hkey nodeId hmem hnone
  have hsome := h key hkey nodeId hmem
  rw [hnone] at hsome
  contradiction

/-- The end of a change of the members, which has as many shares as nodes. -/
theorem finishChange_eq (hkey : s.keys m.keyId = some key)
    (hlength : nodes.length = shares.length) :
    (finishChange m nodes shares s).2 = changedState s m key nodes shares := by
  rw [finishChange, hkey]
  simp only [distributeShares_eq hlength]
  rfl

theorem Resumed.filled (h : Resumed p env s task t s')
    (hother : ∀ m nodes shares version, task = .deleting m nodes shares version → m.keyId ≠ keyId) :
    (s'.keys keyId = s.keys keyId ∧ s'.hsm keyId = s.hsm keyId) ∨
      ∃ m nodes shares version, .deleting m nodes shares version ∈ t.tasks ∧ m.keyId = keyId := by
  cases h with
  | @reshared m shares key seed held _ _ _ =>
    by_cases he : keyId = m.keyId
    · exact .inr ⟨m, _, _, _, List.mem_singleton_self _, he.symm⟩
    · exact .inl ⟨rfl, Function.update_of_ne he ..⟩
  | @changed m nodes shares version key _ _ _ =>
    have hne := (hother m nodes shares version rfl).symm
    exact .inl ⟨keys_other changedState_keys hne, Function.update_of_ne hne ..⟩
  | _ => exact .inl ⟨rfl, rfl⟩

theorem Covered.called (h : Called p env g.state x t s') (hc : Covered keyId g)
    (hrevoke : x ≠ .revokeKey keyId) : Covered keyId ⟨s', g.tasks ++ t.tasks⟩ := by
  obtain ⟨hkeys, hhsm⟩ | hfilled := h.filled hrevoke
  · intro key hkey nodeId hmem hnone
    obtain ⟨m, nodes, shares, version, hwaiting, he⟩ :=
      hc key (hkeys ▸ hkey) nodeId hmem (hhsm ▸ hnone)
    exact ⟨m, nodes, shares, version, List.mem_append_left _ hwaiting, he⟩
  · exact covered_of_filled hfilled

theorem Covered.resumed {i : Nat} (hwaiting : g.tasks[i]? = some task)
    (h : resume p task env g.state = (t, s')) (hc : Covered keyId g)
    (hread : ReadSound p {keyId} g.state task) :
    Covered keyId ⟨s', g.tasks.eraseIdx i ++ t.tasks⟩ := by
  by_cases hends : ∃ m nodes shares version, task = .deleting m nodes shares version ∧
      m.keyId = keyId
  · obtain ⟨m, nodes, shares, version, rfl, rfl⟩ := hends
    obtain ⟨hlength, hread⟩ := hread
    obtain ⟨key, hkey⟩ := Option.isSome_iff_exists.mp (hread rfl).known
    have hs' : s' = changedState g.state m key nodes shares := by
      rw [← finishChange_eq hkey hlength]
      exact (congrArg Prod.snd h).symm
    subst hs'
    apply covered_of_filled
    intro found hfound nodeId hmem
    obtain rfl := Option.some.inj ((keys_self changedState_keys).symm.trans hfound)
    change (Function.update g.state.hsm m.keyId _ m.keyId nodeId).isSome
    rw [Function.update_self]
    exact putAll_filled _ hlength hmem
  · have hother : ∀ m nodes shares version, task = .deleting m nodes shares version →
        m.keyId ≠ keyId :=
      fun m nodes shares version he hid => hends ⟨m, nodes, shares, version, he, hid⟩
    obtain ⟨hkeys, hhsm⟩ | ⟨m, nodes, shares, version, hmem, he⟩ :=
      (resumed_of_resume h).filled hother
    · intro key hkey nodeId hmem hnone
      obtain ⟨m, nodes, shares, version, hin, he⟩ :=
        hc key (hkeys ▸ hkey) nodeId hmem (hhsm ▸ hnone)
      refine ⟨m, nodes, shares, version, List.mem_append_left _ ?_, he⟩
      -- the task that has been resumed is another one
      obtain ⟨j, hj⟩ := List.mem_iff_getElem?.mp hin
      refine List.mem_eraseIdx_iff_getElem?.mpr ⟨j, ?_, hj⟩
      rintro rfl
      obtain rfl := Option.some.inj (hwaiting.symm.trans hj)
      exact hends ⟨m, nodes, shares, version, rfl, he⟩
    · exact fun _ _ _ _ _ => ⟨m, nodes, shares, version, List.mem_append_right _ hmem, he⟩

/-! ## Every run -/

theorem keeps_tidy (p : Primitives) (keyId : KeyId) :
    KeepsOn (coordinator p) (Genuine p {keyId}) (ReadSound p {keyId})
      (fun g a => Careful keyId g a ∧ ∀ env, a ≠ .call (.revokeKey keyId) env)
      (Tidy keyId) fun _ => Shaped where
  call := by
    intro g x env t s hq _ hsound h _
    have hcalled := called_of_call h
    have hrevoke : x ≠ .revokeKey keyId := by
      rintro rfl
      exact hq.2 env rfl
    exact ⟨hcalled.tidy hsound.state hq.1 hrevoke, fun _ _ hshaped => hshaped, hcalled.shaped⟩
  resume := by
    intro g i env task t s hq hshares hsound hwaiting h _
    have hresumed := resumed_of_resume h
    have hmem := List.mem_of_getElem? hwaiting
    have hshaped := hsound.tasks task hmem
    exact ⟨hresumed.tidy hsound.state (hq.1 task hwaiting) hshaped (hshares.tasks task hmem),
      fun _ _ hshaped => hshaped, hresumed.shaped hshaped⟩

theorem Careful.endsBeforeRotation (h : Careful keyId g a) : EndsBeforeRotation {keyId} g a := by
  cases a with
  | call x env => trivial
  | resume i env =>
    intro m nodes shares version hwaiting hid
    obtain ⟨key, _, heffect⟩ := h _ hwaiting hid
    exact heffect.unrotated

theorem covered_commit (hread : ∀ task ∈ g.tasks, ReadSound p {keyId} g.state task)
    (hc : Covered keyId g) (hrevoke : ∀ env, a ≠ .call (.revokeKey keyId) env) :
    Covered keyId (commit (machine (coordinator p)) g a) := by
  obtain hmoves | he := commit_moves (coordinator p) g a
  · generalize commit (machine (coordinator p)) g a = g' at hmoves
    cases hmoves with
    | @called x env t s h =>
      refine Covered.called (called_of_call h) hc ?_
      rintro rfl
      exact hrevoke env rfl
    | resumed hwaiting h => exact hc.resumed hwaiting h (hread _ (List.mem_of_getElem? hwaiting))
  · rwa [he]

/-- When no change of the members of a key goes on, the key is settled, after every run of changes
that take effect when they end. -/
theorem settled_of_careful (p : Primitives) (nodes : NodeId → Option MpcNode) (keyId : KeyId)
    (acts : List (Act Call Env))
    (h : Along (machine (coordinator p)) (Careful keyId) ⟨start nodes, []⟩ acts)
    (hrevoke : ∀ a ∈ acts, ∀ env, a ≠ .call (.revokeKey keyId) env)
    (hdone : ∀ task ∈ (run (machine (coordinator p)) ⟨start nodes, []⟩ acts).tasks,
      ¬ Changes keyId task) :
    ∀ key, (run (machine (coordinator p)) ⟨start nodes, []⟩ acts).state.keys keyId = some key →
      Settled p (run (machine (coordinator p)) ⟨start nodes, []⟩ acts).state keyId key := by
  have hkeeps := (keeps_genuine p {keyId}).and (keeps_tidy p keyId)
  have hboth : Along (machine (coordinator p)) (fun g a => EndsBeforeRotation {keyId} g a ∧
      Careful keyId g a ∧ ∀ env, a ≠ .call (.revokeKey keyId) env) ⟨start nodes, []⟩ acts :=
    (h.and (along_forall.mpr hrevoke)).imp fun g a hq => ⟨hq.1.endsBeforeRotation, hq⟩
  have hstart : Sound (fun s => Genuine p {keyId} s ∧ Tidy keyId s)
      (fun s task => ReadSound p {keyId} s task ∧ Shaped task) ⟨start nodes, []⟩ ∧
        Covered keyId ⟨start nodes, []⟩ := by
    refine ⟨⟨⟨?_, ⟨fun _ => ⟨fun _ => rfl, rfl⟩, ?_⟩⟩,
      fun _ hmem => absurd hmem List.not_mem_nil⟩, ?_⟩
    · intro _ _ key hkey
      contradiction
    · intro key hkey
      contradiction
    · intro key hkey
      contradiction
  obtain ⟨hsound, hcovered⟩ := run_invariant (I := fun g => Sound (fun s => Genuine p {keyId} s ∧
      Tidy keyId s) (fun s task => ReadSound p {keyId} s task ∧ Shaped task) g ∧ Covered keyId g)
    (fun g a hi hq => ⟨sound_commit hkeeps hq hi.1,
      covered_commit (fun task hmem => (hi.1.tasks task hmem).1) hi.2 hq.2.2⟩) hstart hboth
  intro key hkey
  obtain ⟨hgenuine, htidy⟩ := hsound.state
  have hneat := htidy.made key hkey
  refine ⟨hneat.nodup, hneat.threshold_le, fun nodeId => ⟨hneat.inside nodeId, fun hmem => ?_⟩,
    hgenuine keyId rfl key hkey, hneat.reflected⟩
  rw [← Option.ne_none_iff_isSome]
  intro hnone
  obtain ⟨m, nodes', shares, version, hwaiting, he⟩ := hcovered key hkey nodeId hmem hnone
  exact hdone _ hwaiting he

/-- Every id is that of an active node. -/
def anyNode : NodeId → Option MpcNode := fun _ => some ⟨.active, []⟩

def goOn : Act Call Env := .resume 0 (atTime 0)

/-- A third node is added to two. -/
def addsOne : List (Act Call Env) :=
  [.call (.runCeremony "k" 2 ["a", "b"] (List.replicate 32 1)) (atTime 0),
    .call (.addMember "k" "c") (atTime 0), goOn, goOn, goOn]

theorem addsOne_settled :
    let s := (run (machine (coordinator openPrimitives)) ⟨start anyNode, []⟩ addsOne).state
    (s.keys "k").map (·.nodes) = some ["a", "b", "c"] ∧
      ∀ key, s.keys "k" = some key → Settled openPrimitives s "k" key := by
  have hrun : (run (machine (coordinator openPrimitives)) ⟨start anyNode, []⟩
        addsOne).tasks.length = 0 ∧
      ((run (machine (coordinator openPrimitives)) ⟨start anyNode, []⟩ addsOne).state.keys
        "k").map (·.nodes) = some ["a", "b", "c"] ∧
      Along (machine (coordinator openPrimitives)) (Careful "k") ⟨start anyNode, []⟩ addsOne := by
    decide +kernel
  obtain ⟨hdone, hnodes, hcareful⟩ := hrun
  refine ⟨hnodes, settled_of_careful openPrimitives anyNode "k" addsOne hcareful ?_ ?_⟩
  · intro a hmem env he
    subst he
    simp [addsOne, goOn] at hmem
  · rw [List.length_eq_zero_iff.mp hdone]
    exact fun _ hmem => absurd hmem List.not_mem_nil

/-- Two nodes are added at the same time. -/
def addsTwo : List (Act Call Env) :=
  [.call (.runCeremony "k" 2 ["a", "b"] (List.replicate 32 1)) (atTime 0),
    .call (.addMember "k" "c") (atTime 0), .call (.addMember "k" "d") (atTime 0),
    goOn, goOn, goOn, goOn, goOn, goOn]

/-- A node outside a key that holds a share of it is not settled. -/
theorem not_settled_of_share {p : Primitives} {s : State} {keyId : KeyId} {nodeId : NodeId}
    {nodes : List NodeId} (hnodes : (s.keys keyId).map (·.nodes) = some nodes)
    (hout : nodeId ∉ nodes) (hshare : (s.hsm keyId nodeId).isSome = true) :
    ¬ ∀ key, s.keys keyId = some key → Settled p s keyId key := by
  intro hall
  obtain ⟨key, hkey, rfl⟩ := Option.map_eq_some_iff.mp hnodes
  exact hout (((hall key hkey).holders nodeId).mp hshare)

theorem addition_lost :
    let g := run (machine (coordinator openPrimitives)) ⟨start anyNode, []⟩ addsTwo
    g.tasks.length = 0 ∧ g.state.updates "k" = [("c", true), ("d", true)] ∧
      (g.state.keys "k").map (·.nodes) = some ["a", "b", "d"] ∧
        (g.state.hsm "k" "c").isSome = true ∧
          ¬ ∀ key, g.state.keys "k" = some key → Settled openPrimitives g.state "k" key := by
  have hrest :
      let g := run (machine (coordinator openPrimitives)) ⟨start anyNode, []⟩ addsTwo
      g.tasks.length = 0 ∧ g.state.updates "k" = [("c", true), ("d", true)] ∧
        (g.state.keys "k").map (·.nodes) = some ["a", "b", "d"] ∧
          (g.state.hsm "k" "c").isSome = true := by
    decide +kernel
  obtain ⟨hdone, hupdates, hnodes, hshare⟩ := hrest
  exact ⟨hdone, hupdates, hnodes, hshare, not_settled_of_share hnodes (by decide) hshare⟩

end Mpc
