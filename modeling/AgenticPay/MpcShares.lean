import AgenticPay.MpcSteps

/-!
# Where the shares of a key come from

A rotation, and every change of the members, hands out the shares of a new split. The shares at the
nodes of a key come from one split of the seed behind its public key, unless a change of the members
ends after a rotation that has come since it read the shares: then the old seed is handed out again.
-/
namespace Mpc

open Shamir Awaits Transaction

variable {p : Primitives} {env : Env} {s s' : State} {keyId : KeyId} {nodeId : NodeId}
  {key key' : ManagedKey} {nodes : List NodeId} {shares : List Held} {held : NodeId → Option Held}
  {origin : Origin} {seed : Bytes} {m : MemberChange} {x : Call} {task : Task}
  {t : Turn Task (Except String Result)} {g : Config State Task} {K : Set KeyId}

/-! ## Tables of shares -/

theorem putAll_other (h : nodeId ∉ nodes) : putAll held nodes shares nodeId = held nodeId := by
  induction nodes generalizing shares held with
  | nil => rfl
  | cons n ns ih =>
    cases shares with
    | nil => rfl
    | cons x xs =>
      obtain ⟨hne, htail⟩ := List.ne_and_not_mem_of_not_mem_cons h
      have hrest : putAll held (n :: ns) (x :: xs) nodeId =
          putAll (Function.update held n (some x)) ns xs nodeId := rfl
      rw [hrest, ih htail, Function.update_of_ne hne]

theorem putAll_mem (held : NodeId → Option Held) (hlength : nodes.length = shares.length)
    (h : nodeId ∈ nodes) :
    ∃ share ∈ shares, putAll held nodes shares nodeId = some share := by
  induction nodes generalizing shares held with
  | nil => contradiction
  | cons n ns ih =>
    cases shares with
    | nil => contradiction
    | cons x xs =>
      have hrest : putAll held (n :: ns) (x :: xs) nodeId =
          putAll (Function.update held n (some x)) ns xs nodeId := rfl
      by_cases hmem : nodeId ∈ ns
      · obtain ⟨share, hshare, he⟩ := ih _ (Nat.succ.inj hlength) hmem
        exact ⟨share, List.mem_cons_of_mem x hshare, hrest.trans he⟩
      · obtain rfl | hin := List.mem_cons.mp h
        · refine ⟨x, List.mem_cons_self, ?_⟩
          rw [hrest, putAll_other hmem, Function.update_self]
        · contradiction

theorem deleteAll_other (h : nodeId ∉ nodes) : deleteAll held nodes nodeId = held nodeId := by
  induction nodes generalizing held with
  | nil => rfl
  | cons n ns ih =>
    obtain ⟨hne, htail⟩ := List.ne_and_not_mem_of_not_mem_cons h
    have hrest : deleteAll held (n :: ns) nodeId =
        deleteAll (Function.update held n none) ns nodeId := rfl
    rw [hrest, ih htail, Function.update_of_ne hne]

theorem deleteAll_mem (h : nodeId ∈ nodes) : deleteAll held nodes nodeId = none := by
  induction nodes generalizing held with
  | nil => contradiction
  | cons n ns ih =>
    have hrest : deleteAll held (n :: ns) nodeId =
        deleteAll (Function.update held n none) ns nodeId := rfl
    by_cases hmem : nodeId ∈ ns
    · exact hrest.trans (ih hmem)
    · obtain rfl | hin := List.mem_cons.mp h
      · rw [hrest, deleteAll_other hmem, Function.update_self]
      · contradiction

/-! ## One split -/

/-- A split of the seed behind the public key of a key, for its threshold. -/
structure OriginOf (p : Primitives) (key : ManagedKey) (origin : Origin) : Prop where
  publicKey : p.ed25519PublicKey origin.secret = key.publicKey
  threshold : origin.threshold = key.threshold

/-- The shares come from one split of the seed behind the public key of a key. -/
def OneSplit (p : Primitives) (key : ManagedKey) (shares : List Held) : Prop :=
  ∃ origin, OriginOf p key origin ∧ ∀ held ∈ shares, held.origin = origin

/-- And so do the shares in a table at the nodes of the key. -/
def AtNodes (p : Primitives) (key : ManagedKey) (held : NodeId → Option Held) : Prop :=
  ∃ origin, OriginOf p key origin ∧ ∀ nodeId ∈ key.nodes, ∀ share ∈ held nodeId,
    share.origin = origin

/-- Two records of a key whose seed and threshold are the same. -/
structure SameSeed (key key' : ManagedKey) : Prop where
  publicKey : key'.publicKey = key.publicKey
  threshold : key'.threshold = key.threshold

theorem OriginOf.same (h : OriginOf p key origin) (hsame : SameSeed key key') :
    OriginOf p key' origin :=
  ⟨h.publicKey.trans hsame.publicKey.symm, h.threshold.trans hsame.threshold.symm⟩

theorem OneSplit.same (h : OneSplit p key shares) (hsame : SameSeed key key') :
    OneSplit p key' shares := by
  obtain ⟨origin, horigin, hshares⟩ := h
  exact ⟨origin, horigin.same hsame, hshares⟩

/-- What is put at the nodes of a key comes from where the shares come from. -/
theorem OneSplit.atNodes (h : OneSplit p key shares) (hlength : key.nodes.length = shares.length) :
    AtNodes p key (putAll held key.nodes shares) := by
  obtain ⟨origin, horigin, hshares⟩ := h
  refine ⟨origin, horigin, fun nodeId hmem share hshare => ?_⟩
  obtain ⟨put, hput, he⟩ := putAll_mem held hlength hmem
  rw [Option.mem_def, he] at hshare
  rw [← Option.some.inj hshare]
  exact hshares put hput

theorem reconstruct_checks {list : List Share} (h : reconstruct list = .ok seed) :
    (list.map (·.x)).Nodup ∧ 2 ≤ list.length := by
  rw [reconstruct.eq_def] at h
  split at h
  next first second rest =>
    obtain ⟨_, _, h⟩ := bind_returns h
    dsimp only at h
    split_ifs at h with hduplicates
    refine ⟨?_, by simp⟩
    have hsame := (List.dedup_sublist _).eq_of_length (not_not.mp hduplicates)
    rw [← hsame]
    exact List.nodup_dedup _
  next => contradiction

/-- Enough shares of one split give the seed, if they give anything. -/
theorem reconstruct_of_origin (h : reconstruct (shares.map (·.share)) = .ok seed)
    (horigin : ∀ held ∈ shares, held.origin = origin) (henough : origin.threshold ≤ shares.length) :
    seed = origin.secret := by
  obtain ⟨hdistinct, htwo⟩ := reconstruct_checks h
  have hshares : ∀ share ∈ shares.map (·.share), IsShare origin.secret origin.random share := by
    intro share hmem
    obtain ⟨held, hheld, rfl⟩ := List.mem_map.mp hmem
    rw [← horigin held hheld]
    exact held.isShare
  have hlength : origin.threshold - 1 + 1 ≤ (shares.map (·.share)).length := by
    rw [List.length_map] at htwo ⊢
    omega
  rw [reconstruct_of_isShare hshares hdistinct htwo hlength] at h
  exact (Except.ok.inj h).symm

theorem SplitOf.oneSplit (h : SplitOf env seed key.threshold nodes.length shares)
    (hseed : p.ed25519PublicKey seed = key.publicKey) : OneSplit p key shares :=
  ⟨_, ⟨hseed, rfl⟩, h.origin⟩

theorem publicKeyFromSeed_ok {publicKey : Bytes} (h : publicKeyFromSeed p seed = .ok publicKey) :
    p.ed25519PublicKey seed = publicKey := by
  obtain ⟨_, _, h⟩ := bind_returns h
  exact Except.ok.inj h

/-! ## One turn -/

/-- For every key of `K`, the shares at its nodes come from one split of its seed. -/
def Genuine (p : Primitives) (K : Set KeyId) (s : State) : Prop :=
  ∀ keyId ∈ K, ∀ key, s.keys keyId = some key → AtNodes p key (s.hsm keyId)

/-- The shares that a change of members goes on with: if the key has not been rotated since they
have been read, they come from one split of its seed, and are enough for what comes next. -/
structure ReadBy (p : Primitives) (s : State) (m : MemberChange) (enough : ManagedKey → Prop)
    (shares : List Held) : Prop where
  known : (s.keys m.keyId).isSome
  rotations_le : m.rotations ≤ s.rotations m.keyId
  unrotated : s.rotations m.keyId = m.rotations → ∀ key, s.keys m.keyId = some key →
    OneSplit p key shares ∧ enough key

/-- What holds of the changes of members of the keys of `K`. -/
def ReadSound (p : Primitives) (K : Set KeyId) (s : State) : Task → Prop
  | .sharing m shares => m.keyId ∈ K → ReadBy p s m (fun _ => True) shares
  | .shared m shares => m.keyId ∈ K → ReadBy p s m (·.threshold ≤ shares.length) shares
  | .deleting m nodes shares _ => nodes.length = shares.length ∧
      (m.keyId ∈ K → ReadBy p s m (·.threshold ≤ nodes.length) shares)
  | _ => True

/-- A change of members does not end after a rotation that its read has not seen. -/
def EndsBeforeRotation (K : Set KeyId) (g : Config State Task) : Act Call Env → Prop
  | .call .. => True
  | .resume i _ => ∀ m nodes shares version,
      g.tasks[i]? = some (.deleting m nodes shares version) → m.keyId ∈ K →
        g.state.rotations m.keyId = m.rotations

theorem Genuine.update {id : KeyId} (hg : Genuine p K s)
    (hkeys : s'.keys = Function.update s.keys id (some key))
    (hhsm : s'.hsm = Function.update s.hsm id held) (hnew : id ∈ K → AtNodes p key held) :
    Genuine p K s' := by
  intro keyId hmem found hfound
  by_cases he : keyId = id
  · subst he
    rw [keys_self hkeys] at hfound
    rw [← Option.some.inj hfound, hhsm, Function.update_self]
    exact hnew hmem
  · rw [keys_other hkeys he] at hfound
    rw [hhsm, Function.update_of_ne he]
    exact hg keyId hmem found hfound

/-- Shares that are lost do no harm. -/
theorem AtNodes.subset {held' : NodeId → Option Held} (h : AtNodes p key held)
    (hsubset : ∀ nodeId share, held' nodeId = some share → held nodeId = some share) :
    AtNodes p key held' := by
  obtain ⟨origin, horigin, hshares⟩ := h
  exact ⟨origin, horigin, fun nodeId hmem share hshare =>
    hshares nodeId hmem share (hsubset nodeId share hshare)⟩

theorem deleteAll_subset (held : NodeId → Option Held) (nodes : List NodeId) (nodeId : NodeId)
    (share : Held) (h : deleteAll held nodes nodeId = some share) : held nodeId = some share := by
  by_cases hmem : nodeId ∈ nodes
  · rw [deleteAll_mem hmem] at h
    contradiction
  · rwa [deleteAll_other hmem] at h

theorem Dealt.oneSplit {threshold : Nat} {publicKey : Bytes} {status : KeyStatus} {version : Nat}
    (h : Dealt p env s threshold nodes seed publicKey shares) :
    OneSplit p { publicKey, threshold, nodes, status, version } shares :=
  h.split.oneSplit (publicKeyFromSeed_ok h.publicKey)

theorem Called.genuine (h : Called p env s x t s') (hg : Genuine p K s) : Genuine p K s' := by
  cases h with
  | quiet same =>
    intro keyId hmem key hkey
    rw [same.hsm]
    exact hg keyId hmem key ((congrFun same.keys keyId).symm.trans hkey)
  | made _ hdealt _ =>
    exact hg.update madeState_keys rfl fun _ =>
      hdealt.oneSplit.atNodes hdealt.split.length.symm
  | rotated _ hdealt =>
    exact hg.update rotatedState_keys rfl fun _ =>
      hdealt.oneSplit.atNodes hdealt.split.length.symm
  | @revoked keyId key _ hfound =>
    refine hg.update revokedState_keys rfl fun hmem => ?_
    obtain ⟨origin, horigin, _⟩ := hg keyId hmem key hfound
    exact ⟨origin, ⟨horigin.publicKey, horigin.threshold⟩, fun _ _ _ hnone => by contradiction⟩
  | _ => exact hg

theorem Resumed.genuine (h : Resumed p env s task t s') (hg : Genuine p K s)
    (hread : ReadSound p K s task) (hends : ∀ m nodes shares version,
      task = .deleting m nodes shares version → m.keyId ∈ K →
        s.rotations m.keyId = m.rotations) : Genuine p K s' := by
  cases h with
  | @reshared m shares key seed held hfound _ _ =>
    intro keyId hmem found hkey
    by_cases he : keyId = m.keyId
    · subst he
      rw [setShares_hsm, Function.update_self]
      exact (hg m.keyId hmem found hkey).subset (deleteAll_subset _ _)
    · rw [setShares_hsm, Function.update_of_ne he]
      exact hg keyId hmem found hkey
  | @changed m nodes shares version key _ hfound hlength =>
    refine hg.update changedState_keys rfl fun hmem => ?_
    have hrotations := hends m nodes shares version rfl hmem
    obtain ⟨hsplit, _⟩ := (hread.2 hmem).unrotated hrotations key hfound
    have hsame : SameSeed key { key with nodes, version := key.version + 1 } := ⟨rfl, rfl⟩
    exact (hsplit.same hsame).atNodes hlength
  | _ => exact hg

/-! ## What a rotation leaves of the reads before it -/

/-- A turn either counts a rotation of a key, or leaves it with its seed. -/
structure Follows (s s' : State) (keyId : KeyId) : Prop where
  rotations_le : s.rotations keyId ≤ s'.rotations keyId
  same : ∀ key, s.keys keyId = some key → ∃ key', s'.keys keyId = some key' ∧
    (s'.rotations keyId = s.rotations keyId → SameSeed key key')

theorem rotatedState_rotations {threshold : Nat} {publicKey : Bytes} :
    (rotatedState s keyId key threshold nodes publicKey shares).rotations =
      Function.update s.rotations keyId (s.rotations keyId + 1) := rfl

theorem Called.rotations_le (h : Called p env s x t s') (keyId : KeyId) :
    s.rotations keyId ≤ s'.rotations keyId := by
  cases h with
  | quiet same => exact (congrFun same.rotations keyId).ge
  | @rotated id _ _ _ _ _ _ _ _ _ =>
    rw [rotatedState_rotations]
    by_cases he : keyId = id
    · subst he
      rw [Function.update_self]
      exact Nat.le_succ _
    · rw [Function.update_of_ne he]
  | _ => exact le_rfl

theorem Resumed.rotations (h : Resumed p env s task t s') : s'.rotations = s.rotations := by
  cases h with
  | _ => rfl

theorem Called.follows (h : Called p env s x t s') (keyId : KeyId) : Follows s s' keyId where
  rotations_le := h.rotations_le keyId
  same := by
    intro key hkey
    obtain hsame | ⟨nodes, threshold, seed, publicKey, shares, _, _, hkey', hnext⟩ | ⟨_, hkey'⟩ :=
      h.key_cases hkey
    · exact ⟨key, hsame, fun _ => ⟨rfl, rfl⟩⟩
    · exact ⟨_, hkey', fun hrotations => absurd (hnext.symm.trans hrotations) (Nat.succ_ne_self _)⟩
    · exact ⟨_, hkey', fun _ => ⟨rfl, rfl⟩⟩

theorem Resumed.follows (h : Resumed p env s task t s') (keyId : KeyId) : Follows s s' keyId where
  rotations_le := (congrFun h.rotations keyId).ge
  same := by
    intro key hkey
    obtain hsame | ⟨m, nodes, shares, version, _, _, hkey'⟩ := h.key_cases hkey
    · exact ⟨key, hsame, fun _ => ⟨rfl, rfl⟩⟩
    · exact ⟨_, hkey', fun _ => ⟨rfl, rfl⟩⟩

theorem ReadBy.follows {enough : ManagedKey → Prop} (h : ReadBy p s m enough shares)
    (hf : Follows s s' m.keyId)
    (henough : ∀ key key', SameSeed key key' → enough key → enough key') :
    ReadBy p s' m enough shares := by
  obtain ⟨key, hkey⟩ := Option.isSome_iff_exists.mp h.known
  obtain ⟨key', hkey', hsame⟩ := hf.same key hkey
  refine ⟨by rw [hkey']; rfl, h.rotations_le.trans hf.rotations_le, ?_⟩
  intro hrotations found hfound
  obtain rfl := Option.some.inj (hkey'.symm.trans hfound)
  -- no rotation since the read, so none in this turn
  have hle := h.rotations_le
  have hle' := hf.rotations_le
  have hseed := hsame (by omega)
  obtain ⟨hsplit, hold⟩ := h.unrotated (by omega) key hkey
  exact ⟨hsplit.same hseed, henough key key' hseed hold⟩

theorem ReadSound.follows (h : ReadSound p K s task) (hf : ∀ keyId, Follows s s' keyId) :
    ReadSound p K s' task := by
  have hthreshold (n : Nat) (key key' : ManagedKey) (hsame : SameSeed key key')
      (hle : key.threshold ≤ n) : key'.threshold ≤ n := hsame.threshold.trans_le hle
  cases task with
  | sharing m shares =>
    exact fun hmem => (h hmem).follows (hf m.keyId) fun _ _ _ _ => trivial
  | shared m shares => exact fun hmem => (h hmem).follows (hf m.keyId) (hthreshold _)
  | deleting m nodes shares version =>
    exact ⟨h.1, fun hmem => (h.2 hmem).follows (hf m.keyId) (hthreshold _)⟩
  | _ => trivial

/-! ## What a change of members reads, and splits -/

theorem AtNodes.read (h : AtNodes p key (s.hsm keyId)) :
    OneSplit p key (key.nodes.filterMap (s.getShare keyId)) := by
  obtain ⟨origin, horigin, hshares⟩ := h
  refine ⟨origin, horigin, fun share hmem => ?_⟩
  obtain ⟨nodeId, hnode, hget⟩ := List.mem_filterMap.mp hmem
  rw [State.getShare] at hget
  split_ifs at hget
  exact hshares nodeId hnode share hget

theorem readBy_changeOf {remaining : Option (List NodeId)} (hg : Genuine p K s)
    (hkey : s.keys keyId = some key) (hmem : keyId ∈ K) :
    ReadBy p s (changeOf s keyId key nodeId remaining) (fun _ => True)
      (key.nodes.filterMap (s.getShare keyId)) where
  known := Option.isSome_of_eq_some hkey
  rotations_le := le_rfl
  unrotated := by
    intro _ found hfound
    obtain rfl := Option.some.inj (hkey.symm.trans hfound)
    exact ⟨(hg keyId hmem key hkey).read, trivial⟩

theorem readSound_done {r : Except String Result} :
    ∀ task ∈ (Turn.done r : Turn Task (Except String Result)).tasks, ReadSound p K s task :=
  fun _ hmem => absurd hmem List.not_mem_nil

theorem readSound_nextNode (c : Collection) (nodes : List NodeId) (s s' : State) :
    ReadSound p K s (nextNode c nodes s') := by
  apply nextNode_rule nodes s'
  · exact fun _ => trivial
  · exact fun _ => trivial
  · exact fun _ _ _ _ _ => trivial

theorem Called.readSound (h : Called p env s x t s') (hg : Genuine p K s) :
    ∀ task ∈ t.tasks, ReadSound p K s' task := by
  cases h with
  | completed =>
    intro task hmem
    rw [List.mem_singleton.mp hmem]
    exact readSound_nextNode ..
  | adding hfound _ =>
    intro task hmem
    rw [List.mem_singleton.mp hmem]
    exact fun hin => readBy_changeOf hg hfound hin
  | removing hfound _ _ =>
    intro task hmem
    rw [List.mem_singleton.mp hmem]
    exact fun hin => readBy_changeOf hg hfound hin
  | _ => exact readSound_done

theorem Resumed.readSound (h : Resumed p env s task t s') (hread : ReadSound p K s task) :
    ∀ task ∈ t.tasks, ReadSound p K s' task := by
  intro new hmem
  cases h with
  | checked hfound henough =>
    rw [List.mem_singleton.mp hmem]
    intro hin
    obtain ⟨hknown, hrotations, hunrotated⟩ := hread hin
    refine ⟨hknown, hrotations, fun hsame key hkey => ?_⟩
    obtain rfl := Option.some.inj (hfound.symm.trans hkey)
    exact ⟨(hunrotated hsame _ hfound).1, henough⟩
  | @reshared m shares key seed held hfound hsecret hsplit =>
    rw [List.mem_singleton.mp hmem]
    refine ⟨hsplit.length.symm, fun hin => ?_⟩
    obtain ⟨hknown, hrotations, hunrotated⟩ := hread hin
    refine ⟨hknown, hrotations, fun hsame found hkey => ?_⟩
    obtain rfl := Option.some.inj (hfound.symm.trans hkey)
    obtain ⟨⟨origin, horigin, hshares⟩, henough⟩ := hunrotated hsame key hfound
    have hseed := reconstruct_of_origin hsecret hshares (horigin.threshold.trans_le henough)
    refine ⟨hsplit.oneSplit ?_, hsplit.accepts.threshold_le⟩
    rw [hseed, horigin.publicKey]
  | skipped =>
    rw [List.mem_singleton.mp hmem]
    exact readSound_nextNode ..
  | read =>
    rw [List.mem_singleton.mp hmem]
    exact readSound_nextNode ..
  | @collected c =>
    rw [List.mem_singleton.mp hmem, signCollected]
    split
    · trivial
    · split
      · trivial
      · trivial
  | asked =>
    rw [List.mem_singleton.mp hmem]
    trivial
  | signed =>
    rw [List.mem_singleton.mp hmem]
    trivial
  | ended => exact readSound_done new hmem
  | caught => exact readSound_done new hmem
  | refreshed => exact readSound_done new hmem
  | changed => exact readSound_done new hmem

/-- Shares are genuine in every run whose changes of members end before a rotation comes. -/
theorem keeps_genuine (p : Primitives) (K : Set KeyId) :
    Keeps (coordinator p) (EndsBeforeRotation K) (Genuine p K) (ReadSound p K) where
  call := by
    intro g x env t s _ hsound h
    have hcalled := called_of_call h
    exact ⟨hcalled.genuine hsound.state, fun _ _ hread => hread.follows hcalled.follows,
      hcalled.readSound hsound.state⟩
  resume := by
    intro g i env task t s hq hsound hwaiting h
    have hresumed := resumed_of_resume h
    have hread := hsound.tasks task (List.mem_of_getElem? hwaiting)
    refine ⟨hresumed.genuine hsound.state hread ?_, fun _ _ hread => hread.follows hresumed.follows,
      hresumed.readSound hread⟩
    rintro m nodes shares version rfl
    exact hq m nodes shares version hwaiting

end Mpc
