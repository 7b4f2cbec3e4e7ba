import AgenticPay.MultisigSteps
import Mathlib.Data.Finset.Card
import Mathlib.Data.Finset.Dedup
import Mathlib.Data.List.Nodup

/-!
# Decided proposals

A proposal is decided once: every vote, cancellation and expiry asks for a pending
one, and no proposal is made anew under an old id. Execution is announced with the
decision, and never past the expiry.
-/
namespace AgenticPayContract

open Soroban Contract Transaction Registry

/-- The proposal id an event announces as executed. -/
def Event.executedId : Event → Option Nat
  | .msigExec proposalId _ _ _ => some proposalId
  | _ => none

def executedIds (es : List Event) : List Nat := es.filterMap Event.executedId

@[simp] theorem executedIds_append (es fs : List Event) :
    executedIds (es ++ fs) = executedIds es ++ executedIds fs := List.filterMap_append

@[simp] theorem executedIds_batchEvents (client : Address) (inputs : List ProjectInput)
    (count : Nat) : executedIds (batchEvents client inputs count) = [] := by
  induction inputs generalizing count with
  | nil => rfl
  | cons input rest ih => exact ih (count + 1)

@[simp] theorem executedIds_rejectEvents (p : MultisigProposal) (id blocking : Nat) :
    executedIds (p.rejectEvents id blocking) = [] := by
  unfold MultisigProposal.rejectEvents; split <;> rfl

/-- Nothing happens to a proposal that is no longer pending. -/
theorem MultisigProposal.Moves.decided {id : Nat} {env : Env} {w : World} {call : Call}
    {p p' : MultisigProposal} (h : p.Moves id env w call p') (hd : p.status ≠ .pending) :
    p' = p := by
  cases h with
  | stays => rfl
  | approved votes => exact absurd votes.pending hd
  | rejected votes => exact absurd votes.pending hd
  | cancelled votes => exact absurd votes.pending hd
  | expired pending _ => exact absurd pending hd

theorem run_decided {w : World} (hreg : MultisigRegistered w) {id : Nat} {p : MultisigProposal}
    (hp : w.storage.multisigProposal id = some p) (hd : p.status ≠ .pending)
    (is : List Invocation) : (run contract w is).storage.multisigProposal id = some p := by
  refine (run_preserves
    (I := fun v => MultisigRegistered v ∧ v.storage.multisigProposal id = some p)
    (fun v i hv => ⟨commit_multisigRegistered hv.1 i, ?_⟩) ⟨hreg, hp⟩ is).2
  obtain ⟨p', hp', hmoves⟩ := (commit_ballot id v i).moves hv.1 hv.2
  rw [hp', hmoves.decided hd]

/-- The executions a step announces: none, or the one of a proposal that was pending. -/
theorem Step.executions {env : Env} {w w' : World} {call : Call} {r : Ret}
    (h : Step env w call r w') :
    ∃ es, w'.events = w.events ++ es ∧ (executedIds es = [] ∨
      ∃ id p p', executedIds es = [id] ∧ w.storage.multisigProposal id = some p ∧
        p.status = .pending ∧ w'.storage.multisigProposal id = some p' ∧
        p'.status = .executed) := by
  cases h with
  | view _ => exact ⟨[], by simp, .inl rfl⟩
  | upgrade _ _ _ => exact ⟨[], by simp, .inl rfl⟩
  | batchCreateProjects _ _ => exact ⟨_, rfl, .inl (executedIds_batchEvents _ _ _)⟩
  | rejectMultisigProposal _ _ _ _ _ _ _ _ =>
    exact ⟨_, rfl, .inl (executedIds_rejectEvents _ _ _)⟩
  | @approveMultisigProposal signer proposalId p wallet _ found status _ _ _ _ =>
    refine ⟨_, rfl, ?_⟩
    by_cases hle : wallet.threshold ≤ p.approvals.length + 1
    · refine .inr ⟨proposalId, p, _, ?_, found, status, Function.update_self .., if_pos hle⟩
      rw [MultisigProposal.approveEvents, if_pos hle]
      rfl
    · left
      rw [MultisigProposal.approveEvents, if_neg hle]
      rfl
  | _ => exact ⟨_, rfl, .inl rfl⟩

/-- Executions are announced once each, for proposals that are executed. -/
structure ExecutedOnce (w : World) : Prop where
  registered : MultisigRegistered w
  distinct : (executedIds w.events).Nodup
  executed : ∀ id ∈ executedIds w.events,
    ∃ p, w.storage.multisigProposal id = some p ∧ p.status = .executed

theorem commit_executedOnce {w : World} (h : ExecutedOnce w) (i : Invocation) :
    ExecutedOnce (commit contract w i) := by
  have hkeep : ∀ id ∈ executedIds w.events, ∃ p,
      (commit contract w i).storage.multisigProposal id = some p ∧ p.status = .executed := by
    intro id hid
    obtain ⟨p, hp, hexec⟩ := h.executed id hid
    obtain ⟨p', hp', hmoves⟩ := (commit_ballot id w i).moves h.registered hp
    have hsame := hmoves.decided (by simp [hexec])
    exact ⟨p', hp', hsame ▸ hexec⟩
  have hreg := commit_multisigRegistered h.registered i
  obtain ⟨r, _, hstep⟩ | ⟨_, hsame⟩ := commit_step w i
  · obtain ⟨es, hes, hnone | ⟨id, p, p', hone, hp, hpending, hp', hexec⟩⟩ := hstep.executions
    · have hids : executedIds (commit contract w i).events = executedIds w.events := by
        rw [hes, executedIds_append, hnone, List.append_nil]
      exact ⟨hreg, hids ▸ h.distinct, hids ▸ hkeep⟩
    · have hids : executedIds (commit contract w i).events = executedIds w.events ++ [id] := by
        rw [hes, executedIds_append, hone]
      have hnew : id ∉ executedIds w.events := by
        intro hid
        obtain ⟨q, hq, hstatus⟩ := h.executed id hid
        obtain rfl := Option.some.inj (hp.symm.trans hq)
        rw [hpending] at hstatus
        contradiction
      refine ⟨hreg, ?_, ?_⟩
      · rw [hids]
        exact h.distinct.append (List.nodup_singleton id) (List.disjoint_singleton.mpr hnew)
      · rw [hids]
        intro k hk
        rcases List.mem_append.mp hk with hk | hk
        · exact hkeep k hk
        · rw [List.mem_singleton.mp hk]
          exact ⟨p', hp', hexec⟩
  · rw [hsame]
    exact h

/-- A proposal the call moves to executed has no expiry or has not reached it. -/
def ExecutesInTime (w : World) (i : Invocation) : Prop :=
  ∀ id p p', w.storage.multisigProposal id = some p → p.status ≠ .executed →
    (commit contract w i).storage.multisigProposal id = some p' → p'.status = .executed →
    0 < p'.expiresAt → i.env.timestamp < p'.expiresAt

theorem executesInTime {w : World} (hreg : MultisigRegistered w) (i : Invocation) :
    ExecutesInTime w i := by
  intro id p p' hp hnot hp' hexec hpos
  obtain ⟨q, hq, hmoves⟩ := (commit_ballot id w i).moves hreg hp
  obtain rfl := Option.some.inj (hq.symm.trans hp')
  obtain ⟨signer, wallet, _, happ, _, rfl⟩ := hmoves.executed hnot hexec
  by_contra hlate
  exact happ.live ⟨hpos, Nat.not_lt.mp hlate⟩

/-- In every run: a proposal that is executed, rejected, cancelled or expired stays
exactly as it is, its execution is announced at most once, and no proposal is executed
at or past its expiry. -/
theorem decisions_are_final (is : List Invocation) :
    (∀ mid id p, mid <+: is → (run contract deployed mid).storage.multisigProposal id = some p →
      p.status ≠ .pending → (run contract deployed is).storage.multisigProposal id = some p) ∧
    (∀ id, (executedIds (run contract deployed is).events).count id ≤ 1) ∧
    Along contract ExecutesInTime deployed is := by
  refine ⟨fun mid id p hmid hp hd => ?_, fun id => ?_, ?_⟩
  · obtain ⟨rest, rfl⟩ := hmid
    rw [run_append]
    exact run_decided (run_multisigRegistered mid) hp hd rest
  · have honce : ExecutedOnce (run contract deployed is) :=
      run_preserves (I := ExecutedOnce) (fun _ i h => commit_executedOnce h i)
        ⟨multisigRegistered_deployed, List.nodup_nil, by simp [deployed, executedIds]⟩ is
    exact List.nodup_iff_count_le_one.mp honce.distinct id
  · exact along_iff_initial.mpr fun mid i _ => executesInTime (run_multisigRegistered mid) i

/-- A proposal with an expiry, executed by the second of two signers. -/
def paidOut : List Invocation :=
  [invokedBy ⟨1⟩ 0 (.createMultisigWallet ⟨1⟩ [⟨1⟩, ⟨2⟩] 2 100),
    invokedBy ⟨1⟩ 1 (.createMultisigProposal ⟨1⟩ 1 50 ⟨9⟩ "rent"),
    invokedBy ⟨2⟩ 2 (.approveMultisigProposal ⟨2⟩ 1)]

theorem decisions_are_final_paidOut :
    ∃ p, (run contract deployed (paidOut ++
        [invokedBy ⟨3⟩ 500 (.checkMultisigExpiry 1)])).storage.multisigProposal 1 = some p ∧
      p.status = .executed ∧
      (executedIds (run contract deployed paidOut).events).count 1 ≤ 1 := by
  have hp : (run contract deployed paidOut).storage.multisigProposal 1 = some _ := rfl
  have hkept := (decisions_are_final (paidOut ++
    [invokedBy ⟨3⟩ 500 (.checkMultisigExpiry 1)])).1 paidOut 1 _ (List.prefix_append _ _) hp
    (by decide)
  exact ⟨_, hkept, rfl, (decisions_are_final paidOut).2.1 1⟩

end AgenticPayContract

/-!
## Wallets that can act

A wallet is sound when its signers are distinct and enough of them exist for its
threshold. Neither `create_multisig_wallet` nor `add_multisig_signer` looks for an
address that is there already; the removal keeps sound wallets sound. All wallets
of a run are sound exactly when no call of it puts an address in twice.
-/
namespace AgenticPayContract

open Soroban Contract Transaction Registry

/-- Enough distinct signers for the threshold, and at least two. -/
structure MultisigWallet.Sound (wallet : MultisigWallet) : Prop where
  distinct : wallet.signers.Nodup
  two : 2 ≤ wallet.signers.length
  one : 1 ≤ wallet.threshold
  reachable : wallet.threshold ≤ wallet.signers.toFinset.card

def SoundWallets (w : World) : Prop :=
  ∀ id wallet, w.storage.multisigWallet id = some wallet → wallet.Sound

/-- A wallet creation that goes through. -/
structure CreatesWallet (w : World) (i : Invocation) (signers : List Address) : Prop where
  call : ∃ creator threshold timeoutLedgers, Entered i.env w creator ∧ 1 ≤ threshold ∧
    threshold ≤ signers.length ∧
    i.call = .createMultisigWallet creator signers threshold timeoutLedgers
  two : 2 ≤ signers.length
  fits : walletCounter w + 1 < u64Bound

/-- The addition of a signer that goes through. -/
structure AddsSigner (w : World) (i : Invocation) (wallet : MultisigWallet)
    (newSigner : Address) : Prop where
  call : ∃ authorizer id, Entered i.env w authorizer ∧ authorizer ∈ wallet.signers ∧
    w.storage.multisigWallet id = some wallet ∧
    i.call = .addMultisigSigner authorizer id newSigner
  active : wallet.active = true

/-- No address is put into a signer list it is in already. -/
def SignersDistinct (w : World) (i : Invocation) : Prop :=
  (∀ signers, CreatesWallet w i signers → signers.Nodup) ∧
  ∀ wallet newSigner, AddsSigner w i wallet newSigner → newSigner ∉ wallet.signers

theorem newWallet_sound {id threshold timeoutLedgers : Nat} {signers : List Address}
    (hd : signers.Nodup) (two : 2 ≤ signers.length) (one : 1 ≤ threshold)
    (reachable : threshold ≤ signers.length) :
    (newWallet id signers threshold timeoutLedgers).Sound :=
  ⟨hd, two, one, reachable.trans_eq (List.toFinset_card_of_nodup hd).symm⟩

theorem MultisigWallet.Sound.add {wallet : MultisigWallet} (h : wallet.Sound) {a : Address}
    (ha : a ∉ wallet.signers) :
    ({ wallet with signers := wallet.signers ++ [a] } : MultisigWallet).Sound where
  distinct := h.distinct.append (List.nodup_singleton a) (List.disjoint_singleton.mpr ha)
  two := by
    have htwo := h.two
    simp only [List.length_append, List.length_singleton]
    omega
  one := h.one
  reachable := by
    refine h.reachable.trans (Finset.card_le_card ?_)
    intro b hb
    simp only [List.mem_toFinset, List.mem_append] at hb ⊢
    exact .inl hb

theorem MultisigWallet.Sound.remove {wallet : MultisigWallet} (h : wallet.Sound) {k : Nat}
    (hk : k < wallet.signers.length) (three : 3 ≤ wallet.signers.length)
    (reachable : wallet.threshold ≤ wallet.signers.length - 1) :
    ({ wallet with signers := wallet.signers.eraseIdx k } : MultisigWallet).Sound := by
  have hd : (wallet.signers.eraseIdx k).Nodup := h.distinct.eraseIdx k
  have hlen : (wallet.signers.eraseIdx k).length = wallet.signers.length - 1 :=
    List.length_eraseIdx_of_lt hk
  refine ⟨hd, ?_, h.one, ?_⟩
  · simp only [hlen]
    omega
  · simp only [List.toFinset_card_of_nodup hd, hlen]
    exact reachable

/-- The index that is removed is one of the list. -/
theorem MultisigWallet.removeIdx_lt {wallet : MultisigWallet} {authorizer target : Address}
    {k : Nat} (h : wallet.removeIdx authorizer target = some k) : k < wallet.signers.length := by
  rcases scanSigners_snd h with hnone | ⟨_, hget⟩
  · contradiction
  · exact (List.getElem?_eq_some_iff.mp hget).1

/-- One step keeps a wallet sound if it puts no address in twice. -/
theorem Roster.sound {id : Nat} {env : Env} {w w' : World} {call : Call}
    (h : Roster id env w w' call) (hd : SignersDistinct w ⟨env, call⟩) (hs : SoundWallets w) :
    ∀ wallet, w'.storage.multisigWallet id = some wallet → wallet.Sound := by
  intro wallet hw
  cases h with
  | kept same => exact hs id wallet (same ▸ hw)
  | created entered two one reachable next fits stored =>
    obtain rfl := Option.some.inj (stored.symm.trans hw)
    have hdist := hd.1 _ ⟨⟨_, _, _, entered, one, reachable, rfl⟩, two, next ▸ fits⟩
    exact newWallet_sound hdist two one reachable
  | added entered found active member stored =>
    obtain rfl := Option.some.inj (stored.symm.trans hw)
    exact (hs id _ found).add (hd.2 _ _ ⟨⟨_, _, entered, member, found, rfl⟩, active⟩)
  | removed found index three reachable stored =>
    obtain rfl := Option.some.inj (stored.symm.trans hw)
    exact (hs id _ found).remove (MultisigWallet.removeIdx_lt index) three reachable

theorem commit_soundWallets {w : World} {i : Invocation} (hs : SoundWallets w)
    (hd : SignersDistinct w i) : SoundWallets (commit contract w i) :=
  fun id => (commit_roster id w i).sound hd hs

/-- A call after which all wallets are sound has put no address in twice. -/
theorem signersDistinct_of_sound {w : World} {i : Invocation}
    (h : SoundWallets (commit contract w i)) : SignersDistinct w i := by
  obtain ⟨env, call⟩ := i
  refine ⟨fun signers hc => ?_, fun wallet newSigner ha => ?_⟩
  · obtain ⟨⟨creator, threshold, timeoutLedgers, entered, one, reachable, rfl⟩, two, fits⟩ := hc
    rw [commit_of_returns rfl
      (createMultisigWallet_ok.mpr ⟨entered, two, one, reachable, rfl, fits, rfl⟩)] at h
    exact (h _ _ (Function.update_self ..)).distinct
  · obtain ⟨⟨authorizer, id, entered, member, found, rfl⟩, active⟩ := ha
    rw [commit_of_returns rfl
      ((addMultisigSigner_ok (u := ())).mpr ⟨entered, wallet, found, active, member, rfl⟩)] at h
    have hd := (h _ _ (Function.update_self ..)).distinct
    intro hin
    exact (List.nodup_append'.mp hd).2.2 hin (List.mem_singleton_self newSigner)

/-- In every run from the deployment, all wallets of all states reached are sound
exactly when no wallet is created with, and no signer list is given, an address twice. -/
theorem wallets_sound_of_run (is : List Invocation) :
    (∀ mid, mid <+: is → SoundWallets (run contract deployed mid)) ↔
      Along contract SignersDistinct deployed is := by
  constructor
  · intro h
    refine along_iff_initial.mpr fun mid i hmid => ?_
    have hsound := h (mid ++ [i]) hmid
    rw [run_snoc] at hsound
    exact signersDistinct_of_sound hsound
  · intro h mid hmid
    refine run_invariant (fun _ _ => commit_soundWallets) ?_ (h.initial hmid)
    intro id wallet hw
    contradiction

/-- One wallet of two signers, both needed. -/
def pair (a b : Address) : List Invocation :=
  [invokedBy ⟨1⟩ 0 (.createMultisigWallet ⟨1⟩ [a, b] 2 0)]

theorem wallets_sound_of_pair : SoundWallets (run contract deployed (pair ⟨1⟩ ⟨2⟩)) := by
  refine (wallets_sound_of_run (pair ⟨1⟩ ⟨2⟩)).mpr ⟨⟨fun signers hc => ?_, fun wallet a ha => ?_⟩,
    trivial⟩ _ List.prefix_rfl
  · obtain ⟨_, _, _, _, _, _, hcall⟩ := hc.call
    cases hcall
    decide
  · obtain ⟨_, _, _, _, _, hcall⟩ := ha.call
    contradiction

/-- A wallet of one address put in twice asks for two approvals nobody can give. -/
theorem pair_of_one_unsound :
    ∃ wallet, (run contract deployed (pair ⟨1⟩ ⟨1⟩)).storage.multisigWallet 1 = some wallet ∧
      ¬ wallet.signers.Nodup ∧ wallet.signers.toFinset.card < wallet.threshold ∧
      ¬ wallet.Sound := by
  refine ⟨_, rfl, by decide, by decide, fun hsound => ?_⟩
  have hdistinct := hsound.distinct
  revert hdistinct
  decide

end AgenticPayContract
