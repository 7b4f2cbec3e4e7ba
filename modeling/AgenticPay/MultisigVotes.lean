import Mathlib.Data.List.Nodup
import AgenticPay.MultisigSteps

/-!
# The votes on a proposal

What the two vote lists of a proposal look like next to its wallet, in every state
a run reaches: nobody is on one list twice, and a pending proposal lacks approvals,
unless its wallet asks for one only. There the proposer's own approval is enough,
and the creation does not look at the threshold.
-/
namespace AgenticPayContract

open Soroban Contract Transaction Registry

/-- The vote lists of a proposal, next to its wallet. -/
structure Tallied (w : World) (p : MultisigProposal) : Prop where
  wallet : ∃ wallet, w.storage.multisigWallet p.walletId = some wallet ∧ 1 ≤ wallet.threshold ∧
    (p.status = .pending → p.approvals.length < wallet.threshold ∨ wallet.threshold = 1)
  proposed : 1 ≤ p.approvals.length
  approvals : p.approvals.Nodup
  rejections : p.rejections.Nodup

structure Voting (w : World) : Prop where
  registered : MultisigRegistered w
  thresholds : ∀ id wallet, w.storage.multisigWallet id = some wallet → 1 ≤ wallet.threshold
  tallied : ∀ id p, w.storage.multisigProposal id = some p → Tallied w p

/-- One more voter who was not on the list. -/
theorem nodup_vote {v : List Address} {a : Address} (hv : v.Nodup) (ha : a ∉ v) :
    (v ++ [a]).Nodup := hv.append (List.nodup_singleton a) (List.disjoint_singleton.mpr ha)

theorem Roster.one_le_threshold {id : Nat} {env : Env} {w w' : World} {call : Call}
    (h : Roster id env w w' call)
    (hw : ∀ wallet, w.storage.multisigWallet id = some wallet → 1 ≤ wallet.threshold) :
    ∀ wallet, w'.storage.multisigWallet id = some wallet → 1 ≤ wallet.threshold := by
  intro wallet hwallet
  cases h with
  | kept same => exact hw wallet (same ▸ hwallet)
  | created _ _ one _ _ _ stored =>
    obtain rfl := Option.some.inj (stored.symm.trans hwallet)
    exact one
  | added _ found _ _ stored =>
    have hone := hw _ found
    obtain rfl := Option.some.inj (stored.symm.trans hwallet)
    exact hone
  | removed found _ _ _ stored =>
    have hone := hw _ found
    obtain rfl := Option.some.inj (stored.symm.trans hwallet)
    exact hone

/-- The wallet of a tally carries over to the next state, with its threshold. -/
theorem Voting.wallet_next {id : Nat} {env : Env} {w w' : World} {call : Call}
    {wallet : MultisigWallet} (hv : Voting w) (hr : Roster id env w w' call)
    (hw : w.storage.multisigWallet id = some wallet) :
    ∃ wallet', w'.storage.multisigWallet id = some wallet' ∧ 1 ≤ wallet'.threshold ∧
      wallet'.threshold = wallet.threshold := by
  obtain ⟨wallet', hw', hsame⟩ := hr.threshold hv.registered hw
  exact ⟨wallet', hw', hsame ▸ hv.thresholds id wallet hw, hsame⟩

theorem Ballot.tallied {id : Nat} {env : Env} {w w' : World} {call : Call}
    {p' : MultisigProposal} (h : Ballot id env w w' call)
    (hr : ∀ walletId, Roster walletId env w w' call) (hv : Voting w)
    (hp' : w'.storage.multisigProposal id = some p') : Tallied w' p' := by
  cases h with
  | kept same =>
    obtain ⟨⟨wallet, hw, _, hpending⟩, hone, happ, hrej⟩ := hv.tallied id p' (same ▸ hp')
    obtain ⟨wallet', hw', hpos, hsame⟩ := hv.wallet_next (hr p'.walletId) hw
    exact ⟨⟨wallet', hw', hpos, hsame ▸ hpending⟩, hone, happ, hrej⟩
  | @proposed proposer walletId _ _ _ wallet found member next stored =>
    obtain rfl := Option.some.inj (stored.symm.trans hp')
    obtain ⟨wallet', hw', hpos, _⟩ := hv.wallet_next (hr walletId) found
    refine ⟨⟨wallet', hw', hpos, fun _ => ?_⟩, le_rfl, List.nodup_singleton proposer,
      List.nodup_nil⟩
    simp only [newProposal, List.length_singleton]
    omega
  | @moved _ p _ found stored moves =>
    obtain rfl := Option.some.inj (stored.symm.trans hp')
    obtain ⟨⟨wallet, hw, _, hpending⟩, hone, happ, hrej⟩ := hv.tallied id p found
    obtain ⟨wallet', hw', hpos, hsame⟩ := hv.wallet_next (hr p.walletId) hw
    cases moves with
    | stays => exact ⟨⟨wallet', hw', hpos, hsame ▸ hpending⟩, hone, happ, hrej⟩
    | @approved signer wallet₀ votes =>
      obtain rfl := Option.some.inj (votes.stored.symm.trans hw)
      refine ⟨⟨wallet', hw', hpos, fun hstill => .inl ?_⟩, ?_, nodup_vote happ votes.first, hrej⟩
      · by_cases hle : wallet₀.threshold ≤ p.approvals.length + 1
        · simp [MultisigProposal.approve, hle] at hstill
        · rw [MultisigProposal.approve_approvals, List.length_append, List.length_singleton]
          omega
      · simp
    | rejected votes =>
      exact ⟨⟨wallet', hw', hpos, fun _ => hsame ▸ hpending votes.pending⟩, hone, happ,
        nodup_vote hrej votes.first⟩
    | cancelled _ => exact ⟨⟨wallet', hw', hpos, fun hstill => by contradiction⟩, hone, happ, hrej⟩
    | expired _ _ => exact ⟨⟨wallet', hw', hpos, fun hstill => by contradiction⟩, hone, happ, hrej⟩

theorem voting_deployed : Voting deployed :=
  ⟨multisigRegistered_deployed, fun _ _ hw => by contradiction, fun _ _ hp => by contradiction⟩

theorem commit_voting {w : World} (hv : Voting w) (i : Invocation) :
    Voting (commit contract w i) where
  registered := commit_multisigRegistered hv.registered i
  thresholds := fun id => (commit_roster id w i).one_le_threshold (hv.thresholds id)
  tallied := fun id _ hp =>
    (commit_ballot id w i).tallied (fun walletId => commit_roster walletId w i) hv hp

theorem run_voting (is : List Invocation) : Voting (run contract deployed is) :=
  run_preserves (I := Voting) (fun _ i hv => commit_voting hv i) voting_deployed is

/-- In every state of every run, a pending proposal has fewer approvals than its
wallet's threshold exactly when that threshold is two or more. -/
theorem pending_lacks_approvals (is : List Invocation) {id : Nat} {p : MultisigProposal}
    (hp : (run contract deployed is).storage.multisigProposal id = some p)
    (hpending : p.status = .pending) :
    ∃ wallet, (run contract deployed is).storage.multisigWallet p.walletId = some wallet ∧
      (p.approvals.length < wallet.threshold ↔ 2 ≤ wallet.threshold) := by
  obtain ⟨⟨wallet, hw, _, hlacks⟩, hone, _, _⟩ := (run_voting is).tallied id p hp
  refine ⟨wallet, hw, ?_⟩
  have hcases := hlacks hpending
  omega

/-- A wallet of `signers` with the given threshold, and the proposal of `⟨1⟩` on it. -/
def proposal (signers : List Address) (threshold : Nat) : List Invocation :=
  [invokedBy ⟨1⟩ 0 (.createMultisigWallet ⟨1⟩ signers threshold 0),
    invokedBy ⟨1⟩ 1 (.createMultisigProposal ⟨1⟩ 1 50 ⟨9⟩ "rent")]

theorem pending_lacks_approvals_two :
    ∃ p wallet,
      (run contract deployed (proposal [⟨1⟩, ⟨2⟩] 2)).storage.multisigProposal 1 = some p ∧
      (run contract deployed (proposal [⟨1⟩, ⟨2⟩] 2)).storage.multisigWallet p.walletId =
        some wallet ∧
      (p.approvals.length < wallet.threshold ↔ 2 ≤ wallet.threshold) := by
  have hp : (run contract deployed (proposal [⟨1⟩, ⟨2⟩] 2)).storage.multisigProposal 1 = some _ :=
    rfl
  obtain ⟨wallet, hw, hlacks⟩ := pending_lacks_approvals (proposal [⟨1⟩, ⟨2⟩] 2) hp rfl
  exact ⟨_, wallet, hp, hw, hlacks⟩

/-- With a threshold of one the proposer's approval is the whole quorum, and the
proposal is still left pending. -/
theorem pending_with_quorum :
    ∃ p wallet,
      (run contract deployed (proposal [⟨1⟩, ⟨2⟩] 1)).storage.multisigProposal 1 = some p ∧
      (run contract deployed (proposal [⟨1⟩, ⟨2⟩] 1)).storage.multisigWallet p.walletId =
        some wallet ∧
      p.status = .pending ∧ ¬ p.approvals.length < wallet.threshold :=
  ⟨_, _, rfl, rfl, rfl, by decide⟩

end AgenticPayContract
