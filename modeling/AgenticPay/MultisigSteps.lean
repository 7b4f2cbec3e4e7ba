import AgenticPay.ContractRegistry

/-!
# What a step does to one wallet and to one proposal

The steps of the contract read wallet by wallet and proposal by proposal. A
wallet is created, or gains or loses one signer; a proposal is made, voted on,
cancelled or expired, and each of these but the first needs it to be pending.
-/
namespace AgenticPayContract

open Soroban Contract Transaction Registry

/-- Where one step leaves the wallet `id`. -/
inductive Roster (id : Nat) (env : Env) (w w' : World) : Call → Prop
  | kept {call} (same : w'.storage.multisigWallet id = w.storage.multisigWallet id) :
      Roster id env w w' call
  | created {creator signers threshold timeoutLedgers} (entered : Entered env w creator)
      (two : 2 ≤ signers.length) (one : 1 ≤ threshold) (reachable : threshold ≤ signers.length)
      (next : id = walletCounter w + 1) (fits : id < u64Bound)
      (stored : w'.storage.multisigWallet id =
        some (newWallet id signers threshold timeoutLedgers)) :
      Roster id env w w' (.createMultisigWallet creator signers threshold timeoutLedgers)
  | added {authorizer newSigner wallet} (entered : Entered env w authorizer)
      (found : w.storage.multisigWallet id = some wallet) (active : wallet.active = true)
      (member : authorizer ∈ wallet.signers)
      (stored : w'.storage.multisigWallet id =
        some { wallet with signers := wallet.signers ++ [newSigner] }) :
      Roster id env w w' (.addMultisigSigner authorizer id newSigner)
  | removed {authorizer target wallet k} (found : w.storage.multisigWallet id = some wallet)
      (index : wallet.removeIdx authorizer target = some k) (three : 3 ≤ wallet.signers.length)
      (reachable : wallet.threshold ≤ wallet.signers.length - 1)
      (stored : w'.storage.multisigWallet id =
        some { wallet with signers := wallet.signers.eraseIdx k }) :
      Roster id env w w' (.removeMultisigSigner authorizer id target)

/-- `signer`, a present signer of its wallet, acts on the pending proposal `id`. -/
structure Votes (env : Env) (w : World) (signer : Address) (id : Nat) (p : MultisigProposal)
    (wallet : MultisigWallet) : Prop where
  entered : Entered env w signer
  found : w.storage.multisigProposal id = some p
  pending : p.status = .pending
  stored : w.storage.multisigWallet p.walletId = some wallet
  member : signer ∈ wallet.signers

/-- An approval that is taken down: the proposal is live and the signer's first. -/
structure Approves (env : Env) (w : World) (signer : Address) (id : Nat) (p : MultisigProposal)
    (wallet : MultisigWallet) : Prop extends Votes env w signer id p wallet where
  live : ¬ p.Lapsed env.timestamp
  first : signer ∉ p.approvals

/-- A rejection that is taken down; the blocking count is computed in `u32`. -/
structure Rejects (env : Env) (w : World) (signer : Address) (id : Nat) (p : MultisigProposal)
    (wallet : MultisigWallet) : Prop extends Votes env w signer id p wallet where
  first : signer ∉ p.rejections
  reachable : wallet.threshold ≤ wallet.signers.length
  fits : wallet.blocking < u32Bound

/-- What a call can make of the proposal `id` once it exists. -/
inductive MultisigProposal.Moves (id : Nat) (env : Env) (w : World) (p : MultisigProposal) :
    Call → MultisigProposal → Prop
  | stays {call} : p.Moves id env w call p
  | approved {signer wallet} (votes : Approves env w signer id p wallet) :
      p.Moves id env w (.approveMultisigProposal signer id) (p.approve wallet.threshold signer)
  | rejected {signer wallet} (votes : Rejects env w signer id p wallet) :
      p.Moves id env w (.rejectMultisigProposal signer id) (p.reject wallet.blocking signer)
  | cancelled {signer wallet} (votes : Votes env w signer id p wallet) :
      p.Moves id env w (.cancelMultisigProposal signer id) { p with status := .cancelled }
  | expired (pending : p.status = .pending) (late : p.Lapsed env.timestamp) :
      p.Moves id env w (.checkMultisigExpiry id) { p with status := .expired }

/-- Where one step leaves the proposal `id`. -/
inductive Ballot (id : Nat) (env : Env) (w w' : World) : Call → Prop
  | kept {call} (same : w'.storage.multisigProposal id = w.storage.multisigProposal id) :
      Ballot id env w w' call
  | proposed {proposer walletId amount recipient description wallet}
      (found : w.storage.multisigWallet walletId = some wallet) (member : proposer ∈ wallet.signers)
      (next : id = proposalCounter w + 1)
      (stored : w'.storage.multisigProposal id = some (newProposal id walletId amount recipient
        description proposer env.timestamp (wallet.expiry env.timestamp))) :
      Ballot id env w w' (.createMultisigProposal proposer walletId amount recipient description)
  | moved {call p p'} (found : w.storage.multisigProposal id = some p)
      (stored : w'.storage.multisigProposal id = some p') (moves : p.Moves id env w call p') :
      Ballot id env w w' call

theorem ballot_of_update {id proposalId : Nat} {env : Env} {w w' : World} {call : Call}
    {p p' : MultisigProposal} (found : w.storage.multisigProposal proposalId = some p)
    (moves : p.Moves proposalId env w call p')
    (hw : w'.storage.multisigProposal =
      Function.update w.storage.multisigProposal proposalId (some p')) :
    Ballot id env w w' call := by
  by_cases he : id = proposalId
  · subst he
    exact .moved found (by rw [hw, Function.update_self]) moves
  · exact .kept (by rw [hw, Function.update_of_ne he])

section Steps

variable {env : Env} {w w' : World} {call : Call} {r : Ret}

theorem Step.roster (h : Step env w call r w') (id : Nat) : Roster id env w w' call := by
  cases h with
  | @createMultisigWallet _ _ _ _ walletId entered two one reachable next fits =>
    by_cases he : id = walletId
    · subst he
      exact .created entered two one reachable next fits (Function.update_self ..)
    · exact .kept (Function.update_of_ne he ..)
  | @addMultisigSigner _ walletId _ _ entered found active member =>
    by_cases he : id = walletId
    · subst he
      exact .added entered found active member (Function.update_self ..)
    · exact .kept (Function.update_of_ne he ..)
  | @removeMultisigSigner _ walletId _ _ _ entered found active member index three reachable =>
    by_cases he : id = walletId
    · subst he
      exact .removed found index three reachable (Function.update_self ..)
    · exact .kept (Function.update_of_ne he ..)
  | _ => exact .kept rfl

theorem Step.ballot (h : Step env w call r w') (id : Nat) : Ballot id env w w' call := by
  cases h with
  | @createMultisigProposal _ _ _ _ _ _ proposalId entered found active positive member next =>
    by_cases he : id = proposalId
    · subst he
      exact .proposed found member next (Function.update_self ..)
    · exact .kept (Function.update_of_ne he ..)
  | approveMultisigProposal entered found status stored live member first =>
    exact ballot_of_update found (.approved ⟨⟨entered, found, status, stored, member⟩, live, first⟩)
      rfl
  | rejectMultisigProposal entered found status stored member first reachable fits =>
    exact ballot_of_update found
      (.rejected ⟨⟨entered, found, status, stored, member⟩, first, reachable, fits⟩) rfl
  | cancelMultisigProposal entered found status stored member =>
    exact ballot_of_update found (.cancelled ⟨entered, found, status, stored, member⟩) rfl
  | lapsed free found late => exact ballot_of_update found (.expired late.1 late.2) rfl
  | _ => exact .kept rfl

end Steps

theorem commit_roster (id : Nat) (w : World) (i : Invocation) :
    Roster id i.env w (commit contract w i) i.call := by
  obtain ⟨r, _, hstep⟩ | ⟨_, hsame⟩ := commit_step w i
  · exact hstep.roster id
  · exact .kept (by rw [hsame])

theorem commit_ballot (id : Nat) (w : World) (i : Invocation) :
    Ballot id i.env w (commit contract w i) i.call := by
  obtain ⟨r, _, hstep⟩ | ⟨_, hsame⟩ := commit_step w i
  · exact hstep.ballot id
  · exact .kept (by rw [hsame])

/-- An existing proposal is never dropped or made anew. -/
theorem Ballot.moves {id : Nat} {env : Env} {w w' : World} {call : Call} {p : MultisigProposal}
    (h : Ballot id env w w' call) (hreg : MultisigRegistered w)
    (hp : w.storage.multisigProposal id = some p) :
    ∃ p', w'.storage.multisigProposal id = some p' ∧ p.Moves id env w call p' := by
  cases h with
  | kept same => exact ⟨p, same.trans hp, .stays⟩
  | proposed _ _ next _ =>
    have hle := hreg.proposals.le hp
    omega
  | moved found stored moves =>
    obtain rfl := Option.some.inj (found.symm.trans hp)
    exact ⟨_, stored, moves⟩

/-- An existing wallet is never dropped, and its threshold is fixed. -/
theorem Roster.threshold {id : Nat} {env : Env} {w w' : World} {call : Call}
    {wallet : MultisigWallet} (h : Roster id env w w' call) (hreg : MultisigRegistered w)
    (hw : w.storage.multisigWallet id = some wallet) :
    ∃ wallet', w'.storage.multisigWallet id = some wallet' ∧
      wallet'.threshold = wallet.threshold := by
  cases h with
  | kept same => exact ⟨wallet, same.trans hw, rfl⟩
  | created _ _ _ _ next _ _ =>
    have hle := hreg.wallets.le hw
    omega
  | added _ found _ _ stored =>
    obtain rfl := Option.some.inj (found.symm.trans hw)
    exact ⟨_, stored, rfl⟩
  | removed found _ _ _ stored =>
    obtain rfl := Option.some.inj (found.symm.trans hw)
    exact ⟨_, stored, rfl⟩

/-- Every state of a run from the deployment keeps its wallets and proposals numbered. -/
theorem run_multisigRegistered (is : List Invocation) :
    MultisigRegistered (run contract deployed is) :=
  run_preserves (I := MultisigRegistered) (fun _ i hw => commit_multisigRegistered hw i)
    multisigRegistered_deployed is

/-! ## Decisive votes -/

section Votes

variable {w : World} {i : Invocation} {signer : Address} {id : Nat} {p : MultisigProposal}
  {wallet : MultisigWallet}

theorem commit_approves (hcall : i.call = .approveMultisigProposal signer id)
    (h : Approves i.env w signer id p wallet) :
    commit contract w i = leave w (w.storage.putProposal id (p.approve wallet.threshold signer))
      (p.approveEvents id wallet.threshold) := by
  have hi : invoke i.call = returns (fun _ => .unit) (approveMultisigProposal signer id) := by
    rw [hcall]; rfl
  exact commit_of_returns hi ((approveMultisigProposal_ok (u := ())).mpr
    ⟨h.entered, p, h.found, h.pending, wallet, h.stored, h.live, h.member, .inr ⟨h.first, rfl⟩⟩)

theorem commit_rejects (hcall : i.call = .rejectMultisigProposal signer id)
    (h : Rejects i.env w signer id p wallet) :
    commit contract w i = leave w (w.storage.putProposal id (p.reject wallet.blocking signer))
      (p.rejectEvents id wallet.blocking) := by
  have hi : invoke i.call = returns (fun _ => .unit) (rejectMultisigProposal signer id) := by
    rw [hcall]; rfl
  exact commit_of_returns hi ((rejectMultisigProposal_ok (u := ())).mpr
    ⟨h.entered, p, h.found, h.pending, wallet, h.stored, h.member,
      .inr ⟨h.first, h.reachable, h.fits, rfl⟩⟩)

/-- Only an approval that completes the count moves a proposal to executed. -/
theorem MultisigProposal.Moves.executed {env : Env} {call : Call} {p' : MultisigProposal}
    (h : p.Moves id env w call p') (hnot : p.status ≠ .executed) (hexec : p'.status = .executed) :
    ∃ signer wallet, call = .approveMultisigProposal signer id ∧
      Approves env w signer id p wallet ∧ wallet.threshold ≤ p.approvals.length + 1 ∧
      p' = p.approve wallet.threshold signer := by
  cases h with
  | stays => exact absurd hexec hnot
  | @approved signer wallet votes =>
    refine ⟨signer, wallet, rfl, votes, ?_, rfl⟩
    by_contra hlt
    simp [MultisigProposal.approve, hlt, votes.pending] at hexec
  | rejected votes =>
    simp only [MultisigProposal.reject, votes.pending] at hexec
    split at hexec <;> contradiction
  | cancelled _ => contradiction
  | expired _ _ => contradiction

/-- Only a rejection that completes the count moves a proposal to rejected. -/
theorem MultisigProposal.Moves.refused {env : Env} {call : Call} {p' : MultisigProposal}
    (h : p.Moves id env w call p') (hnot : p.status ≠ .rejected) (hrej : p'.status = .rejected) :
    ∃ signer wallet, call = .rejectMultisigProposal signer id ∧
      Rejects env w signer id p wallet ∧ wallet.blocking ≤ p.rejections.length + 1 ∧
      p' = p.reject wallet.blocking signer := by
  cases h with
  | stays => exact absurd hrej hnot
  | approved votes =>
    simp only [MultisigProposal.approve, votes.pending] at hrej
    split at hrej <;> contradiction
  | @rejected signer wallet votes =>
    refine ⟨signer, wallet, rfl, votes, ?_, rfl⟩
    by_contra hlt
    simp [MultisigProposal.reject, hlt, votes.pending] at hrej
  | cancelled _ => contradiction
  | expired _ _ => contradiction

end Votes

end AgenticPayContract
