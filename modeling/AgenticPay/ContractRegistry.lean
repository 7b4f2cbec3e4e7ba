import AgenticPay.ContractCalls
import AgenticPay.Registry

/-!
# Counters and the entries they number

Projects, receipts, wallets and proposals are numbered by four counters. The
first two are also set to zero by `initialize`, which is harmless only while
nothing has been numbered yet.
-/
namespace AgenticPayContract

open Soroban Contract Transaction Registry

def projectCounter (w : World) : Nat := w.storage.projectCount.getD 0
def receiptCounter (w : World) : Nat := w.storage.receiptCount.getD 0
def walletCounter (w : World) : Nat := w.storage.multisigWalletCount.getD 0
def proposalCounter (w : World) : Nat := w.storage.multisigProposalCount.getD 0

/-- The project id an event announces as new. -/
def Event.createdId : Event → Option Nat
  | .projectCreated id _ _ _ => some id
  | _ => none

/-- The receipt id an event announces as new. -/
def Event.issuedId : Event → Option Nat
  | .receiptIssued id _ _ _ _ _ => some id
  | _ => none

def createdIds (es : List Event) : List Nat := es.filterMap Event.createdId

def issuedIds (es : List Event) : List Nat := es.filterMap Event.issuedId

@[simp] theorem createdIds_append (es fs : List Event) :
    createdIds (es ++ fs) = createdIds es ++ createdIds fs := List.filterMap_append

@[simp] theorem issuedIds_append (es fs : List Event) :
    issuedIds (es ++ fs) = issuedIds es ++ issuedIds fs := List.filterMap_append

@[simp] theorem createdIds_approveEvents (p : MultisigProposal) (id threshold : Nat) :
    createdIds (p.approveEvents id threshold) = [] := by
  unfold MultisigProposal.approveEvents; split <;> rfl

@[simp] theorem createdIds_rejectEvents (p : MultisigProposal) (id blocking : Nat) :
    createdIds (p.rejectEvents id blocking) = [] := by
  unfold MultisigProposal.rejectEvents; split <;> rfl

@[simp] theorem issuedIds_approveEvents (p : MultisigProposal) (id threshold : Nat) :
    issuedIds (p.approveEvents id threshold) = [] := by
  unfold MultisigProposal.approveEvents; split <;> rfl

@[simp] theorem issuedIds_rejectEvents (p : MultisigProposal) (id blocking : Nat) :
    issuedIds (p.rejectEvents id blocking) = [] := by
  unfold MultisigProposal.rejectEvents; split <;> rfl

@[simp] theorem issuedIds_batchEvents (client : Address) (inputs : List ProjectInput)
    (count : Nat) : issuedIds (batchEvents client inputs count) = [] := by
  induction inputs generalizing count with
  | nil => rfl
  | cons input rest ih => exact ih (count + 1)

/-- The batch loop numbers its projects one after the other. -/
theorem batchTable_grows (client : Address) (timestamp : Nat) (inputs : List ProjectInput)
    (count : Nat) (table : Nat → Option Project) :
    Grows table count (batchTable client timestamp inputs count table) (count + inputs.length)
      (createdIds (batchEvents client inputs count)) := by
  induction inputs generalizing count table with
  | nil => exact .same
  | cons input rest ih =>
    have hrest := ih (count + 1)
      (Function.update table (count + 1) (some (batchProject client timestamp (count + 1) input)))
    have hlen : count + 1 + rest.length = count + (input :: rest).length := by
      rw [List.length_cons]; omega
    rw [hlen] at hrest
    exact Grows.add.trans hrest

section Steps

variable {env : Env} {w w' : World} {call : Call} {r : Ret}

/-- An initialization that sets no counter back: nothing has been numbered yet. -/
def Unnumbered (w : World) : Prop := projectCounter w = 0 ∧ receiptCounter w = 0

/-- The new projects of a step are the ones it announces, numbered in order. -/
theorem Step.projects_grow (h : Step env w call r w')
    (hi : call.isInitialize = true → Unnumbered w) :
    ∃ es, w'.events = w.events ++ es ∧
      Grows w.storage.project (projectCounter w) w'.storage.project (projectCounter w')
        (createdIds es) := by
  cases h with
  | view _ => exact ⟨[], by simp, .same⟩
  | upgrade _ _ _ => exact ⟨[], by simp, .same⟩
  | initializeContract _ =>
    refine ⟨[], rfl, ?_⟩
    rw [(hi rfl).1]
    exact .same
  | createProject _ hn _ =>
    subst hn
    exact ⟨_, rfl, .add⟩
  | batchCreateProjects _ _ => exact ⟨_, rfl, batchTable_grows _ _ _ _ _⟩
  | fundProject _ hp | submitWork _ hp | approveWork _ hp | raiseDispute _ hp
  | resolveDispute _ _ hp | overdue _ hp => exact ⟨_, rfl, .overwrite hp⟩
  | approveMultisigProposal _ _ _ _ _ _ _ | rejectMultisigProposal _ _ _ _ _ _ _ _ =>
    refine ⟨_, rfl, ?_⟩
    simp only [createdIds_approveEvents, createdIds_rejectEvents]
    exact .same
  | _ => exact ⟨_, rfl, .same⟩

/-- The new receipts of a step are the ones it announces, numbered in order. -/
theorem Step.receipts_grow (h : Step env w call r w')
    (hi : call.isInitialize = true → Unnumbered w) :
    ∃ es, w'.events = w.events ++ es ∧
      Grows w.storage.receipt (receiptCounter w) w'.storage.receipt (receiptCounter w')
        (issuedIds es) := by
  cases h with
  | view _ => exact ⟨[], by simp, .same⟩
  | upgrade _ _ _ => exact ⟨[], by simp, .same⟩
  | initializeContract _ =>
    refine ⟨[], rfl, ?_⟩
    rw [(hi rfl).2]
    exact .same
  | approveWork _ _ _ _ _ => exact ⟨_, rfl, .add⟩
  | batchCreateProjects _ _ | approveMultisigProposal _ _ _ _ _ _ _
  | rejectMultisigProposal _ _ _ _ _ _ _ _ =>
    refine ⟨_, rfl, ?_⟩
    simp only [issuedIds_batchEvents, issuedIds_approveEvents, issuedIds_rejectEvents]
    exact .same
  | _ => exact ⟨_, rfl, .same⟩

theorem Step.wallets_grow (h : Step env w call r w') :
    ∃ handed, Grows w.storage.multisigWallet (walletCounter w)
      w'.storage.multisigWallet (walletCounter w') handed := by
  cases h with
  | createMultisigWallet _ _ _ _ hn _ =>
    subst hn
    exact ⟨_, .add⟩
  | addMultisigSigner _ hw | removeMultisigSigner _ hw => exact ⟨_, .overwrite hw⟩
  | _ => exact ⟨_, .same⟩

theorem Step.proposals_grow (h : Step env w call r w') :
    ∃ handed, Grows w.storage.multisigProposal (proposalCounter w)
      w'.storage.multisigProposal (proposalCounter w') handed := by
  cases h with
  | createMultisigProposal _ _ _ _ _ hn _ _ =>
    subst hn
    exact ⟨_, .add⟩
  | approveMultisigProposal _ hp | rejectMultisigProposal _ hp | cancelMultisigProposal _ hp
  | lapsed _ hp => exact ⟨_, .overwrite hp⟩
  | _ => exact ⟨_, .same⟩

end Steps

/-- Projects and receipts are numbered once each, and none lies beyond its counter. -/
structure Registered (w : World) : Prop where
  projects : Bounded w.storage.project (projectCounter w)
  receipts : Bounded w.storage.receipt (receiptCounter w)
  created : HandedOut (createdIds w.events) (projectCounter w)
  issued : HandedOut (issuedIds w.events) (receiptCounter w)

theorem registered_deployed : Registered deployed :=
  ⟨bounded_empty, bounded_empty, handedOut_nil, handedOut_nil⟩

theorem Step.registered {env : Env} {w w' : World} {call : Call} {r : Ret}
    (h : Step env w call r w') (hi : call.isInitialize = true → Unnumbered w)
    (hw : Registered w) : Registered w' := by
  obtain ⟨es, hes, hp⟩ := h.projects_grow hi
  obtain ⟨fs, hfs, hr⟩ := h.receipts_grow hi
  refine ⟨hp.bounded hw.projects, hr.bounded hw.receipts, ?_, ?_⟩
  · rw [hes, createdIds_append]; exact hp.handedOut hw.created
  · rw [hfs, issuedIds_append]; exact hr.handedOut hw.issued

theorem commit_registered {w : World} {i : Invocation} (hw : Registered w)
    (hi : i.call.isInitialize = true → Unnumbered w) : Registered (commit contract w i) :=
  commit_preserves (fun _ _ hr => (step_of_ok hr).registered hi hw) hw

/-- The contract right after its one initialization. -/
def Initialized (w : World) : Prop :=
  ∃ env admin r, contract ⟨env, .initializeContract admin⟩ deployed = .ok (r, w)

/-- The run initializes nothing again. -/
def NoInitialize (is : List Invocation) : Prop := ∀ i ∈ is, i.call.isInitialize = false

instance (is : List Invocation) : Decidable (NoInitialize is) :=
  inferInstanceAs (Decidable (∀ i ∈ is, i.call.isInitialize = false))

theorem Initialized.storage {w : World} (h : Initialized w) :
    ∃ admin, w = leave deployed
      { deployed.storage with admin := some admin, projectCount := some 0,
                              receiptCount := some 0, paused := some false } [] := by
  obtain ⟨env, admin, r, hr⟩ := h
  cases step_of_ok hr with
  | initializeContract _ => exact ⟨admin, rfl⟩
  | view hv => contradiction

theorem Initialized.registered {w : World} (h : Initialized w) : Registered w := by
  obtain ⟨admin, rfl⟩ := h.storage
  exact ⟨bounded_empty, bounded_empty, handedOut_nil, handedOut_nil⟩

/-- The contract its admin has just initialized. -/
def started : World := commit contract deployed (invokedBy ⟨1⟩ 0 (.initializeContract ⟨1⟩))

theorem initialized_started : Initialized started :=
  ⟨{ timestamp := 0, auths := [⟨1⟩] }, ⟨1⟩, .unit, rfl⟩

/-- After one initialization and no other, the numbering stays intact. -/
theorem run_registered {w : World} {is : List Invocation} (hw : Registered w)
    (hi : NoInitialize is) : Registered (run contract w is) :=
  run_invariant
    (fun _ i hv hn => commit_registered hv (fun hyes => by simp [hn] at hyes)) hw
    (along_forall.mpr hi)

/-- Wallets and proposals are numbered by counters nothing sets back. -/
structure MultisigRegistered (w : World) : Prop where
  wallets : Bounded w.storage.multisigWallet (walletCounter w)
  proposals : Bounded w.storage.multisigProposal (proposalCounter w)

theorem multisigRegistered_deployed : MultisigRegistered deployed :=
  ⟨bounded_empty, bounded_empty⟩

theorem commit_multisigRegistered {w : World} (hw : MultisigRegistered w) (i : Invocation) :
    MultisigRegistered (commit contract w i) := by
  refine commit_preserves (fun r w' hr => ?_) hw
  obtain ⟨_, hwallets⟩ := (step_of_ok hr).wallets_grow
  obtain ⟨_, hproposals⟩ := (step_of_ok hr).proposals_grow
  exact ⟨hwallets.bounded hw.wallets, hproposals.bounded hw.proposals⟩

end AgenticPayContract
