import AgenticPay.ContractCalls

/-!
# The reentrancy latch and the circuit breaker

Every entry point pairs its acquire and its release of the latch on each of its
return paths, and repeats the pause gate by hand. Read off the steps: a gated
call enters only while the breaker is off, a view leaves the world as it is, and
no step leaves the latch held.
-/
namespace AgenticPayContract

open Soroban Contract Transaction

variable {env : Env} {w w' : World} {call : Call} {r : Ret}

/-- No return path keeps the latch. -/
theorem Step.releases (h : Step env w call r w') (hf : locked w = false) : locked w' = false := by
  cases h with
  | view _ => exact hf
  | upgrade _ _ _ => exact hf
  | _ => rfl

/-- A step of a gated entry point has passed its opening checks. -/
theorem Step.entered (h : Step env w call r w') (hg : call.gate = .gated) :
    ∃ caller, Entered env w caller := by
  cases h with
  | view hv => rw [hv] at hg; contradiction
  | createProject he | batchCreateProjects he | fundProject he | submitWork he | approveWork he
  | raiseDispute he | resolveDispute he | setMetadata he | removeMetadata he
  | createMultisigWallet he | addMultisigSigner he | removeMultisigSigner he
  | createMultisigProposal he | approvedBefore he | approveMultisigProposal he
  | rejectedBefore he | rejectMultisigProposal he | cancelMultisigProposal he => exact ⟨_, he⟩
  | _ => contradiction

theorem Step.viewed (h : Step env w call r w') (hg : call.gate = .view) : w' = w := by
  cases h with
  | view _ => rfl
  | _ => contradiction

/-- While the breaker is on, what a returning call stores anew it stores through
an entry point that is meant to work then. -/
theorem Step.paused_opened (h : Step env w call r w') (hp : paused w = true)
    (hne : w'.storage ≠ w.storage) : call.gate = .opened := by
  cases hg : call.gate with
  | opened => rfl
  | gated =>
    obtain ⟨_, he⟩ := h.entered hg
    rw [he.active] at hp
    contradiction
  | view =>
    rw [h.viewed hg] at hne
    exact absurd rfl hne

/-- The entry points that stay open while the contract is paused, by name. -/
theorem Call.opened_cases (hg : call.gate = .opened) :
    (∃ projectId, call = .checkDeadline projectId) ∨
    (∃ proposalId, call = .checkMultisigExpiry proposalId) ∨
    (∃ admin, call = .pause admin) ∨ (∃ admin, call = .unpause admin) ∨
    (∃ admin, call = .initializeContract admin) ∨
    (∃ admin newWasmHash, call = .upgrade admin newWasmHash) := by
  cases call with
  | checkDeadline _ | checkMultisigExpiry _ | pause _ | unpause _ | initializeContract _
  | upgrade _ _ => simp
  | _ => contradiction

theorem commit_unlocked {i : Invocation} (hf : locked w = false) :
    locked (commit contract w i) = false :=
  commit_preserves (fun _ _ hr => (step_of_ok hr).releases hf) hf

theorem run_unlocked (hf : locked w = false) (is : List Invocation) :
    locked (run contract w is) = false :=
  run_preserves (I := fun v => locked v = false) (fun _ _ hv => commit_unlocked hv) hf is

/-- Whatever returns from an unlocked state leaves it unlocked, so no run wedges the
contract; and while it is paused only the entry points meant to stay open can store. -/
theorem latch_and_breaker :
    (∀ (w : World) (i : Invocation) (r : Ret) (w' : World), locked w = false →
      contract i w = .ok (r, w') → locked w' = false) ∧
    (∀ (w : World) (is : List Invocation), locked w = false →
      locked (run contract w is) = false) ∧
    (∀ (w : World) (i : Invocation) (r : Ret) (w' : World), paused w = true →
      contract i w = .ok (r, w') → w'.storage ≠ w.storage →
      (∃ projectId, i.call = .checkDeadline projectId) ∨
      (∃ proposalId, i.call = .checkMultisigExpiry proposalId) ∨
      (∃ admin, i.call = .pause admin) ∨ (∃ admin, i.call = .unpause admin) ∨
      (∃ admin, i.call = .initializeContract admin) ∨
      (∃ admin newWasmHash, i.call = .upgrade admin newWasmHash)) := by
  refine ⟨fun w i r w' hf hr => (step_of_ok hr).releases hf,
    fun w is hf => run_unlocked hf is, fun w i r w' hp hr hne => ?_⟩
  exact Call.opened_cases ((step_of_ok hr).paused_opened hp hne)

/-- The contract after `admin` has initialized and paused it. -/
def pausedBy (admin : Address) : World :=
  run contract deployed
    [invokedBy admin 0 (.initializeContract admin), invokedBy admin 0 (.pause admin)]

theorem latch_and_breaker_unpause :
    locked (commit contract (pausedBy ⟨1⟩) (invokedBy ⟨1⟩ 5 (.unpause ⟨1⟩))) = false ∧
    locked (run contract (pausedBy ⟨1⟩) [invokedBy ⟨1⟩ 5 (.unpause ⟨1⟩)]) = false ∧
    paused (pausedBy ⟨1⟩) = true ∧ ∃ admin, Call.unpause ⟨1⟩ = .unpause admin := by
  have hf : locked (pausedBy ⟨1⟩) = false := rfl
  have hp : paused (pausedBy ⟨1⟩) = true := rfl
  have hr : contract (invokedBy ⟨1⟩ 5 (.unpause ⟨1⟩)) (pausedBy ⟨1⟩) =
      .ok (.unit, commit contract (pausedBy ⟨1⟩) (invokedBy ⟨1⟩ 5 (.unpause ⟨1⟩))) := rfl
  have hne : (commit contract (pausedBy ⟨1⟩) (invokedBy ⟨1⟩ 5 (.unpause ⟨1⟩))).storage ≠
      (pausedBy ⟨1⟩).storage := by
    intro he
    have hpaused : some false = some true := congrArg Storage.paused he
    contradiction
  have hopen := latch_and_breaker.2.2 _ _ _ _ hp hr hne
  simp only [invokedBy, reduceCtorEq, exists_false, false_or, or_false] at hopen
  exact ⟨latch_and_breaker.1 _ _ _ _ hf hr, latch_and_breaker.2.1 _ _ hf, hp, hopen⟩

end AgenticPayContract
