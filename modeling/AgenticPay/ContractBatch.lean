import AgenticPay.ContractCalls

/-!
# Batches against single creations

A batch reads the project counter once, stores every project and writes the
counter once. Here it is compared with the calls it stands for: one
`create_project` without a deadline for each input, one after the other, in an
invocation environment that all of them share.
-/
namespace AgenticPayContract

open Soroban Contract Transaction

/-- One `create_project` call for each input, in order, with deadline 0. -/
def createEach (client : Address) : List ProjectInput → Entry (List Nat)
  | [] => pure []
  | input :: rest => do
    let id ← createProject client input.freelancer input.amount input.description
      input.githubRepo 0
    let ids ← createEach client rest
    return id :: ids

/-- The storage after `inputs` were created from the counter `count`. -/
def Storage.putBatch (s : Storage) (client : Address) (timestamp count : Nat)
    (inputs : List ProjectInput) : Storage :=
  { s with
    project := batchTable client timestamp inputs count s.project
    projectCount := some (count + inputs.length) }

/-- Ids and world that creating `inputs` from the counter `count` ends with. -/
def CreatedFrom (env : Env) (w : World) (client : Address) (count : Nat)
    (inputs : List ProjectInput) (ids : List Nat) (w' : World) : Prop :=
  List.range' (count + 1) inputs.length = ids ∧
    leave w (w.storage.putBatch client env.timestamp count inputs)
      (batchEvents client inputs count) = w'

/-- The world one creation without a deadline leaves. -/
def afterOne (env : Env) (w : World) (client : Address) (count : Nat) (input : ProjectInput) :
    World :=
  leave w
    { w.storage.putProject (count + 1)
        (batchProject client env.timestamp (count + 1) input) with
      projectCount := some (count + 1) }
    [.projectCreated (count + 1) client input.freelancer input.amount]

/-- A world whose counter and latch are stored, as every creation leaves them. -/
structure Settled (v : World) (count : Nat) : Prop where
  counted : v.storage.projectCount = some count
  released : v.storage.reentrancyLock = some false

section Sequence

variable {env : Env} {w w' v : World} {client : Address} {count : Nat} {input : ProjectInput}
  {inputs rest : List ProjectInput} {ids : List Nat}

theorem settled_afterOne : Settled (afterOne env w client count input) (count + 1) :=
  ⟨rfl, rfl⟩

/-- A creation leaves the gate as open as it found it. -/
theorem entered_afterOne (he : Entered env w client) :
    Entered env (afterOne env w client count input) client :=
  ⟨he.active, he.signed, rfl⟩

/-- What the batch of the rest leaves after a first creation is what the whole batch leaves. -/
theorem createdFrom_cons :
    CreatedFrom env w client count (input :: rest) ids w' ↔
      ∃ tail, (count + 1) :: tail = ids ∧
        CreatedFrom env (afterOne env w client count input) client (count + 1) rest tail w' := by
  have hlen : count + 1 + rest.length = count + (rest.length + 1) := by omega
  simp [CreatedFrom, afterOne, leave, Storage.putBatch, Storage.putProject, batchTable,
    batchEvents, List.range'_succ, hlen]

theorem createdFrom_nil (hs : Settled v count) :
    CreatedFrom env v client count [] ids w' ↔ [] = ids ∧ v = w' := by
  have hv : leave v (v.storage.putBatch client env.timestamp count []) [] = v := by
    obtain ⟨⟨_, _, _, _, _, _, _, _, _, _, _, _, _⟩, _⟩ := v
    obtain ⟨rfl, rfl⟩ := hs
    simp [leave, Storage.putBatch, batchTable]
  simp [CreatedFrom, batchEvents, hv]

/-- One call of the sequence, given what the calls after it do. -/
theorem createEach_cons_ok
    (hrest : ∀ {v n tail}, Entered env v client → Settled v n →
      (createEach client rest env v = .ok (tail, w') ↔
        (rest = [] ∨ n + rest.length < u64Bound) ∧ CreatedFrom env v client n rest tail w')) :
    createEach client (input :: rest) env w = .ok (ids, w') ↔
      Entered env w client ∧
        w.storage.projectCount.getD 0 + (input :: rest).length < u64Bound ∧
        CreatedFrom env w client (w.storage.projectCount.getD 0) (input :: rest) ids w' := by
  have hfit : (w.storage.projectCount.getD 0 + 1 < u64Bound ∧
      (rest = [] ∨ w.storage.projectCount.getD 0 + 1 + rest.length < u64Bound)) ↔
        w.storage.projectCount.getD 0 + (input :: rest).length < u64Bound := by
    cases rest with
    | nil => simp
    | cons _ _ => simp; omega
  simp only [createEach, bind_ok, pure_ok, createProject_ok, createdFrom_cons]
  constructor
  · rintro ⟨id, v, ⟨he, rfl, hlt, hv⟩, tail, v', htail, rfl, rfl⟩
    obtain rfl : afterOne env w client _ input = v := hv
    obtain ⟨hrest', hcreated⟩ := (hrest (entered_afterOne he) settled_afterOne).mp htail
    exact ⟨he, hfit.mp ⟨hlt, hrest'⟩, tail, rfl, hcreated⟩
  · rintro ⟨he, hlen, tail, rfl, hcreated⟩
    obtain ⟨hlt, hrest'⟩ := hfit.mpr hlen
    exact ⟨_, afterOne env w client _ input, ⟨he, rfl, hlt, rfl⟩, tail, w',
      (hrest (entered_afterOne he) settled_afterOne).mpr ⟨hrest', hcreated⟩, rfl, rfl⟩

theorem createEach_settled (he : Entered env v client) (hs : Settled v count) :
    createEach client inputs env v = .ok (ids, w') ↔
      (inputs = [] ∨ count + inputs.length < u64Bound) ∧
        CreatedFrom env v client count inputs ids w' := by
  induction inputs generalizing v count ids with
  | nil => simp [createEach, createdFrom_nil hs]
  | cons input rest ih =>
    rw [createEach_cons_ok ih]
    simp [he, hs.counted]

theorem createEach_ok (hne : inputs ≠ []) :
    createEach client inputs env w = .ok (ids, w') ↔
      Entered env w client ∧ w.storage.projectCount.getD 0 + inputs.length < u64Bound ∧
        CreatedFrom env w client (w.storage.projectCount.getD 0) inputs ids w' := by
  cases inputs with
  | nil => exact absurd rfl hne
  | cons input rest => exact createEach_cons_ok createEach_settled

/-- A batch of one input or more and its sequence return together, with the same ids,
storage and events. The empty batch still passes the gate, and then changes nothing a
later call could read. -/
theorem batch_is_create_sequence (env : Env) (w w' : World) (client : Address)
    (inputs : List ProjectInput) (ids : List Nat) :
    (inputs ≠ [] →
      (batchCreateProjects client inputs env w = .ok (ids, w') ↔
        createEach client inputs env w = .ok (ids, w'))) ∧
    (inputs = [] →
      (batchCreateProjects client inputs env w = .ok (ids, w') ↔
        Entered env w client ∧ ids = [] ∧
          (⟨{ w.storage with
              projectCount := some (w.storage.projectCount.getD 0)
              reentrancyLock := some false }, w.events⟩ : World) = w')) := by
  constructor
  · intro hne
    rw [createEach_ok hne, batchCreateProjects_ok]
    simp [hne, CreatedFrom, Storage.putBatch]
  · rintro rfl
    simp [batchCreateProjects_ok, batchTable, batchEvents, leave, eq_comm]

end Sequence

/-- The contract, initialized and then paused by `⟨1⟩`. -/
def pausedWorld : World :=
  run contract deployed
    [invokedBy ⟨1⟩ 1 (.initializeContract ⟨1⟩), invokedBy ⟨1⟩ 2 (.pause ⟨1⟩)]

/-- On the paused contract the sequence of no calls returns, and the empty batch traps. -/
theorem empty_batch_is_not_its_sequence :
    batchCreateProjects ⟨2⟩ [] { timestamp := 5, auths := [⟨2⟩] } pausedWorld =
      .error (.panic "contract paused") ∧
    ¬ ∀ (env : Env) (w w' : World) (client : Address) (inputs : List ProjectInput)
        (ids : List Nat),
      batchCreateProjects client inputs env w = .ok (ids, w') ↔
        createEach client inputs env w = .ok (ids, w') := by
  refine ⟨rfl, fun h => ?_⟩
  have hseq : createEach ⟨2⟩ [] { timestamp := 5, auths := [⟨2⟩] } pausedWorld = .ok ([], pausedWorld) := rfl
  have hbatch := (h { timestamp := 5, auths := [⟨2⟩] } pausedWorld pausedWorld ⟨2⟩ [] []).mpr hseq
  cases hbatch

end AgenticPayContract
