import AgenticPay.ContractGuards

/-!
# Project escrow

The entry points that create, fund, deliver, dispute and close a project, and
for each of them the exact condition under which it returns and the exact world
it leaves.
-/
namespace AgenticPayContract

open Soroban Contract

/-- `set(&DataKey::Project(id), &project)`. -/
def Storage.putProject (s : Storage) (id : Nat) (project : Project) : Storage :=
  { s with project := Function.update s.project id (some project) }

def setProject (id : Nat) (project : Project) : Entry Unit := write (·.putProject id project)

def findProject (id : Nat) : Entry Project := do
  let stored ← read (·.project id)
  expect stored "Project not found"

def createProject (client freelancer : Address) (amount : Int)
    (description githubRepo : String) (deadline : Nat) : Entry Nat := do
  requireNotPaused
  requireAuth client
  acquireLock
  let stored ← read (·.projectCount.getD 0)
  let count ← addU64 stored 1
  let now ← timestamp
  let project : Project :=
    { id := count, client, freelancer, amount, deposited := 0, status := .created,
      githubRepo, description, createdAt := now, deadline }
  setProject count project
  write ({ · with projectCount := some count })
  publish (.projectCreated count client freelancer amount)
  releaseLock
  return count

/-- The loop of `batch_create_projects`, with its counter and the ids so far. -/
def batchLoop (client : Address) (timestamp : Nat) :
    List ProjectInput → Nat → List Nat → Entry (Nat × List Nat)
  | [], count, ids => pure (count, ids)
  | input :: rest, stored, ids => do
    let count ← addU64 stored 1
    let project : Project :=
      { id := count, client, freelancer := input.freelancer, amount := input.amount,
        deposited := 0, status := .created, githubRepo := input.githubRepo,
        description := input.description, createdAt := timestamp, deadline := 0 }
    setProject count project
    publish (.projectCreated count client input.freelancer input.amount)
    batchLoop client timestamp rest count (ids ++ [count])

def batchCreateProjects (client : Address) (projects : List ProjectInput) :
    Entry (List Nat) := do
  requireNotPaused
  requireAuth client
  acquireLock
  let stored ← read (·.projectCount.getD 0)
  let now ← timestamp
  let (count, ids) ← batchLoop client now projects stored []
  write ({ · with projectCount := some count })
  releaseLock
  return ids

def fundProject (projectId : Nat) (client : Address) (amount : Int) : Entry Unit := do
  requireNotPaused
  requireAuth client
  acquireLock
  let mut project ← findProject projectId
  assert (project.client = client) "Only client can fund"
  assert (project.status = .created) "Project must be in Created status"
  assert (amount > 0) "Amount must be positive"
  let deposited ← addI128 project.deposited amount
  project := { project with deposited }
  if project.deposited ≥ project.amount then
    project := { project with status := .funded }
  setProject projectId project
  publish (.projectFunded projectId amount)
  releaseLock

def submitWork (projectId : Nat) (freelancer : Address) (githubRepo : String) :
    Entry Unit := do
  requireNotPaused
  requireAuth freelancer
  acquireLock
  let project ← findProject projectId
  assert (project.freelancer = freelancer) "Only assigned freelancer can submit"
  assert (project.status = .funded ∨ project.status = .inProgress)
    "Project must be funded or in progress"
  setProject projectId { project with githubRepo, status := .workSubmitted }
  publish (.projectWorkSub projectId githubRepo)
  releaseLock

def recordReceipt (projectId : Nat) (amount : Int) (currency : String)
    (sender recipient : Address) : Entry Nat := do
  let stored ← read (·.receiptCount.getD 0)
  let count ← addU64 stored 1
  let now ← timestamp
  let receipt : Receipt :=
    { id := count, projectId, amount, currency, sender, recipient, timestamp := now }
  write (fun s => { s with receipt := Function.update s.receipt count (some receipt) })
  write ({ · with receiptCount := some count })
  publish (.receiptIssued count projectId amount currency sender recipient)
  return count

def approveWork (projectId : Nat) (client : Address) : Entry Unit := do
  requireNotPaused
  requireAuth client
  acquireLock
  let project ← findProject projectId
  assert (project.client = client) "Only client can approve"
  assert (project.status = .workSubmitted ∨ project.status = .verified)
    "Work must be submitted or verified"
  let amountReleased := project.deposited
  let freelancer := project.freelancer
  let projectClient := project.client
  setProject projectId { project with status := .completed, deposited := 0 }
  publish (.projectPayment projectId amountReleased)
  let _ ← recordReceipt projectId amountReleased "XLM" projectClient freelancer
  releaseLock

def raiseDispute (projectId : Nat) (caller : Address) : Entry Unit := do
  requireNotPaused
  requireAuth caller
  acquireLock
  let project ← findProject projectId
  assert (caller = project.client ∨ caller = project.freelancer)
    "Only client or freelancer can dispute"
  setProject projectId { project with status := .disputed }
  publish (.projectDisputed projectId caller)
  releaseLock

def resolveDispute (projectId : Nat) (admin : Address) (releaseToFreelancer : Bool) :
    Entry Unit := do
  requireNotPaused
  requireAuth admin
  acquireLock
  let stored ← read (·.admin)
  let storedAdmin ← expect stored "Not initialized"
  assert (admin = storedAdmin) "Only admin can resolve disputes"
  let project ← findProject projectId
  assert (project.status = .disputed) "Project must be disputed"
  setProject projectId { project with
    deposited := 0
    status := if releaseToFreelancer then .completed else .cancelled }
  releaseLock

/-- Callable while paused, as the source intends, and by anyone. -/
def checkDeadline (projectId : Nat) : Entry Bool := do
  acquireLock
  let project ← findProject projectId
  if project.deadline = 0 then
    releaseLock
    return false
  if project.status = .completed ∨ project.status = .cancelled ∨ project.status = .disputed then
    releaseLock
    return false
  let now ← timestamp
  if now < project.deadline then
    releaseLock
    return false
  let refundAmount := project.deposited
  setProject projectId { project with deposited := 0, status := .cancelled }
  publish (.projectExpired projectId refundAmount)
  releaseLock
  return true

def getProject (projectId : Nat) : Entry Project := findProject projectId

def getProjectCount : Entry Nat := read (·.projectCount.getD 0)

def getReceipt (receiptId : Nat) : Entry Receipt := do
  let stored ← read (·.receipt receiptId)
  expect stored "Receipt not found"

def getReceiptCount : Entry Nat := read (·.receiptCount.getD 0)

/-! ## What the entry points do -/

/-- The record `create_project` and each turn of the batch loop store. -/
def newProject (id : Nat) (client freelancer : Address) (amount : Int)
    (description githubRepo : String) (createdAt deadline : Nat) : Project :=
  { id, client, freelancer, amount, deposited := 0, status := .created,
    githubRepo, description, createdAt, deadline }

/-- The record a batch stores for one input. -/
def batchProject (client : Address) (timestamp : Nat) (id : Nat) (input : ProjectInput) : Project :=
  newProject id client input.freelancer input.amount input.description input.githubRepo timestamp 0

/-- The project table after the batch loop has gone through `inputs` from `count`. -/
def batchTable (client : Address) (timestamp : Nat) :
    List ProjectInput → Nat → (Nat → Option Project) → Nat → Option Project
  | [], _, table => table
  | input :: rest, count, table =>
    batchTable client timestamp rest (count + 1)
      (Function.update table (count + 1) (some (batchProject client timestamp (count + 1) input)))

/-- The events the batch loop publishes for `inputs` from `count`. -/
def batchEvents (client : Address) : List ProjectInput → Nat → List Event
  | [], _ => []
  | input :: rest, count =>
    .projectCreated (count + 1) client input.freelancer input.amount ::
      batchEvents client rest (count + 1)

/-- The project a successful `fund_project` stores. -/
def Project.fund (p : Project) (amount : Int) : Project :=
  { p with
    deposited := p.deposited + amount
    status := if p.amount ≤ p.deposited + amount then .funded else p.status }

/-- The project `submit_work` stores. -/
def Project.submit (p : Project) (githubRepo : String) : Project :=
  { p with githubRepo, status := .workSubmitted }

/-- The project `approve_work` stores. -/
def Project.close (p : Project) : Project := { p with status := .completed, deposited := 0 }

/-- The receipt `approve_work` issues for the project it found. -/
def Project.receipt (p : Project) (projectId id timestamp : Nat) : Receipt :=
  { id, projectId, amount := p.deposited, currency := "XLM", sender := p.client,
    recipient := p.freelancer, timestamp }

/-- The receipt table and its counter after one more receipt. -/
def Storage.putReceipt (s : Storage) (id : Nat) (receipt : Receipt) : Storage :=
  { s with receipt := Function.update s.receipt id (some receipt), receiptCount := some id }

/-- The project `raise_dispute` stores, whatever its status was. -/
def Project.dispute (p : Project) : Project := { p with status := .disputed }

/-- The project `check_deadline` stores once the deadline has passed. -/
def Project.cancel (p : Project) : Project := { p with deposited := 0, status := .cancelled }

/-- What `resolve_dispute` makes of a project. -/
def Project.resolve (p : Project) (releaseToFreelancer : Bool) : Project :=
  { p with deposited := 0, status := if releaseToFreelancer then .completed else .cancelled }

/-- The deadline check finds a project it will cancel. -/
def Project.Overdue (p : Project) (now : Nat) : Prop :=
  p.deadline ≠ 0 ∧ ¬ (p.status = .completed ∨ p.status = .cancelled ∨ p.status = .disputed) ∧
    p.deadline ≤ now

section Returns

variable {env : Env} {w w' : World} {u : Unit}

@[simp] theorem setProject_ok {id : Nat} {p : Project} :
    setProject id p env w = .ok (u, w') ↔
      (⟨w.storage.putProject id p, w.events⟩ : World) = w' := by
  simp [setProject]

@[simp] theorem findProject_ok {id : Nat} {p : Project} :
    findProject id env w = .ok (p, w') ↔ w.storage.project id = some p ∧ w = w' := by
  simp [findProject]

theorem createProject_ok {client freelancer : Address} {amount : Int}
    {description githubRepo : String} {deadline id : Nat} :
    createProject client freelancer amount description githubRepo deadline env w = .ok (id, w') ↔
      Entered env w client ∧ id = w.storage.projectCount.getD 0 + 1 ∧ id < u64Bound ∧
      leave w
        { w.storage.putProject id (newProject id client freelancer amount description githubRepo
            env.timestamp deadline) with projectCount := some id }
        [.projectCreated id client freelancer amount] = w' := by
  simp [createProject, leave, entered_iff, newProject, Storage.putProject, and_assoc]
  refine fun _ _ _ => ⟨?_, ?_⟩
  · rintro ⟨hlt, rfl, hw⟩
    exact ⟨rfl, hlt, hw⟩
  · rintro ⟨rfl, hlt, hw⟩
    exact ⟨hlt, rfl, hw⟩

/-- The batch loop only checks its counter: it returns whenever the last id fits,
and what it leaves is the fold of its turns. -/
theorem batchLoop_ok {client : Address} {timestamp : Nat} {inputs : List ProjectInput}
    {count c : Nat} {ids is : List Nat} :
    batchLoop client timestamp inputs count ids env w = .ok ((c, is), w') ↔
      (inputs = [] ∨ count + inputs.length < u64Bound) ∧ count + inputs.length = c ∧
      ids ++ List.range' (count + 1) inputs.length = is ∧
      (⟨{ w.storage with project := batchTable client timestamp inputs count w.storage.project },
        w.events ++ batchEvents client inputs count⟩ : World) = w' := by
  induction inputs generalizing count ids w with
  | nil =>
    simp only [batchLoop, batchTable, batchEvents, pure_ok, Prod.mk.injEq, List.length_nil,
      Nat.add_zero, List.range'_zero, List.append_nil, true_or, true_and, and_assoc]
  | cons input rest ih =>
    have hlen : count + (rest.length + 1) = count + 1 + rest.length := by omega
    have hfit : (count + 1 < u64Bound ∧ (rest = [] ∨ count + 1 + rest.length < u64Bound)) ↔
        count + 1 + rest.length < u64Bound := by
      cases rest with
      | nil => simp
      | cons _ _ => simp; omega
    simp [batchLoop, batchTable, batchEvents, batchProject, newProject, Storage.putProject, ih,
      hlen, List.range'_succ]
    rw [← and_assoc, hfit]

theorem batchCreateProjects_ok {client : Address} {projects : List ProjectInput}
    {ids : List Nat} :
    batchCreateProjects client projects env w = .ok (ids, w') ↔
      Entered env w client ∧
      (projects = [] ∨ w.storage.projectCount.getD 0 + projects.length < u64Bound) ∧
      List.range' (w.storage.projectCount.getD 0 + 1) projects.length = ids ∧
      leave w
        { w.storage with
          project := batchTable client env.timestamp projects (w.storage.projectCount.getD 0)
            w.storage.project
          projectCount := some (w.storage.projectCount.getD 0 + projects.length) }
        (batchEvents client projects (w.storage.projectCount.getD 0)) = w' := by
  simp [batchCreateProjects, batchLoop_ok, leave, entered_iff, and_assoc]

theorem fundProject_ok {projectId : Nat} {client : Address} {amount : Int} :
    fundProject projectId client amount env w = .ok (u, w') ↔
      Entered env w client ∧ ∃ p, w.storage.project projectId = some p ∧ p.client = client ∧
        p.status = .created ∧ 0 < amount ∧
        (-i128Bound ≤ p.deposited + amount ∧ p.deposited + amount < i128Bound) ∧
        leave w (w.storage.putProject projectId (p.fund amount))
          [.projectFunded projectId amount] = w' := by
  simp [fundProject, leave, entered_iff, Project.fund, Storage.putProject, and_assoc]
  refine fun _ _ _ => exists_congr fun p => ?_
  by_cases h : p.amount ≤ p.deposited + amount
  · simp [h, Int.not_lt.mpr h]
  · simp [h, Int.not_le.mp h]

theorem submitWork_ok {projectId : Nat} {freelancer : Address} {githubRepo : String} :
    submitWork projectId freelancer githubRepo env w = .ok (u, w') ↔
      Entered env w freelancer ∧ ∃ p, w.storage.project projectId = some p ∧
        p.freelancer = freelancer ∧ (p.status = .funded ∨ p.status = .inProgress) ∧
        leave w (w.storage.putProject projectId (p.submit githubRepo))
          [.projectWorkSub projectId githubRepo] = w' := by
  simp [submitWork, leave, entered_iff, Project.submit, Storage.putProject, and_assoc]

theorem approveWork_ok {projectId : Nat} {client : Address} :
    approveWork projectId client env w = .ok (u, w') ↔
      Entered env w client ∧ ∃ p, w.storage.project projectId = some p ∧ p.client = client ∧
        (p.status = .workSubmitted ∨ p.status = .verified) ∧
        w.storage.receiptCount.getD 0 + 1 < u64Bound ∧
        leave w
          ((w.storage.putProject projectId p.close).putReceipt
            (w.storage.receiptCount.getD 0 + 1) (p.receipt projectId
              (w.storage.receiptCount.getD 0 + 1) env.timestamp))
          [.projectPayment projectId p.deposited,
            .receiptIssued (w.storage.receiptCount.getD 0 + 1) projectId p.deposited "XLM"
              p.client p.freelancer] = w' := by
  simp [approveWork, recordReceipt, leave, entered_iff, Project.receipt, Project.close,
    Storage.putProject, Storage.putReceipt, and_assoc]

theorem raiseDispute_ok {projectId : Nat} {caller : Address} :
    raiseDispute projectId caller env w = .ok (u, w') ↔
      Entered env w caller ∧ ∃ p, w.storage.project projectId = some p ∧
        (caller = p.client ∨ caller = p.freelancer) ∧
        leave w (w.storage.putProject projectId p.dispute)
          [.projectDisputed projectId caller] = w' := by
  simp [raiseDispute, leave, entered_iff, Project.dispute, Storage.putProject, and_assoc]

theorem resolveDispute_ok {projectId : Nat} {admin : Address} {release : Bool} :
    resolveDispute projectId admin release env w = .ok (u, w') ↔
      Entered env w admin ∧ w.storage.admin = some admin ∧
      ∃ p, w.storage.project projectId = some p ∧ p.status = .disputed ∧
        leave w (w.storage.putProject projectId (p.resolve release)) [] = w' := by
  simp [resolveDispute, leave, entered_iff, Project.resolve, Storage.putProject, and_assoc]

theorem checkDeadline_ok {projectId : Nat} {b : Bool} :
    checkDeadline projectId env w = .ok (b, w') ↔
      locked w = false ∧ ∃ p, w.storage.project projectId = some p ∧
        (¬ p.Overdue env.timestamp ∧ b = false ∧ leave w w.storage [] = w' ∨
          p.Overdue env.timestamp ∧ b = true ∧
          leave w (w.storage.putProject projectId p.cancel)
            [.projectExpired projectId p.deposited] = w') := by
  simp only [checkDeadline, bind_ok, acquireLock_ok, findProject_ok, ite_ok, releaseLock_ok,
    pure_ok, timestamp_ok, setProject_ok, publish_ok]
  simp [leave, Project.cancel, Storage.putProject, and_assoc]
  refine fun _ => exists_congr fun p => and_congr_right fun _ => ?_
  by_cases hd : p.deadline = 0
  · simp [Project.Overdue, hd]
  by_cases hs : p.status = .completed ∨ p.status = .cancelled ∨ p.status = .disputed
  · rcases hs with hs | hs | hs <;> simp [Project.Overdue, hd, hs]
  · obtain ⟨hc, hx, hp⟩ : p.status ≠ .completed ∧ p.status ≠ .cancelled ∧ p.status ≠ .disputed := by
      simpa only [not_or] using hs
    by_cases ht : env.timestamp < p.deadline
    · simp [Project.Overdue, hd, hc, hx, hp, ht, Nat.not_le.mpr ht]
    · simp [Project.Overdue, hd, hc, hx, hp, ht, Nat.not_lt.mp ht]

end Returns

end AgenticPayContract
