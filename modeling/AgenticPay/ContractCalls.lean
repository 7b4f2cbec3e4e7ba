import AgenticPay.ContractProjects
import AgenticPay.ContractMultisig

/-!
# The contract as a system of calls

One constructor for each public entry point of the contract, with its arguments,
and the dispatcher. An invocation also carries what the ledger tells it: the
time and the addresses that signed it. A run is any list of invocations.
-/
namespace AgenticPayContract

open Soroban Contract Transaction

inductive Call where
  | initializeContract (admin : Address)
  | pause (admin : Address)
  | unpause (admin : Address)
  | isPaused
  | createProject (client freelancer : Address) (amount : Int)
      (description githubRepo : String) (deadline : Nat)
  | batchCreateProjects (client : Address) (projects : List ProjectInput)
  | fundProject (projectId : Nat) (client : Address) (amount : Int)
  | submitWork (projectId : Nat) (freelancer : Address) (githubRepo : String)
  | approveWork (projectId : Nat) (client : Address)
  | raiseDispute (projectId : Nat) (caller : Address)
  | resolveDispute (projectId : Nat) (admin : Address) (releaseToFreelancer : Bool)
  | checkDeadline (projectId : Nat)
  | getProject (projectId : Nat)
  | getProjectCount
  | getReceipt (receiptId : Nat)
  | getReceiptCount
  | setMetadata (admin : Address) (key value : String)
  | getMetadata (key : String)
  | removeMetadata (admin : Address) (key : String)
  | upgrade (admin : Address) (newWasmHash : BytesN32)
  | version
  | createMultisigWallet (creator : Address) (signers : List Address)
      (threshold timeoutLedgers : Nat)
  | getMultisigWallet (walletId : Nat)
  | addMultisigSigner (authorizer : Address) (walletId : Nat) (newSigner : Address)
  | removeMultisigSigner (authorizer : Address) (walletId : Nat) (signerToRemove : Address)
  | createMultisigProposal (proposer : Address) (walletId : Nat) (amount : Int)
      (recipient : Address) (description : String)
  | approveMultisigProposal (signer : Address) (proposalId : Nat)
  | rejectMultisigProposal (signer : Address) (proposalId : Nat)
  | cancelMultisigProposal (signer : Address) (proposalId : Nat)
  | getMultisigProposal (proposalId : Nat)
  | checkMultisigExpiry (proposalId : Nat)
  deriving DecidableEq, Repr

/-- What an entry point hands back to its caller. -/
inductive Ret where
  | unit
  | bool (b : Bool)
  | u32 (n : Nat)
  | u64 (n : Nat)
  | ids (ids : List Nat)
  | text (text : Option String)
  | project (project : Project)
  | receipt (receipt : Receipt)
  | wallet (wallet : MultisigWallet)
  | proposal (proposal : MultisigProposal)
  deriving DecidableEq, Repr

def returns {α : Type} (wrap : α → Ret) (body : Entry α) : Entry Ret := do
  let value ← body
  return wrap value

def invoke : Call → Entry Ret
  | .initializeContract admin => returns (fun _ => .unit) (initializeContract admin)
  | .pause admin => returns (fun _ => .unit) (pause admin)
  | .unpause admin => returns (fun _ => .unit) (unpause admin)
  | .isPaused => returns .bool isPaused
  | .createProject client freelancer amount description githubRepo deadline =>
    returns .u64 (createProject client freelancer amount description githubRepo deadline)
  | .batchCreateProjects client projects => returns .ids (batchCreateProjects client projects)
  | .fundProject projectId client amount =>
    returns (fun _ => .unit) (fundProject projectId client amount)
  | .submitWork projectId freelancer githubRepo =>
    returns (fun _ => .unit) (submitWork projectId freelancer githubRepo)
  | .approveWork projectId client => returns (fun _ => .unit) (approveWork projectId client)
  | .raiseDispute projectId caller => returns (fun _ => .unit) (raiseDispute projectId caller)
  | .resolveDispute projectId admin releaseToFreelancer =>
    returns (fun _ => .unit) (resolveDispute projectId admin releaseToFreelancer)
  | .checkDeadline projectId => returns .bool (checkDeadline projectId)
  | .getProject projectId => returns .project (getProject projectId)
  | .getProjectCount => returns .u64 getProjectCount
  | .getReceipt receiptId => returns .receipt (getReceipt receiptId)
  | .getReceiptCount => returns .u64 getReceiptCount
  | .setMetadata admin key value => returns (fun _ => .unit) (setMetadata admin key value)
  | .getMetadata key => returns .text (getMetadata key)
  | .removeMetadata admin key => returns (fun _ => .unit) (removeMetadata admin key)
  | .upgrade admin newWasmHash => returns (fun _ => .unit) (upgrade admin newWasmHash)
  | .version => returns .u32 version
  | .createMultisigWallet creator signers threshold timeoutLedgers =>
    returns .u64 (createMultisigWallet creator signers threshold timeoutLedgers)
  | .getMultisigWallet walletId => returns .wallet (getMultisigWallet walletId)
  | .addMultisigSigner authorizer walletId newSigner =>
    returns (fun _ => .unit) (addMultisigSigner authorizer walletId newSigner)
  | .removeMultisigSigner authorizer walletId signerToRemove =>
    returns (fun _ => .unit) (removeMultisigSigner authorizer walletId signerToRemove)
  | .createMultisigProposal proposer walletId amount recipient description =>
    returns .u64 (createMultisigProposal proposer walletId amount recipient description)
  | .approveMultisigProposal signer proposalId =>
    returns (fun _ => .unit) (approveMultisigProposal signer proposalId)
  | .rejectMultisigProposal signer proposalId =>
    returns (fun _ => .unit) (rejectMultisigProposal signer proposalId)
  | .cancelMultisigProposal signer proposalId =>
    returns (fun _ => .unit) (cancelMultisigProposal signer proposalId)
  | .getMultisigProposal proposalId => returns .proposal (getMultisigProposal proposalId)
  | .checkMultisigExpiry proposalId => returns .bool (checkMultisigExpiry proposalId)

structure Invocation where
  env : Env
  call : Call

/-- The invocation at time `timestamp` that `signer` alone has authorized. -/
def invokedBy (signer : Address) (timestamp : Nat) (call : Call) : Invocation where
  env := { timestamp, auths := [signer] }
  call := call

/-- The deployed code. An upgrade only records the new hash here: a run is a run
of this code. -/
def contract : System Invocation World Trap Ret := fun i w => invoke i.call i.env w

@[simp] theorem returns_ok {α : Type} {wrap : α → Ret} {body : Entry α} {env : Env}
    {w w' : World} {r : Ret} :
    returns wrap body env w = .ok (r, w') ↔ ∃ a, body env w = .ok (a, w') ∧ wrap a = r := by
  simp [returns]

/-- What a call leaves behind is what the entry point behind it leaves behind. -/
theorem commit_of_returns {α : Type} {wrap : α → Ret} {body : Entry α} {i : Invocation}
    {w w' : World} {a : α} (hi : invoke i.call = returns wrap body)
    (h : body i.env w = .ok (a, w')) : commit contract w i = w' := by
  apply commit_of_ok
  rw [contract, hi]
  exact returns_ok.mpr ⟨a, h, rfl⟩

/-- How an entry point stands to the circuit breaker: a view writes nothing, a
gated one refuses while the contract is paused, an open one does neither. -/
inductive Gate where
  | view | gated | opened
  deriving DecidableEq, Repr

def Call.gate : Call → Gate
  | .isPaused | .getProject _ | .getProjectCount | .getReceipt _ | .getReceiptCount
  | .getMetadata _ | .version | .getMultisigWallet _ | .getMultisigProposal _ => .view
  | .checkDeadline _ | .checkMultisigExpiry _ | .pause _ | .unpause _
  | .initializeContract _ | .upgrade _ _ => .opened
  | _ => .gated

def Call.isInitialize : Call → Bool
  | .initializeContract _ => true
  | _ => false

/-- Everything an accepted call can do: for each entry point and each of its
return paths, the guards passed, the value returned and the world left behind. -/
inductive Step (env : Env) (w : World) : Call → Ret → World → Prop
  | view {call ret} (isView : call.gate = .view) : Step env w call ret w
  | initializeContract {admin} (signed : admin ∈ env.auths) :
      Step env w (.initializeContract admin) .unit
        (leave w { w.storage with admin := some admin, projectCount := some 0,
                                  receiptCount := some 0, paused := some false } [])
  | pause {admin} (signed : admin ∈ env.auths) (stored : w.storage.admin = some admin)
      (free : locked w = false) :
      Step env w (.pause admin) .unit
        (leave w { w.storage with paused := some true } [.circuitPaused true])
  | unpause {admin} (signed : admin ∈ env.auths) (stored : w.storage.admin = some admin)
      (free : locked w = false) :
      Step env w (.unpause admin) .unit
        (leave w { w.storage with paused := some false } [.circuitPaused false])
  | createProject {client freelancer amount description githubRepo deadline id}
      (entered : Entered env w client) (next : id = w.storage.projectCount.getD 0 + 1)
      (fits : id < u64Bound) :
      Step env w (.createProject client freelancer amount description githubRepo deadline) (.u64 id)
        (leave w
          { w.storage.putProject id (newProject id client freelancer amount description
              githubRepo env.timestamp deadline) with projectCount := some id }
          [.projectCreated id client freelancer amount])
  | batchCreateProjects {client projects} (entered : Entered env w client)
      (fits : projects = [] ∨ w.storage.projectCount.getD 0 + projects.length < u64Bound) :
      Step env w (.batchCreateProjects client projects)
        (.ids (List.range' (w.storage.projectCount.getD 0 + 1) projects.length))
        (leave w
          { w.storage with
            project := batchTable client env.timestamp projects (w.storage.projectCount.getD 0)
              w.storage.project
            projectCount := some (w.storage.projectCount.getD 0 + projects.length) }
          (batchEvents client projects (w.storage.projectCount.getD 0)))
  | fundProject {projectId client amount p} (entered : Entered env w client)
      (found : w.storage.project projectId = some p) (owner : p.client = client)
      (status : p.status = .created) (positive : 0 < amount)
      (fits : -i128Bound ≤ p.deposited + amount ∧ p.deposited + amount < i128Bound) :
      Step env w (.fundProject projectId client amount) .unit
        (leave w (w.storage.putProject projectId (p.fund amount))
          [.projectFunded projectId amount])
  | submitWork {projectId freelancer githubRepo p} (entered : Entered env w freelancer)
      (found : w.storage.project projectId = some p) (assigned : p.freelancer = freelancer)
      (status : p.status = .funded ∨ p.status = .inProgress) :
      Step env w (.submitWork projectId freelancer githubRepo) .unit
        (leave w (w.storage.putProject projectId (p.submit githubRepo))
          [.projectWorkSub projectId githubRepo])
  | approveWork {projectId client p} (entered : Entered env w client)
      (found : w.storage.project projectId = some p) (owner : p.client = client)
      (status : p.status = .workSubmitted ∨ p.status = .verified)
      (fits : w.storage.receiptCount.getD 0 + 1 < u64Bound) :
      Step env w (.approveWork projectId client) .unit
        (leave w
          ((w.storage.putProject projectId p.close).putReceipt
            (w.storage.receiptCount.getD 0 + 1) (p.receipt projectId
              (w.storage.receiptCount.getD 0 + 1) env.timestamp))
          [.projectPayment projectId p.deposited,
            .receiptIssued (w.storage.receiptCount.getD 0 + 1) projectId p.deposited "XLM"
              p.client p.freelancer])
  | raiseDispute {projectId caller p} (entered : Entered env w caller)
      (found : w.storage.project projectId = some p)
      (party : caller = p.client ∨ caller = p.freelancer) :
      Step env w (.raiseDispute projectId caller) .unit
        (leave w (w.storage.putProject projectId p.dispute) [.projectDisputed projectId caller])
  | resolveDispute {projectId admin release p} (entered : Entered env w admin)
      (stored : w.storage.admin = some admin) (found : w.storage.project projectId = some p)
      (status : p.status = .disputed) :
      Step env w (.resolveDispute projectId admin release) .unit
        (leave w (w.storage.putProject projectId (p.resolve release)) [])
  | notOverdue {projectId p} (free : locked w = false)
      (found : w.storage.project projectId = some p) (early : ¬ p.Overdue env.timestamp) :
      Step env w (.checkDeadline projectId) (.bool false) (leave w w.storage [])
  | overdue {projectId p} (free : locked w = false)
      (found : w.storage.project projectId = some p) (late : p.Overdue env.timestamp) :
      Step env w (.checkDeadline projectId) (.bool true)
        (leave w (w.storage.putProject projectId p.cancel) [.projectExpired projectId p.deposited])
  | setMetadata {admin key value} (entered : Entered env w admin)
      (stored : w.storage.admin = some admin) :
      Step env w (.setMetadata admin key value) .unit
        (leave w
          { w.storage with metadata := Function.update w.storage.metadata key (some value) }
          [.metaSet key value])
  | removeMetadata {admin key} (entered : Entered env w admin)
      (stored : w.storage.admin = some admin) :
      Step env w (.removeMetadata admin key) .unit
        (leave w { w.storage with metadata := Function.update w.storage.metadata key none }
          [.metaDel key])
  | upgrade {admin newWasmHash} (signed : admin ∈ env.auths)
      (stored : w.storage.admin = some admin) (uploaded : newWasmHash ∈ env.uploaded) :
      Step env w (.upgrade admin newWasmHash) .unit
        ⟨{ w.storage with code := some newWasmHash }, w.events⟩
  | createMultisigWallet {creator signers threshold timeoutLedgers id}
      (entered : Entered env w creator) (two : 2 ≤ signers.length) (one : 1 ≤ threshold)
      (reachable : threshold ≤ signers.length)
      (next : id = w.storage.multisigWalletCount.getD 0 + 1) (fits : id < u64Bound) :
      Step env w (.createMultisigWallet creator signers threshold timeoutLedgers) (.u64 id)
        (leave w
          { w.storage.putWallet id (newWallet id signers threshold timeoutLedgers) with
            multisigWalletCount := some id }
          [.msigCreated id threshold])
  | addMultisigSigner {authorizer walletId newSigner wallet} (entered : Entered env w authorizer)
      (found : w.storage.multisigWallet walletId = some wallet) (active : wallet.active = true)
      (member : authorizer ∈ wallet.signers) :
      Step env w (.addMultisigSigner authorizer walletId newSigner) .unit
        (leave w
          (w.storage.putWallet walletId { wallet with signers := wallet.signers ++ [newSigner] })
          [.msigSgnAdd walletId newSigner])
  | removeMultisigSigner {authorizer walletId target wallet k} (entered : Entered env w authorizer)
      (found : w.storage.multisigWallet walletId = some wallet) (active : wallet.active = true)
      (member : authorizer ∈ wallet.signers) (index : wallet.removeIdx authorizer target = some k)
      (three : 3 ≤ wallet.signers.length)
      (reachable : wallet.threshold ≤ wallet.signers.length - 1) :
      Step env w (.removeMultisigSigner authorizer walletId target) .unit
        (leave w
          (w.storage.putWallet walletId { wallet with signers := wallet.signers.eraseIdx k })
          [.msigSgnRem walletId target])
  | createMultisigProposal {proposer walletId amount recipient description wallet id}
      (entered : Entered env w proposer)
      (found : w.storage.multisigWallet walletId = some wallet) (active : wallet.active = true)
      (positive : 0 < amount) (member : proposer ∈ wallet.signers)
      (next : id = w.storage.multisigProposalCount.getD 0 + 1) (fits : id < u64Bound)
      (clock : wallet.timeoutLedgers > 0 → env.timestamp + wallet.timeoutLedgers < u64Bound) :
      Step env w (.createMultisigProposal proposer walletId amount recipient description) (.u64 id)
        (leave w
          { w.storage.putProposal id (newProposal id walletId amount recipient description proposer
              env.timestamp (wallet.expiry env.timestamp)) with multisigProposalCount := some id }
          [.msigProp id walletId amount recipient])
  | approvedBefore {signer proposalId p wallet} (entered : Entered env w signer)
      (found : w.storage.multisigProposal proposalId = some p) (status : p.status = .pending)
      (stored : w.storage.multisigWallet p.walletId = some wallet)
      (live : ¬ p.Lapsed env.timestamp) (member : signer ∈ wallet.signers)
      (repeated : signer ∈ p.approvals) :
      Step env w (.approveMultisigProposal signer proposalId) .unit (leave w w.storage [])
  | approveMultisigProposal {signer proposalId p wallet} (entered : Entered env w signer)
      (found : w.storage.multisigProposal proposalId = some p) (status : p.status = .pending)
      (stored : w.storage.multisigWallet p.walletId = some wallet)
      (live : ¬ p.Lapsed env.timestamp) (member : signer ∈ wallet.signers)
      (first : signer ∉ p.approvals) :
      Step env w (.approveMultisigProposal signer proposalId) .unit
        (leave w (w.storage.putProposal proposalId (p.approve wallet.threshold signer))
          (p.approveEvents proposalId wallet.threshold))
  | rejectedBefore {signer proposalId p wallet} (entered : Entered env w signer)
      (found : w.storage.multisigProposal proposalId = some p) (status : p.status = .pending)
      (stored : w.storage.multisigWallet p.walletId = some wallet)
      (member : signer ∈ wallet.signers) (repeated : signer ∈ p.rejections) :
      Step env w (.rejectMultisigProposal signer proposalId) .unit (leave w w.storage [])
  | rejectMultisigProposal {signer proposalId p wallet} (entered : Entered env w signer)
      (found : w.storage.multisigProposal proposalId = some p) (status : p.status = .pending)
      (stored : w.storage.multisigWallet p.walletId = some wallet)
      (member : signer ∈ wallet.signers) (first : signer ∉ p.rejections)
      (reachable : wallet.threshold ≤ wallet.signers.length) (fits : wallet.blocking < u32Bound) :
      Step env w (.rejectMultisigProposal signer proposalId) .unit
        (leave w (w.storage.putProposal proposalId (p.reject wallet.blocking signer))
          (p.rejectEvents proposalId wallet.blocking))
  | cancelMultisigProposal {signer proposalId p wallet} (entered : Entered env w signer)
      (found : w.storage.multisigProposal proposalId = some p) (status : p.status = .pending)
      (stored : w.storage.multisigWallet p.walletId = some wallet)
      (member : signer ∈ wallet.signers) :
      Step env w (.cancelMultisigProposal signer proposalId) .unit
        (leave w (w.storage.putProposal proposalId { p with status := .cancelled })
          [.msigCancel proposalId p.walletId])
  | notLapsed {proposalId p} (free : locked w = false)
      (found : w.storage.multisigProposal proposalId = some p)
      (live : ¬ (p.status = .pending ∧ p.Lapsed env.timestamp)) :
      Step env w (.checkMultisigExpiry proposalId) (.bool false) (leave w w.storage [])
  | lapsed {proposalId p} (free : locked w = false)
      (found : w.storage.multisigProposal proposalId = some p)
      (late : p.status = .pending ∧ p.Lapsed env.timestamp) :
      Step env w (.checkMultisigExpiry proposalId) (.bool true)
        (leave w (w.storage.putProposal proposalId { p with status := .expired })
          [.msigExpired proposalId p.walletId])

/-- The inversion of the dispatcher: what returned is one of the listed steps. -/
theorem step_of_ok {call : Call} {env : Env} {w w' : World} {r : Ret}
    (h : invoke call env w = .ok (r, w')) : Step env w call r w' := by
  cases call with
  | initializeContract admin =>
    obtain ⟨_, ha, rfl⟩ := returns_ok.mp h
    obtain ⟨hs, rfl⟩ := initializeContract_ok.mp ha
    exact .initializeContract hs
  | pause admin =>
    obtain ⟨_, ha, rfl⟩ := returns_ok.mp h
    obtain ⟨hs, hadm, hf, rfl⟩ := pause_ok.mp ha
    exact .pause hs hadm hf
  | unpause admin =>
    obtain ⟨_, ha, rfl⟩ := returns_ok.mp h
    obtain ⟨hs, hadm, hf, rfl⟩ := unpause_ok.mp ha
    exact .unpause hs hadm hf
  | isPaused =>
    obtain ⟨_, ha, rfl⟩ := returns_ok.mp h
    obtain ⟨_, rfl⟩ := read_ok.mp ha
    exact .view rfl
  | createProject client freelancer amount description githubRepo deadline =>
    obtain ⟨_, ha, rfl⟩ := returns_ok.mp h
    obtain ⟨he, hn, hf, rfl⟩ := createProject_ok.mp ha
    exact .createProject he hn hf
  | batchCreateProjects client projects =>
    obtain ⟨_, ha, rfl⟩ := returns_ok.mp h
    obtain ⟨he, hf, rfl, rfl⟩ := batchCreateProjects_ok.mp ha
    exact .batchCreateProjects he hf
  | fundProject projectId client amount =>
    obtain ⟨_, ha, rfl⟩ := returns_ok.mp h
    obtain ⟨he, p, hp, ho, hs, hpos, hf, rfl⟩ := fundProject_ok.mp ha
    exact .fundProject he hp ho hs hpos hf
  | submitWork projectId freelancer githubRepo =>
    obtain ⟨_, ha, rfl⟩ := returns_ok.mp h
    obtain ⟨he, p, hp, ho, hs, rfl⟩ := submitWork_ok.mp ha
    exact .submitWork he hp ho hs
  | approveWork projectId client =>
    obtain ⟨_, ha, rfl⟩ := returns_ok.mp h
    obtain ⟨he, p, hp, ho, hs, hf, rfl⟩ := approveWork_ok.mp ha
    exact .approveWork he hp ho hs hf
  | raiseDispute projectId caller =>
    obtain ⟨_, ha, rfl⟩ := returns_ok.mp h
    obtain ⟨he, p, hp, hc, rfl⟩ := raiseDispute_ok.mp ha
    exact .raiseDispute he hp hc
  | resolveDispute projectId admin releaseToFreelancer =>
    obtain ⟨_, ha, rfl⟩ := returns_ok.mp h
    obtain ⟨he, hadm, p, hp, hs, rfl⟩ := resolveDispute_ok.mp ha
    exact .resolveDispute he hadm hp hs
  | checkDeadline projectId =>
    obtain ⟨_, ha, rfl⟩ := returns_ok.mp h
    obtain ⟨hf, p, hp, ⟨ho, rfl, rfl⟩ | ⟨ho, rfl, rfl⟩⟩ := checkDeadline_ok.mp ha
    · exact .notOverdue hf hp ho
    · exact .overdue hf hp ho
  | getProject projectId =>
    obtain ⟨_, ha, rfl⟩ := returns_ok.mp h
    obtain ⟨_, rfl⟩ := findProject_ok.mp ha
    exact .view rfl
  | getProjectCount =>
    obtain ⟨_, ha, rfl⟩ := returns_ok.mp h
    obtain ⟨_, rfl⟩ := read_ok.mp ha
    exact .view rfl
  | getReceipt receiptId =>
    obtain ⟨_, ha, rfl⟩ := returns_ok.mp h
    obtain rfl : w = w' := by simp [getReceipt] at ha; exact ha.2
    exact .view rfl
  | getReceiptCount =>
    obtain ⟨_, ha, rfl⟩ := returns_ok.mp h
    obtain ⟨_, rfl⟩ := read_ok.mp ha
    exact .view rfl
  | setMetadata admin key value =>
    obtain ⟨_, ha, rfl⟩ := returns_ok.mp h
    obtain ⟨he, hadm, rfl⟩ := setMetadata_ok.mp ha
    exact .setMetadata he hadm
  | getMetadata key =>
    obtain ⟨_, ha, rfl⟩ := returns_ok.mp h
    obtain ⟨_, rfl⟩ := read_ok.mp ha
    exact .view rfl
  | removeMetadata admin key =>
    obtain ⟨_, ha, rfl⟩ := returns_ok.mp h
    obtain ⟨he, hadm, rfl⟩ := removeMetadata_ok.mp ha
    exact .removeMetadata he hadm
  | upgrade admin newWasmHash =>
    obtain ⟨_, ha, rfl⟩ := returns_ok.mp h
    obtain ⟨hs, hadm, hu, rfl⟩ := upgrade_ok.mp ha
    exact .upgrade hs hadm hu
  | version =>
    obtain ⟨_, ha, rfl⟩ := returns_ok.mp h
    obtain ⟨_, rfl⟩ := pure_ok.mp ha
    exact .view rfl
  | createMultisigWallet creator signers threshold timeoutLedgers =>
    obtain ⟨_, ha, rfl⟩ := returns_ok.mp h
    obtain ⟨he, h2, h1, hr, hn, hf, rfl⟩ := createMultisigWallet_ok.mp ha
    exact .createMultisigWallet he h2 h1 hr hn hf
  | getMultisigWallet walletId =>
    obtain ⟨_, ha, rfl⟩ := returns_ok.mp h
    obtain ⟨_, rfl⟩ := findWallet_ok.mp ha
    exact .view rfl
  | addMultisigSigner authorizer walletId newSigner =>
    obtain ⟨_, ha, rfl⟩ := returns_ok.mp h
    obtain ⟨he, wallet, hw, hact, hm, rfl⟩ := addMultisigSigner_ok.mp ha
    exact .addMultisigSigner he hw hact hm
  | removeMultisigSigner authorizer walletId signerToRemove =>
    obtain ⟨_, ha, rfl⟩ := returns_ok.mp h
    obtain ⟨he, wallet, hw, hact, hm, k, hk, h3, hr, rfl⟩ := removeMultisigSigner_ok.mp ha
    exact .removeMultisigSigner he hw hact hm hk h3 hr
  | createMultisigProposal proposer walletId amount recipient description =>
    obtain ⟨_, ha, rfl⟩ := returns_ok.mp h
    obtain ⟨he, wallet, hw, hact, hpos, hm, hn, hf, hc, rfl⟩ := createMultisigProposal_ok.mp ha
    exact .createMultisigProposal he hw hact hpos hm hn hf hc
  | approveMultisigProposal signer proposalId =>
    obtain ⟨_, ha, rfl⟩ := returns_ok.mp h
    obtain ⟨he, p, hp, hs, wallet, hw, hl, hm, ⟨hin, rfl⟩ | ⟨hin, rfl⟩⟩ :=
      approveMultisigProposal_ok.mp ha
    · exact .approvedBefore he hp hs hw hl hm hin
    · exact .approveMultisigProposal he hp hs hw hl hm hin
  | rejectMultisigProposal signer proposalId =>
    obtain ⟨_, ha, rfl⟩ := returns_ok.mp h
    obtain ⟨he, p, hp, hs, wallet, hw, hm, ⟨hin, rfl⟩ | ⟨hin, hr, hf, rfl⟩⟩ :=
      rejectMultisigProposal_ok.mp ha
    · exact .rejectedBefore he hp hs hw hm hin
    · exact .rejectMultisigProposal he hp hs hw hm hin hr hf
  | cancelMultisigProposal signer proposalId =>
    obtain ⟨_, ha, rfl⟩ := returns_ok.mp h
    obtain ⟨he, p, hp, hs, wallet, hw, hm, rfl⟩ := cancelMultisigProposal_ok.mp ha
    exact .cancelMultisigProposal he hp hs hw hm
  | getMultisigProposal proposalId =>
    obtain ⟨_, ha, rfl⟩ := returns_ok.mp h
    obtain ⟨_, rfl⟩ := findProposal_ok.mp ha
    exact .view rfl
  | checkMultisigExpiry proposalId =>
    obtain ⟨_, ha, rfl⟩ := returns_ok.mp h
    obtain ⟨hf, p, hp, ⟨hl, rfl, rfl⟩ | ⟨hl, rfl, rfl⟩⟩ := checkMultisigExpiry_ok.mp ha
    · exact .notLapsed hf hp hl
    · exact .lapsed hf hp hl

/-- Every committed invocation is a listed step, or trapped and changed nothing. -/
theorem commit_step (w : World) (i : Invocation) :
    (∃ r, contract i w = .ok (r, commit contract w i) ∧
      Step i.env w i.call r (commit contract w i)) ∨
    (∃ t, contract i w = .error t) ∧ commit contract w i = w := by
  obtain ⟨r, hr⟩ | he := commit_cases contract w i
  · exact .inl ⟨r, hr, step_of_ok hr⟩
  · exact .inr he

end AgenticPayContract
