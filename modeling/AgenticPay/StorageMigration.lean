import AgenticPay.ContractTypes
import AgenticPay.Registry

/-!
# Migration of the project records

The packed record of the second storage layout, the keys of both layouts and the
migration between them. A storage key of an enum type reaches the host as the
vector of its variant name and its fields; the name of the enum is not part of
it. The persistent and the instance storage are partial functions of such keys.
-/
namespace StorageMigration

open Soroban Contract
open AgenticPayContract (Project ProjectStatus)

inductive KeyField where
  | u32 (n : Nat)
  | u64 (n : Nat)
  | string (s : String)
  deriving DecidableEq, Repr

/-- An enum key as the host sees it. -/
structure KeyVal where
  variant : String
  fields : List KeyField
  deriving DecidableEq, Repr

/-- The keys of the first layout. -/
inductive DataKey where
  | project (id : Nat)
  | projectCount
  | receipt (id : Nat)
  | receiptCount
  | admin
  | metadata (key : String)
  | reentrancyLock
  | paused
  | multisigWalletCount
  | multisigWallet (id : Nat)
  | multisigProposalCount
  | multisigProposal (id : Nat)
  deriving DecidableEq, Repr

def DataKey.toVal : DataKey → KeyVal
  | .project id => ⟨"Project", [.u64 id]⟩
  | .projectCount => ⟨"ProjectCount", []⟩
  | .receipt id => ⟨"Receipt", [.u64 id]⟩
  | .receiptCount => ⟨"ReceiptCount", []⟩
  | .admin => ⟨"Admin", []⟩
  | .metadata key => ⟨"Metadata", [.string key]⟩
  | .reentrancyLock => ⟨"ReentrancyLock", []⟩
  | .paused => ⟨"Paused", []⟩
  | .multisigWalletCount => ⟨"MultisigWalletCount", []⟩
  | .multisigWallet id => ⟨"MultisigWallet", [.u64 id]⟩
  | .multisigProposalCount => ⟨"MultisigProposalCount", []⟩
  | .multisigProposal id => ⟨"MultisigProposal", [.u64 id]⟩

/-- The keys of the second layout. -/
inductive StorageKey where
  | admin
  | bridgeConfig
  | reentrancyLock
  | paused
  | projectCounter
  | receiptCounter
  | walletCounter
  | proposalCounter
  | htlcCounter
  | project (id : Nat)
  | receipt (id : Nat)
  | wallet (id : Nat)
  | proposal (id : Nat)
  | approvalBitmap (id : Nat)
  | htlcLock (id : Nat)
  | signer (walletId index : Nat)
  | metadata (key : String)
  deriving DecidableEq, Repr

def StorageKey.toVal : StorageKey → KeyVal
  | .admin => ⟨"Admin", []⟩
  | .bridgeConfig => ⟨"BridgeConfig", []⟩
  | .reentrancyLock => ⟨"ReentrancyLock", []⟩
  | .paused => ⟨"Paused", []⟩
  | .projectCounter => ⟨"ProjectCounter", []⟩
  | .receiptCounter => ⟨"ReceiptCounter", []⟩
  | .walletCounter => ⟨"WalletCounter", []⟩
  | .proposalCounter => ⟨"ProposalCounter", []⟩
  | .htlcCounter => ⟨"HtlcCounter", []⟩
  | .project id => ⟨"Project", [.u64 id]⟩
  | .receipt id => ⟨"Receipt", [.u64 id]⟩
  | .wallet id => ⟨"Wallet", [.u64 id]⟩
  | .proposal id => ⟨"Proposal", [.u64 id]⟩
  | .approvalBitmap id => ⟨"ApprovalBitmap", [.u64 id]⟩
  | .htlcLock id => ⟨"HtlcLock", [.u64 id]⟩
  | .signer walletId index => ⟨"Signer", [.u64 walletId, .u32 index]⟩
  | .metadata key => ⟨"Metadata", [.string key]⟩

inductive ProjectStatusV2 where
  | created | funded | inProgress | workSubmitted | verified | completed | disputed | cancelled
  deriving DecidableEq, Repr

def ProjectStatusV2.toU32 : ProjectStatusV2 → Nat
  | .created => 0
  | .funded => 1
  | .inProgress => 2
  | .workSubmitted => 3
  | .verified => 4
  | .completed => 5
  | .disputed => 6
  | .cancelled => 7

/-- No status where the source panics with an invalid one. -/
def ProjectStatusV2.fromU32 : Nat → Option ProjectStatusV2
  | 0 => some .created
  | 1 => some .funded
  | 2 => some .inProgress
  | 3 => some .workSubmitted
  | 4 => some .verified
  | 5 => some .completed
  | 6 => some .disputed
  | 7 => some .cancelled
  | _ => none

def projectFlagHasDeadline : Nat := 1

structure PackedProjectHeader where
  status : Nat
  flags : Nat
  createdAt : Nat
  deadline : Nat
  deriving DecidableEq, Repr

def PackedProjectHeader.new (status : ProjectStatusV2) (createdAt deadline : Nat) :
    PackedProjectHeader where
  status := status.toU32
  flags := if deadline > 0 then projectFlagHasDeadline else 0
  createdAt := createdAt
  deadline := deadline

def PackedProjectHeader.getStatus (header : PackedProjectHeader) : Option ProjectStatusV2 :=
  ProjectStatusV2.fromU32 header.status

def PackedProjectHeader.hasDeadline (header : PackedProjectHeader) : Bool :=
  header.flags &&& projectFlagHasDeadline ≠ 0

structure ProjectV2 where
  id : Nat
  client : Address
  freelancer : Address
  amount : Int
  deposited : Int
  header : PackedProjectHeader
  githubRepo : String
  description : String
  deriving DecidableEq, Repr

/-- The `match` of the migration on the old status. -/
def statusV2 : ProjectStatus → ProjectStatusV2
  | .created => .created
  | .funded => .funded
  | .inProgress => .inProgress
  | .workSubmitted => .workSubmitted
  | .verified => .verified
  | .completed => .completed
  | .disputed => .disputed
  | .cancelled => .cancelled

/-- A stored value. A struct is stored as the map of its fields, so that a record of
one layout is no record of the other; `ν` is every other stored type. -/
inductive Stored (ν : Type) where
  | project (p : Project)
  | projectV2 (p : ProjectV2)
  | other (value : ν)
  deriving DecidableEq, Repr

def Stored.asProject {ν : Type} : Stored ν → Option Project
  | .project p => some p
  | _ => none

structure Ledger (ν : Type) where
  persistent : KeyVal → Option (Stored ν)
  instances : KeyVal → Option (Stored ν)

abbrev World (ν : Type) := Soroban.World (Ledger ν) Empty

abbrev Entry (ν α : Type) := Contract (Ledger ν) Empty α

variable {ν : Type}

/-- `env.storage().persistent().set(..)`. -/
def setPersistent (key : KeyVal) (value : Stored ν) : Entry ν Unit :=
  write (fun l => { l with persistent := Function.update l.persistent key (some value) })

/-- `env.storage().persistent().remove(..)`. -/
def removePersistent (key : KeyVal) : Entry ν Unit :=
  write (fun l => { l with persistent := Function.update l.persistent key none })

def migrateProjectV1ToV2 (projectId : Nat) : Entry ν Unit := do
  let stored ← read (·.persistent (DataKey.project projectId).toVal)
  let value ← expect stored "Project not found"
  let old ← expect value.asProject "ConversionError"
  let new : ProjectV2 :=
    { id := old.id
      client := old.client
      freelancer := old.freelancer
      amount := old.amount
      deposited := old.deposited
      header := PackedProjectHeader.new (statusV2 old.status) old.createdAt old.deadline
      githubRepo := old.githubRepo
      description := old.description }
  setPersistent (StorageKey.project projectId).toVal (.projectV2 new)
  removePersistent (DataKey.project projectId).toVal

def migrateAll (count : Nat) : Entry ν Unit :=
  (List.range' 1 count).forM migrateProjectV1ToV2

/-! ## What the migration leaves -/

/-- The packed record of an old one. -/
def pack (old : Project) : ProjectV2 where
  id := old.id
  client := old.client
  freelancer := old.freelancer
  amount := old.amount
  deposited := old.deposited
  header := PackedProjectHeader.new (statusV2 old.status) old.createdAt old.deadline
  githubRepo := old.githubRepo
  description := old.description

def Stored.convert : Stored ν → Stored ν
  | .project p => .projectV2 (pack p)
  | value => value

/-- The packed record reads back as the old one, field by field. -/
structure Decodes (new : ProjectV2) (old : Project) : Prop where
  id : new.id = old.id
  client : new.client = old.client
  freelancer : new.freelancer = old.freelancer
  amount : new.amount = old.amount
  deposited : new.deposited = old.deposited
  status : new.header.getStatus = some (statusV2 old.status)
  createdAt : new.header.createdAt = old.createdAt
  deadline : new.header.deadline = old.deadline
  flagged : new.header.hasDeadline = decide (0 < old.deadline)
  githubRepo : new.githubRepo = old.githubRepo
  description : new.description = old.description

@[simp] theorem fromU32_toU32 (s : ProjectStatusV2) :
    ProjectStatusV2.fromU32 s.toU32 = some s := by
  cases s <;> rfl

theorem new_hasDeadline (s : ProjectStatusV2) (createdAt deadline : Nat) :
    (PackedProjectHeader.new s createdAt deadline).hasDeadline = decide (0 < deadline) := by
  by_cases h : 0 < deadline
  · simp [PackedProjectHeader.new, PackedProjectHeader.hasDeadline, projectFlagHasDeadline, h]
  · simp [PackedProjectHeader.new, PackedProjectHeader.hasDeadline, h]

/-- Packing loses nothing. -/
theorem pack_decodes (p : Project) : Decodes (pack p) p where
  id := rfl
  client := rfl
  freelancer := rfl
  amount := rfl
  deposited := rfl
  status := fromU32_toU32 _
  createdAt := rfl
  deadline := rfl
  flagged := new_hasDeadline _ _ _
  githubRepo := rfl
  description := rfl

/-- The two enums name a project by the same key. -/
theorem project_toVal (id : Nat) : (DataKey.project id).toVal = (StorageKey.project id).toVal :=
  rfl

theorem project_toVal_injective {i j : Nat}
    (h : (StorageKey.project i).toVal = (StorageKey.project j).toVal) : i = j := by
  simpa [StorageKey.toVal] using h

/-- The persistent entries after the projects `ids` were migrated. -/
def migrated (ids : List Nat) (store : KeyVal → Option (Stored ν)) : KeyVal → Option (Stored ν) :=
  Relocation.moveAll (fun id => (DataKey.project id).toVal)
    (fun id => (StorageKey.project id).toVal) Stored.convert ids store

def Ledger.migrate (l : Ledger ν) (ids : List Nat) : Ledger ν :=
  { l with persistent := migrated ids l.persistent }

section Runs

variable {env : Env} {w : World ν} {count : Nat} {ids : List Nat}

/-- The ledger holds the projects `ids` as records of the first layout. -/
def HoldsOld (l : Ledger ν) (ids : List Nat) : Prop :=
  ∀ id ∈ ids, ∃ p, l.persistent (DataKey.project id).toVal = some (.project p)

theorem migrateProject_returns {id : Nat} {p : Project}
    (hp : w.storage.persistent (DataKey.project id).toVal = some (.project p)) :
    migrateProjectV1ToV2 id env w =
      .ok ((), ⟨w.storage.migrate [id], w.events⟩) := by
  rw [project_toVal] at hp
  simp [migrateProjectV1ToV2, Stored.asProject, setPersistent, removePersistent, hp,
    Ledger.migrate, migrated,
    Relocation.moveAll, Relocation.move, Stored.convert, pack, project_toVal]

/-- Every project is there when its turn comes: the sweep returns. -/
theorem migrateEach_returns (hids : ids.Nodup) (hold : HoldsOld w.storage ids) :
    ids.forM migrateProjectV1ToV2 env w =
      .ok ((), ⟨w.storage.migrate ids, w.events⟩) := by
  induction ids generalizing w with
  | nil => rfl
  | cons id rest ih =>
    obtain ⟨hid, hrest⟩ := List.nodup_cons.mp hids
    obtain ⟨⟨p, hp⟩, holds⟩ := List.forall_mem_cons.mp hold
    have hkept : HoldsOld (w.storage.migrate [id]) rest := by
      intro j hj
      obtain ⟨q, hq⟩ := holds j hj
      have hne : j ≠ id := fun he => hid (he ▸ hj)
      have hkey : (DataKey.project j).toVal ≠ (DataKey.project id).toVal :=
        fun he => hne (project_toVal_injective he)
      refine ⟨q, ?_⟩
      have hother : migrated [id] w.storage.persistent (DataKey.project j).toVal =
          w.storage.persistent (DataKey.project j).toVal :=
        Relocation.moveAll_other _ (List.forall_mem_singleton.mpr ⟨hkey, hkey⟩)
      exact hother.trans hq
    have hrun : rest.forM migrateProjectV1ToV2 env ⟨w.storage.migrate [id], w.events⟩ =
        .ok ((), ⟨w.storage.migrate (id :: rest), w.events⟩) := ih hrest hkept
    change (migrateProjectV1ToV2 id >>= fun _ => rest.forM migrateProjectV1ToV2) env w = _
    exact bind_ok.mpr ⟨(), _, migrateProject_returns hp, hrun⟩

/-- Every project readable at its new key, with its old contents. -/
def ProjectsSurvive (count : Nat) (before after : Ledger ν) : Prop :=
  ∀ id, 1 ≤ id → id ≤ count → ∀ p,
    before.persistent (DataKey.project id).toVal = some (.project p) →
      ∃ v, after.persistent (StorageKey.project id).toVal = some (.projectV2 v) ∧ Decodes v p

/-- Every entry other than a project's is as it was. -/
def OthersKept (count : Nat) (before after : Ledger ν) : Prop :=
  after.instances = before.instances ∧
    ∀ key, (∀ id, 1 ≤ id → id ≤ count →
        key ≠ (DataKey.project id).toVal ∧ key ≠ (StorageKey.project id).toVal) →
      after.persistent key = before.persistent key

/-- The first `count` projects are stored in the first layout. -/
def InOldLayout (count : Nat) (l : Ledger ν) : Prop :=
  ∀ id, 1 ≤ id → id ≤ count → ∃ p, l.persistent (DataKey.project id).toVal = some (.project p)

theorem mem_ids {id : Nat} : id ∈ List.range' 1 count ↔ 1 ≤ id ∧ id ≤ count := by
  rw [List.mem_range'_1]
  omega

/-- The migration returns, and keeps every entry that is not a project's. -/
theorem migrateAll_returns (hold : InOldLayout count w.storage) :
    migrateAll count env w = .ok ((), ⟨w.storage.migrate (List.range' 1 count), w.events⟩) :=
  migrateEach_returns List.nodup_range' fun id hid =>
    hold id (mem_ids.mp hid).1 (mem_ids.mp hid).2

theorem migrated_others (store : KeyVal → Option (Stored ν)) {key : KeyVal}
    (h : ∀ id, 1 ≤ id → id ≤ count →
      key ≠ (DataKey.project id).toVal ∧ key ≠ (StorageKey.project id).toVal) :
    migrated (List.range' 1 count) store key = store key :=
  Relocation.moveAll_other _ fun id hid => h id (mem_ids.mp hid).1 (mem_ids.mp hid).2

/-- The erasure of the old key takes every project with it. -/
theorem migrated_erases (store : KeyVal → Option (Stored ν)) {id : Nat} (h1 : 1 ≤ id)
    (hc : id ≤ count) :
    migrated (List.range' 1 count) store (StorageKey.project id).toVal = none :=
  Relocation.moveAll_same _ (fun _ _ => project_toVal _) (.inr ⟨id, mem_ids.mpr ⟨h1, hc⟩, rfl⟩)

/-- The migration leaves the projects readable only where there is none. -/
theorem migrateAll_keeps_projects_iff (hold : InOldLayout count w.storage) :
    (∃ w', migrateAll count env w = .ok ((), w') ∧
      ProjectsSurvive count w.storage w'.storage ∧ OthersKept count w.storage w'.storage) ↔
    count = 0 := by
  constructor
  · rintro ⟨w', hrun, hsurvive, -⟩
    by_contra hpos
    have h1 : 1 ≤ count := Nat.one_le_iff_ne_zero.mpr hpos
    obtain ⟨p, hp⟩ := hold 1 le_rfl h1
    obtain ⟨v, hv, -⟩ := hsurvive 1 le_rfl h1 p hp
    rw [migrateAll_returns hold] at hrun
    cases hrun
    have hnone := migrated_erases w.storage.persistent le_rfl h1
    exact absurd (hnone.symm.trans hv) (by simp)
  · rintro rfl
    refine ⟨_, migrateAll_returns hold, ?_, rfl, fun key hkey => migrated_others _ hkey⟩
    intro id h1 h0
    omega

end Runs

/-- A ledger whose only entry is the disputed project 1. -/
def oneProject : World Empty where
  storage :=
    { persistent := fun key =>
        if key = (DataKey.project 1).toVal then
          some (.project
            { id := 1, client := ⟨2⟩, freelancer := ⟨3⟩, amount := 100, deposited := 110,
              status := .disputed, githubRepo := "repo", description := "site",
              createdAt := 7, deadline := 90 })
        else none
      instances := fun _ => none }
  events := []

theorem oneProject_inOldLayout : InOldLayout 1 oneProject.storage := by
  intro id h1 hc
  obtain rfl : id = 1 := by omega
  exact ⟨_, rfl⟩

theorem migrateAll_keeps_projects_iff_oneProject :
    (∃ w', migrateAll 1 { timestamp := 9, auths := [] } oneProject = .ok ((), w') ∧
      ProjectsSurvive 1 oneProject.storage w'.storage ∧
      OthersKept 1 oneProject.storage w'.storage) ↔ 1 = 0 :=
  migrateAll_keeps_projects_iff oneProject_inOldLayout

/-- The migration of one project returns, and the project is under neither key. -/
theorem migrated_project_is_lost :
    InOldLayout 1 oneProject.storage ∧
    (∃ w', migrateAll 1 { timestamp := 9, auths := [] } oneProject = .ok ((), w') ∧
      w'.storage.persistent (DataKey.project 1).toVal = none ∧
      w'.storage.persistent (StorageKey.project 1).toVal = none) ∧
    ¬ ∃ w', migrateAll 1 { timestamp := 9, auths := [] } oneProject = .ok ((), w') ∧
      ProjectsSurvive 1 oneProject.storage w'.storage ∧
      OthersKept 1 oneProject.storage w'.storage := by
  refine ⟨oneProject_inOldLayout, ⟨_, rfl, rfl, rfl⟩, ?_⟩
  rintro ⟨w', hrun, hsurvive, -⟩
  cases hrun
  obtain ⟨v, hv, -⟩ := hsurvive 1 le_rfl le_rfl _ rfl
  cases hv

end StorageMigration
