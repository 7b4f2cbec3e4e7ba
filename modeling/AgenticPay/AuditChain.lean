import AgenticPay.HashChain
import AgenticPay.Json

/-!
# The chain of the immutable audit log

An entry is hashed over the hash before it and its texts, one after the other, and a chain is
checked from the genesis hash on. SHA-256 and how the host compares texts by its language are
parameters. Left out is the alert that is sent when a chain is broken.
-/
namespace ImmutableAudit

abbrev Record := List (String × Json.Value)

def AUDIT_GENESIS_HASH : String := String.ofList (List.replicate 64 '0')

structure ImmutableAuditLogEntry where
  id : String
  timestamp : String
  actor : String
  action : String
  resource : String
  details : Record
  previousHash : String
  hash : String

structure Host where
  sha256 : String → String
  localeCompare : String → String → Int

/-! ## Hashes -/

/-- The index that a key is, which comes before all other keys of an object. -/
def arrayIndex (key : String) : Option Nat :=
  key.toNat?.filter fun n => toString n = key && n < 4294967295

/-- The members in the order that an object made from them has. -/
def fromEntries (members : Record) : Record :=
  (members.filter (arrayIndex ·.1 |>.isSome)).insertionSort
      (fun a b => (arrayIndex a.1).getD 0 ≤ (arrayIndex b.1).getD 0) ++
    members.filter (arrayIndex ·.1 |>.isNone)

variable (host : Host)

def sortMembers (members : Record) : Record :=
  fromEntries (members.insertionSort fun a b => host.localeCompare a.1 b.1 ≤ 0)

def sortJson (value : Json.Value) : Json.Value := value.arrange (sortMembers host)

def canonicalizeDetails (details : Record) : String := (sortJson host (.object details)).stringify

/-- What is hashed of an entry. -/
def hashedText (previousHash timestamp actor action resource : String) (details : Record) :
    String :=
  previousHash ++ timestamp ++ actor ++ action ++ resource ++ canonicalizeDetails host details

def computeAuditHash (previousHash timestamp actor action resource : String) (details : Record) :
    String :=
  host.sha256 (hashedText host previousHash timestamp actor action resource details)

def ImmutableAuditLogEntry.text (entry : ImmutableAuditLogEntry) : String :=
  hashedText host entry.previousHash entry.timestamp entry.actor entry.action entry.resource
    entry.details

/-! ## The chain -/

structure AuditIntegrityResult where
  valid : Bool
  checked : Nat
  brokenAt : Option String
  expectedPreviousHash : Option String
  expectedHash : Option String
  actualHash : Option String

/-- The loop over the entries, from the hash that is expected next. -/
def verifyFrom (checked : Nat) (previousHash : String) :
    List ImmutableAuditLogEntry → AuditIntegrityResult
  | [] => ⟨true, checked, none, none, none, none⟩
  | entry :: rest =>
    if entry.previousHash ≠ previousHash then
      ⟨false, checked, some entry.id, some previousHash, none, some entry.previousHash⟩
    else
      let expectedHash := computeAuditHash host entry.previousHash entry.timestamp entry.actor
        entry.action entry.resource entry.details
      if expectedHash ≠ entry.hash then
        ⟨false, checked, some entry.id, none, some expectedHash, some entry.hash⟩
      else verifyFrom (checked + 1) entry.hash rest

def verifyAuditChain (entries : List ImmutableAuditLogEntry) : AuditIntegrityResult :=
  verifyFrom host 0 AUDIT_GENESIS_HASH entries

def links : HashChain.Links ImmutableAuditLogEntry String where
  previous entry := entry.previousHash
  hash entry := entry.hash
  digest entry := host.sha256 (entry.text host)

variable {host} {entries : List ImmutableAuditLogEntry} {checked : Nat} {previousHash : String}

theorem verifyFrom_valid : (verifyFrom host checked previousHash entries).valid = true ↔
    ∃ head, HashChain.follow (links host) previousHash entries = some head := by
  induction entries generalizing checked previousHash with
  | nil => exact iff_of_true rfl ⟨previousHash, rfl⟩
  | cons entry rest ih =>
    simp only [HashChain.follow_cons, exists_and_left]
    rw [verifyFrom]
    split
    next hne => exact iff_of_false Bool.false_ne_true fun h => hne h.1.1
    next hprevious =>
      dsimp only
      split
      next hne => exact iff_of_false Bool.false_ne_true fun h => hne h.1.2
      next hhash =>
        exact ih.trans (and_iff_right ⟨not_not.mp hprevious, not_not.mp hhash⟩).symm

/-- The check passes when the chain leads from the genesis hash to some head. -/
theorem verifyAuditChain_valid : (verifyAuditChain host entries).valid = true ↔
    ∃ head, HashChain.follow (links host) AUDIT_GENESIS_HASH entries = some head :=
  verifyFrom_valid

end ImmutableAudit

/-!
## Entries of the audit service

An entry is hashed together with the hash of the one before it, and the service checks the chain
from its anchor to its head. How SHA-256 and how untrusted texts and details are made safe are
parameters of which nothing is assumed.
-/
namespace AuditService

inductive AuditOutcome where
  | success
  | failure
  deriving DecidableEq

abbrev Record := List (String × Json.Value)

/-- An entry without its hash, as it is recorded. -/
structure AuditContent where
  id : String
  timestamp : Int
  userId : Option String
  action : String
  resource : String
  resourceId : Option String
  outcome : Option AuditOutcome
  details : Option Record
  beforeState : Option Record
  afterState : Option Record
  ipAddress : Option String
  userAgent : Option String
  requestMethod : Option String
  requestPath : Option String
  requestBody : Option Json.Value
  responseStatus : Option Int
  previousHash : String

structure LoggedEntry extends AuditContent where
  hash : String

structure AuditEntry extends LoggedEntry where
  suspicious : Option Bool
  flags : Option (List String)

/-! ## Hashes -/

def AuditOutcome.text : AuditOutcome → String
  | .success => "success"
  | .failure => "failure"

def recordText (record : Option Record) : String := (Json.Value.object (record.getD [])).stringify

/-- The data of an entry's hash, before they are joined. -/
def hashedParts (entry : AuditContent) : List String :=
  [entry.id,
    toString entry.timestamp,
    entry.userId.getD "",
    entry.action,
    entry.resource,
    entry.resourceId.getD "",
    (entry.outcome.map AuditOutcome.text).getD "",
    recordText entry.details,
    recordText entry.beforeState,
    recordText entry.afterState,
    entry.ipAddress.getD "",
    entry.requestMethod.getD "",
    entry.requestPath.getD "",
    entry.previousHash]

def hashedText (entry : AuditContent) : String := "|".intercalate (hashedParts entry)

variable (computeHash : String → String)

def generateEntryHash (entry : AuditContent) : String := computeHash (hashedText entry)

/-! ## The chain -/

structure Integrity where
  valid : Bool
  brokenAt : Option String
  deriving DecidableEq

/-- The loop over the entries, from the hash that is expected next. -/
def verifyFrom (currentHash : String) (last : Option String) (expectedHash : String) :
    List AuditEntry → Integrity
  | [] => if currentHash ≠ expectedHash then ⟨false, last⟩ else ⟨true, none⟩
  | entry :: rest =>
    if entry.previousHash ≠ expectedHash then ⟨false, some entry.id⟩
    else if generateEntryHash computeHash entry.toAuditContent ≠ entry.hash then
      ⟨false, some entry.id⟩
    else verifyFrom currentHash last entry.hash rest

def verifyIntegrity (chainAnchor currentHash : String) (entries : List AuditEntry) : Integrity :=
  verifyFrom computeHash currentHash (entries.getLast?.map (·.id)) chainAnchor entries

def links : HashChain.Links LoggedEntry String where
  previous entry := entry.previousHash
  hash entry := entry.hash
  digest entry := generateEntryHash computeHash entry.toAuditContent

variable {computeHash} {currentHash expectedHash chainAnchor : String} {last : Option String}
  {entries : List AuditEntry}

theorem verifyFrom_valid : (verifyFrom computeHash currentHash last expectedHash entries).valid =
    true ↔ HashChain.follow (links computeHash) expectedHash (entries.map (·.toLoggedEntry)) =
      some currentHash := by
  induction entries generalizing expectedHash with
  | nil =>
    rw [verifyFrom, List.map_nil, HashChain.follow_nil, Option.some_inj]
    split
    next hne => exact iff_of_false Bool.false_ne_true (Ne.symm hne)
    next heq => exact iff_of_true rfl (not_not.mp heq).symm
  | cons entry rest ih =>
    rw [verifyFrom, List.map_cons, HashChain.follow_cons]
    split
    next hne => exact iff_of_false Bool.false_ne_true fun h => hne h.1.1
    next hprevious =>
      split
      next hne => exact iff_of_false Bool.false_ne_true fun h => hne h.1.2
      next hhash =>
        exact ih.trans (and_iff_right ⟨not_not.mp hprevious, not_not.mp hhash⟩).symm

/-- The check passes when the chain leads from the anchor to the head. -/
theorem verifyIntegrity_valid :
    (verifyIntegrity computeHash chainAnchor currentHash entries).valid = true ↔
      HashChain.follow (links computeHash) chainAnchor (entries.map (·.toLoggedEntry)) =
        some currentHash :=
  verifyFrom_valid

end AuditService
