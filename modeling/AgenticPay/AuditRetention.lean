import AgenticPay.AuditChain
import AgenticPay.Awaits
import Mathlib.Algebra.Order.Field.Rat

/-!
# Logging, flagging and retention of audit entries

An entry is added before anything is waited for. Archiving reads the entries, waits while an archive
is written, and then evicts what it has not read as hot. Ages are compared in exact arithmetic, and
the time that archiving goes by is the clock's. Left out are what the alerter is told, and what a
manifest says beside its name.
-/
namespace AuditService

open Awaits

structure RetentionPolicy where
  archiveAfterDays : ℚ
  deleteAfterDays : ℚ

inductive RetentionTier where
  | hot
  | archive
  | purge
  deriving DecidableEq

def dayMs : Int := 24 * 60 * 60 * 1000

def classifyAge (timestamp now : Int) (policy : RetentionPolicy) : RetentionTier :=
  let ageDays : ℚ := ((now - timestamp : Int) : ℚ) / dayMs
  if policy.deleteAfterDays ≤ ageDays then .purge
  else if policy.archiveAfterDays ≤ ageDays then .archive
  else .hot

/-- The entries that were read, by their tiers. -/
structure RetentionPlan where
  hot : List LoggedEntry
  archive : List LoggedEntry
  purge : List LoggedEntry

def tier (policy : RetentionPolicy) (now : Int) (entries : List LoggedEntry)
    (tier : RetentionTier) : List LoggedEntry :=
  entries.filter (classifyAge ·.timestamp now policy = tier)

def planRetention (policy : RetentionPolicy) (now : Int) (entries : List LoggedEntry) :
    RetentionPlan :=
  ⟨tier policy now entries .hot, tier policy now entries .archive, tier policy now entries .purge⟩

/-- The file with the entries of an archive. -/
structure Archive where
  id : String
  entries : List LoggedEntry

/-- The entries with their anchor and their head, and the files of the archive directory. Beside
them the clock, all that was ever logged, and what was past the deletion age when it was dropped. -/
structure State where
  entries : List AuditEntry
  currentHash : String
  chainAnchor : String
  payloads : List Archive
  manifests : List String
  clock : Int
  logged : List LoggedEntry
  purged : List LoggedEntry

structure LogParams where
  userId : Option String
  action : String
  resource : String
  resourceId : Option String
  outcome : Option AuditOutcome
  details : Option Record
  beforeState : Option Record
  afterState : Option Record
  ipAddress : Option String
  userAgent : Option String
  method : Option String
  path : Option String
  body : Option Json.Value
  status : Option Int

inductive Call where
  | logAction (params : LogParams)
  | flagSuspicious (entryId : String) (reasons : List String)
  | clearOldEntries
  | archiveOldEntries

structure RetentionEnforcementResult where
  archived : Nat
  purged : Nat
  hot : Nat
  archiveIds : List String

/-- What is waited for: the alerter, each step of the writing of an archive, its end, and the list
of archives. -/
inductive Waiting where
  | alerting (entry : LoggedEntry)
  | makingDirectory (plan : RetentionPlan)
  | writingPayload (plan : RetentionPlan) (archive : Archive)
  | writingManifest (plan : RetentionPlan) (archive : Archive)
  | enforced (plan : RetentionPlan) (archiveIds : List String)
  | listing (result : RetentionEnforcementResult)

inductive Response where
  | entry (entry : Option LoggedEntry)
  | cleared (count : Nat)
  | archived (result : RetentionEnforcementResult)

/-- The time since the turn before, the identifier for a new entry, and whether what was waited for
has failed. -/
structure Told where
  elapsed : Nat
  uuid : String
  fails : Bool

abbrev Ends := Turn Waiting (Except Unit Response) × State

/-- The hash function, and how texts, details and bodies are made safe. -/
structure Host where
  computeHash : String → String
  sanitizeAuditText : String → Nat → String
  sanitizeAuditDetails : Option Record → Option Record
  sanitizeRequestBody : Option Json.Value → Option Json.Value

structure AuditServiceOptions where
  policy : RetentionPolicy
  alertingEnabled : Bool

variable (host : Host) (options : AuditServiceOptions)

/-! ## Logging and flagging -/

/-- An empty text is none. -/
def sanitized (text : Option String) (maxLength : Nat) : Option String :=
  (text.filter (· ≠ "")).map (host.sanitizeAuditText · maxLength)

def outcomeOf (params : LogParams) : Option AuditOutcome :=
  params.outcome <|> params.status.map fun status => if 400 ≤ status then .failure else .success

def newContent (params : LogParams) (id : String) (s : State) : AuditContent where
  id
  timestamp := s.clock
  userId := sanitized host params.userId 256
  action := host.sanitizeAuditText params.action 128
  resource := host.sanitizeAuditText params.resource 128
  resourceId := sanitized host params.resourceId 256
  outcome := outcomeOf params
  details := host.sanitizeAuditDetails params.details
  beforeState := host.sanitizeAuditDetails params.beforeState
  afterState := host.sanitizeAuditDetails params.afterState
  ipAddress := sanitized host params.ipAddress 64
  userAgent := sanitized host params.userAgent 512
  requestMethod := sanitized host params.method 16
  requestPath := sanitized host params.path 2048
  requestBody := host.sanitizeRequestBody params.body
  responseStatus := params.status
  previousHash := s.currentHash

/-- The alerter is told when alerting is enabled, and never makes a call fail. -/
def alerted (entry : LoggedEntry) (s : State) : Ends :=
  if options.alertingEnabled then (.waits (.alerting entry), s)
  else (.done (.ok (.entry (some entry))), s)

def logAction (params : LogParams) (id : String) (s : State) : Ends :=
  let content := newContent host params id s
  let entry : LoggedEntry := ⟨content, generateEntryHash host.computeHash content⟩
  alerted options entry { s with
    entries := s.entries ++ [⟨entry, none, none⟩]
    currentHash := entry.hash
    logged := s.logged ++ [entry] }

/-- The first entry with the identifier is flagged in its place. -/
def flagFirst (entryId : String) (reasons : List String) : List AuditEntry → List AuditEntry
  | [] => []
  | entry :: rest =>
    if entry.id = entryId then { entry with suspicious := some true, flags := some reasons } :: rest
    else entry :: flagFirst entryId reasons rest

def flagSuspicious (entryId : String) (reasons : List String) (s : State) : Ends :=
  match s.entries.find? (·.id = entryId) with
  | none => (.done (.ok (.entry none)), s)
  | some entry =>
    alerted options entry.toLoggedEntry
      { s with entries := flagFirst entryId reasons s.entries }

/-! ## Retention -/

def advanceChainAnchor (evicted : List AuditEntry) (s : State) : State :=
  if evicted.isEmpty then s
  else { s with chainAnchor := (s.entries.head?.map (·.previousHash)).getD s.currentHash }

def pastDeletion (policy : RetentionPolicy) (now : Int) (entry : LoggedEntry) : Bool :=
  classifyAge entry.timestamp now policy = .purge

/-- All entries that are not kept are dropped. -/
def evict (policy : RetentionPolicy) (kept : AuditEntry → Bool) (s : State) : State :=
  let evicted := s.entries.filter (! kept ·)
  advanceChainAnchor evicted { s with
    entries := s.entries.filter kept
    purged := s.purged ++
      (evicted.map (·.toLoggedEntry)).filter (pastDeletion policy s.clock) }

def clearOldEntries (s : State) : Ends :=
  let cutoff : ℚ := s.clock - options.policy.deleteAfterDays * dayMs
  let toDelete := s.entries.filter fun entry => decide ((entry.timestamp : ℚ) < cutoff)
  (.done (.ok (.cleared toDelete.length)),
    evict options.policy (fun entry => decide (cutoff ≤ (entry.timestamp : ℚ))) s)

def archiveOldEntries (s : State) : Ends :=
  let plan := planRetention options.policy s.clock (s.entries.map (·.toLoggedEntry))
  if plan.archive.isEmpty then (.waits (.enforced plan []), s)
  else (.waits (.makingDirectory plan), s)

/-- The archive in the order of its entries, under the name of the time that it covers. -/
def newArchive (entries : List LoggedEntry) : Archive :=
  let ordered := entries.mergeSort fun a b => a.timestamp ≤ b.timestamp
  match ordered.head?, ordered.getLast? with
  | some first, some last =>
    let name := String.ofList (first.hash.toList.take 8)
    ⟨s!"audit-{first.timestamp}-{last.timestamp}-{name}", ordered⟩
  | _, _ => ⟨"", ordered⟩

/-- What was read as hot stays; all other entries go. -/
def evictUnread (plan : RetentionPlan) (archiveIds : List String) (s : State) : Ends :=
  (.waits (.listing ⟨plan.archive.length, plan.purge.length, plan.hot.length, archiveIds⟩),
    evict options.policy (fun entry => plan.hot.any (·.id = entry.id)) s)

/-! ## Turns -/

def State.tick (told : Told) (s : State) : State := { s with clock := s.clock + told.elapsed }

def call (c : Call) (told : Told) (s : State) : Ends :=
  match c with
  | .logAction params => logAction host options params told.uuid s
  | .flagSuspicious entryId reasons => flagSuspicious options entryId reasons s
  | .clearOldEntries => clearOldEntries options s
  | .archiveOldEntries => archiveOldEntries options s

/-- A file that is there already is not written over. -/
def resume (task : Waiting) (told : Told) (s : State) : Ends :=
  match task with
  | .alerting entry => (.done (.ok (.entry (some entry))), s)
  | .makingDirectory plan =>
    if told.fails then (.done (.error ()), s)
    else (.waits (.writingPayload plan (newArchive plan.archive)), s)
  | .writingPayload plan archive =>
    if told.fails || s.payloads.any (·.id = archive.id) then (.done (.error ()), s)
    else (.waits (.writingManifest plan archive), { s with payloads := s.payloads ++ [archive] })
  | .writingManifest plan archive =>
    if told.fails || s.manifests.contains archive.id then (.done (.error ()), s)
    else (.waits (.enforced plan [archive.id]), { s with manifests := s.manifests ++ [archive.id] })
  | .enforced plan archiveIds => evictUnread options plan archiveIds s
  | .listing result =>
    if told.fails then (.done (.error ()), s) else (.done (.ok (.archived result)), s)

/-- A call is told an identifier that no entry had before. -/
def service : Program Call Told State Waiting (Except Unit Response) where
  call c told s :=
    if s.logged.any (·.id = told.uuid) then none else some (call host options c told (s.tick told))
  resume task told s := resume options task told (s.tick told)

end AuditService
