import AgenticPay.AuditChain
import AgenticPay.Separators
import Mathlib.Logic.Function.Basic

/-!
# What the hash chains show of a changed entry

A change that keeps the stored hashes of an entry is found exactly when it changes the text that is
hashed. In the audit service that text shows every part that it is made of when no other text than
the details has the separator in it. Some fields are no part of it.
-/
namespace AuditService

open Separators

/-! ## The parts of the hashed text -/

/-- The texts that are hashed as they were given. -/
def givenTexts (entry : AuditContent) : List String :=
  [entry.id, entry.userId.getD "", entry.action, entry.resource, entry.resourceId.getD "",
    entry.ipAddress.getD "", entry.requestMethod.getD "", entry.requestPath.getD ""]

def records (entry : AuditContent) : List (Option Record) :=
  [entry.details, entry.beforeState, entry.afterState]

/-- No given text has the separator in it, and all numbers are finite. -/
structure Plain (entry : AuditContent) : Prop where
  texts : ∀ text ∈ givenTexts entry, '|' ∉ text.toList
  records : ∀ record ∈ records entry, (Json.Value.object (record.getD [])).written.Finite

theorem reads_recordText {record record' : Option Record}
    (h : (Json.Value.object (record.getD [])).written.Finite)
    (h' : (Json.Value.object (record'.getD [])).written.Finite) :
    Reads '|' (recordText record) (recordText record') := by
  intro r r' heq
  rw [recordText, recordText, Json.Value.stringify, Json.Value.stringify, String.toList_ofList,
    String.toList_ofList] at heq
  have hends : ∀ r : List Char, Json.Value.Ends ('|' :: r) :=
    fun r => Json.Value.ends_cons (by decide)
  obtain ⟨hsame, hrest⟩ := Json.Value.readable h h' (hends r) (hends r') heq
  rw [recordText, recordText, Json.Value.stringify, Json.Value.stringify, hsame]
  exact ⟨rfl, (List.cons.inj hrest).2⟩

theorem outcome_text (outcome : Option AuditOutcome) :
    '|' ∉ ((outcome.map AuditOutcome.text).getD "").toList := by
  cases outcome with
  | none => decide
  | some outcome => cases outcome <;> decide

/-- The hashed text of a plain entry shows each of its parts. -/
theorem hashedParts_inj {a b : AuditContent} (ha : Plain a) (hb : Plain b)
    (hprevious : a.previousHash = b.previousHash) (h : hashedText a = hashedText b) :
    hashedParts a = hashedParts b := by
  obtain ⟨hatexts, harecords⟩ := ha
  obtain ⟨hbtexts, hbrecords⟩ := hb
  simp only [givenTexts, List.forall_mem_cons] at hatexts hbtexts
  simp only [records, List.forall_mem_cons] at harecords hbrecords
  obtain ⟨haid, hauser, haaction, haresource, haresourceId, haip, hamethod, hapath, -⟩ := hatexts
  obtain ⟨hbid, hbuser, hbaction, hbresource, hbresourceId, hbip, hbmethod, hbpath, -⟩ := hbtexts
  obtain ⟨hadetails, habefore, haafter, -⟩ := harecords
  obtain ⟨hbdetails, hbbefore, hbafter, -⟩ := hbrecords
  refine @intercalate_inj '|' _ _ ?_ h
  have hlast : Reads '|' a.previousHash b.previousHash := by
    rw [hprevious]
    exact fun r r' hr => ⟨rfl, (List.cons.inj (List.append_cancel_left hr)).2⟩
  exact .cons (reads_of_not_mem haid hbid) <|
    .cons (reads_of_not_mem (not_mem_toString _ (by decide)) (not_mem_toString _ (by decide))) <|
    .cons (reads_of_not_mem hauser hbuser) <| .cons (reads_of_not_mem haaction hbaction) <|
    .cons (reads_of_not_mem haresource hbresource) <|
    .cons (reads_of_not_mem haresourceId hbresourceId) <|
    .cons (reads_of_not_mem (outcome_text _) (outcome_text _)) <|
    .cons (reads_recordText hadetails hbdetails) <| .cons (reads_recordText habefore hbbefore) <|
    .cons (reads_recordText haafter hbafter) <| .cons (reads_of_not_mem haip hbip) <|
    .cons (reads_of_not_mem hamethod hbmethod) <| .cons (reads_of_not_mem hapath hbpath) <|
    .cons hlast .nil

/-! ## Changed entries -/

variable {host : ImmutableAudit.Host} {chainAnchor currentHash : String}
  {entries : List AuditEntry} {entry changed : AuditEntry} {i : Nat}

theorem map_set : (entries.set i changed).map (·.toLoggedEntry) =
    (entries.map (·.toLoggedEntry)).set i changed.toLoggedEntry := by
  rw [List.map_set]

/-- With the stored hashes kept, the check fails when the hashed text is another one. -/
theorem verifyIntegrity_changed {computeHash : String → String}
    (hinj : Function.Injective computeHash)
    (hvalid : (verifyIntegrity computeHash chainAnchor currentHash entries).valid = true)
    (hentry : entries[i]? = some entry) (hprevious : changed.previousHash = entry.previousHash)
    (hhash : changed.hash = entry.hash) :
    (verifyIntegrity computeHash chainAnchor currentHash (entries.set i changed)).valid = false ↔
      hashedText changed.toAuditContent ≠ hashedText entry.toAuditContent := by
  have hlogged : (entries.map (·.toLoggedEntry))[i]? = some entry.toLoggedEntry := by
    rw [List.getElem?_map, hentry, Option.map_some]
  have hset := HashChain.follow_set (links computeHash) changed.toLoggedEntry
    (verifyIntegrity_valid.mp hvalid) hlogged hprevious hhash
  have hdigest : (links computeHash).digest changed.toLoggedEntry =
      (links computeHash).digest entry.toLoggedEntry ↔
        hashedText changed.toAuditContent = hashedText entry.toAuditContent := hinj.eq_iff
  rw [← Bool.not_eq_true, verifyIntegrity_valid, map_set, hset]
  simp [hdigest]

/-- A change of a part of the hashed text of plain entries is found. -/
theorem part_changed {computeHash : String → String} (hinj : Function.Injective computeHash)
    (hvalid : (verifyIntegrity computeHash chainAnchor currentHash entries).valid = true)
    (hentry : entries[i]? = some entry) (hprevious : changed.previousHash = entry.previousHash)
    (hhash : changed.hash = entry.hash) (hplain : Plain entry.toAuditContent)
    (hplain' : Plain changed.toAuditContent)
    (h : hashedParts changed.toAuditContent ≠ hashedParts entry.toAuditContent) :
    (verifyIntegrity computeHash chainAnchor currentHash (entries.set i changed)).valid = false :=
  (verifyIntegrity_changed hinj hvalid hentry hprevious hhash).mpr
    fun hsame => h (hashedParts_inj hplain' hplain hprevious hsame)

end AuditService

namespace ImmutableAudit

variable {host : Host} {entries : List ImmutableAuditLogEntry}
  {entry changed : ImmutableAuditLogEntry} {i : Nat}

/-- With the stored hashes kept, the check fails when the hashed text is another one. -/
theorem verifyAuditChain_changed (hinj : Function.Injective host.sha256)
    (hvalid : (verifyAuditChain host entries).valid = true) (hentry : entries[i]? = some entry)
    (hprevious : changed.previousHash = entry.previousHash) (hhash : changed.hash = entry.hash) :
    (verifyAuditChain host (entries.set i changed)).valid = false ↔
      changed.text host ≠ entry.text host := by
  obtain ⟨head, hfollow⟩ := verifyAuditChain_valid.mp hvalid
  have hset := HashChain.follow_set (links host) changed hfollow hentry hprevious hhash
  have hdigest : (links host).digest changed = (links host).digest entry ↔
      changed.text host = entry.text host := hinj.eq_iff
  rw [← Bool.not_eq_true, verifyAuditChain_valid, hset]
  simp [hdigest]

end ImmutableAudit

namespace AuditTampering

open AuditService ImmutableAudit

/-- For both chains: of a change that keeps the stored hashes, the check fails exactly when it
changes the hashed text of its entry. -/
theorem changed_entry_found {host : ImmutableAudit.Host} (hinj : Function.Injective host.sha256) :
    (∀ (chainAnchor currentHash : String) (entries : List AuditEntry) (i : Nat)
        (entry changed : AuditEntry),
      (verifyIntegrity host.sha256 chainAnchor currentHash entries).valid = true →
        entries[i]? = some entry → changed.previousHash = entry.previousHash →
        changed.hash = entry.hash →
        ((verifyIntegrity host.sha256 chainAnchor currentHash (entries.set i changed)).valid =
            false ↔
          AuditService.hashedText changed.toAuditContent ≠
            AuditService.hashedText entry.toAuditContent)) ∧
      ∀ (entries : List ImmutableAuditLogEntry) (i : Nat) (entry changed : ImmutableAuditLogEntry),
        (verifyAuditChain host entries).valid = true → entries[i]? = some entry →
          changed.previousHash = entry.previousHash → changed.hash = entry.hash →
          ((verifyAuditChain host (entries.set i changed)).valid = false ↔
            changed.text host ≠ entry.text host) :=
  ⟨fun _ _ _ _ _ _ hvalid hentry hprevious hhash =>
      verifyIntegrity_changed hinj hvalid hentry hprevious hhash,
    fun _ _ _ _ hvalid hentry hprevious hhash =>
      verifyAuditChain_changed hinj hvalid hentry hprevious hhash⟩

/-! ## Changes that are found, and changes that are not -/

/-- A hash that is the text itself, and texts compared by their code units. -/
def plainHost : ImmutableAudit.Host := ⟨fun text => text, fun a b => if a ≤ b then -1 else 1⟩

def loginContent (action userAgent : String) : AuditContent :=
  ⟨"id", 0, none, action, "session", none, none, none, none, none, none, some userAgent, none,
    none, none, none, "anchor"⟩

/-- An entry of the audit service, with the hash that it had when it was logged. -/
def loginEntry (action userAgent : String) : AuditEntry :=
  let hash := AuditService.hashedText (loginContent "login" "browser")
  ⟨⟨loginContent action userAgent, hash⟩, none, none⟩

/-- An entry of the immutable log, with the hash that it had when it was logged. -/
def paymentEntry (actor action : String) : ImmutableAuditLogEntry :=
  ⟨"id", "2026-01-01T00:00:00.000Z", actor, action, "payment", [], AUDIT_GENESIS_HASH,
    ImmutableAudit.hashedText plainHost AUDIT_GENESIS_HASH "2026-01-01T00:00:00.000Z" "ann" "edits"
      "payment" []⟩

def loginHead : String := (loginEntry "login" "browser").hash

/-- Another action is found in both chains. -/
theorem other_action_found :
    (verifyIntegrity plainHost.sha256 "anchor" loginHead
        ([loginEntry "login" "browser"].set 0 (loginEntry "logout" "browser"))).valid = false ∧
      (verifyAuditChain plainHost
        ([paymentEntry "ann" "edits"].set 0 (paymentEntry "ann" "deletes"))).valid = false := by
  obtain ⟨hservice, hlog⟩ := @changed_entry_found plainHost fun _ _ h => h
  have hlogout := hservice "anchor" loginHead [loginEntry "login" "browser"] 0
    (loginEntry "login" "browser") (loginEntry "logout" "browser") (by decide +kernel) rfl rfl rfl
  have hdeletes := hlog [paymentEntry "ann" "edits"] 0 (paymentEntry "ann" "edits")
    (paymentEntry "ann" "deletes") (by decide +kernel) rfl rfl rfl
  exact ⟨hlogout.mpr (by decide +kernel), hdeletes.mpr (by decide +kernel)⟩

/-- Another user agent, and letters that go from the actor to the action, are not found. -/
theorem shifted_actor_missed :
    ((loginEntry "login" "program").userAgent ≠ (loginEntry "login" "browser").userAgent ∧
        (verifyIntegrity plainHost.sha256 "anchor" loginHead
          [loginEntry "login" "browser"]).valid = true ∧
        (verifyIntegrity plainHost.sha256 "anchor" loginHead
          ([loginEntry "login" "browser"].set 0 (loginEntry "login" "program"))).valid = true) ∧
      (paymentEntry "anned" "its").actor ≠ (paymentEntry "ann" "edits").actor ∧
        (verifyAuditChain plainHost [paymentEntry "ann" "edits"]).valid = true ∧
        (verifyAuditChain plainHost
          ([paymentEntry "ann" "edits"].set 0 (paymentEntry "anned" "its"))).valid = true := by
  decide +kernel

end AuditTampering
