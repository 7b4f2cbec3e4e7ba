import AgenticPay.Awaits
import AgenticPay.Records
import Mathlib.Logic.Function.Basic

/-!
# Rotation of refresh tokens

Every call of the database or of Redis is one step, and between two steps of a call any other calls
go on. A row is found by the hash of its token. Redis may fail to answer at any step. Left out are
access tokens, the audit log and lists of sessions. Beside the rows is kept what each family was
issued with.
-/
namespace TokenRotation

open Records Awaits

inductive RevokeReason where
  | rotated
  | expired
  | familyRevoked
  | manualRevocation
  | signOutAll
  deriving DecidableEq, Repr

structure RefreshToken where
  id : String
  tokenHash : String
  familyId : String
  userId : String
  tenantId : String
  absoluteExpiresAt : Int
  slidingExpiresAt : Int
  lastUsedAt : Int
  revoked : Bool
  revokeReason : Option RevokeReason
  deriving DecidableEq, Repr

structure TokenRotationConfig where
  absoluteTtlMs : Nat
  slidingTtlMs : Nat

def DEFAULT_CONFIG : TokenRotationConfig :=
  ⟨30 * 24 * 60 * 60 * 1000, 7 * 24 * 60 * 60 * 1000⟩

/-- What a family is issued with, and when. -/
structure Family where
  familyId : String
  userId : String
  tenantId : String
  issuedAt : Int
  absoluteExpiresAt : Int

/-- The rows, the families that Redis holds as revoked with the time at which it forgets them, the
clock, and beside them the families that were issued. -/
structure State where
  rows : Table RefreshToken.id
  blacklist : String → Option Int
  clock : Int
  families : Table Family.familyId

/-- What a turn is told: the time since the turn before, whether Redis answers, the id that the
database gives to a new row, and random values. -/
structure Told where
  elapsed : Nat
  redis : Bool
  id : String
  secret : String
  familyId : String

inductive Call where
  | issueTokenFamily (userId tenantId : String) (config : TokenRotationConfig)
  | rotateRefreshToken (rawToken : String) (config : TokenRotationConfig)
  | revokeToken (rawToken : String)
  | revokeAllUserTokens (userId tenantId : String)
  | pruneExpiredTokens

/-- How a call goes on when a family is revoked. -/
inductive After where
  | rotation
  | signOut (userId tenantId : String) (families : List String)

/-- What a call waits for. -/
inductive Task where
  | creating (family : Family) (rawRefresh : String) (slidingExpiresAt : Int)
  | finding (rawToken : String) (now : Int) (config : TokenRotationConfig)
  | checking (existing : RefreshToken) (now : Int) (config : TokenRotationConfig)
  | counting (existing : RefreshToken) (now : Int) (config : TokenRotationConfig)
  | expiring (existing : RefreshToken)
  | rotating (existing : RefreshToken) (rawNew : String) (now : Int)
      (config : TokenRotationConfig)
  | blacklisting (familyId : String) (after : After)
  | revokingFamily (familyId : String) (after : After)
  | seeking (rawToken : String)
  | revoking (tokenHash : String)
  | listing (userId tenantId : String)
  | updatingAll (userId tenantId : String)
  | pruning (now : Int)

inductive Reason where
  | notFound
  | expired
  | familyCompromised
  deriving DecidableEq, Repr

inductive Response where
  | issued (refreshToken : String) (refreshTokenExpiresAt : Int)
  | rotated (refreshToken : String) (refreshTokenExpiresAt : Int)
  | refused (reason : Reason)
  | revoked (found : Bool)
  | count (n : Nat)
  | threw

/-! ## The database and Redis -/

abbrev Rows := Table RefreshToken.id

def RefreshToken.revoke (reason : RevokeReason) (row : RefreshToken) : RefreshToken :=
  { row with revoked := true, revokeReason := some reason }

/-- Ids and hashes are unique: a row that repeats one is not created. -/
def create (row : RefreshToken) (rows : Rows) : Option Rows :=
  if rows.records.any fun r => r.id = row.id || r.tokenHash = row.tokenHash then none
  else some (rows.set row)

/-- An update of one row throws where the row is gone. -/
def update (target : Option RefreshToken) (reason : RevokeReason) (rows : Rows) : Option Rows :=
  target.map fun row => rows.set (row.revoke reason)

def updateMany (p : RefreshToken → Bool) (reason : RevokeReason) (rows : Rows) : Rows :=
  rows.map (fun row => if p row then row.revoke reason else row) fun row => by
    cases h : p row <;> simp [RefreshToken.revoke]

def deleteMany (p : RefreshToken → Bool) (rows : Rows) : Rows :=
  ⟨rows.records.filter (!p ·), rows.nodup.sublist (List.filter_sublist.map _)⟩

def findUnique (tokenHash : String) (rows : Rows) : Option RefreshToken :=
  rows.records.find? (·.tokenHash = tokenHash)

def ofFamily (familyId : String) (row : RefreshToken) : Bool :=
  row.familyId = familyId && !row.revoked

def ofUser (userId tenantId : String) (row : RefreshToken) : Bool :=
  row.userId = userId && row.tenantId = tenantId && !row.revoked

def isExpired (now : Int) (row : RefreshToken) : Bool :=
  row.absoluteExpiresAt < now || row.slidingExpiresAt < now

/-- The seconds for which Redis keeps a family. -/
def absoluteTtlSec : Nat := (DEFAULT_CONFIG.absoluteTtlMs + 999) / 1000

def State.tick (elapsed : Nat) (s : State) : State := { s with clock := s.clock + elapsed }

def State.blacklisted (s : State) (familyId : String) : Bool :=
  match s.blacklist familyId with
  | none => false
  | some expiry => s.clock < expiry

/-! ## The calls -/

variable (hashToken : String → String)

/-- A call up to its first wait. A random family id is one that was not drawn before. -/
def call (c : Call) (told : Told) (before : State) : Option (Turn Task Response × State) :=
  let s := before.tick told.elapsed
  match c with
  | .issueTokenFamily userId tenantId config =>
    if (s.families.get told.familyId).isSome then none
    else
      let family : Family :=
        ⟨told.familyId, userId, tenantId, s.clock, s.clock + config.absoluteTtlMs⟩
      some (.waits (.creating family told.secret (s.clock + config.slidingTtlMs)),
        { s with families := s.families.set family })
  | .rotateRefreshToken rawToken config => some (.waits (.finding rawToken s.clock config), s)
  | .revokeToken rawToken => some (.waits (.seeking rawToken), s)
  | .revokeAllUserTokens userId tenantId => some (.waits (.listing userId tenantId), s)
  | .pruneExpiredTokens => some (.waits (.pruning s.clock), s)

/-- The first token of a family. -/
def firstToken (family : Family) (id rawRefresh : String) (slidingExpiresAt : Int) :
    RefreshToken :=
  { id, tokenHash := hashToken rawRefresh, familyId := family.familyId, userId := family.userId
    tenantId := family.tenantId, absoluteExpiresAt := family.absoluteExpiresAt, slidingExpiresAt
    lastUsedAt := family.issuedAt, revoked := false, revokeReason := none }

/-- The token that takes the place of another one. -/
def nextToken (existing : RefreshToken) (id rawNew : String) (now slidingExpiresAt : Int) :
    RefreshToken :=
  { existing with
    id, tokenHash := hashToken rawNew, slidingExpiresAt, lastUsedAt := now
    revoked := false, revokeReason := none }

/-- A token has been looked up. One that is revoked was used before. -/
def found (now : Int) (config : TokenRotationConfig) : Option RefreshToken → Turn Task Response
  | none => .done (.refused .notFound)
  | some existing =>
    if existing.revoked then .waits (.blacklisting existing.familyId .rotation)
    else .waits (.checking existing now config)

/-- The family is not known to be revoked. -/
def unrevoked (existing : RefreshToken) (now : Int) (config : TokenRotationConfig)
    (secret : String) : Turn Task Response :=
  if isExpired now existing then .waits (.expiring existing)
  else .waits (.rotating existing secret now config)

/-- The transaction that creates the next token and revokes the one that was used. -/
def rotate (existing : RefreshToken) (rawNew : String) (now : Int)
    (config : TokenRotationConfig) (id : String) (rows : Rows) : Option Rows :=
  (create (nextToken hashToken existing id rawNew now (now + config.slidingTtlMs)) rows).bind
    fun rows => update (rows.get existing.id) .rotated rows

/-- `revokeFamily` is over. -/
def afterwards : After → Turn Task Response
  | .rotation => .done (.refused .familyCompromised)
  | .signOut userId tenantId [] => .waits (.updatingAll userId tenantId)
  | .signOut userId tenantId (familyId :: rest) =>
    .waits (.blacklisting familyId (.signOut userId tenantId rest))

/-- A step that writes the rows or throws. -/
def written (response : Response) (s : State) : Option Rows → Turn Task Response × State
  | none => (.done .threw, s)
  | some rows => (.done response, { s with rows })

def resume (task : Task) (told : Told) (before : State) : Turn Task Response × State :=
  let s := before.tick told.elapsed
  match task with
  | .creating family rawRefresh slidingExpiresAt =>
    written (.issued rawRefresh slidingExpiresAt) s
      (create (firstToken hashToken family told.id rawRefresh slidingExpiresAt) s.rows)
  | .finding rawToken now config => (found now config (findUnique (hashToken rawToken) s.rows), s)
  | .checking existing now config =>
    if told.redis then
      if s.blacklisted existing.familyId then (.done (.refused .familyCompromised), s)
      else (unrevoked existing now config told.secret, s)
    else (.waits (.counting existing now config), s)
  | .counting existing now config =>
    if s.rows.records.any fun row => row.familyId = existing.familyId &&
        row.revokeReason = some .familyRevoked && row.revoked then
      (.done (.refused .familyCompromised), s)
    else (unrevoked existing now config told.secret, s)
  | .expiring existing =>
    written (.refused .expired) s (update (s.rows.get existing.id) .expired s.rows)
  | .rotating existing rawNew now config =>
    written (.rotated rawNew (now + config.slidingTtlMs)) s
      (rotate hashToken existing rawNew now config told.id s.rows)
  | .blacklisting familyId after =>
    (.waits (.revokingFamily familyId after), if told.redis then { s with
      blacklist := Function.update s.blacklist familyId (some (s.clock + 1000 * absoluteTtlSec)) }
    else s)
  | .revokingFamily familyId after =>
    (afterwards after,
      { s with rows := updateMany (ofFamily familyId) .familyRevoked s.rows })
  | .seeking rawToken =>
    match findUnique (hashToken rawToken) s.rows with
    | none => (.done (.revoked false), s)
    | some token =>
      if token.revoked then (.done (.revoked false), s) else (.waits (.revoking token.tokenHash), s)
  | .revoking tokenHash =>
    written (.revoked true) s (update (findUnique tokenHash s.rows) .manualRevocation s.rows)
  | .listing userId tenantId =>
    (afterwards (.signOut userId tenantId
      ((s.rows.records.filter (ofUser userId tenantId)).map RefreshToken.familyId).dedup), s)
  | .updatingAll userId tenantId =>
    (.done (.count (s.rows.records.countP (ofUser userId tenantId))),
      { s with rows := updateMany (ofUser userId tenantId) .signOutAll s.rows })
  | .pruning now =>
    (.done (.count (s.rows.records.countP (isExpired now))),
      { s with rows := deleteMany (isExpired now) s.rows })

def program : Program Call Told State Task Response := ⟨call, resume hashToken⟩

def machine := Awaits.machine (program hashToken)

abbrev Service := Config State Task

def empty : Service :=
  ⟨{ rows := ∅, blacklist := fun _ => none, clock := 0, families := ∅ }, []⟩

end TokenRotation
