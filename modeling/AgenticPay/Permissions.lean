import AgenticPay.Ancestry
import AgenticPay.Records
import AgenticPay.Transaction

/-!
# Custom roles

A custom role lists permissions and may inherit those of another one. Times are milliseconds.
Left out is the audit log, which no call reads.
-/
namespace Permissions

open Records Transaction

abbrev RoleId := String
abbrev Action := String

structure Permission where
  resource : String
  actions : List Action
  deriving DecidableEq

structure CustomRole where
  id : RoleId
  name : String
  description : String
  permissions : List Permission
  tenantId : String
  createdBy : String
  inheritsFrom : Option RoleId
  createdAt : Int
  updatedAt : Int
  deriving DecidableEq

structure CreateRoleInput where
  name : String
  description : String
  permissions : List Permission
  tenantId : String
  createdBy : String
  inheritsFrom : Option RoleId

structure RoleUpdates where
  description : Option String
  permissions : Option (List Permission)
  inheritsFrom : Option RoleId

structure State where
  customRoles : Table CustomRole.id

def start : State := ⟨∅⟩

/-- The time of a call, and the identifier that `uid` makes. -/
structure Told where
  now : Int
  uid : RoleId

inductive Call where
  | createRole (input : CreateRoleInput)
  | updateRole (roleId : RoleId) (updates : RoleUpdates)
  | deleteRole (roleId : RoleId)

inductive Response where
  | role (role : CustomRole)
  | deleted (found : Bool)
  deriving DecidableEq

/-- A call that is none, as its identifier is not new, or one that never returns. -/
inductive Stuck where
  | notNew
  | endless
  deriving DecidableEq

/-- No role has the identifier, and nothing mentions it. -/
def Fresh (told : Told) (inheritsFrom : Option RoleId) (s : State) : Prop :=
  told.uid ≠ "" ∧ s.customRoles.get told.uid = none ∧ inheritsFrom ≠ some told.uid ∧
    ∀ role ∈ s.customRoles.records, role.inheritsFrom ≠ some told.uid

instance (told : Told) (inheritsFrom : Option RoleId) (s : State) :
    Decidable (Fresh told inheritsFrom s) := inferInstanceAs (Decidable (_ ∧ _))

abbrev Returned := Except String Response × State

def createRole (told : Told) (input : CreateRoleInput) (s : State) : Returned :=
  let role : CustomRole := {
    id := told.uid
    name := input.name
    description := input.description
    permissions := input.permissions
    tenantId := input.tenantId
    createdBy := input.createdBy
    inheritsFrom := input.inheritsFrom
    createdAt := told.now
    updatedAt := told.now }
  (.ok (.role role), ⟨s.customRoles.set role⟩)

/-- The role that a role inherits from, and the empty text if there is none. -/
def inherits (role : Option CustomRole) : RoleId := (role.bind (·.inheritsFrom)).getD ""

/-- The role is met on the way up from another one, if the way ends in so many steps. -/
def circular (roleId : RoleId) (s : State) : Nat → RoleId → Option Bool
  | 0, _ => none
  | steps + 1, current =>
    if current = "" then some false
    else if current = roleId then some true
    else circular roleId s steps (inherits (s.customRoles.get current))

/-- More steps than there are roles. -/
def enough (s : State) : Nat := s.customRoles.records.length + 2

/-- The check of an update for a circle. -/
def checkCircular (roleId : RoleId) (inheritsFrom : Option RoleId) (s : State) : Option Bool :=
  match inheritsFrom with
  | none => some false
  | some parentId => circular roleId s (enough s) parentId

def updated (now : Int) (updates : RoleUpdates) (role : CustomRole) : CustomRole :=
  { role with
    description := updates.description.getD role.description
    permissions := updates.permissions.getD role.permissions
    inheritsFrom := updates.inheritsFrom.or role.inheritsFrom
    updatedAt := now }

def updateRole (told : Told) (roleId : RoleId) (updates : RoleUpdates) (s : State) :
    Except Stuck Returned :=
  match s.customRoles.get roleId with
  | none => .ok (.error ("Role not found: " ++ roleId), s)
  | some role =>
    match checkCircular roleId updates.inheritsFrom s with
    | none => .error .endless
    | some true => .ok (.error "Circular role inheritance detected", s)
    | some false =>
      let role := updated told.now updates role
      .ok (.ok (.role role), ⟨s.customRoles.set role⟩)

def deleteRole (roleId : RoleId) (s : State) : Returned :=
  (.ok (.deleted (s.customRoles.get roleId).isSome), ⟨s.customRoles.remove roleId⟩)

/-- One call. An identifier that is not new is no call. -/
def service : System (Call × Told) State Stuck (Except String Response)
  | (.createRole input, told), s =>
    if Fresh told input.inheritsFrom s then .ok (createRole told input s) else .error .notNew
  | (.updateRole roleId updates, told), s => updateRole told roleId updates s
  | (.deleteRole roleId, _), s => .ok (deleteRole roleId s)

/-! ## The permissions of a role -/

def addAction (actions : List Action) (action : Action) : List Action :=
  if action ∈ actions then actions else actions ++ [action]

/-- The actions on a resource that have been found so far. -/
def actionsOn (perms : Table Permission.resource) (resource : String) : List Action :=
  ((perms.get resource).map (·.actions)).getD []

def addPermission (perms : Table Permission.resource) (p : Permission) :
    Table Permission.resource :=
  perms.set ⟨p.resource, p.actions.foldl addAction (actionsOn perms p.resource)⟩

def addPerms (perms : Table Permission.resource) (role : CustomRole) :
    Table Permission.resource :=
  role.permissions.foldl addPermission perms

/-- What is found on the way up, if it ends in so many steps. -/
def walkUp (s : State) : Nat → Option RoleId → Table Permission.resource →
    Option (Table Permission.resource)
  | 0, _, _ => none
  | steps + 1, parentId, perms =>
    match parentId.filter (· ≠ "") with
    | none => some perms
    | some id =>
      match s.customRoles.get id with
      | none => some perms
      | some parent => walkUp s steps parent.inheritsFrom (addPerms perms parent)

def resolveRolePermissions (s : State) (steps : Nat) (roleId : RoleId) :
    Option (List Permission) :=
  match s.customRoles.get roleId with
  | none => some []
  | some role => (walkUp s steps role.inheritsFrom (addPerms ∅ role)).map (·.records)

end Permissions
