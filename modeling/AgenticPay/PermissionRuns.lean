import AgenticPay.Permissions

/-!
# Runs of custom roles

No role inherits from itself, directly or through others, so every walk up ends, and a role grants
what it or a role above it lists.
-/
namespace Permissions

open Ancestry Records Relation Transaction

/-- The role that an identifier's role names as its parent, whether it exists or not. -/
def parentOf (s : State) (id : RoleId) : Option RoleId :=
  ((s.customRoles.get id).bind (·.inheritsFrom)).filter (· ≠ "")

/-- One role inherits from another, and both exist. -/
def Inherits (s : State) (id parentId : RoleId) : Prop :=
  ∃ role ∈ s.customRoles.get id, role.inheritsFrom = some parentId ∧
    (s.customRoles.get parentId).isSome = true

def Lists (permissions : List Permission) (resource : String) (action : Action) : Prop :=
  ∃ p ∈ permissions, p.resource = resource ∧ action ∈ p.actions

/-- A role of the state lists the action on the resource. -/
def RoleLists (s : State) (resource : String) (action : Action) (id : RoleId) : Prop :=
  ∃ role ∈ s.customRoles.get id, Lists role.permissions resource action

/-- Every way up ends, and no role has the empty text as its identifier. -/
structure Hierarchy (s : State) : Prop where
  rooted : Rooted (parentOf s)
  named : s.customRoles.get "" = none

variable {s s' : State} {c : Call × Told} {told : Told} {role : CustomRole} {id roleId : RoleId}
  {resource : String} {action : Action} {perms : Table Permission.resource} {p : Permission}

/-! ## Steps -/

theorem parentOf_eq_some {parentId : RoleId} :
    parentOf s id = some parentId ↔ ∃ role ∈ s.customRoles.get id,
      role.inheritsFrom = some parentId ∧ parentId ≠ "" := by
  rw [parentOf, Option.filter_eq_some_iff, Option.bind_eq_some_iff, decide_eq_true_eq]
  constructor
  · rintro ⟨⟨role, hget, hparent⟩, hne⟩
    exact ⟨role, hget, hparent, hne⟩
  · rintro ⟨role, hget, hparent, hne⟩
    exact ⟨⟨role, hget, hparent⟩, hne⟩

/-- A role that is set changes one parent. -/
theorem parentOf_set (role : CustomRole) :
    parentOf ⟨s.customRoles.set role⟩ =
      Function.update (parentOf s) role.id (role.inheritsFrom.filter (· ≠ "")) := by
  funext id
  rw [parentOf]
  by_cases he : id = role.id
  · rw [he, Function.update_self, Table.get_set_self, Option.bind_some]
  · rw [Function.update_of_ne he, Table.get_set_ne he, parentOf]

theorem parentOf_remove (s : State) (roleId : RoleId) :
    parentOf ⟨s.customRoles.remove roleId⟩ = Function.update (parentOf s) roleId none := by
  funext id
  rw [parentOf, Table.get_remove]
  by_cases he : id = roleId
  · rw [he, Function.update_self, if_pos rfl]
    rfl
  · rw [Function.update_of_ne he, if_neg he, parentOf]

theorem Hierarchy.set (h : Hierarchy s) (hid : role.id ≠ "")
    (hnext : ∀ parentId ∈ role.inheritsFrom.filter (· ≠ ""),
      ¬ Above (parentOf s) parentId role.id) :
    Hierarchy ⟨s.customRoles.set role⟩ where
  rooted := by
    rw [parentOf_set]
    exact h.rooted.update hnext
  named := (Table.get_set_ne hid.symm).trans h.named

/-- What nobody mentions is above nothing else. -/
theorem Fresh.not_above {inheritsFrom : Option RoleId} (h : Fresh told inheritsFrom s)
    {parentId : RoleId} (hne : parentId ≠ told.uid) :
    ¬ Above (parentOf s) parentId told.uid := by
  intro hreach
  obtain he | ⟨below, -, hbelow⟩ := hreach.cases_tail
  · exact hne he.symm
  · obtain ⟨role, hget, hparent, -⟩ := parentOf_eq_some.mp hbelow
    exact h.2.2.2 role (Table.get_some hget).1 hparent

/-- The walk of an update finds out whether it would make a circle. -/
theorem circular_lineage {steps : Nat} {passed : List RoleId}
    (h : lineage (parentOf s) steps id = some passed) (hid : id ≠ "") :
    circular roleId s (steps + 1) id = some (decide (roleId ∈ passed)) := by
  induction steps generalizing id passed with
  | zero => cases h
  | succ steps ih =>
    rw [circular, if_neg hid]
    by_cases he : id = roleId
    · have hmem : roleId ∈ passed := (lineage_mem h).mpr (he ▸ .refl)
      rw [if_pos he, decide_eq_true hmem]
    · rw [lineage] at h
      rw [if_neg he]
      cases hparent : parentOf s id with
      | none =>
        rw [hparent] at h
        cases h
        have hend : inherits (s.customRoles.get id) = "" := by
          rw [parentOf, Option.filter_eq_none_iff] at hparent
          rw [inherits]
          cases hget : (s.customRoles.get id).bind (·.inheritsFrom) with
          | none => rfl
          | some parentId => simpa using hparent parentId hget
        have hnot : roleId ∉ [id] := fun hmem => he (List.mem_singleton.mp hmem).symm
        rw [hend, circular, if_pos rfl, decide_eq_false hnot]
      | some parentId =>
        rw [hparent] at h
        obtain ⟨rest, hrest, rfl⟩ := Option.map_eq_some_iff.mp h
        obtain ⟨role, hget, hinherits, hne⟩ := parentOf_eq_some.mp hparent
        have hnext : inherits (s.customRoles.get id) = parentId := by
          rw [inherits, hget, Option.bind_some, hinherits, Option.getD_some]
        rw [hnext, ih hrest hne]
        simp [Ne.symm he]

theorem lineage_enough (h : Hierarchy s) (id : RoleId) :
    ∃ passed, lineage (parentOf s) (s.customRoles.records.length + 1) id = some passed := by
  rw [← List.length_map CustomRole.id]
  apply lineage_ends h.rooted
  intro id parentId hparent
  obtain ⟨role, hget, -⟩ := parentOf_eq_some.mp hparent
  exact Table.key_mem_of_get hget

/-- The check answers whether the role is on the way up from its new parent. -/
theorem checkCircular_eq (h : Hierarchy s) (roleId : RoleId) (inheritsFrom : Option RoleId) :
    ∃ answer, checkCircular roleId inheritsFrom s = some answer ∧
      (answer = false → ∀ parentId ∈ inheritsFrom.filter (· ≠ ""),
        ¬ Above (parentOf s) parentId roleId) := by
  cases inheritsFrom with
  | none => exact ⟨false, rfl, fun _ parentId hmem => by cases hmem⟩
  | some parentId =>
    by_cases hne : parentId = ""
    · refine ⟨false, ?_, ?_⟩
      · rw [checkCircular, hne]
        rfl
      · rw [hne]
        exact fun _ parentId hmem => by cases hmem
    · obtain ⟨passed, hpassed⟩ := lineage_enough h parentId
      refine ⟨_, circular_lineage hpassed hne, fun hanswer parentId' hmem => ?_⟩
      obtain ⟨he, -⟩ := Option.filter_eq_some_iff.mp hmem
      rw [← Option.some.inj he, ← lineage_mem hpassed]
      exact of_decide_eq_false hanswer

theorem updateRole_returns (h : Hierarchy s) (told : Told) (roleId : RoleId)
    (updates : RoleUpdates) :
    ∃ r s', updateRole told roleId updates s = .ok (r, s') ∧ Hierarchy s' := by
  rw [updateRole]
  cases hget : s.customRoles.get roleId with
  | none => exact ⟨_, s, rfl, h⟩
  | some role =>
    obtain ⟨answer, hcheck, hfar⟩ := checkCircular_eq h roleId updates.inheritsFrom
    dsimp only
    rw [hcheck]
    cases answer with
    | true => exact ⟨_, s, rfl, h⟩
    | false =>
      refine ⟨_, _, rfl, ?_⟩
      have hid : role.id = roleId := Table.key_of_get hget
      have hne : roleId ≠ "" := by
        intro he
        rw [he, h.named] at hget
        cases hget
      apply Hierarchy.set h
      · exact hid ▸ hne
      · intro parentId hmem
        show ¬ Above (parentOf s) parentId role.id
        rw [hid]
        obtain ⟨hparent, hparentne⟩ := Option.filter_eq_some_iff.mp hmem
        rw [updated, Option.or_eq_some_iff] at hparent
        obtain hnew | ⟨-, hold⟩ := hparent
        · exact hfar rfl parentId (Option.filter_eq_some_iff.mpr ⟨hnew, hparentne⟩)
        · intro hreach
          have hup : parentOf s roleId = some parentId :=
            parentOf_eq_some.mpr ⟨role, hget, hold, of_decide_eq_true hparentne⟩
          exact h.rooted.acyclic roleId (TransGen.head' hup hreach)

/-- Every call returns, and no call makes a circle. -/
theorem hierarchy_call (h : Hierarchy s) (c : Call × Told) :
    service c s ≠ .error .endless ∧ Hierarchy (commit service s c) := by
  obtain ⟨call, told⟩ := c
  cases call with
  | createRole input =>
    by_cases hfresh : Fresh told input.inheritsFrom s
    · rw [commit, service, if_pos hfresh]
      refine ⟨fun he => (by cases he), ?_⟩
      apply Hierarchy.set h hfresh.1
      intro parentId hmem
      obtain ⟨hparent, -⟩ := Option.filter_eq_some_iff.mp hmem
      exact hfresh.not_above fun he => hfresh.2.2.1 (he ▸ hparent)
    · rw [commit, service, if_neg hfresh]
      exact ⟨fun he => (by cases he), h⟩
  | updateRole roleId updates =>
    obtain ⟨r, s', hreturns, hs'⟩ := updateRole_returns h told roleId updates
    rw [commit, service, hreturns]
    exact ⟨fun he => (by cases he), hs'⟩
  | deleteRole roleId =>
    refine ⟨fun he => (by cases he), ?_⟩
    show Hierarchy ⟨s.customRoles.remove roleId⟩
    constructor
    · rw [parentOf_remove]
      exact h.rooted.update fun parentId hmem => by cases hmem
    · rw [Table.get_remove, h.named, ite_self]

/-! ## What a role grants -/

theorem addAction_mem {actions : List Action} {a : Action} :
    action ∈ addAction actions a ↔ action ∈ actions ∨ action = a := by
  rw [addAction]
  split
  next hmem =>
    constructor
    · exact .inl
    · rintro (hold | rfl)
      · exact hold
      · exact hmem
  next => rw [List.mem_append, List.mem_singleton]

theorem addActions_mem {actions more : List Action} :
    action ∈ more.foldl addAction actions ↔ action ∈ actions ∨ action ∈ more := by
  induction more generalizing actions with
  | nil => simp
  | cons a rest ih => rw [List.foldl_cons, ih, addAction_mem, List.mem_cons, or_assoc]

theorem lists_records :
    Lists perms.records resource action ↔ action ∈ actionsOn perms resource := by
  rw [actionsOn]
  constructor
  · rintro ⟨p, hp, rfl, haction⟩
    rw [Table.get_of_mem hp]
    exact haction
  · intro haction
    cases hget : perms.get resource with
    | none =>
      rw [hget] at haction
      cases haction
    | some p =>
      rw [hget] at haction
      obtain ⟨hmem, hresource⟩ := Table.get_some hget
      exact ⟨p, hmem, hresource, haction⟩

theorem addPermission_lists :
    Lists (addPermission perms p).records resource action ↔
      Lists perms.records resource action ∨ p.resource = resource ∧ action ∈ p.actions := by
  rw [lists_records, lists_records, actionsOn, addPermission, Table.get_set]
  by_cases he : resource = p.resource
  · rw [if_pos he, Option.map_some, Option.getD_some, addActions_mem, he]
    simp
  · rw [if_neg he, ← actionsOn]
    constructor
    · exact .inl
    · rintro (hold | ⟨heq, -⟩)
      · exact hold
      · exact absurd heq.symm he

theorem addPerms_lists :
    Lists (addPerms perms role).records resource action ↔
      Lists perms.records resource action ∨ Lists role.permissions resource action := by
  rw [addPerms]
  generalize role.permissions = permissions
  induction permissions generalizing perms with
  | nil => simp [Lists]
  | cons p rest ih =>
    rw [List.foldl_cons, ih, addPermission_lists, or_assoc]
    simp [Lists]

theorem walkUp_end {steps : Nat} {parentId : Option RoleId}
    (h : parentId.filter (· ≠ "") = none) : walkUp s (steps + 1) parentId perms = some perms := by
  rw [walkUp, h]

theorem walkUp_missing {steps : Nat} (h : s.customRoles.get id = none) :
    walkUp s (steps + 1) (some id) perms = some perms := by
  rw [walkUp]
  cases hfilter : (some id).filter (· ≠ "") with
  | none => rfl
  | some id' =>
    obtain ⟨he, -⟩ := Option.filter_eq_some_iff.mp hfilter
    rw [← Option.some.inj he]
    dsimp only
    rw [h]

theorem walkUp_found {steps : Nat} (hid : id ≠ "") (h : s.customRoles.get id = some role) :
    walkUp s (steps + 1) (some id) perms =
      walkUp s steps role.inheritsFrom (addPerms perms role) := by
  have hfilter : (some id).filter (· ≠ "") = some id :=
    Option.filter_eq_some_iff.mpr ⟨rfl, decide_eq_true hid⟩
  rw [walkUp, hfilter]
  dsimp only
  rw [h]

theorem roleLists_iff (h : s.customRoles.get id = some role) :
    RoleLists s resource action id ↔ Lists role.permissions resource action := by
  simp [RoleLists, h]

/-- The walk up finds what the roles on its way list. -/
theorem walkUp_lineage (perms : Table Permission.resource) {steps : Nat} {passed : List RoleId}
    (h : lineage (parentOf s) steps id = some passed) (hid : id ≠ "") :
    ∃ found, walkUp s (steps + 1) (some id) perms = some found ∧ ∀ resource action,
      (Lists found.records resource action ↔ Lists perms.records resource action ∨
        ∃ above ∈ passed, RoleLists s resource action above) := by
  induction steps generalizing id passed perms with
  | zero => cases h
  | succ steps ih =>
    rw [lineage] at h
    cases hget : s.customRoles.get id with
    | none =>
      have hparent : parentOf s id = none := by
        rw [parentOf, hget]
        rfl
      rw [hparent] at h
      cases h
      refine ⟨perms, walkUp_missing hget, fun resource action => ?_⟩
      simp [RoleLists, hget]
    | some role =>
      rw [walkUp_found hid hget]
      cases hparent : parentOf s id with
      | none =>
        rw [hparent] at h
        cases h
        have hend : role.inheritsFrom.filter (· ≠ "") = none := by
          rw [parentOf, hget] at hparent
          exact hparent
        refine ⟨addPerms perms role, walkUp_end hend, fun resource action => ?_⟩
        rw [addPerms_lists]
        simp [roleLists_iff hget]
      | some parentId =>
        rw [hparent] at h
        obtain ⟨rest, hrest, rfl⟩ := Option.map_eq_some_iff.mp h
        obtain ⟨role', hget', hinherits, hne⟩ := parentOf_eq_some.mp hparent
        obtain rfl := Option.some.inj (hget.symm.trans hget')
        rw [hinherits]
        obtain ⟨found, hfound, hlists⟩ := ih (addPerms perms role) hrest hne
        refine ⟨found, hfound, fun resource action => ?_⟩
        rw [hlists, addPerms_lists, or_assoc]
        simp [roleLists_iff hget]

/-- The existing roles above an existing role are those that it inherits from. -/
theorem above_iff_inherits (h : Hierarchy s) {above : RoleId}
    (habove : (s.customRoles.get above).isSome = true) :
    Above (parentOf s) id above ↔ ReflTransGen (Inherits s) id above := by
  constructor
  · intro hreach
    induction hreach using ReflTransGen.head_induction_on with
    | refl => exact .refl
    | head hstep hrest ih =>
      obtain ⟨role, hget, hparent, -⟩ := parentOf_eq_some.mp hstep
      refine .head ⟨role, hget, hparent, ?_⟩ ih
      obtain he | ⟨next, hnext, -⟩ := hrest.cases_head
      · exact he ▸ habove
      · obtain ⟨parent, hparent, -⟩ := parentOf_eq_some.mp hnext
        exact Option.isSome_iff_exists.mpr ⟨parent, hparent⟩
  · intro hreach
    refine ReflTransGen.mono (fun below parentId hinherits => ?_) id above hreach
    obtain ⟨role, hget, hparent, hexists⟩ := hinherits
    refine parentOf_eq_some.mpr ⟨role, hget, hparent, fun he => ?_⟩
    rw [he, h.named] at hexists
    cases hexists

/-- A role grants what it or a role above it lists. -/
theorem resolve_grants (h : Hierarchy s) (roleId : RoleId) :
    ∃ granted, resolveRolePermissions s (enough s) roleId = some granted ∧
      ∀ resource action, (Lists granted resource action ↔
        ∃ above, Above (parentOf s) roleId above ∧ RoleLists s resource action above) := by
  rw [resolveRolePermissions]
  cases hget : s.customRoles.get roleId with
  | none =>
    refine ⟨[], rfl, fun resource action => ⟨fun ⟨p, hp, _⟩ => absurd hp List.not_mem_nil, ?_⟩⟩
    rintro ⟨above, hreach, role, habove, -⟩
    obtain rfl | ⟨parentId, hparent, -⟩ := hreach.cases_head
    · rw [hget] at habove
      cases habove
    · obtain ⟨role, hrole, -⟩ := parentOf_eq_some.mp hparent
      rw [hget] at hrole
      cases hrole
  | some role =>
    have hown (resource : String) (action : Action) :
        Lists (addPerms ∅ role).records resource action ↔
          Lists role.permissions resource action := by
      rw [addPerms_lists]
      exact or_iff_right fun ⟨p, hp, _⟩ => absurd hp (Table.not_mem_empty p)
    dsimp only
    cases hparent : parentOf s roleId with
    | none =>
      have hend : role.inheritsFrom.filter (· ≠ "") = none := by
        rw [parentOf, hget] at hparent
        exact hparent
      rw [enough, walkUp_end hend]
      refine ⟨_, rfl, fun resource action => (hown resource action).trans ?_⟩
      rw [← roleLists_iff hget]
      constructor
      · exact fun hlists => ⟨roleId, .refl, hlists⟩
      · rintro ⟨above, hreach, hlists⟩
        obtain rfl | ⟨parentId, hup, -⟩ := hreach.cases_head
        · exact hlists
        · rw [hparent] at hup
          cases hup
    | some parentId =>
      obtain ⟨role', hget', hinherits, hne⟩ := parentOf_eq_some.mp hparent
      obtain rfl := Option.some.inj (hget.symm.trans hget')
      obtain ⟨passed, hpassed⟩ := lineage_enough h parentId
      obtain ⟨found, hfound, hlists⟩ := walkUp_lineage (addPerms ∅ role) hpassed hne
      rw [hinherits, enough, hfound]
      refine ⟨_, rfl, fun resource action => (hlists resource action).trans ?_⟩
      rw [hown, ← roleLists_iff hget]
      constructor
      · rintro (hself | ⟨above, hmem, habove⟩)
        · exact ⟨roleId, .refl, hself⟩
        · exact ⟨above, .head hparent ((lineage_mem hpassed).mp hmem), habove⟩
      · rintro ⟨above, hreach, habove⟩
        obtain rfl | ⟨next, hup, hreach⟩ := hreach.cases_head
        · exact .inl habove
        · obtain rfl := Option.some.inj (hparent.symm.trans hup)
          exact .inr ⟨above, (lineage_mem hpassed).mpr hreach, habove⟩

/-! ## Runs -/

theorem start_hierarchy : Hierarchy start where
  rooted := fun _ => ⟨_, fun _ h => by cases h⟩
  named := rfl

theorem circular_ends (h : Hierarchy s) (roleId current : RoleId) :
    ∃ answer, circular roleId s (enough s) current = some answer := by
  by_cases hne : current = ""
  · exact ⟨false, by rw [enough, circular, if_pos hne]⟩
  · obtain ⟨passed, hpassed⟩ := lineage_enough h current
    exact ⟨_, circular_lineage hpassed hne⟩

theorem inherits_acyclic (h : Hierarchy s) (id : RoleId) : ¬ TransGen (Inherits s) id id := by
  intro hcycle
  obtain ⟨next, hnext, hback⟩ := TransGen.head'_iff.mp hcycle
  obtain ⟨role, hget, hparent, hexists⟩ := hnext
  have hid : (s.customRoles.get id).isSome = true := Option.isSome_iff_exists.mpr ⟨role, hget⟩
  have hne : next ≠ "" := by
    intro he
    rw [he, h.named] at hexists
    cases hexists
  have hup : parentOf s id = some next := parentOf_eq_some.mpr ⟨role, hget, hparent, hne⟩
  exact h.rooted.acyclic id (TransGen.head' hup ((above_iff_inherits h hid).mpr hback))

/-- No role inherits from itself, directly or through others. Every call returns, both walks up
end, and a role grants what it or an existing role that it inherits from lists. -/
structure Resolved (s : State) : Prop where
  acyclic : ∀ id, ¬ TransGen (Inherits s) id id
  returns : ∀ c, service c s ≠ .error .endless
  checked : ∀ roleId current, ∃ answer, circular roleId s (enough s) current = some answer
  grants : ∀ roleId, ∃ granted, resolveRolePermissions s (enough s) roleId = some granted ∧
    ∀ resource action, (Lists granted resource action ↔
      ∃ above, ReflTransGen (Inherits s) roleId above ∧ RoleLists s resource action above)

theorem Hierarchy.resolved (h : Hierarchy s) : Resolved s where
  acyclic := inherits_acyclic h
  returns := fun c => (hierarchy_call h c).1
  checked := circular_ends h
  grants := by
    intro roleId
    obtain ⟨granted, hgranted, hlists⟩ := resolve_grants h roleId
    refine ⟨granted, hgranted, fun resource action => (hlists resource action).trans ?_⟩
    refine exists_congr fun above => and_congr_left fun hrole => ?_
    obtain ⟨role, hget, -⟩ := hrole
    exact above_iff_inherits h (Option.isSome_iff_exists.mpr ⟨role, hget⟩)

/-- Every state that calls lead to has a sensible hierarchy. -/
theorem roles_run (cs : List (Call × Told)) : Resolved (run service start cs) := by
  have hrun : Hierarchy (run service start cs) :=
    run_preserves (I := Hierarchy) (fun _ c h => (hierarchy_call h c).2) start_hierarchy cs
  exact hrun.resolved

/-- A role inherits the permissions of the role of its role, and the update that closes the circle
is rejected. -/
example :
    let role (inheritsFrom : Option RoleId) (actions : List Action) : CreateRoleInput :=
      ⟨"role", "", [⟨"payments", actions⟩], "tenant", "admin", inheritsFrom⟩
    let s := run service start [(.createRole (role none ["read"]), ⟨0, "a"⟩),
      (.createRole (role (some "a") ["write"]), ⟨1, "b"⟩),
      (.createRole (role (some "b") ["read", "refund"]), ⟨2, "c"⟩),
      (.updateRole "a" ⟨none, none, some "c"⟩, ⟨3, ""⟩)]
    resolveRolePermissions s (enough s) "c" =
      some [⟨"payments", ["read", "refund", "write"]⟩] := by
  decide +kernel

end Permissions
