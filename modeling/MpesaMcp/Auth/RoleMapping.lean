import MpesaMcp.App.Config

/-!
# OIDC group-to-platform-role mapping

`OIDCRoleMapper` maps the groups of a token to roles. Its dictionary is built role by role, so a group
configured for several roles keeps the last of them.
-/

set_option autoImplicit false

namespace MpesaMcp

open Python

inductive OperatorRole
  | viewer
  | approver
  | admin
deriving DecidableEq, Repr

namespace OperatorRole

/-- `ROLE_ORDER`. -/
def order : List OperatorRole := [.viewer, .approver, .admin]

/-- `ROLE_INHERITANCE`. -/
def inheritance : OperatorRole → List OperatorRole
  | .viewer => [.viewer]
  | .approver => [.viewer, .approver]
  | .admin => [.viewer, .approver, .admin]

/-- `ROLE_LEVELS`. -/
def level : OperatorRole → Nat
  | .viewer => 1
  | .approver => 2
  | .admin => 3

theorem mem_order (role : OperatorRole) : role ∈ order := by
  cases role <;> decide

/-- A role inherits the roles of its level and below. -/
theorem mem_inheritance {role inherited : OperatorRole} :
    inherited ∈ role.inheritance ↔ inherited.level ≤ role.level := by
  cases role <;> cases inherited <;> decide

end OperatorRole

/-- Result of mapping OIDC groups into platform roles. -/
structure RoleMappingResult where
  roles : List OperatorRole := []
  matchedGroups : List String := []
  unknownGroups : List String := []

/-- `_normalize_groups`. -/
def normalizeGroups (groups : List String) : List String :=
  (groups.filter fun group => decide (stripText group ≠ "")).map stripText

theorem mem_normalizeGroups {groups : List String} {name : String} :
    name ∈ normalizeGroups groups ↔ name ≠ "" ∧ ∃ group ∈ groups, stripText group = name := by
  constructor
  · intro h
    obtain ⟨group, hgroup, rfl⟩ := List.mem_map.mp h
    obtain ⟨hmem, hblank⟩ := List.mem_filter.mp hgroup
    exact ⟨of_decide_eq_true hblank, group, hmem, rfl⟩
  · rintro ⟨hblank, group, hmem, rfl⟩
    exact List.mem_map_of_mem (List.mem_filter.mpr ⟨hmem, decide_eq_true hblank⟩)

/-- Map OIDC group claims into platform RBAC roles. -/
structure OIDCRoleMapper where
  groupRoleMap : String → Option OperatorRole := fun _ => none

namespace OIDCRoleMapper

/-- `_parse_csv`: the members of the set. -/
def parseCsv (value : String) : List String := normalizeGroups (splitCommas value)

/-- `_add_group_mappings`. -/
def addGroupMappings (groups : List String) (role : OperatorRole) (self : OIDCRoleMapper) :
    OIDCRoleMapper where
  groupRoleMap := groups.foldl (fun map group => Function.update map group (some role))
    self.groupRoleMap

/-- `OIDCRoleMapper(viewer_groups, approver_groups, admin_groups)`. -/
def ofGroups (viewerGroups approverGroups adminGroups : List String) : OIDCRoleMapper :=
  (({} : OIDCRoleMapper).addGroupMappings viewerGroups .viewer
    |>.addGroupMappings approverGroups .approver
    |>.addGroupMappings adminGroups .admin)

/-- Build a mapper from comma-separated OIDC group settings. -/
def fromSettings (settings : RuntimeSettings) : OIDCRoleMapper :=
  ofGroups (parseCsv settings.oidcViewerGroups) (parseCsv settings.oidcApproverGroups)
    (parseCsv settings.oidcAdminGroups)

variable (self : OIDCRoleMapper)

/-- The body of the loop of `map_groups`. -/
def mapGroup (result : RoleMappingResult) (group : String) : RoleMappingResult :=
  match self.groupRoleMap group with
  | none => { result with unknownGroups := result.unknownGroups ++ [group] }
  | some role => { result with
      matchedGroups := result.matchedGroups ++ [group]
      roles := result.roles ++ role.inheritance }

/-- Map OIDC groups to inherited, deduplicated platform roles. -/
def mapGroups (groups : List String) : RoleMappingResult :=
  let result := (normalizeGroups groups).foldl self.mapGroup {}
  { roles := OperatorRole.order.filter fun role => decide (role ∈ result.roles)
    matchedGroups := result.matchedGroups.eraseDups
    unknownGroups := result.unknownGroups.eraseDups }

/-! ## The dictionary -/

theorem addGroupMappings_apply (groups : List String) (role : OperatorRole) (name : String) :
    (self.addGroupMappings groups role).groupRoleMap name =
      if name ∈ groups then some role else self.groupRoleMap name := by
  show groups.foldl (fun map group => Function.update map group (some role)) self.groupRoleMap name = _
  generalize self.groupRoleMap = map
  induction groups generalizing map with
  | nil => simp
  | cons group groups ih =>
    rw [List.foldl_cons, ih]
    by_cases hrest : name ∈ groups
    · simp [hrest]
    · by_cases hname : name = group
      · simp [hname]
      · simp [hrest, hname]

/-- The setting of a role. -/
def groupsOf (settings : RuntimeSettings) : OperatorRole → String
  | .viewer => settings.oidcViewerGroups
  | .approver => settings.oidcApproverGroups
  | .admin => settings.oidcAdminGroups

/-- The dictionary keeps the highest role of a group. -/
theorem fromSettings_level (settings : RuntimeSettings) (name : String) (minimum : OperatorRole) :
    (∃ role, (fromSettings settings).groupRoleMap name = some role ∧ minimum.level ≤ role.level) ↔
      ∃ role, minimum.level ≤ role.level ∧ name ∈ parseCsv (groupsOf settings role) := by
  have hmap : (fromSettings settings).groupRoleMap name =
      if name ∈ parseCsv settings.oidcAdminGroups then some .admin
      else if name ∈ parseCsv settings.oidcApproverGroups then some .approver
      else if name ∈ parseCsv settings.oidcViewerGroups then some .viewer
      else none := by
    simp only [fromSettings, ofGroups, addGroupMappings_apply]
  rw [hmap]
  constructor
  · rintro ⟨role, hrole, hlevel⟩
    refine ⟨role, hlevel, ?_⟩
    split_ifs at hrole with hadmin happrover hviewer
    · cases hrole
      exact hadmin
    · cases hrole
      exact happrover
    · cases hrole
      exact hviewer
  · rintro ⟨role, hlevel, hmem⟩
    split_ifs with hadmin happrover hviewer
    · exact ⟨.admin, rfl, by cases minimum <;> decide⟩
    · cases role with
      | admin => exact absurd hmem hadmin
      | approver => exact ⟨.approver, rfl, hlevel⟩
      | viewer => exact ⟨.approver, rfl, le_trans hlevel (by decide)⟩
    · cases role with
      | admin => exact absurd hmem hadmin
      | approver => exact absurd hmem happrover
      | viewer => exact ⟨.viewer, rfl, hlevel⟩
    · cases role with
      | admin => exact absurd hmem hadmin
      | approver => exact absurd hmem happrover
      | viewer => exact absurd hmem hviewer

/-! ## The loop -/

theorem mem_foldl_roles (groups : List String) (result : RoleMappingResult) (role : OperatorRole) :
    role ∈ (groups.foldl self.mapGroup result).roles ↔
      role ∈ result.roles ∨ ∃ group ∈ groups, ∃ mapped, self.groupRoleMap group = some mapped ∧
        role.level ≤ mapped.level := by
  induction groups generalizing result with
  | nil => simp
  | cons group groups ih =>
    rw [List.foldl_cons, ih]
    cases hgroup : self.groupRoleMap group with
    | none => simp [mapGroup, hgroup]
    | some mapped => simp [mapGroup, hgroup, OperatorRole.mem_inheritance, or_assoc]

/-- The roles of some groups are those that one of them maps to, with the roles below. -/
theorem mem_mapGroups_roles {groups : List String} {role : OperatorRole} :
    role ∈ (self.mapGroups groups).roles ↔ ∃ group ∈ normalizeGroups groups, ∃ mapped,
      self.groupRoleMap group = some mapped ∧ role.level ≤ mapped.level := by
  simp only [mapGroups, List.mem_filter, OperatorRole.mem_order, true_and, decide_eq_true_eq,
    mem_foldl_roles, List.not_mem_nil, false_or]

end OIDCRoleMapper

end MpesaMcp
