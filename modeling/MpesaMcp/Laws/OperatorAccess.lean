import MpesaMcp.Auth.Security

/-!
# Who an OIDC token lets in

A verified token grants a role where one of the names it claims is configured for that role or a higher
one (`oidc_access_exact`). The decision reads nothing else of the claims: neither their order nor their
repetitions, nor names that no role is configured for.
-/

set_option autoImplicit false

namespace MpesaMcp

open Library Python OIDCRoleMapper JWKSOIDCIdentityProvider

/-- A claim names the texts of a list, or the parts of one text between commas, without the blanks
around them. Any other value names nothing. -/
inductive ClaimNames : PyValue → String → Prop
  | item {items : List PyValue} {text : String} (mem : .str text ∈ items)
      (named : stripText text ≠ "") : ClaimNames (.list items) (stripText text)
  | part {text part : String} (mem : part ∈ splitCommas text) (named : stripText part ≠ "") :
      ClaimNames (.str text) (stripText part)

/-- The names of the two claims. -/
def Claimed (settings : RuntimeSettings) (claims : PyDict) (name : String) : Prop :=
  ClaimNames (lookup claims settings.oidcGroupsClaim) name ∨
    ClaimNames (lookup claims settings.oidcRolesClaim) name

/-- The names configured for a role. -/
def Configured (settings : RuntimeSettings) (role : OperatorRole) (name : String) : Prop :=
  ∃ part ∈ splitCommas (groupsOf settings role), stripText part = name

/-- The claims are enough for a role. -/
def Entitled (settings : RuntimeSettings) (claims : PyDict) (minimum : OperatorRole) : Prop :=
  ∃ name, Claimed settings claims name ∧
    ∃ role, OperatorRole.level minimum ≤ OperatorRole.level role ∧ Configured settings role name

/-! ## Claims -/

theorem ClaimNames.ne_empty {value : PyValue} {name : String} (h : ClaimNames value name) : name ≠ "" := by
  cases h with
  | item _ named => exact named
  | part _ named => exact named

/-- The names of a claim are the groups it lists, normalized. -/
theorem mem_claimAsList {value : PyValue} {name : String} :
    name ∈ normalizeGroups (claimAsList value) ↔ ClaimNames value name := by
  rw [mem_normalizeGroups]
  constructor
  · rintro ⟨hname, group, hgroup, rfl⟩
    cases value with
    | str text =>
      obtain ⟨-, part, hpart, rfl⟩ := mem_normalizeGroups.mp hgroup
      rw [stripText_stripText] at hname ⊢
      exact .part hpart hname
    | list items =>
      obtain ⟨item, hitem, hstr⟩ := List.mem_filterMap.mp (List.mem_of_mem_filter hgroup)
      cases item with
      | str text =>
        cases hstr
        exact .item hitem hname
      | _ => cases hstr
    | _ => cases hgroup
  · intro h
    refine ⟨h.ne_empty, ?_⟩
    cases h with
    | @item items text mem named =>
      refine ⟨text, List.mem_filter.mpr ⟨?_, decide_eq_true named⟩, rfl⟩
      exact List.mem_filterMap.mpr ⟨.str text, mem, rfl⟩
    | @part text part mem named =>
      refine ⟨stripText part, mem_normalizeGroups.mpr ⟨named, part, mem, rfl⟩, ?_⟩
      exact stripText_stripText part

theorem mem_extractGroups {settings : RuntimeSettings} {claims : PyDict} {name : String} :
    name ∈ normalizeGroups (extractGroups settings claims) ↔ Claimed settings claims name := by
  have hmem : ∀ group, group ∈ extractGroups settings claims ↔
      group ∈ claimAsList (lookup claims settings.oidcGroupsClaim) ∨
        group ∈ claimAsList (lookup claims settings.oidcRolesClaim) := by
    intro group
    rw [extractGroups, List.mem_eraseDups, List.mem_append]
  simp only [Claimed, ← mem_claimAsList, mem_normalizeGroups, hmem, ← and_or_left, or_and_right,
    exists_or]

/-- The roles of the claims. -/
theorem mem_roles_iff {settings : RuntimeSettings} {claims : PyDict} {role : OperatorRole} :
    role ∈ ((fromSettings settings).mapGroups (extractGroups settings claims)).roles ↔
      Entitled settings claims role := by
  simp only [mem_mapGroups_roles, mem_extractGroups, fromSettings_level]
  refine exists_congr fun name => and_congr_right fun hclaimed => ?_
  refine exists_congr fun other => and_congr_right fun _ => ?_
  have hname : name ≠ "" := hclaimed.elim ClaimNames.ne_empty ClaimNames.ne_empty
  rw [parseCsv, mem_normalizeGroups, Configured]
  exact and_iff_right hname

/-- A lower role takes no more. -/
theorem Entitled.lower {settings : RuntimeSettings} {claims : PyDict} {minimum role : OperatorRole}
    (h : Entitled settings claims role) (level : minimum.level ≤ role.level) :
    Entitled settings claims minimum := by
  obtain ⟨name, hclaimed, other, hother, hconfigured⟩ := h
  exact ⟨name, hclaimed, other, le_trans level hother, hconfigured⟩

/-- The claims of a subject have an identity of a level where they are enough for it. -/
theorem identityOf_level {settings : RuntimeSettings} {claims : PyDict} {subject : String}
    (sub : claimAsString (lookup claims "sub") = some subject) (minimum : OperatorRole) :
    (∃ identity, identityOf settings claims = some identity ∧
      OperatorRole.level minimum ≤ identity.role.level) ↔ Entitled settings claims minimum := by
  rw [identityOf]
  dsimp only
  split
  next hnone =>
    constructor
    · rintro ⟨identity, hidentity, -⟩
      cases hidentity
    · intro h
      rw [← mem_roles_iff, hnone] at h
      cases h
  next hroles =>
    simp only [sub, Option.some.injEq, exists_eq_left', OperatorIdentity.level_le_role,
      mem_roles_iff]
    constructor
    · rintro ⟨role, hentitled, hlevel⟩
      exact hentitled.lower hlevel
    · intro h
      exact ⟨minimum, h, le_rfl⟩

/-! ## Access -/

section Access

variable (env : Env) (jwt : PyJwt) (server : OidcServer) (settings : RuntimeSettings)

/-- `authenticate` followed by `_require_role` lets the bearer of a credential in. -/
def Grants (credential : Option String) (minimum : OperatorRole) (w : OidcWorld) : Prop :=
  ∃ identity, (Prog.run (handleOidc env jwt server) (authenticate settings credential) w).1 =
    .ok (some identity) ∧ requireRole identity minimum = .ok identity

/-- The verification of a token returns these claims, with a subject. -/
structure Verified (token : String) (w : OidcWorld) (claims : PyDict) : Prop where
  credential : stripText token ≠ ""
  verifies : (Prog.run (handleOidc env jwt server) (verifyToken settings token) w).1 = .ok claims
  subject : ∃ subject, lookup claims "sub" = .str subject ∧ stripText subject ≠ ""

variable {env jwt server settings}

theorem requireRole_iff {identity : OperatorIdentity} {minimum : OperatorRole} :
    requireRole identity minimum = .ok identity ↔ minimum.level ≤ identity.role.level := by
  unfold requireRole
  split
  next h => exact iff_of_true rfl h
  next h => exact iff_of_false nofun h

theorem Verified.grants_iff {token : String} {w : OidcWorld} {claims : PyDict}
    (verified : Verified env jwt server settings token w claims) (minimum : OperatorRole) :
    Grants env jwt server settings (some token) minimum w ↔ Entitled settings claims minimum := by
  obtain ⟨subject, hsub, hnamed⟩ := verified.subject
  have hclaim : claimAsString (lookup claims "sub") = some subject := by
    rw [hsub, claimAsString, if_pos hnamed]
  have hauthenticate : (Prog.run (handleOidc env jwt server)
      (authenticate settings (some token)) w).1 = .ok (identityOf settings claims) := by
    have hverifies := verified.verifies
    simp only [authenticate, if_neg verified.credential, Prog.run_bind, Prog.run_attempt, hverifies]
    rfl
  rw [← identityOf_level hclaim, Grants, hauthenticate]
  simp only [Except.ok.injEq, requireRole_iff]

end Access

/-- **Access is exact**: a verified token grants a role where a name it claims is configured for that
role or a higher one. Whoever claims at least the configured names of another is granted as much, in
whatever order, however often, and whatever else is claimed. -/
theorem oidc_access_exact (env : Env) (jwt : PyJwt) (server : OidcServer) (settings : RuntimeSettings)
    (minimum : OperatorRole) {token : String} {w : OidcWorld} {claims : PyDict}
    (verified : Verified env jwt server settings token w claims) :
    (Grants env jwt server settings (some token) minimum w ↔
      ∃ name, Claimed settings claims name ∧
        ∃ role, OperatorRole.level minimum ≤ OperatorRole.level role ∧ Configured settings role name) ∧
    ∀ {token' : String} {w' : OidcWorld} {claims' : PyDict},
      Verified env jwt server settings token' w' claims' →
      (∀ name role, Configured settings role name → Claimed settings claims name →
        Claimed settings claims' name) →
      Grants env jwt server settings (some token) minimum w →
      Grants env jwt server settings (some token') minimum w' := by
  refine ⟨verified.grants_iff minimum, ?_⟩
  intro token' w' claims' verified' more granted
  obtain ⟨name, hclaimed, role, hlevel, hconfigured⟩ := (verified.grants_iff minimum).mp granted
  apply (verified'.grants_iff minimum).mpr
  exact ⟨name, more name role hconfigured hclaimed, role, hlevel, hconfigured⟩

/-- A library for which a token carries the names of its groups. -/
def namingPyJwt : PyJwt where
  Key := Unit
  getUnverifiedHeader _ := .ok [("kid", .str "key-1"), ("alg", .str "RS256")]
  fromDict _ _ := .ok ()
  decode _ token _ _ _ _ _ := .ok (.dict [("sub", .str "operator-7"), ("groups", .str token)])

/-- A server with one key. -/
def oneKeyServer : OidcServer where
  answer _ url :=
    if url = "https://idp.test/.well-known/openid-configuration" then
      .ok (.dict [("jwks_uri", .str "https://idp.test/jwks")])
    else .ok (.dict [("keys", .list [.dict [("kid", .str "key-1"), ("alg", .str "RS256")]])])

def financeSettings : RuntimeSettings where
  authMode := "oidc"
  oidcProviderMode := "jwks"
  oidcIssuer := some "https://idp.test/"
  oidcAudience := some "mpesa"
  oidcViewerGroups := "finance_viewers, finance"
  oidcAdminGroups := "finance"

/-- A group of two roles lets in as the higher of them. -/
theorem oidc_access_exact_finance :
    Grants .still namingPyJwt oneKeyServer financeSettings (some "sales, finance ") .approver {} := by
  have verified : Verified .still namingPyJwt oneKeyServer financeSettings "sales, finance " {}
      [("sub", .str "operator-7"), ("groups", .str "sales, finance ")] :=
    ⟨by decide, rfl, "operator-7", rfl, by decide⟩
  refine (oidc_access_exact .still namingPyJwt oneKeyServer financeSettings .approver
    verified).1.mpr ⟨"finance", Or.inl ?_, .admin, by decide, "finance", by decide, by decide⟩
  exact @ClaimNames.part "sales, finance " " finance " (by decide) (by decide)

end MpesaMcp
