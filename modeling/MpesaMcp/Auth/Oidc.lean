import MpesaMcp.Auth.RoleMapping

/-!
# Operator identity and the OIDC provider

`JWKSOIDCIdentityProvider` is a program over its clock, its attributes and its HTTP client. PyJWT is a
parameter: what it makes of a token is `PyJwt`, and what the identity provider of the organisation
answers to the n-th request is `OidcServer`.
-/

set_option autoImplicit false

namespace MpesaMcp

open Library Python

/-! ## Identities -/

/-- Normalized operator identity returned by every authentication mode. -/
structure OperatorIdentity where
  subject : String
  email : Option String := none
  displayName : String
  roles : List OperatorRole
  groups : List String := []
  /-- `Field(min_length=1)`. -/
  nonempty : roles ≠ []

/-- The stable operator identifier used by existing workflows. -/
def OperatorIdentity.operatorId (self : OperatorIdentity) : String := self.subject

/-- `max(roles, key=ROLE_LEVELS.__getitem__)`, with the greatest role so far. -/
def OperatorRole.maximum : OperatorRole → List OperatorRole → OperatorRole
  | best, [] => best
  | best, role :: roles => maximum (if best.level < role.level then role else best) roles

/-- The highest role. -/
def OperatorIdentity.role (self : OperatorIdentity) : OperatorRole :=
  OperatorRole.maximum (self.roles.head self.nonempty) self.roles.tail

namespace OperatorRole

theorem level_le_maximum {minimum best : OperatorRole} {roles : List OperatorRole} :
    minimum.level ≤ (maximum best roles).level ↔
      minimum.level ≤ best.level ∨ ∃ role ∈ roles, minimum.level ≤ role.level := by
  induction roles generalizing best with
  | nil => simp [maximum]
  | cons role roles ih =>
    rw [maximum, ih, List.exists_mem_cons_iff, ← or_assoc]
    refine or_congr_left ?_
    split_ifs with hlt <;> omega

end OperatorRole

/-- An identity has a level where one of its roles has it. -/
theorem OperatorIdentity.level_le_role {self : OperatorIdentity} {minimum : OperatorRole} :
    minimum.level ≤ self.role.level ↔ ∃ role ∈ self.roles, minimum.level ≤ role.level := by
  have hroles : self.roles = self.roles.head self.nonempty :: self.roles.tail :=
    (List.cons_head_tail self.nonempty).symm
  rw [hroles, List.exists_mem_cons_iff]
  exact OperatorRole.level_le_maximum

/-! ## Claims -/

/-- `_claim_as_list`. -/
def claimAsList : PyValue → List String
  | .str value => normalizeGroups (splitCommas value)
  | .list value => (value.filterMap PyValue.asStr?).filter fun item => decide (stripText item ≠ "")
  | _ => []

/-- `_claim_as_string`. -/
def claimAsString : PyValue → Option String
  | .str value => if stripText value ≠ "" then some value else none
  | _ => none

/-- `_extract_groups`. -/
def extractGroups (settings : RuntimeSettings) (claims : PyDict) : List String :=
  (claimAsList (lookup claims settings.oidcGroupsClaim) ++
    claimAsList (lookup claims settings.oidcRolesClaim)).eraseDups

/-- What `authenticate` makes of verified claims. -/
def identityOf (settings : RuntimeSettings) (claims : PyDict) : Option OperatorIdentity :=
  let groups := extractGroups settings claims
  let mappedRoles := ((OIDCRoleMapper.fromSettings settings).mapGroups groups).roles
  if h : mappedRoles = [] then none
  else
    match claimAsString (lookup claims "sub") with
    | none => none
    | some subject =>
      let email := claimAsString (lookup claims settings.oidcEmailClaim)
      some {
        subject := subject
        email := email
        displayName := ((claimAsString (lookup claims settings.oidcNameClaim)).or
          (claimAsString (lookup claims "preferred_username"))).or email |>.getD subject
        roles := mappedRoles
        groups := groups
        nonempty := h }

/-! ## The development provider -/

/-- The identity of `DevelopmentOIDCIdentityProvider`, which it builds when it is constructed. -/
def developmentIdentity (settings : RuntimeSettings) : Option OperatorIdentity :=
  let groups := normalizeGroups (splitCommas settings.oidcDevelopmentGroups)
  let mappedRoles := ((OIDCRoleMapper.fromSettings settings).mapGroups groups).roles
  if h : mappedRoles = [] then none
  else some {
    subject := settings.oidcDevelopmentSubject
    email := settings.oidcDevelopmentEmail
    displayName := settings.oidcDevelopmentDisplayName
    roles := mappedRoles
    groups := groups
    nonempty := h }

/-- `DevelopmentOIDCIdentityProvider.authenticate`. -/
def developmentAuthenticate (settings : RuntimeSettings) (credential : Option String) :
    Option OperatorIdentity :=
  match credential with
  | none => none
  | some credential => if stripText credential = "" then none else developmentIdentity settings

/-! ## The JWKS provider -/

/-- The functions of PyJWT that the provider calls. -/
structure PyJwt where
  /-- The key of a `PyJWK`. -/
  Key : Type
  /-- `jwt.get_unverified_header(token)`. -/
  getUnverifiedHeader : String → Except Exn PyDict
  /-- `jwt.PyJWK.from_dict(jwk, algorithm=algorithm).key`. -/
  fromDict : (jwk : PyDict) → (algorithm : String) → Except Exn Key
  /-- `jwt.decode(token, ...)` at a point in time. -/
  decode : (now : Datetime) → (token : String) → Key → (algorithm audience issuer : String) →
    (leeway : Int) → Except Exn PyValue

/-- The documents the provider fetches. -/
inductive OidcDocument
  | discovery
  | jwks
deriving DecidableEq, Repr

/-- The attributes of a provider that its methods assign. -/
structure JWKSOIDCIdentityProvider where
  discoveryCache : Option PyDict := none
  jwksCache : Option PyDict := none
  discoveryExpiresAt : ℚ := 0
  jwksExpiresAt : ℚ := 0

/-- One call of the provider to its surroundings, or to its own attributes. -/
inductive OidcCall (jwt : PyJwt)
  | timeProvider
  | self
  | assign (self : JWKSOIDCIdentityProvider)
  /-- `http_client.get(url)`, `raise_for_status()` and `json()`, for one of the documents. -/
  | get (document : OidcDocument) (url : String)
  | decode (token : String) (key : jwt.Key) (algorithm audience issuer : String) (leeway : Int)

abbrev OidcCall.Answer (jwt : PyJwt) : OidcCall jwt → Type
  | .timeProvider => ℚ
  | .self => JWKSOIDCIdentityProvider
  | .assign _ => Unit
  | .get _ _ => PyValue
  | .decode _ _ _ _ _ _ => PyValue

/-- A function that authenticates operators. -/
abbrev Oidc (jwt : PyJwt) (α : Type) := Prog Exn (OidcCall.Answer jwt) α

namespace JWKSOIDCIdentityProvider

/-- `SUPPORTED_JWT_ALGORITHMS`. -/
def supportedJwtAlgorithms : List String :=
  ["RS256", "RS384", "RS512", "ES256", "ES384", "ES512"]

/-- `_required_setting`. -/
def requiredSetting (value : Option String) (name : String) : Except Exn String :=
  match value with
  | none => .error (.valueError (name ++ " is required."))
  | some value =>
    if stripText value = "" then .error (.valueError (name ++ " is required.")) else .ok value

/-- `issuer.rstrip("/")`. -/
def rstripSlash (issuer : String) : String :=
  String.ofList (issuer.toList.rdropWhile fun c => decide (c = '/'))

variable {jwt : PyJwt}

/-- Make one call. -/
def call (c : OidcCall jwt) : Oidc jwt (OidcCall.Answer jwt c) := Prog.send c

variable (settings : RuntimeSettings)

/-- `_get_discovery_document`. -/
def getDiscoveryDocument : Oidc jwt PyDict := do
  let now ← call .timeProvider
  let self ← call .self
  match self.discoveryCache with
  | some document =>
    if now < self.discoveryExpiresAt then pure document else fetchDiscovery now
  | none => fetchDiscovery now
where
  /-- Past the cache. -/
  fetchDiscovery (now : ℚ) : Oidc jwt PyDict := do
    let issuer ← Prog.ofExcept (requiredSetting settings.oidcIssuer "OIDC_ISSUER")
    match ← call (.get .discovery (rstripSlash issuer ++ "/.well-known/openid-configuration")) with
    | .dict document =>
      let self ← call .self
      call (.assign { self with
        discoveryCache := some document
        discoveryExpiresAt := now + settings.oidcJwksCacheSeconds })
      pure document
    | _ => .raise (.valueError "OIDC discovery document must be a JSON object.")

/-- `_get_jwks`. -/
def getJwks : Oidc jwt PyDict := do
  let now ← call .timeProvider
  let self ← call .self
  match self.jwksCache with
  | some jwks => if now < self.jwksExpiresAt then pure jwks else fetchJwks now
  | none => fetchJwks now
where
  /-- Past the cache. -/
  fetchJwks (now : ℚ) : Oidc jwt PyDict := do
    let discovery ← getDiscoveryDocument settings
    match lookup discovery "jwks_uri" with
    | .str jwksUri =>
      if stripText jwksUri = "" then
        .raise (.valueError "OIDC discovery document is missing jwks_uri.")
      else
        match ← call (.get .jwks jwksUri) with
        | .dict jwks =>
          let self ← call .self
          call (.assign { self with
            jwksCache := some jwks
            jwksExpiresAt := now + settings.oidcJwksCacheSeconds })
          pure jwks
        | _ => .raise (.valueError "JWKS document must be a JSON object.")
    | _ => .raise (.valueError "OIDC discovery document is missing jwks_uri.")

/-- The first key of a list under this id. -/
def keyWithId (keyId : String) : List PyValue → Option PyDict
  | [] => none
  | .dict key :: keys =>
    match lookup key "kid" with
    | .str kid => if kid = keyId then some key else keyWithId keyId keys
    | _ => keyWithId keyId keys
  | _ :: keys => keyWithId keyId keys

/-- `_find_jwk`. -/
def findJwk (keyId : String) : Oidc jwt PyDict := do
  let jwks ← getJwks settings
  match lookup jwks "keys" with
  | .list keys =>
    match keyWithId keyId keys with
    | some key => pure key
    | none => .raise (.valueError "OIDC token key id was not found in JWKS.")
  | _ => .raise (.valueError "JWKS document is missing keys.")

/-- The algorithm of a key, or else of the header. -/
def algorithmOf (jwk header : PyDict) : String :=
  match lookup jwk "alg" with
  | .str algorithm =>
    if algorithm ∈ supportedJwtAlgorithms then algorithm
    else (claimAsString (lookup header "alg")).getD "RS256"
  | _ => (claimAsString (lookup header "alg")).getD "RS256"

/-- `_verify_token`. -/
def verifyToken (token : String) : Oidc jwt PyDict := do
  let header ← Prog.ofExcept (jwt.getUnverifiedHeader token)
  match lookup header "kid" with
  | .str keyId =>
    if keyId = "" then .raise (.valueError "OIDC token is missing a key id.")
    else
      let jwk ← findJwk settings keyId
      let algorithm := algorithmOf jwk header
      if algorithm ∉ supportedJwtAlgorithms then
        .raise (.valueError "OIDC token uses an unsupported signing algorithm.")
      else
        let signingKey ← Prog.ofExcept (jwt.fromDict jwk algorithm)
        let issuer ← Prog.ofExcept (requiredSetting settings.oidcIssuer "OIDC_ISSUER")
        let audience ← Prog.ofExcept (requiredSetting settings.oidcAudience "OIDC_AUDIENCE")
        match ← call (.decode token signingKey algorithm audience (rstripSlash issuer)
            settings.oidcClockSkewSeconds) with
        | .dict claims => pure claims
        | _ => .raise (.valueError "OIDC token claims must be a JSON object.")
  | _ => .raise (.valueError "OIDC token is missing a key id.")

/-- Verify a bearer JWT and return a normalized operator identity. -/
def authenticate (credential : Option String) : Oidc jwt (Option OperatorIdentity) :=
  match credential with
  | none => pure none
  | some credential =>
    if stripText credential = "" then pure none
    else do
      match ← (verifyToken settings credential).attempt with
      | .ok claims => pure (identityOf settings claims)
      | .error _ => pure none

end JWKSOIDCIdentityProvider

/-! ## The surroundings of the provider -/

/-- The answers of the organisation's identity provider to the n-th request. -/
structure OidcServer where
  answer : Nat → (url : String) → Except Exn PyValue

/-- What the process holds while operators authenticate; `fetches` records the requests sent. -/
structure OidcWorld where
  ambient : Ambient := {}
  provider : JWKSOIDCIdentityProvider := {}
  fetches : List (OidcDocument × String) := []

/-- How the surroundings answer. -/
def handleOidc (env : Env) (jwt : PyJwt) (server : OidcServer) :
    Handler Exn (OidcCall.Answer jwt) OidcWorld
  | .timeProvider, w =>
    (.ok (w.ambient.monotonic env).1, { w with ambient := (w.ambient.monotonic env).2 })
  | .self, w => (.ok w.provider, w)
  | .assign self, w => (.ok (), { w with provider := self })
  | .get document url, w =>
    (server.answer w.fetches.length url, { w with fetches := w.fetches ++ [(document, url)] })
  | .decode token key algorithm audience issuer leeway, w =>
    (jwt.decode (w.ambient.now env).1 token key algorithm audience issuer leeway,
      { w with ambient := (w.ambient.now env).2 })

end MpesaMcp
