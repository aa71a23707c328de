import MpesaMcp.Auth.Oidc
import MpesaMcp.Callbacks.Routes

/-!
# Operator authentication and RBAC dependencies

`getOperatorPrincipal` resolves the authorization header of a request. The identity provider it asks is
constructed for the request.
-/

set_option autoImplicit false

namespace MpesaMcp

open Library Python

/-- `HTTPException(status_code, detail)`. -/
structure HttpException where
  statusCode : Nat
  detail : String
deriving DecidableEq

/-- `_unauthorized`. -/
def unauthorized : HttpException := ⟨401, "Invalid operator credentials."⟩

/-- `_require_role`. -/
def requireRole (principal : OperatorIdentity) (minimumRole : OperatorRole) :
    Except HttpException OperatorIdentity :=
  if minimumRole.level ≤ principal.role.level then .ok principal
  else .error ⟨403, "Operator is not authorized for this action."⟩

/-- `_extract_bearer_token`. -/
def extractBearerToken (authorization : Option String) : Option String :=
  match authorization with
  | none => none
  | some authorization =>
    let scheme := authorization.toList.takeWhile fun c => decide (c ≠ ' ')
    match authorization.toList.dropWhile fun c => decide (c ≠ ' ') with
    | [] => none
    | _ :: token =>
      if (String.ofList scheme).toLower ≠ "bearer" ∨ token = [] then none
      else some (String.ofList token)

/-! ## Providers -/

/-- The identity of a static token. -/
def tokenIdentity (subject displayName : String) (role : OperatorRole) : OperatorIdentity where
  subject := subject
  displayName := displayName
  roles := [role]
  nonempty := List.cons_ne_nil role []

/-- The loop of `TokenIdentityProvider.authenticate`. -/
def matchToken (credential : String) :
    List (Option String × OperatorIdentity) → Except Exn (Option OperatorIdentity)
  | [] => .ok none
  | (configuredToken, identity) :: tokenMap =>
    match configuredToken with
    | none => matchToken credential tokenMap
    | some configuredToken =>
      if configuredToken = "" then matchToken credential tokenMap
      else
        match compareDigest credential configuredToken with
        | .error e => .error e
        | .ok true => .ok (some identity)
        | .ok false => matchToken credential tokenMap

/-- Authenticate using the existing static bearer token mapping. -/
def tokenAuthenticate (settings : RuntimeSettings) (credential : Option String) :
    Except Exn (Option OperatorIdentity) :=
  match credential with
  | none => .ok none
  | some credential => matchToken credential [
      (settings.operatorViewerToken, tokenIdentity "operator-viewer" "Operator Viewer" .viewer),
      (settings.operatorApproverToken,
        tokenIdentity "operator-approver" "Operator Approver" .approver),
      (settings.operatorAdminToken, tokenIdentity "operator-admin" "Operator Administrator" .admin)]

inductive IdentityProvider
  | token
  | development
  | jwks
deriving DecidableEq, Repr

variable {jwt : PyJwt}

/-- `_identity_provider`: a new provider, whose attributes are those of its constructor. -/
def identityProvider (settings : RuntimeSettings) : Oidc jwt IdentityProvider :=
  if settings.authMode = "token" then pure .token
  else if settings.authMode = "oidc" ∧ settings.oidcProviderMode = "development" then
    pure .development
  else if settings.authMode = "oidc" ∧ settings.oidcProviderMode = "jwks" then do
    JWKSOIDCIdentityProvider.call (.assign {})
    pure .jwks
  else .raise (.valueError "AUTH_MODE must be one of: token, oidc.")

/-- `authenticate` of each provider. -/
def IdentityProvider.authenticate (settings : RuntimeSettings) (credential : Option String) :
    IdentityProvider → Oidc jwt (Option OperatorIdentity)
  | .token => Prog.ofExcept (tokenAuthenticate settings credential)
  | .development => pure (developmentAuthenticate settings credential)
  | .jwks => JWKSOIDCIdentityProvider.authenticate settings credential

/-- Authenticate an operator from a bearer token. -/
def getOperatorPrincipal (settings : RuntimeSettings) (authorization : Option String) :
    Oidc jwt (Except HttpException OperatorIdentity) :=
  if !settings.operatorAuthEnabled then
    pure (.ok (tokenIdentity "local-admin" "Local Administrator" .admin))
  else
    match extractBearerToken authorization with
    | none => pure (.error unauthorized)
    | some token => do
      let provider ← identityProvider settings
      match ← provider.authenticate settings (some token) with
      | none => pure (.error unauthorized)
      | some identity => pure (.ok identity)

end MpesaMcp
