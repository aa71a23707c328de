import MpesaMcp.Laws.OperatorAccess
import MpesaMcp.Library.Trace

/-!
# How often the documents of the identity provider are fetched

The caches of a `JWKSOIDCIdentityProvider` are attributes, and `_identity_provider` constructs a new one
for each request: a request whose token names a key fetches the discovery document again, whatever the
requests before it have fetched (`documents_fetched_once_iff`).
-/

set_option autoImplicit false

namespace MpesaMcp

open Library Python JWKSOIDCIdentityProvider

/-- How often a document was fetched. -/
def fetchesOf (document : OidcDocument) (fetches : List (OidcDocument × String)) : Nat :=
  fetches.countP fun fetch => decide (fetch.1 = document)

/-- One operator request. -/
def operatorStep (env : Env) (jwt : PyJwt) (server : OidcServer) (settings : RuntimeSettings)
    (authorization : Option String) (w : OidcWorld) :
    Except Exn (Except HttpException OperatorIdentity) × OidcWorld :=
  Prog.run (handleOidc env jwt server) (getOperatorPrincipal settings authorization) w

/-- The header of a token names a key. -/
def namesKey (header : Except Exn PyDict) : Bool :=
  match header with
  | .error _ => false
  | .ok header =>
    match lookup header "kid" with
    | .str keyId => decide (keyId ≠ "")
    | _ => false

/-- There is an issuer to ask. -/
def hasIssuer (settings : RuntimeSettings) : Bool :=
  settings.oidcIssuer.any fun issuer => decide (stripText issuer ≠ "")

/-- The request carries a bearer token whose header names a key, and there is an issuer to ask. -/
def needsKey (jwt : PyJwt) (settings : RuntimeSettings) (authorization : Option String) : Bool :=
  settings.operatorAuthEnabled && hasIssuer settings &&
    match extractBearerToken authorization with
    | none => false
    | some token => decide (stripText token ≠ "") && namesKey (jwt.getUnverifiedHeader token)

/-! ## What leaves a provider alone -/

/-- A message that neither fetches nor assigns. -/
def OidcCall.Quiet {jwt : PyJwt} : OidcCall jwt → Prop
  | .get _ _ => False
  | .assign _ => False
  | _ => True

section Fetches

variable {env : Env} {jwt : PyJwt} {server : OidcServer} {settings : RuntimeSettings}

@[simp] theorem sends_call {P : OidcCall jwt → Prop} (c : OidcCall jwt) :
    @Prog.Sends Exn (OidcCall jwt) (OidcCall.Answer jwt) (no_index (OidcCall.Answer jwt c)) P
      (call c) ↔ P c := Prog.sends_send c

theorem sends_ofExcept {P : OidcCall jwt → Prop} {α : Type} (r : Except Exn α) :
    (Prog.ofExcept r : Oidc jwt α).Sends P := by
  cases r <;> trivial

@[simp] theorem run_oidcCall (c : OidcCall jwt) (w : OidcWorld) :
    @Prog.run Exn (OidcCall jwt) (OidcCall.Answer jwt) (no_index (OidcCall.Answer jwt c)) OidcWorld
      (handleOidc env jwt server) (call c) w = handleOidc env jwt server c w :=
  Prog.run_send _ c w

/-- A quiet call asks nobody outside, so it fetches no document. -/
theorem handle_quiet {c : OidcCall jwt} (quiet : c.Quiet) (w : OidcWorld) :
    (handleOidc env jwt server c w).2.fetches = w.fetches := by
  cases c with
  | get document url => exact quiet.elim
  | assign provider => exact quiet.elim
  | _ => rfl

/-- A program of quiet calls fetches no document, call by call. -/
theorem run_quiet {α : Type} {p : Oidc jwt α} (quiet : p.Sends OidcCall.Quiet) (w : OidcWorld) :
    (Prog.run (handleOidc env jwt server) p w).2.fetches = w.fetches :=
  Prog.run_related (R := fun s s' : OidcWorld => s'.fetches = s.fetches) (fun _ => rfl)
    (fun _ _ _ hst htu => htu.trans hst) (fun _ hc s => handle_quiet hc s) quiet w

/-- What follows a program quietly leaves its fetches. -/
theorem fetches_bind {α β : Type} {p : Oidc jwt α} {f : α → Oidc jwt β}
    (quiet : ∀ a, (f a).Sends OidcCall.Quiet) (w : OidcWorld) :
    (Prog.run (handleOidc env jwt server) (p >>= f) w).2.fetches =
      (Prog.run (handleOidc env jwt server) p w).2.fetches := by
  rw [Prog.run_bind]
  rcases Prog.run (handleOidc env jwt server) p w with ⟨_ | a, w'⟩
  · rfl
  · exact run_quiet (quiet a) w'

/-- A token is verified quietly once the keys are there, and its header decides whether they are
asked for. -/
inductive Verification (settings : RuntimeSettings) (p : Oidc jwt PyDict) : Bool → Prop
  | refused (quiet : p.Sends OidcCall.Quiet) : Verification settings p false
  | looksUp (rest : PyDict → Oidc jwt PyDict) (quiet : ∀ jwks, (rest jwks).Sends OidcCall.Quiet)
      (eq : p = getJwks settings >>= rest) : Verification settings p true

/-- By the branches of `_verify_token`: before the keys are asked for it may raise, and after them
nothing else is fetched. -/
theorem verification (jwt : PyJwt) (settings : RuntimeSettings) (token : String) :
    Verification settings (verifyToken settings token : Oidc jwt PyDict)
      (namesKey (jwt.getUnverifiedHeader token)) := by
  unfold verifyToken
  cases jwt.getUnverifiedHeader token with
  | error e => exact .refused trivial
  | ok header =>
    show Verification settings (match lookup header "kid" with | .str keyId => _ | _ => _)
      (match lookup header "kid" with | .str keyId => _ | _ => _)
    cases lookup header "kid" with
    | str keyId =>
      by_cases hblank : keyId = ""
      · simp only [hblank, if_true, ne_eq, not_true_eq_false, decide_false]
        exact .refused trivial
      · simp only [ne_eq, hblank, not_false_eq_true, decide_true, findJwk,
          Prog.bind_assoc]
        refine .looksUp _ (fun jwks => .bind ?_ fun jwk => ?_) rfl
        · split
          · split <;> trivial
          · trivial
        · split
          · trivial
          · refine .bind (sends_ofExcept _) fun signingKey => ?_
            refine .bind (sends_ofExcept _) fun issuer => ?_
            refine .bind (sends_ofExcept _) fun audience => ?_
            refine .bind ((sends_call _).mpr trivial) fun claims => ?_
            split <;> trivial
    | _ => exact .refused trivial

/-- `authenticate` leaves the provider as the verification of its token does. -/
theorem run_authenticate {token : String} (named : stripText token ≠ "") (w : OidcWorld) :
    (Prog.run (handleOidc env jwt server) (authenticate settings (some token)) w).2 =
      (Prog.run (handleOidc env jwt server) (verifyToken settings token) w).2 := by
  simp only [authenticate, if_neg named, Prog.run_bind, Prog.run_attempt]
  split <;> rfl

/-! ## A provider with empty caches -/

/-- A provider with no discovery document fetches it. -/
theorem run_getDiscoveryDocument (env : Env) (jwt : PyJwt) (server : OidcServer) {issuer : String}
    (configured : requiredSetting settings.oidcIssuer "OIDC_ISSUER" = .ok issuer) {w : OidcWorld}
    (empty : w.provider.discoveryCache = none) :
    ∃ result url w', Prog.run (handleOidc env jwt server) (getDiscoveryDocument settings) w =
      (result, w') ∧ w'.fetches = w.fetches ++ [(.discovery, url)] := by
  simp only [getDiscoveryDocument, Prog.run_bind, run_oidcCall, handleOidc, empty,
    getDiscoveryDocument.fetchDiscovery, configured, Prog.run_ofExcept]
  cases server.answer w.fetches.length
    (rstripSlash issuer ++ "/.well-known/openid-configuration") with
  | error e => exact ⟨_, _, _, rfl, rfl⟩
  | ok document =>
    cases document with
    | dict items => exact ⟨_, _, _, rfl, rfl⟩
    | _ => exact ⟨_, _, _, rfl, rfl⟩

/-- What a request can add to the fetches: the discovery document, and then perhaps the keys. -/
structure FetchesBoth (before after : List (OidcDocument × String)) : Prop where
  discovery : fetchesOf .discovery after = fetchesOf .discovery before + 1
  jwks : fetchesOf .jwks after ≤ fetchesOf .jwks before + 1

/-- Fetching may end with the discovery document, as where it fails or names no keys. -/
theorem FetchesBoth.of_discovery {before after : List (OidcDocument × String)} {url : String}
    (h : after = before ++ [(.discovery, url)]) : FetchesBoth before after := by
  constructor <;> simp [fetchesOf, h]

/-- Discovery comes first, since it names the address of the keys. -/
theorem FetchesBoth.of_both {before after : List (OidcDocument × String)} {url url' : String}
    (h : after = before ++ [(.discovery, url)] ++ [(.jwks, url')]) : FetchesBoth before after := by
  constructor <;> simp [fetchesOf, h]

/-- A provider with empty caches fetches the discovery document, and the keys at most once. -/
theorem fetches_getJwks {issuer : String}
    (configured : requiredSetting settings.oidcIssuer "OIDC_ISSUER" = .ok issuer) {w : OidcWorld}
    (empty : w.provider = {}) :
    FetchesBoth w.fetches
      (Prog.run (handleOidc env jwt server) (getJwks settings) w).2.fetches := by
  have hempty : { w with ambient := (w.ambient.monotonic env).2 }.provider.discoveryCache = none := by
    rw [empty]
  obtain ⟨result, url, w₁, hrun, hfetched⟩ :=
    run_getDiscoveryDocument env jwt server configured hempty
  simp only [getJwks, Prog.run_bind, run_oidcCall, handleOidc, empty, getJwks.fetchJwks]
  rw [empty] at hrun
  rw [hrun]
  cases result with
  | error e => exact .of_discovery hfetched
  | ok discovery =>
    dsimp only
    split
    next jwksUri hlookup =>
      split
      · exact .of_discovery hfetched
      · have hboth : w₁.fetches ++ [(OidcDocument.jwks, jwksUri)] =
            w.fetches ++ [(.discovery, url)] ++ [(.jwks, jwksUri)] := by
          rw [hfetched]
        simp only [Prog.run_bind, run_oidcCall, handleOidc]
        cases server.answer w₁.fetches.length jwksUri with
        | error e => exact .of_both hboth
        | ok document =>
          cases document with
          | dict items => exact .of_both hboth
          | _ => exact .of_both hboth
    next => exact .of_discovery hfetched

/-- Without an issuer nothing is fetched. -/
theorem fetches_getJwks_unconfigured {e : Exn}
    (unconfigured : requiredSetting settings.oidcIssuer "OIDC_ISSUER" = .error e) {w : OidcWorld}
    (empty : w.provider = {}) :
    (Prog.run (handleOidc env jwt server) (getJwks settings) w).2.fetches = w.fetches := by
  simp only [getJwks, Prog.run_bind, run_oidcCall, handleOidc, empty, getJwks.fetchJwks,
    getDiscoveryDocument, getDiscoveryDocument.fetchDiscovery, unconfigured, Prog.run_ofExcept]

/-- An issuer that is set is returned, and a missing one raises before anything is fetched. -/
theorem requiredSetting_issuer (settings : RuntimeSettings) :
    (hasIssuer settings = true ∧
      ∃ issuer, requiredSetting settings.oidcIssuer "OIDC_ISSUER" = .ok issuer) ∨
    (hasIssuer settings = false ∧
      ∃ e, requiredSetting settings.oidcIssuer "OIDC_ISSUER" = .error e) := by
  unfold hasIssuer requiredSetting
  cases settings.oidcIssuer with
  | none => exact Or.inr ⟨rfl, _, rfl⟩
  | some issuer =>
    by_cases hblank : stripText issuer = ""
    · exact Or.inr ⟨by simp [hblank], _, if_pos hblank⟩
    · exact Or.inl ⟨by simp [hblank], _, if_neg hblank⟩

/-! ## One request -/

/-- What is fetched where a key is needed, and where none is. -/
def Fetched (needs : Bool) (before after : List (OidcDocument × String)) : Prop :=
  if needs then FetchesBoth before after else after = before

theorem fetched_false {before after : List (OidcDocument × String)} :
    Fetched false before after ↔ after = before := Iff.rfl

theorem fetched_true {before after : List (OidcDocument × String)} :
    Fetched true before after ↔ FetchesBoth before after := Iff.rfl

/-- What `authenticate` fetches with empty caches. -/
theorem fetched_authenticate {token : String} {w : OidcWorld} (empty : w.provider = {}) :
    Fetched (decide (stripText token ≠ "") && namesKey (jwt.getUnverifiedHeader token) &&
      hasIssuer settings) w.fetches
      (Prog.run (handleOidc env jwt server) (authenticate settings (some token)) w).2.fetches := by
  by_cases hblank : stripText token = ""
  · simp only [authenticate, hblank, if_true, Prog.run_pure, ne_eq, not_true_eq_false, decide_false,
      Bool.false_and]
    exact fetched_false.mpr rfl
  · rw [run_authenticate hblank, decide_eq_true hblank, Bool.true_and]
    have hverification := verification jwt settings token
    cases hnames : namesKey (jwt.getUnverifiedHeader token) with
    | false =>
      rw [hnames] at hverification
      cases hverification with
      | refused quiet =>
        rw [Bool.false_and, run_quiet quiet]
        exact fetched_false.mpr rfl
    | true =>
      rw [hnames] at hverification
      cases hverification with
      | looksUp rest quiet eq =>
        rw [eq, fetches_bind quiet, Bool.true_and]
        rcases requiredSetting_issuer settings with ⟨hissuer, issuer, configured⟩ |
          ⟨hissuer, e, unconfigured⟩
        · rw [hissuer]
          exact fetched_true.mpr (fetches_getJwks configured empty)
        · rw [hissuer]
          exact fetched_false.mpr (fetches_getJwks_unconfigured unconfigured empty)

/-- **What one request fetches**: with a key to look for, the discovery document, and then the keys at
most once; and nothing otherwise. -/
theorem fetched_operatorStep (env : Env) (jwt : PyJwt) (server : OidcServer)
    (oidc : settings.authMode = "oidc") (mode : settings.oidcProviderMode = "jwks")
    (authorization : Option String) (w : OidcWorld) :
    Fetched (needsKey jwt settings authorization) w.fetches
      (operatorStep env jwt server settings authorization w).2.fetches := by
  cases henabled : settings.operatorAuthEnabled with
  | false =>
    simp only [operatorStep, getOperatorPrincipal, needsKey, henabled, Bool.not_false, if_true,
      Prog.run_pure, Bool.false_and]
    exact fetched_false.mpr rfl
  | true =>
    cases htoken : extractBearerToken authorization with
    | none =>
      simp only [operatorStep, getOperatorPrincipal, needsKey, henabled, htoken, Bool.not_true,
        Bool.false_eq_true, if_false, Prog.run_pure, Bool.and_false]
      exact fetched_false.mpr rfl
    | some token =>
      have hprovider : (identityProvider settings : Oidc jwt IdentityProvider) = (do
          call (.assign {})
          pure .jwks) := by
        simp [identityProvider, oidc, mode]
      -- the provider of this request is a new one
      have hnew : (operatorStep env jwt server settings authorization w).2 =
          (Prog.run (handleOidc env jwt server)
            (authenticate settings (some token)) { w with provider := {} }).2 := by
        simp only [operatorStep, getOperatorPrincipal, henabled, htoken, Bool.not_true,
          Bool.false_eq_true, if_false, hprovider, Prog.run_bind, run_oidcCall, handleOidc,
          Prog.run_pure, IdentityProvider.authenticate]
        rcases Prog.run (handleOidc env jwt server) (authenticate settings (some token))
          { w with provider := {} } with ⟨_ | _ | _, _⟩ <;> rfl
      have hneeds : needsKey jwt settings authorization = (decide (stripText token ≠ "") &&
          namesKey (jwt.getUnverifiedHeader token) && hasIssuer settings) := by
        simp only [needsKey, henabled, htoken, Bool.true_and, Bool.and_comm]
      rw [hneeds, hnew]
      exact fetched_authenticate (w := { w with provider := {} }) rfl

/-! ## A run of requests -/

/-- A run fetches the discovery document once for each request with a key to look for, by induction on
the requests: each gets a provider of its own, whose caches are empty. -/
theorem fetches_final (env : Env) (jwt : PyJwt) (server : OidcServer)
    (oidc : settings.authMode = "oidc") (mode : settings.oidcProviderMode = "jwks")
    (requests : List (Option String)) (w : OidcWorld) :
    let fetches := (final (operatorStep env jwt server settings) w requests).fetches
    fetchesOf .discovery fetches =
        fetchesOf .discovery w.fetches + requests.countP (needsKey jwt settings) ∧
      fetchesOf .jwks fetches ≤
        fetchesOf .jwks w.fetches + requests.countP (needsKey jwt settings) := by
  induction requests generalizing w with
  | nil => exact ⟨rfl, Nat.le_refl _⟩
  | cons authorization requests ih =>
    have hstep := fetched_operatorStep env jwt server oidc mode authorization w
    obtain ⟨hdiscovery, hjwks⟩ := ih (operatorStep env jwt server settings authorization w).2
    intro fetches
    show fetchesOf .discovery (final (operatorStep env jwt server settings)
        (operatorStep env jwt server settings authorization w).2 requests).fetches = _ ∧
      fetchesOf .jwks (final (operatorStep env jwt server settings)
        (operatorStep env jwt server settings authorization w).2 requests).fetches ≤ _
    rw [hdiscovery, List.countP_cons]
    cases hneeds : needsKey jwt settings authorization with
    | true =>
      rw [hneeds, fetched_true] at hstep
      have h₁ := hstep.discovery
      have h₂ := hstep.jwks
      simp only [if_true]
      omega
    | false =>
      rw [hneeds, fetched_false] at hstep
      rw [hstep] at hjwks ⊢
      simp only [Bool.false_eq_true, if_false]
      omega

/-! ## One provider -/

/-- Every fetch succeeds with a document. -/
def OidcServer.Succeeds (server : OidcServer) : Prop :=
  ∀ n url, ∃ document, server.answer n url = .ok (.dict document)

/-- A cache and how often its document was fetched since a state of the run: it holds for the period. -/
def Holding (limit : ℚ) (cache : Option PyDict) (expiresAt : ℚ) (before after : Nat) : Prop :=
  match cache with
  | none => after = before
  | some _ => limit ≤ expiresAt ∧ after = before + 1

/-- What is held changes by one fetch at most. -/
theorem Holding.le {limit : ℚ} {cache : Option PyDict} {expiresAt : ℚ} {before after : Nat}
    (h : Holding limit cache expiresAt before after) : after ≤ before + 1 := by
  cases cache with
  | none => exact Nat.le_succ_of_le (Nat.le_of_eq h)
  | some document => exact Nat.le_of_eq h.2

/-- Both caches of a provider hold, since a reading of the clock. -/
structure Caching (limit : ℚ) (start : Nat) (before : List (OidcDocument × String)) (w : OidcWorld) :
    Prop where
  reads : start ≤ w.ambient.monotonicReads
  discovery : Holding limit w.provider.discoveryCache w.provider.discoveryExpiresAt
    (fetchesOf .discovery before) (fetchesOf .discovery w.fetches)
  jwks : Holding limit w.provider.jwksCache w.provider.jwksExpiresAt
    (fetchesOf .jwks before) (fetchesOf .jwks w.fetches)

/-- A quiet call neither fetches nor touches the cache, so it keeps the invariant. -/
theorem Caching.handle {limit : ℚ} {start : Nat} {before : List (OidcDocument × String)}
    {c : OidcCall jwt} (quiet : c.Quiet) {w : OidcWorld} (h : Caching limit start before w) :
    Caching limit start before (handleOidc env jwt server c w).2 := by
  cases c with
  | get document url => exact quiet.elim
  | assign provider => exact quiet.elim
  | timeProvider => exact ⟨Nat.le_succ_of_le h.reads, h.discovery, h.jwks⟩
  | self => exact h
  | decode token key algorithm audience issuer leeway => exact ⟨h.reads, h.discovery, h.jwks⟩

/-- A run of quiet calls keeps it, call by call. -/
theorem Caching.run {limit : ℚ} {start : Nat} {before : List (OidcDocument × String)} {α : Type}
    {p : Oidc jwt α} (quiet : p.Sends OidcCall.Quiet) {w : OidcWorld}
    (h : Caching limit start before w) :
    Caching limit start before (Prog.run (handleOidc env jwt server) p w).2 :=
  Prog.run_kept (fun _ hc _ => Caching.handle hc) quiet h

/-- What follows the keys is quiet, so a program keeps the invariant where its first part does. -/
theorem Caching.bind {limit : ℚ} {start : Nat} {before : List (OidcDocument × String)} {α β : Type}
    {p : Oidc jwt α} {f : α → Oidc jwt β} (quiet : ∀ a, (f a).Sends OidcCall.Quiet) {w : OidcWorld}
    (h : Caching limit start before (Prog.run (handleOidc env jwt server) p w).2) :
    Caching limit start before (Prog.run (handleOidc env jwt server) (p >>= f) w).2 := by
  rw [Prog.run_bind]
  rcases hp : Prog.run (handleOidc env jwt server) p w with ⟨_ | a, w'⟩
  · rwa [hp] at h
  · rw [hp] at h
    exact h.run (quiet a)

section Period

variable {limit : ℚ} {start : Nat} {before : List (OidcDocument × String)}
  (succeeds : server.Succeeds) (period : limit = env.monotonic start + settings.oidcJwksCacheSeconds)
  (within : ∀ n, env.monotonic n < limit)

include succeeds period within

/-- A reading since the start expires past the period. -/
theorem Caching.getDiscoveryDocument (jwt : PyJwt) {w : OidcWorld} (h : Caching limit start before w) :
    let w' := (Prog.run (handleOidc env jwt server) (getDiscoveryDocument settings) w).2
    Caching limit start before w' ∧ w'.provider.jwksCache = w.provider.jwksCache := by
  intro w'
  have hexpires : limit ≤ env.monotonic w.ambient.monotonicReads + settings.oidcJwksCacheSeconds := by
    rw [period]
    exact add_le_add_left (env.monotonic_mono h.reads) _
  have hreads : start ≤ w.ambient.monotonicReads + 1 := Nat.le_succ_of_le h.reads
  have hdiscovery := h.discovery
  simp only [w', JWKSOIDCIdentityProvider.getDiscoveryDocument, Prog.run_bind, run_oidcCall,
    handleOidc, Ambient.monotonic]
  cases hcache : w.provider.discoveryCache with
  | some document =>
    rw [hcache] at hdiscovery
    have hfresh := lt_of_lt_of_le (within w.ambient.monotonicReads) hdiscovery.1
    simp only [if_pos hfresh, Prog.run_pure]
    exact ⟨⟨hreads, h.discovery, h.jwks⟩, trivial⟩
  | none =>
    rw [hcache] at hdiscovery
    simp only [getDiscoveryDocument.fetchDiscovery, Prog.run_bind, Prog.run_ofExcept]
    cases requiredSetting settings.oidcIssuer "OIDC_ISSUER" with
    | error e => exact ⟨⟨hreads, h.discovery, h.jwks⟩, rfl⟩
    | ok issuer =>
      obtain ⟨document, hanswer⟩ := succeeds w.fetches.length
        (rstripSlash issuer ++ "/.well-known/openid-configuration")
      simp only [run_oidcCall, handleOidc, hanswer, Prog.run_bind, Prog.run_pure]
      refine ⟨⟨hreads, ⟨hexpires, ?_⟩, ?_⟩, trivial⟩
      · have hnone : fetchesOf .discovery w.fetches = fetchesOf .discovery before := hdiscovery
        rw [← hnone]
        simp [fetchesOf]
      · simpa [fetchesOf] using h.jwks

/-- The step of the invariant: a document that is held answers within its lifetime; one that is not is
fetched, and held from this reading of the clock on. -/
theorem Caching.getJwks {w : OidcWorld} (h : Caching limit start before w) :
    Caching limit start before (Prog.run (handleOidc env jwt server) (getJwks settings) w).2 := by
  have hexpires : limit ≤ env.monotonic w.ambient.monotonicReads + settings.oidcJwksCacheSeconds := by
    rw [period]
    exact add_le_add_left (env.monotonic_mono h.reads) _
  have hread : Caching limit start before
      { w with ambient := { w.ambient with monotonicReads := w.ambient.monotonicReads + 1 } } :=
    ⟨Nat.le_succ_of_le h.reads, h.discovery, h.jwks⟩
  have hjwks := h.jwks
  simp only [JWKSOIDCIdentityProvider.getJwks, Prog.run_bind, run_oidcCall, handleOidc,
    Ambient.monotonic]
  cases hcache : w.provider.jwksCache with
  | some jwks =>
    rw [hcache] at hjwks
    have hfresh := lt_of_lt_of_le (within w.ambient.monotonicReads) hjwks.1
    simp only [if_pos hfresh, Prog.run_pure]
    exact hread
  | none =>
    obtain ⟨hfound, hsame⟩ := Caching.getDiscoveryDocument succeeds period within jwt hread
    simp only [getJwks.fetchJwks, Prog.run_bind]
    rcases hrun : Prog.run (handleOidc env jwt server)
      (JWKSOIDCIdentityProvider.getDiscoveryDocument settings) { w with
        ambient := { w.ambient with monotonicReads := w.ambient.monotonicReads + 1 } } with
      ⟨_ | discovery, w₁⟩
    · rw [hrun] at hfound
      exact hfound
    · rw [hrun] at hfound hsame
      dsimp only
      split
      next jwksUri hlookup =>
        split
        · exact hfound
        · obtain ⟨document, hanswer⟩ := succeeds w₁.fetches.length jwksUri
          have hnone : fetchesOf .jwks w₁.fetches = fetchesOf .jwks before := by
            have hheld := hfound.jwks
            rwa [show w₁.provider.jwksCache = none from hsame.trans hcache] at hheld
          simp only [run_oidcCall, handleOidc, hanswer, Prog.run_bind, Prog.run_pure]
          refine ⟨hfound.reads, ?_, ⟨hexpires, ?_⟩⟩
          · simpa [fetchesOf] using hfound.discovery
          · rw [← hnone]
            simp [fetchesOf]
      next => exact hfound

/-- One authentication asks for the keys at most once, and is quiet before and after. -/
theorem Caching.authenticate {w : OidcWorld} (h : Caching limit start before w)
    (credential : Option String) :
    Caching limit start before
      (Prog.run (handleOidc env jwt server) (authenticate settings credential) w).2 := by
  cases credential with
  | none => exact h
  | some token =>
    by_cases hblank : stripText token = ""
    · simp only [JWKSOIDCIdentityProvider.authenticate, hblank, if_true, Prog.run_pure]
      exact h
    · rw [run_authenticate hblank]
      have hverification := verification jwt settings token
      generalize namesKey (jwt.getUnverifiedHeader token) = names at hverification
      cases hverification with
      | refused quiet => exact h.run quiet
      | looksUp rest quiet eq =>
        rw [eq]
        exact .bind quiet (h.getJwks succeeds period within)

end Period

end Fetches

/-- **When the documents are fetched at most once.** In a run of operator requests, each document is
fetched at most once exactly where at most one of the requests has a key to look for. -/
theorem documents_fetched_once_iff (env : Env) (jwt : PyJwt) (server : OidcServer)
    (settings : RuntimeSettings) (oidc : settings.authMode = "oidc")
    (mode : settings.oidcProviderMode = "jwks") (requests : List (Option String)) (w : OidcWorld) :
    (∀ document, fetchesOf document
        (final (operatorStep env jwt server settings) w requests).fetches ≤
      fetchesOf document w.fetches + 1) ↔ requests.countP (needsKey jwt settings) ≤ 1 := by
  obtain ⟨hdiscovery, hjwks⟩ := fetches_final env jwt server oidc mode requests w
  constructor
  · intro once
    have honce := once .discovery
    omega
  · intro few document
    cases document with
    | discovery => omega
    | jwks => omega

/-- **One provider fetches each document at most once in a period**, as its caches promise: over any
credentials that the same provider authenticates, while every fetch succeeds. -/
theorem provider_fetches_once (env : Env) (jwt : PyJwt) (server : OidcServer)
    (settings : RuntimeSettings) (succeeds : server.Succeeds) {w : OidcWorld} (new : w.provider = {})
    (period : ∀ n, env.monotonic n <
      env.monotonic w.ambient.monotonicReads + settings.oidcJwksCacheSeconds)
    (credentials : List (Option String)) (document : OidcDocument) :
    fetchesOf document (final (fun credential =>
        Prog.run (handleOidc env jwt server) (authenticate settings credential)) w credentials).fetches ≤
      fetchesOf document w.fetches + 1 := by
  have hcaching : Caching (env.monotonic w.ambient.monotonicReads + settings.oidcJwksCacheSeconds)
      w.ambient.monotonicReads w.fetches (final (fun credential =>
        Prog.run (handleOidc env jwt server) (authenticate settings credential)) w credentials) := by
    refine state_invariant (I := fun w' => Caching _ _ w.fetches w') ?_ ?_ credentials
    · refine ⟨Nat.le_refl _, ?_, ?_⟩
      · rw [new]
        rfl
      · rw [new]
        rfl
    · intro w' credential h
      exact h.authenticate succeeds rfl period credential
  cases document with
  | discovery => exact hcaching.discovery.le
  | jwks => exact hcaching.jwks.le

/-! ## Two requests -/

/-- One bearer of a token, twice. -/
def sameBearer : List (Option String) := [some "Bearer finance", some "Bearer finance"]

theorem documents_fetched_once_iff_single :
    let w := final (operatorStep .still namingPyJwt oneKeyServer financeSettings) {}
      [some "Bearer finance", none]
    fetchesOf .discovery w.fetches ≤ 1 ∧ fetchesOf .jwks w.fetches ≤ 1 := by
  have honce := (documents_fetched_once_iff .still namingPyJwt oneKeyServer financeSettings rfl rfl
    [some "Bearer finance", none] {}).mpr (by decide +kernel)
  exact ⟨honce .discovery, honce .jwks⟩

/-- Two requests at one time, answered by a server that never fails, fetch both documents twice. -/
theorem documents_fetched_again :
    oneKeyServer.Succeeds ∧
      (∀ m n, Env.still.monotonic n < Env.still.monotonic m + financeSettings.oidcJwksCacheSeconds) ∧
      ∀ document, ¬ fetchesOf document (final (operatorStep .still namingPyJwt oneKeyServer
        financeSettings) {} sameBearer).fetches ≤ 1 := by
  refine ⟨?_, ?_, ?_⟩
  · intro n url
    unfold oneKeyServer
    dsimp only
    split
    · exact ⟨_, rfl⟩
    · exact ⟨_, rfl⟩
  · intro m n
    show (0 : ℚ) < 0 + ((3600 : Int) : ℚ)
    decide +kernel
  · intro document
    cases document <;> decide +kernel

end MpesaMcp
