/-
  **Who may read and write a document of the vault** (`wot-vault/src/auth.ts`,
  `application/authorization/capabilities.ts`).

  A request carries a bearer token of a DID and a capability for a resource, signed by its
  issuer or delegated in a chain whose links only restrict.  All of that is checked; whether
  the resource is the document that is asked for is not: it is enough that the resource
  contains its id (`access_by_substring`), and that is the only exception
  (`access_names_document`).

  Tokens are what `decodeJws` makes of them: the decoded header and payload, the signing
  input and the signature.  A payload is any JSON value, so its claims are too.
-/
import WebOfTrust.LogEntry
import Mathlib.Data.List.Infix
import Mathlib.Tactic.NormNum

namespace WebOfTrust

/-! ## 1. Tokens -/

inductive ClaimItem where
  | text (value : String)
  | other (shown : String)
deriving DecidableEq

/-- A claim as JSON has it.  `absent` stands for `undefined`, `null`, `false` and `0`. -/
inductive ClaimValue where
  | absent
  | text (value : String)
  | primitive (shown : String)
  | object
  | list (items : List ClaimItem)
deriving DecidableEq

def ClaimItem.shown : ClaimItem → String
  | .text value => value
  | .other shown => shown

open ClaimItem

namespace ClaimValue

def falsy : ClaimValue → Bool
  | .absent => true
  | .text value => value.isEmpty
  | .primitive _ | .object | .list _ => false

def shown : ClaimValue → String
  | .absent => "undefined"
  | .text value => value
  | .primitive shown => shown
  | .object => "[object Object]"
  | .list items => ",".intercalate (items.map ClaimItem.shown)

/-- `===`; two arrays or objects that were parsed apart are never the same. -/
def same : ClaimValue → ClaimValue → Bool
  | .absent, .absent => true
  | .text value, .text value' => decide (value = value')
  | .primitive shown, .primitive shown' => decide (shown = shown')
  | _, _ => false

def items : ClaimValue → List ClaimItem
  | .list items => items
  | _ => []

def includes (needle : String) : ClaimValue → Except String Bool
  | .text value => .ok (decide (needle.toList <:+: value.toList))
  | .list items => .ok (decide (ClaimItem.text needle ∈ items))
  | _ => .error "includes is not a function"

end ClaimValue

structure JwsHeader where
  alg : Option String
  kid : Option String

/-- `DecodedJws`.  The header is missing where it is no object. -/
structure DecodedJws (π : Type) where
  header : Option JwsHeader
  payload : π
  signingInput : Bytes
  signature : Bytes

structure IdentityClaims where
  did : ClaimValue
  iat : Option Rat

inductive BearerToken where
  | undecodable (message : String)
  | compact (jws : DecodedJws IdentityClaims)

/-- `Capability`, without its proof. -/
structure CapabilityClaims where
  id : ClaimValue
  issuer : ClaimValue
  audience : ClaimValue
  resource : ClaimValue
  permissions : ClaimValue
  expiration : ClaimValue

inductive CapabilityJws where
  | undecodable (message : String)
  | noObject
  | root (jws : DecodedJws CapabilityClaims)
  | delegated (jws : DecodedJws CapabilityClaims) (proof : CapabilityJws)

structure VaultEnvironment where
  didKeyToPublicKeyBytes : String → Except String Bytes
  verifyEd25519 : Bytes → Bytes → Bytes → Bool
  parseDate : ClaimValue → Option Int

section

variable (env : VaultEnvironment) {π : Type}

def verifyJwsWithPublicKey (jws : DecodedJws π) (publicKey : Bytes) : Except String Unit :=
  match jws.header with
  | none => .error "Invalid JWS header"
  | some header =>
    if header.alg ≠ some "EdDSA" then .error "Unsupported JWS alg"
    else if header.kid.all String.isEmpty then .error "Missing JWS kid"
    else if env.verifyEd25519 jws.signingInput jws.signature publicKey then .ok ()
    else .error "Invalid JWS signature"

/-! ## 2. Capabilities -/

inductive VaultPermission where
  | read
  | write
  | delete
  | delegate

def VaultPermission.name : VaultPermission → String
  | .read => "read"
  | .write => "write"
  | .delete => "delete"
  | .delegate => "delegate"

def validPerms : List String := ["read", "write", "delete", "delegate"]

def validateCapabilityFields (cap : CapabilityClaims) : Option String :=
  if cap.id.falsy then some "Missing field: id"
  else if cap.issuer.falsy then some "Missing field: issuer"
  else if cap.audience.falsy then some "Missing field: audience"
  else if cap.resource.falsy then some "Missing field: resource"
  else if cap.permissions.items = [] then some "Missing or empty field: permissions"
  else if cap.expiration.falsy then some "Missing field: expiration"
  else
    (cap.permissions.items.find? fun perm =>
      !decide (perm ∈ validPerms.map text)).map
        fun perm => "Invalid permission: \"" ++ perm.shown ++ "\""

def checkCapability (currentTime : Int) (jws : DecodedJws CapabilityClaims) : Except String Int :=
  match validateCapabilityFields jws.payload with
  | some fieldError => .error fieldError
  | none =>
    match env.parseDate jws.payload.expiration with
    | none => .error "Invalid expiration date"
    | some expiry =>
      if currentTime ≥ expiry then .error "Capability has expired"
      else
        let unresolved := "Cannot resolve issuer DID: " ++ jws.payload.issuer.shown
        match jws.payload.issuer with
        | .text issuer =>
          match env.didKeyToPublicKeyBytes issuer with
          | .error _ => .error unresolved
          | .ok publicKey =>
            match verifyJwsWithPublicKey env jws publicKey with
            | .error message =>
              .error ((if message = "Missing JWS kid" then "Invalid JWS header: "
                else "Invalid signature: ") ++ message)
            | .ok _ => .ok expiry
        | _ => .error unresolved

def checkAttenuation (parent child : CapabilityClaims) (expiry : Int) : Except String Unit :=
  if !parent.audience.same child.issuer then
    .error ("Delegation chain broken: parent audience (" ++ parent.audience.shown ++
      ") !== child issuer (" ++ child.issuer.shown ++ ")")
  else if !parent.resource.same child.resource then
    .error ("Delegation resource mismatch: parent (" ++ parent.resource.shown ++
      ") !== child (" ++ child.resource.shown ++ ")")
  else
    match child.permissions.items.find? fun perm => !decide (perm ∈ parent.permissions.items) with
    | some perm =>
      .error ("Permission escalation: \"" ++ perm.shown ++ "\" not in parent permissions [" ++
        ", ".intercalate (parent.permissions.items.map shown) ++ "]")
    | none =>
      if (env.parseDate parent.expiration).any (expiry > ·) then
        .error "Delegated capability expires after parent"
      else if text "delegate" ∈ parent.permissions.items then .ok ()
      else .error "Parent capability does not include \"delegate\" permission"

structure VerifiedCapability where
  capability : CapabilityClaims
  chain : List CapabilityClaims

/-- `verifyCapability`; every link reads the clock once more. -/
def verifyCapability (clock : Nat → Int) : Nat → CapabilityJws → Except String VerifiedCapability
  | _, .undecodable message => .error ("Invalid capability: " ++ message)
  | _, .noObject => .error "Invalid capability: cannot extract payload"
  | n, .root jws => (checkCapability env (clock n) jws).map fun _ => ⟨jws.payload, []⟩
  | n, .delegated jws proof =>
    match checkCapability env (clock n) jws with
    | .error error => .error error
    | .ok expiry =>
      match verifyCapability clock (n + 1) proof with
      | .error error => .error ("Invalid delegation chain: " ++ error)
      | .ok parentResult =>
        (checkAttenuation env parentResult.capability jws.payload expiry).map fun _ =>
          ⟨jws.payload, parentResult.chain ++ [parentResult.capability]⟩

def extractCapability : CapabilityJws → Option CapabilityClaims
  | .root jws => some jws.payload
  | .delegated jws _ => some jws.payload
  | .undecodable _ | .noObject => none

/-! ## 3. Requests -/

structure VaultRequest where
  authorization : Option BearerToken
  xCapability : Option CapabilityJws

structure AuthResult where
  authenticated : Bool
  did : Option String
  error : Option String

structure CapabilityAuthResult extends AuthResult where
  authorized : Bool

def AuthResult.refused (error : String) : AuthResult := ⟨false, none, some error⟩

/-- `verifyIdentity` at `now`, in milliseconds. -/
def verifyIdentity (now : Int) (req : VaultRequest) : AuthResult :=
  match req.authorization with
  | none => .refused "Missing Authorization header"
  | some (.undecodable message) => .refused ("Invalid token: " ++ message)
  | some (.compact token) =>
    match token.payload.did with
    | .text did =>
      if did.isEmpty then .refused "Invalid token: missing did"
      else
        match token.payload.iat with
        | none => .refused "Invalid token: missing iat"
        | some iat =>
          let age := (now : Rat) / 1000 - iat
          if age < -60 ∨ 300 < age then .refused "Token expired or clock skew too large"
          else
            match env.didKeyToPublicKeyBytes did with
            | .error _ => .refused ("Cannot resolve DID: " ++ did)
            | .ok publicKey =>
              match verifyJwsWithPublicKey env token publicKey with
              | .error message => .refused ("Invalid signature: " ++ message)
              | .ok _ => ⟨true, some did, none⟩
    | _ => .refused "Invalid token: missing did"

def AuthResult.forbidden (identity : AuthResult) (error : String) : CapabilityAuthResult :=
  ⟨⟨true, identity.did, some error⟩, false⟩

/-- `verifyAccess`.  It throws where the resource has no `includes`. -/
def verifyAccess (now : Int) (clock : Nat → Int) (req : VaultRequest) (docId : DocId)
    (requiredPermission : VaultPermission) : Except String CapabilityAuthResult :=
  let identity := verifyIdentity env now req
  if !identity.authenticated then .ok ⟨identity, false⟩
  else
    match req.xCapability with
    | none => .ok (identity.forbidden "Missing X-Capability header")
    | some capabilityJws =>
      match verifyCapability env clock 0 capabilityJws with
      | .error error => .ok (identity.forbidden ("Invalid capability: " ++ error))
      | .ok capResult =>
        let cap := capResult.capability
        if identity.did.map ClaimValue.text ≠ some cap.audience then
          .ok (identity.forbidden "Capability audience does not match authenticated DID")
        else if (extractCapability capabilityJws).isNone then
          .ok (identity.forbidden "Cannot extract capability")
        else
          match cap.resource.includes docId with
          | .error error => .error error
          | .ok false =>
            .ok (identity.forbidden ("Capability resource (" ++ cap.resource.shown ++
              ") does not match document (" ++ docId ++ ")"))
          | .ok true =>
            if text requiredPermission.name ∈ cap.permissions.items then
              .ok ⟨⟨true, identity.did, none⟩, true⟩
            else .ok (identity.forbidden ("Missing permission: " ++ requiredPermission.name))

end

/-! ## 4. What the checks say -/

section

variable {env : VaultEnvironment} {π : Type}

def SignedBy (env : VaultEnvironment) (did : String) (jws : DecodedJws π) : Prop :=
  ∃ publicKey header kid, env.didKeyToPublicKeyBytes did = .ok publicKey ∧
    jws.header = some header ∧ header.alg = some "EdDSA" ∧ header.kid = some kid ∧ kid ≠ "" ∧
    env.verifyEd25519 jws.signingInput jws.signature publicKey = true

theorem verifyJwsWithPublicKey_ok {jws : DecodedJws π} {publicKey : Bytes} :
    verifyJwsWithPublicKey env jws publicKey = .ok () ↔ ∃ header kid, jws.header = some header ∧
      header.alg = some "EdDSA" ∧ header.kid = some kid ∧ kid ≠ "" ∧
      env.verifyEd25519 jws.signingInput jws.signature publicKey = true := by
  unfold verifyJwsWithPublicKey
  rcases jws.header with _ | header
  · simp
  by_cases halg : header.alg = some "EdDSA"
  · rcases hkid : header.kid with _ | kid
    · simp [halg, hkid]
    by_cases hempty : kid = ""
    · simp [halg, hkid, hempty]
    · simp [halg, hkid, hempty]
  · simp [halg]

/-- One capability of a chain, on its own. -/
structure ValidLink (env : VaultEnvironment) (currentTime : Int)
    (jws : DecodedJws CapabilityClaims) (expiry : Int) : Prop where
  fields : validateCapabilityFields jws.payload = none
  expires : env.parseDate jws.payload.expiration = some expiry
  unexpired : currentTime < expiry
  signed : ∃ issuer, jws.payload.issuer = .text issuer ∧ SignedBy env issuer jws

theorem checkCapability_ok {currentTime expiry : Int} {jws : DecodedJws CapabilityClaims} :
    checkCapability env currentTime jws = .ok expiry ↔ ValidLink env currentTime jws expiry := by
  constructor
  · intro h
    unfold checkCapability at h
    split at h
    · cases h
    next hfields =>
    split at h
    · cases h
    next expiry' hexpires =>
    split at h
    · cases h
    next hunexpired =>
    dsimp only at h
    split at h
    · next issuer hissuer =>
      split at h
      · cases h
      next publicKey hkey =>
      split at h
      · cases h
      next hsigned =>
      cases h
      obtain ⟨header, kid, hrest⟩ := verifyJwsWithPublicKey_ok.mp hsigned
      exact ⟨hfields, hexpires, Int.not_le.mp hunexpired,
        ⟨issuer, hissuer, publicKey, header, kid, hkey, hrest⟩⟩
    · cases h
  · rintro ⟨hfields, hexpires, hunexpired, issuer, hissuer, publicKey, header, kid, hkey, hrest⟩
    have hsigned := (@verifyJwsWithPublicKey_ok env _ _ _).mpr ⟨header, kid, hrest⟩
    unfold checkCapability
    simp [hfields, hexpires, Int.not_le.mpr hunexpired, hissuer, hkey, hsigned]

structure Attenuates (env : VaultEnvironment) (parent child : CapabilityClaims) (expiry : Int) :
    Prop where
  audience : parent.audience.same child.issuer = true
  resource : parent.resource.same child.resource = true
  permissions : ∀ perm ∈ child.permissions.items, perm ∈ parent.permissions.items
  expiry : ∀ parentExpiry, env.parseDate parent.expiration = some parentExpiry →
    expiry ≤ parentExpiry
  delegates : text "delegate" ∈ parent.permissions.items

theorem checkAttenuation_ok {parent child : CapabilityClaims} {expiry : Int} :
    checkAttenuation env parent child expiry = .ok () ↔ Attenuates env parent child expiry := by
  constructor
  · intro h
    unfold checkAttenuation at h
    split at h
    · cases h
    next haudience =>
    split at h
    · cases h
    next hresource =>
    split at h
    · cases h
    next hpermissions =>
    split at h
    · cases h
    next hexpiry =>
    split at h
    · next hdelegates =>
      refine ⟨by simpa using haudience, by simpa using hresource, ?_, ?_, hdelegates⟩
      · simpa using List.find?_eq_none.mp hpermissions
      intro parentExpiry hparent
      rw [hparent] at hexpiry
      simpa using hexpiry
    · cases h
  · rintro ⟨haudience, hresource, hpermissions, hexpiry, hdelegates⟩
    have hfind : child.permissions.items.find?
        (fun perm => !decide (perm ∈ parent.permissions.items)) = none := by
      rw [List.find?_eq_none]
      intro perm hperm
      simp [hpermissions perm hperm]
    have hany : (env.parseDate parent.expiration).any (expiry > ·) = false := by
      cases hparent : env.parseDate parent.expiration with
      | none => rfl
      | some parentExpiry => simpa using hexpiry parentExpiry hparent
    unfold checkAttenuation
    simp [haudience, hresource, hfind, hany, hdelegates]

/-- **A valid chain**, and the claims at its end. -/
inductive ValidChain (env : VaultEnvironment) (clock : Nat → Int) :
    Nat → CapabilityJws → CapabilityClaims → Prop where
  | root {n : Nat} {jws : DecodedJws CapabilityClaims} {expiry : Int}
      (h : ValidLink env (clock n) jws expiry) : ValidChain env clock n (.root jws) jws.payload
  | delegated {n : Nat} {jws : DecodedJws CapabilityClaims} {proof : CapabilityJws}
      {parent : CapabilityClaims} {expiry : Int} (h : ValidLink env (clock n) jws expiry)
      (hparent : ValidChain env clock (n + 1) proof parent)
      (hattenuates : Attenuates env parent jws.payload expiry) :
      ValidChain env clock n (.delegated jws proof) jws.payload

variable {clock : Nat → Int} {n : Nat} {jws : CapabilityJws} {claims : CapabilityClaims}

theorem verifyCapability_ok : (∃ chain, verifyCapability env clock n jws = .ok ⟨claims, chain⟩) ↔
      ValidChain env clock n jws claims := by
  induction jws generalizing n claims with
  | undecodable message | noObject =>
    constructor
    · rintro ⟨chain, h⟩
      cases h
    · intro h
      cases h
  | root jws =>
    constructor
    · rintro ⟨chain, h⟩
      rw [verifyCapability] at h
      rcases hcheck : checkCapability env (clock n) jws with error | expiry
      · rw [hcheck] at h
        cases h
      rw [hcheck] at h
      cases h
      exact .root (checkCapability_ok.mp hcheck)
    · rintro (h | _)
      refine ⟨[], ?_⟩
      rw [verifyCapability, checkCapability_ok.mpr h]
      rfl
  | delegated jws proof ih =>
    constructor
    · rintro ⟨chain, h⟩
      rw [verifyCapability] at h
      split at h
      · cases h
      next expiry hcheck =>
      split at h
      · cases h
      next parentResult hparent =>
      cases hattenuates : checkAttenuation env parentResult.capability jws.payload expiry with
      | error error =>
        rw [hattenuates] at h
        cases h
      | ok _ =>
        rw [hattenuates] at h
        cases h
        exact .delegated (checkCapability_ok.mp hcheck) (ih.mp ⟨parentResult.chain, hparent⟩)
          (checkAttenuation_ok.mp hattenuates)
    · intro h
      cases h with
      | @delegated _ _ _ parent expiry hlink hparent hattenuates =>
        obtain ⟨chain, hchain⟩ := ih.mpr hparent
        refine ⟨chain ++ [parent], ?_⟩
        rw [verifyCapability, checkCapability_ok.mpr hlink]
        dsimp only
        rw [hchain]
        dsimp only
        rw [checkAttenuation_ok.mpr hattenuates]
        rfl

theorem ValidChain.extract (h : ValidChain env clock n jws claims) :
    extractCapability jws = some claims := by
  cases h with
  | root _ | delegated _ _ _ => rfl

def CapabilityJws.links : CapabilityJws → List CapabilityClaims
  | .undecodable _ | .noObject => []
  | .root jws => [jws.payload]
  | .delegated jws proof => jws.payload :: proof.links

theorem ValidChain.permits (h : ValidChain env clock n jws claims) {perm : ClaimItem}
    (hperm : perm ∈ claims.permissions.items) :
    ∀ link ∈ jws.links, perm ∈ link.permissions.items := by
  induction h with
  | root _ =>
    intro link hlink
    rw [List.mem_singleton.mp hlink]
    exact hperm
  | delegated _ _ hattenuates ih =>
    intro link hlink
    rcases List.mem_cons.mp hlink with rfl | hrest
    · exact hperm
    · exact ih (hattenuates.permissions perm hperm) link hrest

/-- A token of a DID, signed by it and in its time window, at `now` milliseconds. -/
def Identifies (env : VaultEnvironment) (now : Int) (req : VaultRequest) (did : String) : Prop :=
  ∃ token iat, req.authorization = some (.compact token) ∧ token.payload.did = .text did ∧
    did ≠ "" ∧ token.payload.iat = some iat ∧ -60 ≤ (now : Rat) / 1000 - iat ∧
    (now : Rat) / 1000 - iat ≤ 300 ∧ SignedBy env did token

theorem verifyIdentity_authenticated {now : Int} {req : VaultRequest} {did : String} :
    verifyIdentity env now req = ⟨true, some did, none⟩ ↔ Identifies env now req did := by
  constructor
  · intro h
    unfold verifyIdentity at h
    split at h
    · cases h
    · cases h
    next token htoken =>
    split at h
    · next did' hdid =>
      split at h
      · cases h
      next hnonempty =>
      split at h
      · cases h
      next iat hiat =>
      dsimp only at h
      split at h
      · cases h
      next hwindow =>
      split at h
      · cases h
      next publicKey hkey =>
      split at h
      · cases h
      next hsigned =>
      cases h
      obtain ⟨header, kid, hrest⟩ := verifyJwsWithPublicKey_ok.mp hsigned
      rw [not_or, not_lt, not_lt] at hwindow
      exact ⟨token, iat, htoken, hdid, by simpa using hnonempty, hiat, hwindow.1, hwindow.2,
        publicKey, header, kid, hkey, hrest⟩
    · cases h
  · rintro ⟨token, iat, htoken, hdid, hnonempty, hiat, hearly, hlate, publicKey, header, kid, hkey,
      hrest⟩
    have hsigned := (@verifyJwsWithPublicKey_ok env _ _ _).mpr ⟨header, kid, hrest⟩
    unfold verifyIdentity
    simp [htoken, hdid, hnonempty, hiat, not_lt.mpr hearly, not_lt.mpr hlate, hkey, hsigned]

theorem verifyIdentity_shape (now : Int) (req : VaultRequest) :
    (verifyIdentity env now req).authenticated = false ∨
      ∃ did, verifyIdentity env now req = ⟨true, some did, none⟩ := by
  unfold verifyIdentity
  dsimp only
  repeat' split
  all_goals first
    | exact Or.inl rfl
    | exact Or.inr ⟨_, rfl⟩

/-- Everything but the resource: the token, the chain, its audience and the permission. -/
def Entitled (env : VaultEnvironment) (now : Int) (clock : Nat → Int) (req : VaultRequest)
    (requiredPermission : VaultPermission) (jws : CapabilityJws) (claims : CapabilityClaims) :
    Prop :=
  req.xCapability = some jws ∧ ValidChain env clock 0 jws claims ∧
    (∃ did, Identifies env now req did ∧ claims.audience = .text did) ∧
    ∀ link ∈ claims :: jws.links, .text requiredPermission.name ∈ link.permissions.items

def Authorizes (env : VaultEnvironment) (now : Int) (clock : Nat → Int) (req : VaultRequest)
    (docId : DocId) (requiredPermission : VaultPermission) : Prop :=
  ∃ result, verifyAccess env now clock req docId requiredPermission = .ok result ∧
    result.authorized = true

theorem authorizes_iff {now : Int} {req : VaultRequest} {docId : DocId}
    {requiredPermission : VaultPermission} :
    Authorizes env now clock req docId requiredPermission ↔ ∃ jws claims,
      Entitled env now clock req requiredPermission jws claims ∧
        claims.resource.includes docId = .ok true := by
  constructor
  · rintro ⟨result, hresult, hauthorized⟩
    unfold verifyAccess at hresult
    dsimp only at hresult
    split at hresult
    · cases hresult
      cases hauthorized
    next hauthenticated =>
    obtain hnot | ⟨did, hidentity⟩ := @verifyIdentity_shape env now req
    · rw [hnot] at hauthenticated
      exact absurd rfl hauthenticated
    rw [hidentity] at hresult
    split at hresult
    · cases hresult
      cases hauthorized
    next jws hjws =>
    split at hresult
    · cases hresult
      cases hauthorized
    next capResult hverified =>
    split at hresult
    · cases hresult
      cases hauthorized
    next haudience =>
    split at hresult
    · cases hresult
      cases hauthorized
    split at hresult
    · cases hresult
    · cases hresult
      cases hauthorized
    next hincludes =>
    split at hresult
    · next hpermission =>
      have hchain := (@verifyCapability_ok env clock _ _ _).mp ⟨capResult.chain, hverified⟩
      refine ⟨jws, capResult.capability, ⟨hjws, hchain, ⟨did, ?_, ?_⟩, ?_⟩, hincludes⟩
      · exact verifyIdentity_authenticated.mp hidentity
      · simpa using (not_not.mp haudience).symm
      intro link hlink
      rcases List.mem_cons.mp hlink with rfl | hrest
      · exact hpermission
      · exact hchain.permits hpermission link hrest
    · cases hresult
      cases hauthorized
  · rintro ⟨jws, claims, ⟨hjws, hchain, ⟨did, hidentifies, haudience⟩, hpermission⟩, hincludes⟩
    obtain ⟨chain, hverified⟩ := verifyCapability_ok.mpr hchain
    refine ⟨⟨⟨true, some did, none⟩, true⟩, ?_, rfl⟩
    unfold verifyAccess
    rw [verifyIdentity_authenticated.mpr hidentifies]
    simp [hjws, hverified, haudience, hchain.extract, hincludes,
      hpermission claims List.mem_cons_self]

end

/-! ## 5. The document -/

def VALID_TYPES : List String := ["attestation", "verification", "contact", "space", "item"]

/-- `createResourceRef`, without a sub-path. -/
def createResourceRef (type id : String) : String := "wot:" ++ type ++ ":" ++ id

/-- The resource is the reference of exactly this document. -/
def NamesDoc (resource : ClaimValue) (docId : DocId) : Prop :=
  ∃ type ∈ VALID_TYPES, resource = .text (createResourceRef type docId)

theorem NamesDoc.unique {resource : ClaimValue} {docId docId' : DocId}
    (h : NamesDoc resource docId) (h' : NamesDoc resource docId') : docId = docId' := by
  obtain ⟨type, htype, rfl⟩ := h
  obtain ⟨type', htype', heq⟩ := h'
  have hcolon : ∀ type ∈ VALID_TYPES, ':' ∉ type.toList := by decide
  have hlist := congrArg String.toList (ClaimValue.text.inj heq)
  simp only [createResourceRef, String.toList_append, List.append_assoc,
    List.append_cancel_left_eq] at hlist
  exact String.toList_inj.mp (append_sep_inj (hcolon type htype) (hcolon type' htype') hlist).2

/-- A request that gets in on a resource that contains the id of the document without naming
    the document. -/
def Overreaching (env : VaultEnvironment) (now : Int) (clock : Nat → Int) (req : VaultRequest)
    (docId : DocId) (requiredPermission : VaultPermission) : Prop :=
  ∃ jws claims, Entitled env now clock req requiredPermission jws claims ∧
    claims.resource.includes docId = .ok true ∧ ¬ NamesDoc claims.resource docId

/-- **What access takes.**  Whoever is authorized has a token signed in its window, the
    capability of a valid chain for its DID with the permission at every link, and, if and only
    if the request does not overreach, the capability names exactly the document.  Requests
    that do not overreach never get at two documents with one capability. -/
theorem access_names_document (env : VaultEnvironment) : (∀ now clock req docId requiredPermission,
      (Authorizes env now clock req docId requiredPermission → ∃ jws claims,
        Entitled env now clock req requiredPermission jws claims ∧ NamesDoc claims.resource docId) ↔
        ¬ Overreaching env now clock req docId requiredPermission) ∧
    ∀ now clock req docId requiredPermission now' clock' req' docId' requiredPermission',
      req.xCapability = req'.xCapability →
      ¬ Overreaching env now clock req docId requiredPermission →
      ¬ Overreaching env now' clock' req' docId' requiredPermission' →
      Authorizes env now clock req docId requiredPermission →
      Authorizes env now' clock' req' docId' requiredPermission' → docId = docId' := by
  have hclaims : ∀ {now clock req perm jws claims now' clock' req' perm' jws' claims'},
      Entitled env now clock req perm jws claims →
        Entitled env now' clock' req' perm' jws' claims' →
        req.xCapability = req'.xCapability → claims = claims' := by
    intro now clock req perm jws claims now' clock' req' perm' jws' claims' h h' hsame
    have hjws := (h.1.symm.trans hsame).trans h'.1
    cases hjws
    exact Option.some.inj (h.2.1.extract.symm.trans h'.2.1.extract)
  have hnamed : ∀ {now clock req docId perm},
      ¬ Overreaching env now clock req docId perm → Authorizes env now clock req docId perm →
        ∃ jws claims, Entitled env now clock req perm jws claims ∧
          NamesDoc claims.resource docId := by
    intro now clock req docId perm hnot hauthorizes
    obtain ⟨jws, claims, hentitled, hincludes⟩ := authorizes_iff.mp hauthorizes
    refine ⟨jws, claims, hentitled, ?_⟩
    by_contra hunnamed
    exact hnot ⟨jws, claims, hentitled, hincludes, hunnamed⟩
  constructor
  · intro now clock req docId perm
    refine ⟨?_, hnamed⟩
    rintro hnames ⟨jws, claims, hentitled, hincludes, hunnamed⟩
    obtain ⟨jws', claims', hentitled', hnamed'⟩ :=
      hnames (authorizes_iff.mpr ⟨jws, claims, hentitled, hincludes⟩)
    rw [hclaims hentitled hentitled' rfl] at hunnamed
    exact hunnamed hnamed'
  · intro now clock req docId perm now' clock' req' docId' perm' hsame hnot hnot' hgets hgets'
    obtain ⟨jws, claims, hentitled, hnames⟩ := hnamed hnot hgets
    obtain ⟨jws', claims', hentitled', hnames'⟩ := hnamed hnot' hgets'
    rw [← hclaims hentitled hentitled' hsame] at hnames'
    exact hnames.unique hnames'

def plainVault : VaultEnvironment where
  didKeyToPublicKeyBytes did := .ok did.toUTF8.toList
  verifyEd25519 signingInput signature publicKey := decide (signature = publicKey ++ signingInput)
  parseDate
    | .text _ => some 2000000
    | _ => none

/-- Signed by a DID of `plainVault`. -/
def plainJws {π : Type} (did : String) (payload : π) : DecodedJws π :=
  ⟨some ⟨some "EdDSA", some did⟩, payload, [], did.toUTF8.toList⟩

/-- `bob` asks with a capability that `alice` has given him for a space. -/
def spaceRequest (spaceId : String) : VaultRequest where
  authorization := some (.compact (plainJws "did:key:bob" ⟨.text "did:key:bob", some 1000⟩))
  xCapability := some (.root (plainJws "did:key:alice"
    ⟨.text "cap-1", .text "did:key:alice", .text "did:key:bob",
      .text (createResourceRef "space" spaceId), .list [.text "read"], .text "2033-05-18"⟩))

theorem authorizes_spaceRequest {spaceId docId : String}
    (h : (verifyAccess plainVault 1000000 (fun _ => 1000000) (spaceRequest spaceId) docId
      .read).toOption.any (·.authorized) = true) :
    Authorizes plainVault 1000000 (fun _ => 1000000) (spaceRequest spaceId) docId .read := by
  rw [Option.any_eq_true] at h
  obtain ⟨result, hresult, hauthorized⟩ := h
  cases hrun : verifyAccess plainVault 1000000 (fun _ => 1000000) (spaceRequest spaceId) docId
      .read with
  | error error =>
    rw [hrun] at hresult
    cases hresult
  | ok result' =>
    rw [hrun] at hresult
    cases hresult
    exact ⟨result, hrun, hauthorized⟩

/-- **Access by substring**: one capability opens two documents. -/
theorem access_by_substring :
    ¬ ∀ (env : VaultEnvironment) (now : Int) (clock : Nat → Int) (req : VaultRequest)
      (docId docId' : DocId) (requiredPermission : VaultPermission),
      Authorizes env now clock req docId requiredPermission →
      Authorizes env now clock req docId' requiredPermission → docId = docId' := by
  intro h
  have hsame := h plainVault 1000000 (fun _ => 1000000) (spaceRequest "garden-12") "garden-12"
    "garden-1" .read (authorizes_spaceRequest (by decide +kernel))
    (authorizes_spaceRequest (by decide +kernel))
  exact absurd hsame (by decide)

end WebOfTrust
