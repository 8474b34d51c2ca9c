/-
  **The resources of the profile service** (`profile-service-resource.ts`).

  A resource is a compact JWS: a profile with its DID document, or a list of verifications
  or attestations.  What `decodeJws` makes of a text is given; the checks of the payload, of
  the resolved DID document and of the key are those of the source.  A resource that verifies
  (`Genuine`) names the DID it was asked for, carries a version and is signed by a key of
  that DID.
-/
import WebOfTrust.BrokerDevices
import WebOfTrust.VaultAccess
import WebOfTrust.VerificationWorkflow

namespace WebOfTrust

/-! ## 1. JSON values -/

inductive JsonValue where
  | null
  | boolean (value : Bool)
  | number (value : Rat)
  | text (value : String)
  | array (entries : List JsonValue)
  | object (fields : List (String × JsonValue))

abbrev JsonRecord := List (String × JsonValue)

def MAX_SAFE_INTEGER : Nat := 9007199254740991

section

variable (value : Option JsonValue) (message : String)

def assertRecord : Except String JsonRecord :=
  match value with
  | some (.object fields) => .ok fields
  | _ => .error message

/-- `if (!p) throw new Error(message)`. -/
def require (p : Prop) [Decidable p] (message : String) : Except String Unit :=
  if p then .ok () else .error message

def assertString : Except String String :=
  match value with
  | some (.text text) => .ok text
  | _ => .error message

def assertArray : Except String (List JsonValue) :=
  match value with
  | some (.array entries) => .ok entries
  | _ => .error message

def assertStringArray : Except String (List String) := do
  let entries ← assertArray value message
  entries.mapM fun entry => assertString (some entry) message

end

def safeVersion : Option JsonValue → Option Nat
  | some (.number value) =>
    if value.den = 1 ∧ 0 ≤ value.num ∧ value.num ≤ MAX_SAFE_INTEGER then some value.num.toNat
    else none
  | _ => none

section

variable (value : Option JsonValue)

def assertVersion (name : String) : Except String Nat :=
  match safeVersion value with
  | some version => .ok version
  | none => .error ("Invalid " ++ name)

/-! ## 2. DID documents -/

structure VerificationMethod where
  id : String
  type : String
  controller : String
  publicKeyMultibase : String

structure DidService where
  id : String
  type : String
  serviceEndpoint : String

structure DidDocumentRecord where
  id : Did
  verificationMethod : List VerificationMethod
  authentication : List String
  assertionMethod : List String
  keyAgreement : List VerificationMethod
  service : Option (List DidService)

variable (message : String)

def assertVerificationMethods : Except String (List VerificationMethod) := do
  let entries ← assertArray value message
  entries.mapM fun entry => do
    let method ← assertRecord (some entry) message
    let id ← assertString (method.lookup "id") message
    let type ← assertString (method.lookup "type") message
    let controller ← assertString (method.lookup "controller") message
    let publicKeyMultibase ← assertString (method.lookup "publicKeyMultibase") message
    return ⟨id, type, controller, publicKeyMultibase⟩

def assertServices : Except String (List DidService) := do
  let entries ← assertArray value message
  entries.mapM fun entry => do
    let service ← assertRecord (some entry) message
    let id ← assertString (service.lookup "id") message
    let type ← assertString (service.lookup "type") message
    let serviceEndpoint ← assertString (service.lookup "serviceEndpoint") message
    return ⟨id, type, serviceEndpoint⟩

def assertOptionalServices : Except String (Option (List DidService)) :=
  match value with
  | none => .ok none
  | value => some <$> assertServices value message

variable (expectedDid : Did)

/-- `assertDidDocument` and `assertResolvedDidDocument`, which differ in their messages. -/
def assertDocumentOf (message mismatch : String) : Except String DidDocumentRecord := do
  let document ← assertRecord value message
  let id ← assertString (document.lookup "id") mismatch
  require (id = expectedDid) mismatch
  let verificationMethod ← assertVerificationMethods (document.lookup "verificationMethod") message
  let authentication ← assertStringArray (document.lookup "authentication") message
  let assertionMethod ← assertStringArray (document.lookup "assertionMethod") message
  let keyAgreement ← assertVerificationMethods (document.lookup "keyAgreement") message
  let service ← assertOptionalServices (document.lookup "service") message
  return ⟨id, verificationMethod, authentication, assertionMethod, keyAgreement, service⟩

def assertDidDocument : Except String DidDocumentRecord :=
  assertDocumentOf value expectedDid "Invalid profile resource DID document"
    "Profile resource DID document id does not match payload DID"

def assertResolvedDidDocument : Except String DidDocumentRecord :=
  assertDocumentOf value expectedDid "Invalid resolved profile resource DID document"
    "Resolved profile resource DID document id does not match resolved DID"

end

def methodIdMatchesKid (methodId : String) (did : Did) (kid : String) : Bool :=
  decide (methodId = kid) ||
    (decide (methodId.toList.head? = some '#') && decide (did ++ methodId = kid))

/-! ## 3. Texts of a certain form -/

def isBase64UrlChar (c : Char) : Bool := c.isAlphanum || decide (c = '_') || decide (c = '-')

def isCompactJwsString (value : String) : Bool :=
  let parts := value.toList.splitOn '.'
  decide (parts.length = 3) && parts.all fun part => !part.isEmpty && part.all isBase64UrlChar

/-- The round trip through `Date.UTC` does not keep years below 100. -/
def isRfc3339DateTime (value : String) : Bool :=
  isValidRfc3339DateTimeWithExplicitTimezone value &&
    (takeDigits 4 0 value.toList).any fun (year, _) => decide (100 ≤ year)

example : isRfc3339DateTime "2026-02-28T23:59:59.5+01:00" = true ∧
    isRfc3339DateTime "2026-02-29T23:59:59Z" = false := by decide +kernel

/-! ## 4. Payloads -/

inductive ProfileServiceResourceKind where
  | profile
  | verifications
  | attestations
deriving DecidableEq

def ProfileServiceResourceKind.name : ProfileServiceResourceKind → String
  | .profile => "profile"
  | .verifications => "verifications"
  | .attestations => "attestations"

structure ProfileMetadata where
  name : String
  fields : JsonRecord

inductive ProfileServiceContent where
  | profile (didDocument : DidDocumentRecord) (profile : ProfileMetadata)
  | list (kind : ProfileServiceResourceKind) (entries : List String)

structure ProfileServiceResourcePayload where
  did : Did
  version : Nat
  content : ProfileServiceContent
  updatedAt : String

def FORBIDDEN_PROFILE_METADATA_KEYS : List String := ["encryptionPublicKey"]

def assertPayloadDid (record : JsonRecord) (expectedDid : Did) (invalid mismatch : String) :
    Except String Unit :=
  match record.lookup "did" with
  | some (.text did) =>
    if !didPattern did then .error invalid
    else if did ≠ expectedDid then .error mismatch
    else .ok ()
  | _ => .error invalid

def assertUpdatedAt (record : JsonRecord) (message : String) : Except String String :=
  match record.lookup "updatedAt" with
  | some (.text updatedAt) =>
    if isRfc3339DateTime updatedAt then .ok updatedAt else .error message
  | _ => .error message

def validateProfileServiceResourcePayload (payload : JsonValue) (expectedDid : Did) :
    Except String ProfileServiceResourcePayload := do
  let record ← assertRecord (some payload) "Invalid profile resource payload"
  assertPayloadDid record expectedDid "Invalid profile resource DID"
    "Profile resource DID does not match path DID"
  let version ← assertVersion (record.lookup "version") "profile resource version"
  let didDocument ← assertDidDocument (record.lookup "didDocument") expectedDid
  let profile ← assertRecord (record.lookup "profile") "Invalid profile resource profile metadata"
  let name ← assertString (profile.lookup "name") "Invalid profile resource profile name"
  require (name ≠ "") "Invalid profile resource profile name"
  FORBIDDEN_PROFILE_METADATA_KEYS.forM fun key =>
    require (¬ (profile.lookup key).isSome)
      ("Profile resource profile metadata must not contain " ++ key)
  let updatedAt ← assertUpdatedAt record "Invalid profile resource updatedAt"
  return ⟨expectedDid, version, .profile didDocument ⟨name, profile⟩, updatedAt⟩

def presentListField (record : JsonRecord) : Except String ProfileServiceResourceKind :=
  match [ProfileServiceResourceKind.verifications, .attestations].filter fun kind =>
      (record.lookup kind.name).isSome with
  | [listField] => .ok listField
  | _ => .error "Profile service list resource must contain exactly one list field"

def validateProfileServiceListResourcePayload (payload : JsonValue) (expectedDid : Did)
    (resourceKind : ProfileServiceResourceKind) : Except String ProfileServiceResourcePayload := do
  let record ← assertRecord (some payload) "Invalid profile service list resource payload"
  require (¬ (record.lookup "didDocument").isSome ∧ ¬ (record.lookup "profile").isSome)
    "Profile service list resource must not contain didDocument or profile"
  assertPayloadDid record expectedDid "Invalid profile service list resource DID"
    "Profile service list resource DID does not match path DID"
  let version ← assertVersion (record.lookup "version") "profile service list resource version"
  let updatedAt ← assertUpdatedAt record "Invalid profile service list resource updatedAt"
  let listField ← presentListField record
  require (listField = resourceKind)
    "Profile service list resource kind does not match payload list field"
  let message := "Profile service list resource entries must be compact JWS strings"
  let entries ← assertStringArray (record.lookup listField.name) message
  require (∀ entry ∈ entries, isCompactJwsString entry = true) message
  return ⟨expectedDid, version, .list listField entries, updatedAt⟩

/-! ## 5. Verification -/

/-- What the resource format takes from elsewhere: decoding a compact JWS and a multibase key,
    and the crypto adapter. -/
structure ResourceEnvironment where
  decodeJws : String → Except String (DecodedJws JsonValue)
  ed25519MultibaseToPublicKeyBytes : String → Except String Bytes
  verifyEd25519 : Bytes → Bytes → Bytes → Bool

abbrev DidResolver := Did → Except String (Option JsonValue)

section

variable (env : ResourceEnvironment) (didResolver : DidResolver)

def foundDocument (resolved : Option JsonValue) (did : Did) : Except String DidDocumentRecord :=
  match resolved with
  | none => .error "Unable to resolve profile resource DID"
  | some document => assertResolvedDidDocument (some document) did

def findVerificationMethod (didDocument : DidDocumentRecord) (kid : String) :
    Except String VerificationMethod :=
  match didDocument.verificationMethod.find? fun method =>
      methodIdMatchesKid method.id (didOrKidToDid kid) kid with
  | none => .error "Unable to resolve profile resource verification method"
  | some method => .ok method

def resolveVerificationPublicKey (kid : String) : Except String Bytes := do
  let resolved ← didResolver (didOrKidToDid kid)
  let didDocument ← foundDocument resolved (didOrKidToDid kid)
  let method ← findVerificationMethod didDocument kid
  env.ed25519MultibaseToPublicKeyBytes method.publicKeyMultibase

def assertHeader : Option JwsHeader → Except String String
  | none => .error "Invalid JWS header"
  | some header =>
    if header.alg ≠ some "EdDSA" then .error "Unsupported JWS alg"
    else
      match header.kid with
      | some kid => if kid.isEmpty then .error "Missing JWS kid" else .ok kid
      | none => .error "Missing JWS kid"

def validateResource (payload : JsonValue) (expectedDid : Did) :
    ProfileServiceResourceKind → Except String ProfileServiceResourcePayload
  | .profile => validateProfileServiceResourcePayload payload expectedDid
  | resourceKind => validateProfileServiceListResourcePayload payload expectedDid resourceKind

def verifyProfileServiceResourceJws (jws : String) (expectedDid : Did)
    (resourceKind : ProfileServiceResourceKind) : Except String ProfileServiceResourcePayload := do
  let decoded ← env.decodeJws jws
  let kid ← assertHeader decoded.header
  let payload ← validateResource decoded.payload expectedDid resourceKind
  require (didOrKidToDid kid = payload.did)
    "Profile service resource JWS kid DID does not match payload DID"
  let publicKey ← resolveVerificationPublicKey env didResolver kid
  require (env.verifyEd25519 decoded.signingInput decoded.signature publicKey = true)
    "Invalid JWS signature"
  return payload

end

/-! ## 6. Versions -/

inductive ProfileResourcePutAcceptance where
  | accept
  | conflict (conflictVersion : Nat)

def decideProfileResourcePutAcceptance (incomingVersion : Nat) (storedVersion : Option Nat) :
    ProfileResourcePutAcceptance :=
  match storedVersion with
  | none => .accept
  | some stored => if incomingVersion > stored then .accept else .conflict stored

def detectProfileResourceRollback (fetchedVersion : Nat) (lastSeenVersion : Option Nat) : Bool :=
  match lastSeenVersion with
  | none => false
  | some lastSeen => decide (fetchedVersion < lastSeen)

/-! ## 7. What verifies -/

theorem except_bind_ok {α β : Type} {x : Except String α} {f : α → Except String β} {b : β} :
    (x >>= f) = .ok b ↔ ∃ a, x = .ok a ∧ f a = .ok b := by
  rcases x with message | a
  · simp [bind, Except.bind]
  · simp [bind, Except.bind]

variable {message : String} {value : Option JsonValue} {json : JsonValue} {did : Did}
  {payload : ProfileServiceResourcePayload} {kind : ProfileServiceResourceKind}

theorem require_ok {p : Prop} [Decidable p] : require p message = .ok () ↔ p := by
  unfold require
  split <;> simp_all

theorem assertRecord_ok {fields : JsonRecord} :
    assertRecord value message = .ok fields ↔ value = some (.object fields) := by
  unfold assertRecord
  split <;> simp_all

theorem assertVersion_ok {name : String} {version : Nat} :
    assertVersion value name = .ok version ↔ safeVersion value = some version := by
  unfold assertVersion
  split <;> simp_all

theorem assertPayloadDid_ok {record : JsonRecord} {expectedDid : Did} {invalid mismatch : String} :
    assertPayloadDid record expectedDid invalid mismatch = .ok () ↔
      record.lookup "did" = some (.text expectedDid) ∧ didPattern expectedDid = true := by
  unfold assertPayloadDid
  split
  · next did hdid =>
    rw [hdid]
    by_cases hpattern : didPattern did = true
    · by_cases heq : did = expectedDid
      · subst heq
        simp [hpattern]
      · simp [hpattern, heq]
    rw [if_pos (by simpa using hpattern)]
    simp only [reduceCtorEq, Option.some.injEq, JsonValue.text.injEq, false_iff, not_and]
    rintro rfl
    exact hpattern
  · next hnone =>
    simp only [reduceCtorEq, false_iff, not_and]
    intro hdid
    exact absurd hdid (hnone expectedDid)

theorem assertDocumentOf_ok {expectedDid : Did} {mismatch : String} {document : DidDocumentRecord}
    (h : assertDocumentOf value expectedDid message mismatch = .ok document) :
    document.id = expectedDid := by
  unfold assertDocumentOf at h
  simp only [except_bind_ok] at h
  obtain ⟨fields, -, id, -, _, hid, _, -, _, -, _, -, _, -, _, -, hdocument⟩ := h
  cases hdocument
  exact require_ok.mp hid

/-- What the payload of a resource says: the DID and the version are in it, and its content is
    of the kind that was asked for. -/
structure Describes (json : JsonValue) (did : Did) (kind : ProfileServiceResourceKind)
    (payload : ProfileServiceResourcePayload) : Prop where
  did_eq : payload.did = did
  fields : ∃ fields, json = .object fields ∧ fields.lookup "did" = some (.text did) ∧
    safeVersion (fields.lookup "version") = some payload.version
  content : match payload.content with
    | .profile didDocument profile => kind = .profile ∧ didDocument.id = did ∧ profile.name ≠ ""
    | .list listField entries =>
      kind = listField ∧ ∀ entry ∈ entries, isCompactJwsString entry = true

theorem validateProfileServiceResourcePayload_ok
    (h : validateProfileServiceResourcePayload json did = .ok payload) :
    Describes json did .profile payload := by
  unfold validateProfileServiceResourcePayload at h
  simp only [except_bind_ok] at h
  obtain ⟨record, hrecord, _, hdid, version, hversion, didDocument, hdocument, profile, -,
    name, -, _, hname, _, -, updatedAt, -, hpayload⟩ := h
  cases hpayload
  have hjson : json = .object record := Option.some.inj (assertRecord_ok.mp hrecord)
  constructor
  · rfl
  · exact ⟨record, hjson, (assertPayloadDid_ok.mp hdid).1, assertVersion_ok.mp hversion⟩
  · exact ⟨rfl, assertDocumentOf_ok hdocument, require_ok.mp hname⟩

theorem validateProfileServiceListResourcePayload_ok
    (h : validateProfileServiceListResourcePayload json did kind = .ok payload) :
    Describes json did kind payload := by
  unfold validateProfileServiceListResourcePayload at h
  simp only [except_bind_ok] at h
  obtain ⟨record, hrecord, _, -, _, hdid, version, hversion, updatedAt, -, listField, -, _, hkind,
    entries, -, _, hcompact, hpayload⟩ := h
  cases hpayload
  have hjson : json = .object record := Option.some.inj (assertRecord_ok.mp hrecord)
  constructor
  · rfl
  · exact ⟨record, hjson, (assertPayloadDid_ok.mp hdid).1, assertVersion_ok.mp hversion⟩
  · exact ⟨(require_ok.mp hkind).symm, require_ok.mp hcompact⟩

theorem validateResource_ok (h : validateResource json did kind = .ok payload) :
    Describes json did kind payload := by
  unfold validateResource at h
  split at h
  · exact validateProfileServiceResourcePayload_ok h
  · exact validateProfileServiceListResourcePayload_ok h

theorem assertHeader_ok {header : Option JwsHeader} {kid : String}
    (h : assertHeader header = .ok kid) : header = some ⟨some "EdDSA", some kid⟩ := by
  rcases header with _ | ⟨alg, key⟩
  · cases h
  unfold assertHeader at h
  by_cases halg : alg = some "EdDSA"
  · rcases key with _ | key
    · simp [halg] at h
    by_cases hempty : key.isEmpty = true
    · simp [halg, hempty] at h
    · simp only [halg, ne_eq, not_true_eq_false, if_false, if_neg hempty, Except.ok.injEq] at h
      rw [halg, h]
  · simp [halg] at h

/-- `jws` is a resource of the DID and the kind: it describes it, and a key of the DID signed
    it. -/
def Genuine (env : ResourceEnvironment) (didResolver : DidResolver) (jws : String)
    (did : Did) (kind : ProfileServiceResourceKind) (payload : ProfileServiceResourcePayload) :
    Prop :=
  ∃ decoded kid publicKey, env.decodeJws jws = .ok decoded ∧
    Describes decoded.payload did kind payload ∧
    decoded.header = some ⟨some "EdDSA", some kid⟩ ∧ didOrKidToDid kid = did ∧
    resolveVerificationPublicKey env didResolver kid = .ok publicKey ∧
    env.verifyEd25519 decoded.signingInput decoded.signature publicKey = true

/-- **What `verifyProfileServiceResourceJws` accepts is genuine.** -/
theorem verifyProfileServiceResourceJws_ok {env : ResourceEnvironment} {didResolver : DidResolver}
    {jws : String} (h : verifyProfileServiceResourceJws env didResolver jws did kind = .ok payload) :
    Genuine env didResolver jws did kind payload := by
  unfold verifyProfileServiceResourceJws at h
  simp only [except_bind_ok] at h
  obtain ⟨decoded, hdecoded, kid, hheader, checked, hchecked, _, hsame, publicKey, hkey, _, hvalid,
    hpayload⟩ := h
  cases hpayload
  have hdescribes := validateResource_ok hchecked
  have hdid : didOrKidToDid kid = did := by
    rw [require_ok.mp hsame, hdescribes.did_eq]
  exact ⟨decoded, kid, publicKey, hdecoded, hdescribes, assertHeader_ok hheader, hdid, hkey,
    require_ok.mp hvalid⟩

theorem accept_iff {incomingVersion : Nat} {storedVersion : Option Nat} :
    decideProfileResourcePutAcceptance incomingVersion storedVersion = .accept ↔
      ∀ stored ∈ storedVersion, stored < incomingVersion := by
  unfold decideProfileResourcePutAcceptance
  split <;> simp

theorem conflict_iff {incomingVersion conflictVersion : Nat} {storedVersion : Option Nat} :
    decideProfileResourcePutAcceptance incomingVersion storedVersion = .conflict conflictVersion ↔
      storedVersion = some conflictVersion ∧ incomingVersion ≤ conflictVersion := by
  unfold decideProfileResourcePutAcceptance
  rcases storedVersion with _ | stored
  · simp
  by_cases hlt : incomingVersion > stored
  · simp only [if_pos hlt, reduceCtorEq, Option.some.injEq, false_iff, not_and]
    rintro rfl
    omega
  simp only [if_neg hlt, ProfileResourcePutAcceptance.conflict.injEq, Option.some.injEq]
  constructor
  · rintro rfl
    exact ⟨rfl, by omega⟩
  · exact fun h => h.1

end WebOfTrust
