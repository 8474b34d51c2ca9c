/-
  **What a relay receives and sends** (`wot-relay/src/relay.ts`, the verifiers
  of `wot-core/src/protocol/sync`).

  Signatures are symbolic: a JWS names the public key it was signed for, and a
  verifier compares.  What else a verifier can reject (a malformed field, a
  failing crypto provider) enters as the `failure` of the step's `Env`.
-/
import WebOfTrust.LogEntry

namespace WebOfTrust

/-! ## 1. Signed frames -/

abbrev SocketId := Nat
abbrev PublicKey := String

/-- The `kid` of a JWS: `wot:space:<spaceId>#cap-<generation>`, the
    verification method of a DID, or a bare DID. -/
inductive JwsKid where
  | capability (spaceId : DocId) (generation : Nat)
  | verificationMethod (did : Did)
  | bare (did : Did)
deriving DecidableEq

/-- `didOrKidToDid`, where the part before `#` is a DID. -/
def JwsKid.did? : JwsKid → Option Did
  | .capability _ _ => none
  | .verificationMethod did => some did
  | .bare did => some did

def JwsKid.hasFragment : JwsKid → Bool
  | .bare _ => false
  | _ => true

/-- `adminAuthHeaderKidDid`: a management frame is signed under a verification
    method. -/
def JwsKid.adminAuthHeaderKidDid : JwsKid → Option Did
  | .verificationMethod did => some did
  | _ => none

/-- `didOrKidToDid`, on the text of a kid. -/
def didOrKidToDid (didOrKid : String) : Did :=
  String.ofList (didOrKid.toList.takeWhile (· ≠ '#'))

/-- An inner JWS: its header, the key it verifies against and its payload. -/
structure SignedJws (α : Type) where
  kid : JwsKid
  signer : PublicKey
  payload : α

/-- A control frame as it arrives: parsed, or refused by its parser with a
    message. -/
inductive ControlFrame (α : Type) where
  | malformed (message : String)
  | signed (jws : SignedJws α)

structure SpaceRegisterPayload where
  spaceId : DocId
  spaceCapabilityVerificationKey : PublicKey
  adminDids : List Did

structure SpaceRotatePayload where
  spaceId : DocId
  newSpaceCapabilityVerificationKey : PublicKey
  newGeneration : Nat

/-- The payload of `admin-add` (`newAdminDid`) and of `admin-remove`
    (`removedAdminDid`). -/
structure AdminChangePayload where
  spaceId : DocId
  adminDid : Did

structure DeviceRevokePayload where
  did : Did
  deviceId : DeviceId
  revokedAt : String
deriving DecidableEq

/-- A log-entry envelope: its `id`, its `to` and the entry in its body. -/
structure LogEntryMessage where
  id : Option String
  toDids : List Did
  entry : EntryJws
deriving DecidableEq

def LogEntryMessage.messageId (m : LogEntryMessage) : String := m.id.getD "unknown"

structure SyncRequest where
  id : String
  docId : DocId
  heads : List (DeviceId × Nat)
  limit : Option Nat

/-! ## 2. Capabilities -/

inductive Permission where
  | read
  | write
deriving DecidableEq

inductive CapabilityPath where
  | space
  | personal
deriving DecidableEq

structure CapabilityPayload where
  spaceId : DocId
  audience : Did
  permissions : List Permission
  generation : Nat
  validUntil : Nat

inductive PresentCapabilityFrame where
  | malformed
  | undecodable
  | present (capabilityJws : SignedJws CapabilityPayload)

def verifySpaceCapabilityJws (jws : SignedJws CapabilityPayload) (publicKey : PublicKey)
    (expectedSpaceId : DocId) (expectedAudience : Did) (expectedGeneration now : Nat) :
    Except String CapabilityPayload :=
  if jws.signer ≠ publicKey then .error "Invalid JWS signature"
  else if jws.kid ≠ .capability jws.payload.spaceId jws.payload.generation then
    .error "Capability kid mismatch"
  else if jws.payload.spaceId ≠ expectedSpaceId then .error "Capability spaceId mismatch"
  else if jws.payload.audience ≠ expectedAudience then .error "Capability audience mismatch"
  else if jws.payload.generation ≠ expectedGeneration then
    .error "Capability generation mismatch"
  else if jws.payload.validUntil ≤ now then .error "Capability expired"
  else .ok jws.payload

def verifyPersonalDocCapabilityJws (jws : SignedJws CapabilityPayload) (publicKey : PublicKey)
    (expectedSpaceId : DocId) (expectedAudience : Did) (now : Nat) :
    Except String CapabilityPayload :=
  if jws.signer ≠ publicKey then .error "Invalid JWS signature"
  else if jws.payload.generation ≠ 0 then .error "Invalid personal-doc capability generation"
  else if !jws.kid.hasFragment then .error "Invalid personal-doc capability kid"
  else if jws.kid.did? ≠ some jws.payload.audience then
    .error "Personal-doc capability not self-issued (kid DID != audience)"
  else if jws.payload.spaceId ≠ expectedSpaceId then .error "Capability spaceId mismatch"
  else if jws.payload.audience ≠ expectedAudience then .error "Capability audience mismatch"
  else if jws.payload.validUntil ≤ now then .error "Capability expired"
  else .ok jws.payload

/-- What a verifier ends with: what the checks decided, unless the outside
    world made it fail before. -/
def Env.verdict {α : Type} (env : Env) (checked : Except String α) : Except String α :=
  match env.failure with
  | some message => .error message
  | none => checked

theorem Env.verdict_ok {α : Type} {env : Env} {checked : Except String α} {a : α}
    (h : env.verdict checked = .ok a) : env.failure = none ∧ checked = .ok a := by
  unfold Env.verdict at h
  cases hfail : env.failure with
  | some message => rw [hfail] at h; cases h
  | none => rw [hfail] at h; exact ⟨rfl, h⟩

/-! ## 3. Signed management frames -/

inductive FrameRejection where
  | malformedMessage
  | authInvalid

/-- The `errorCode` of a rejection. -/
def FrameRejection.code : FrameRejection → String
  | .malformedMessage => "MALFORMED_MESSAGE"
  | .authInvalid => "AUTH_INVALID"

section

variable (didKeyToPublicKeyBytes : Did → Option PublicKey)

/-- `verifySpaceRegisterMessage`: the signer is one of the admins it asserts. -/
def verifySpaceRegisterMessage (jws : SignedJws SpaceRegisterPayload) :
    Except FrameRejection SpaceRegisterPayload :=
  match jws.kid.adminAuthHeaderKidDid with
  | none => .error .authInvalid
  | some kidDid =>
    if kidDid ∉ jws.payload.adminDids then .error .authInvalid
    else if didKeyToPublicKeyBytes kidDid ≠ some jws.signer then .error .authInvalid
    else .ok jws.payload

def verifyAdminSignedFrame {α : Type} (jws : SignedJws α) (adminDid : Did)
    (adminPublicKey : PublicKey) : Except FrameRejection α :=
  if jws.kid.adminAuthHeaderKidDid ≠ some adminDid then .error .authInvalid
  else if jws.signer ≠ adminPublicKey then .error .authInvalid
  else .ok jws.payload

def verifyBrokerDeviceRevokeControlFrame (jws : SignedJws DeviceRevokePayload)
    (publicKey : PublicKey) : Except FrameRejection DeviceRevokePayload :=
  if !jws.kid.hasFragment then .error .authInvalid
  else if jws.kid.did? ≠ some jws.payload.did then .error .authInvalid
  else if jws.signer ≠ publicKey then .error .authInvalid
  else .ok jws.payload

end

/-! ## 4. What a relay sends -/

inductive RelayFrame where
  | error (thid : Option String) (code message : String)
  | generationGap (thid : DocId) (message : String) (currentGeneration : Nat)
  | seqCollision (thid : String) (message clientHint : String)
  | receipt (messageId : String)
  | registered (did : Did) (deviceId : DeviceId) (isNewDevice : Bool) (peers : Nat)
  | message (envelope : LogEntryMessage)
  | syncResponse (thid : String) (docId : DocId) (entries : List EntryJws)
      (heads : List (DeviceId × Nat)) (truncated : Bool)
deriving DecidableEq

end WebOfTrust
