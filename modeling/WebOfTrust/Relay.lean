/-
  **The relay** (`wot-relay/src/relay.ts`): the sockets with their sessions and
  cached capability scopes over one durable store, and the message handlers.

  A handler runs without interruption between two `await`s.  Each such turn is a
  function of the relay's state, named after the handler and what it resumes
  from; a `RelayPoint` names the turn that is still to be taken, with all that is
  carried across the `await`.  The inbox queue, the metrics and the challenge that
  precedes a registration are left out.
-/
import WebOfTrust.AsyncPool
import WebOfTrust.BrokerStore
import WebOfTrust.RelayFrames

namespace WebOfTrust

open Async

/-! ## 1. The state -/

structure CachedScope where
  permissions : List Permission
  generation : Nat
  path : CapabilityPath
  validUntil : Nat
deriving DecidableEq

structure Relay where
  docLog : BrokerStore
  socketToDid : SocketId → Option Did
  socketToDeviceId : SocketId → Option DeviceId
  connections : Did → List SocketId
  socketToScopes : SocketId → DocId → Option CachedScope
  clock : Nat
  sent : List (SocketId × RelayFrame)

inductive ScopeCheck where
  | granted
  | expired
  | missing
deriving DecidableEq

/-- What `handlePresentCapability` awaits the verification of. -/
inductive PresentedCapability where
  | space (docId : DocId) (space : SpaceRow) (checked : Except String CapabilityPayload)
  | personal (socketDid : Did) (docId : DocId) (checked : Except String CapabilityPayload)

namespace Relay

def start (docLog : BrokerStore) (clock : Nat) : Relay where
  docLog := docLog
  socketToDid _ := none
  socketToDeviceId _ := none
  connections _ := []
  socketToScopes _ _ := none
  clock := clock
  sent := []

variable (w : Relay)

section

variable (ws : SocketId)

def sendTo (frame : RelayFrame) : Relay :=
  { w with sent := w.sent ++ [(ws, frame)] }

def sendError (code message : String) : Relay :=
  w.sendTo ws (.error none code message)

def sendThreadedError (thid code message : String) : Relay :=
  w.sendTo ws (.error (some thid) code message)

def sendReceipt (messageId : String) : Relay :=
  w.sendTo ws (.receipt messageId)

/-! ## 2. Cached scopes -/

def cacheScope (docId : DocId) (scope : CachedScope) : Relay :=
  { w with
    socketToScopes := fun ws' docId' =>
      if ws' = ws ∧ docId' = docId then some scope else w.socketToScopes ws' docId' }

def getScope (docId : DocId) : Option CachedScope :=
  w.socketToScopes ws docId

end

def keepScopes (keep : SocketId → DocId → CachedScope → Bool) : Relay :=
  { w with socketToScopes := fun ws docId => (w.socketToScopes ws docId).filter (keep ws docId) }

def invalidatePersonalScopesForDoc (docId : DocId) : Relay :=
  w.keepScopes fun _ docId' scope => !(decide (docId' = docId) && decide (scope.path = .personal))

def invalidateStaleScopesForDoc (docId : DocId) (newGeneration : Nat) : Relay :=
  w.keepScopes fun _ docId' scope =>
    !(decide (docId' = docId) && decide (scope.generation < newGeneration))

variable (ws : SocketId)

/-- `checkScope`: an expired scope is deleted here. -/
def checkScope (docId : DocId) (permission : Permission) : ScopeCheck × Relay :=
  match w.getScope ws docId with
  | none => (.missing, w)
  | some scope =>
    if scope.validUntil ≤ w.clock then
      (.expired, w.keepScopes fun ws' docId' _ => !(decide (ws' = ws) && decide (docId' = docId)))
    else if permission ∈ scope.permissions then (.granted, w)
    else (.missing, w)

/-! ## 3. Sessions -/

/-- `completeRegistration`, after the challenge. -/
def completeRegistration (did : Did) (deviceId : DeviceId) : Relay :=
  if (w.socketToDid ws).isSome then
    w.sendError ws "AUTH_INVALID"
      "This connection is already registered; open a new connection to authenticate again."
  else
    let registration := w.docLog.registerDevice did deviceId w.clock
    match registration.1 with
    | .deviceIdConflict =>
      w.sendError ws "DEVICE_ID_CONFLICT"
        "deviceId is already registered for another DID (device IDs must be globally unique)."
    | .deviceRevoked => w.sendError ws "DEVICE_REVOKED" "This device has been revoked."
    | .registered isNewDevice =>
      let sockets := (w.connections did).insert ws
      { w with
        docLog := registration.2
        connections := Function.update w.connections did sockets
        socketToDid := Function.update w.socketToDid ws (some did)
        socketToDeviceId := Function.update w.socketToDeviceId ws (some deviceId)
        sent := w.sent ++ [(ws, .registered did deviceId isNewDevice (sockets.length - 1))] }

def close : Relay :=
  let w := w.keepScopes fun ws' _ _ => decide (ws' ≠ ws)
  match w.socketToDid ws with
  | none => w
  | some did =>
    { w with
      connections := Function.update w.connections did ((w.connections did).erase ws)
      socketToDid := Function.update w.socketToDid ws none
      socketToDeviceId := Function.update w.socketToDeviceId ws none }

def tick (now : Nat) : Relay := { w with clock := now }

def socketActive : Bool :=
  match w.socketToDid ws, w.socketToDeviceId ws with
  | some did, some deviceId => w.docLog.isActive did deviceId
  | _, _ => false

/-! ## 4. Capabilities -/

def sendCapabilityVerifyError (message : String) : Relay :=
  w.sendError ws
    (if message = "Capability expired" then "CAPABILITY_EXPIRED" else "CAPABILITY_INVALID") message

/-- `presentSpaceCapability`, up to its `await`. -/
def presentSpaceCapability (socketDid : Did)
    (jws : SignedJws CapabilityPayload) : Option PresentedCapability × Relay :=
  let docId := jws.payload.spaceId
  match w.docLog.getSpace docId with
  | none => (none, w.sendError ws "CAPABILITY_INVALID" "Space record unavailable.")
  | some space =>
    if jws.payload.generation < space.generation then
      (none, w.sendError ws "CAPABILITY_GENERATION_STALE"
        ("Capability generation is older than the current space generation; " ++
          "obtain a renewed capability."))
    else
      (some (.space docId space (verifySpaceCapabilityJws jws space.verificationKey docId socketDid
        space.generation w.clock)), w)

variable (didKeyToPublicKeyBytes : Did → Option PublicKey)

/-- `presentPersonalCapability`, up to its `await`. -/
def presentPersonalCapability (w : Relay)
    (ws : SocketId) (socketDid : Did) (jws : SignedJws CapabilityPayload) :
    Option PresentedCapability × Relay :=
  let docId := jws.payload.spaceId
  match didKeyToPublicKeyBytes socketDid with
  | none =>
    (none, w.sendError ws "CAPABILITY_INVALID" "Authenticated DID is not a resolvable did:key.")
  | some publicKey =>
    (some (.personal socketDid docId
      (verifyPersonalDocCapabilityJws jws publicKey docId socketDid w.clock)), w)

/-- `handlePresentCapability`, up to the `await` of either path. -/
def handlePresentCapability (w : Relay)
    (ws : SocketId) (raw : PresentCapabilityFrame) : Option PresentedCapability × Relay :=
  match raw with
  | .malformed =>
    (none, w.sendError ws "MALFORMED_MESSAGE"
      ("present-capability MUST carry exactly \x7b type, capabilityJws \x7d " ++
        "with a string capabilityJws."))
  | raw =>
    match w.socketToDid ws with
    | none =>
      (none, w.sendError ws "NOT_REGISTERED"
        "Must register (challenge-response) before presenting a capability.")
    | some socketDid =>
      match raw with
      | .present jws =>
        if w.docLog.isSpaceRegistered jws.payload.spaceId then
          w.presentSpaceCapability ws socketDid jws
        else w.presentPersonalCapability didKeyToPublicKeyBytes ws socketDid jws
      | _ =>
        (none, w.sendError ws "CAPABILITY_INVALID"
          "present-capability JWS payload is not a decodable capability (missing spaceId).")

def capabilityVerified (presented : PresentedCapability) (env : Env) : Relay :=
  match presented with
  | .space docId space checked =>
    match env.verdict checked with
    | .error message => w.sendCapabilityVerifyError ws message
    | .ok payload =>
      (w.cacheScope ws docId
        { permissions := payload.permissions, generation := space.generation, path := .space
          validUntil := payload.validUntil }).sendReceipt ws docId
  | .personal socketDid docId checked =>
    match env.verdict checked with
    | .error message => w.sendCapabilityVerifyError ws message
    | .ok payload =>
      let ownerClaim := w.docLog.claimPersonalDocOwner docId socketDid w.clock
      match ownerClaim.1 with
      | .conflict =>
        w.sendError ws "PERSONAL_DOC_OWNER_MISMATCH"
          "This personal document is owned by a different identity."
      | _ =>
        ({ w with docLog := ownerClaim.2 }.cacheScope ws docId
          { permissions := payload.permissions, generation := 0, path := .personal
            validUntil := payload.validUntil }).sendReceipt ws docId

/-! ## 5. Management frames -/

/-- What an awaited verification of a management frame ends with; `thid` lets the
    sender correlate a rejection. -/
def verifiedFrame {α : Type} (env : Env) (checked : Except FrameRejection α)
    (thid : Option String) (authInvalid malformed : String) : Except RelayFrame α :=
  match env.failure with
  | some message => .error (.error thid "INTERNAL_ERROR" message)
  | none =>
    match checked with
    | .ok payload => .ok payload
    | .error .authInvalid => .error (.error thid "AUTH_INVALID" authInvalid)
    | .error .malformedMessage => .error (.error thid "MALFORMED_MESSAGE" malformed)

/-- `handleSpaceRegister`, after its `await`. -/
def spaceRegisterVerified (w : Relay)
    (ws : SocketId) (jws : SignedJws SpaceRegisterPayload) (env : Env) : Relay :=
  match verifiedFrame env (verifySpaceRegisterMessage didKeyToPublicKeyBytes jws) none
      "space-register inner JWS is not signed by one of the self-asserted adminDids."
      "Malformed space-register control-frame." with
  | .error frame => w.sendTo ws frame
  | .ok payload =>
    let registration := w.docLog.registerSpace payload.spaceId
      payload.spaceCapabilityVerificationKey payload.adminDids (jws.kid.did?.getD "") w.clock
    match registration.1 with
    | .personalOwnerConflict =>
      w.sendError ws "PERSONAL_DOC_OWNER_MISMATCH"
        ("This docId is a personal document owned by a different identity " ++
          "and cannot be registered as a space.")
    | .conflict =>
      w.sendError ws "SPACE_ALREADY_REGISTERED"
        ("spaceId is already registered with a different verification key or admin set " ++
          "(first-writer-wins).")
    | .idempotent => w.sendReceipt ws payload.spaceId
    | .registered =>
      ({ w with docLog := registration.2 }.invalidatePersonalScopesForDoc
        payload.spaceId).sendReceipt ws payload.spaceId

def resolveAdminSigner (w : Relay)
    (ws : SocketId) (spaceId : DocId) (kid : JwsKid) : Option (Did × PublicKey) × Relay :=
  if !w.docLog.isSpaceRegistered spaceId then
    (none, w.sendThreadedError ws spaceId "DOC_NOT_FOUND"
      "Space is not registered; register it before rotating or changing admins.")
  else
    match kid.did?.filter fun did => (w.docLog.getSpaceAdmins spaceId).contains did with
    | none =>
      (none, w.sendThreadedError ws spaceId "AUTH_INVALID"
        "Frame is not signed by a registered admin of this space.")
    | some signerDid =>
      match didKeyToPublicKeyBytes signerDid with
      | none =>
        (none, w.sendThreadedError ws spaceId "AUTH_INVALID"
          "Admin signer DID is not a resolvable did:key.")
      | some adminPublicKey => (some (signerDid, adminPublicKey), w)

/-- The part of the admin-signed handlers before their `await`: the signer, and
    what the verifier is going to decide about it. -/
def resolveAdminFrame {α : Type} (didKeyToPublicKeyBytes : Did → Option PublicKey) (w : Relay)
    (ws : SocketId) (jws : SignedJws α) (spaceId : DocId) :
    Option (Did × Except FrameRejection α) × Relay :=
  match w.resolveAdminSigner didKeyToPublicKeyBytes ws spaceId jws.kid with
  | (none, w) => (none, w)
  | (some signer, w) => (some (signer.1, verifyAdminSignedFrame jws signer.1 signer.2), w)

variable (spaceId : DocId)

/-- `handleSpaceRotate`, after its `await`. -/
def spaceRotateVerified (checked : Except FrameRejection SpaceRotatePayload) (env : Env) : Relay :=
  match verifiedFrame env checked (some spaceId)
      "space-rotate signature invalid or not signed by a registered admin."
      "Malformed space-rotate control-frame." with
  | .error frame => w.sendTo ws frame
  | .ok payload =>
    let spaceId := payload.spaceId
    match w.docLog.getSpace spaceId with
    | none =>
      w.sendThreadedError ws spaceId "AUTH_INVALID"
        "space-rotate newGeneration must be exactly the current generation plus one."
    | some space =>
      if payload.newGeneration = space.generation then
        if payload.newSpaceCapabilityVerificationKey = space.verificationKey then
          w.sendReceipt ws spaceId
        else
          w.sendThreadedError ws spaceId "GENERATION_TAKEN"
            "space-rotate generation is already installed with different key material."
      else if payload.newGeneration < space.generation then
        w.sendThreadedError ws spaceId "GENERATION_TAKEN"
          "space-rotate generation has already been superseded."
      else if space.generation + 1 < payload.newGeneration then
        w.sendTo ws (.generationGap spaceId
          "space-rotate newGeneration is beyond the current generation plus one."
          space.generation)
      else
        let docLog := w.docLog.rotateSpace spaceId payload.newSpaceCapabilityVerificationKey
          payload.newGeneration
        ({ w with docLog := docLog }.invalidateStaleScopesForDoc spaceId
          payload.newGeneration).sendReceipt ws spaceId

/-- `handleAdminAdd`, after its `await`. -/
def adminAddVerified (checked : Except FrameRejection AdminChangePayload) (env : Env) : Relay :=
  match verifiedFrame env checked (some spaceId)
      "admin-add signature invalid or not signed by a registered admin."
      "Malformed admin-add control-frame." with
  | .error frame => w.sendTo ws frame
  | .ok payload =>
    { w with docLog := w.docLog.addAdmin payload.spaceId payload.adminDid }.sendReceipt ws
      payload.spaceId

/-- `handleAdminRemove`, up to its `await`: the retry of a self-removal is
    verified against the removed DID itself.  The flag is `selfRetry`. -/
def handleAdminRemove (w : Relay) (ws : SocketId) (jws : SignedJws AdminChangePayload) :
    Option (Did × Bool × Except FrameRejection AdminChangePayload) × Relay :=
  let admins := w.docLog.getSpaceAdmins jws.payload.spaceId
  if jws.kid.did? = some jws.payload.adminDid ∧ !admins.contains jws.payload.adminDid then
    match didKeyToPublicKeyBytes jws.payload.adminDid with
    | none =>
      (none, w.sendThreadedError ws jws.payload.spaceId "AUTH_INVALID"
        "Admin signer DID is not a resolvable did:key.")
    | some publicKey =>
      (some (jws.payload.adminDid, true,
        verifyAdminSignedFrame jws jws.payload.adminDid publicKey), w)
  else
    match w.resolveAdminFrame didKeyToPublicKeyBytes ws jws jws.payload.spaceId with
    | (none, w) => (none, w)
    | (some (signerDid, checked), w) => (some (signerDid, false, checked), w)

/-- `handleAdminRemove`, after its `await`. -/
def adminRemoveVerified (selfRetry : Bool)
    (checked : Except FrameRejection AdminChangePayload) (env : Env) : Relay :=
  match verifiedFrame env checked (some spaceId)
      "admin-remove signature invalid or not signed by a registered admin."
      "Malformed admin-remove control-frame." with
  | .error frame => w.sendTo ws frame
  | .ok payload =>
    let docLog :=
      if selfRetry then w.docLog else w.docLog.removeAdmin payload.spaceId payload.adminDid
    { w with docLog := docLog }.sendReceipt ws payload.spaceId

/-- `handleDeviceRevoke`, up to its `await`. -/
def handleDeviceRevoke (w : Relay) (ws : SocketId) (jws : SignedJws DeviceRevokePayload) :
    Option (Except FrameRejection DeviceRevokePayload) × Relay :=
  match didKeyToPublicKeyBytes jws.payload.did with
  | none =>
    (none, w.sendError ws "AUTH_INVALID" "device-revoke did is not a resolvable did:key")
  | some publicKey => (some (verifyBrokerDeviceRevokeControlFrame jws publicKey), w)

/-- `handleDeviceRevoke`, after its `await`. -/
def deviceRevokeVerified
    (checked : Except FrameRejection DeviceRevokePayload) (env : Env) : Relay :=
  match verifiedFrame env checked none
      "device-revoke signature invalid or not signed by the claimed DID."
      "Malformed device-revoke control-frame." with
  | .error frame => w.sendTo ws frame
  | .ok payload =>
    let revocation :=
      w.docLog.revokeDevice payload.did payload.deviceId payload.revokedAt w.clock
    match revocation.1 with
    | .didMismatch =>
      w.sendError ws "AUTH_INVALID"
        "device-revoke may only revoke a device owned by the signing DID."
    | _ => { w with docLog := revocation.2 }.sendReceipt ws payload.deviceId

/-! ## 6. The log -/

def ownerMismatch (docId : DocId) : Bool :=
  !w.docLog.isSpaceRegistered docId &&
    (w.docLog.getPersonalDocOwner docId).any fun owner => decide (some owner ≠ w.socketToDid ws)

/-- The start of `handleSend`; the flag says whether the envelope goes on to its
    handler. -/
def handleSend : Bool × Relay :=
  if (w.socketToDid ws).isNone then
    (false, w.sendError ws "NOT_REGISTERED" "Must register before sending")
  else (true, w)

def verifyLogEntryJws : EntryJws → Except String LogEntryPayload
  | .blank => .error "Invalid JWS compact serialization"
  | .compact payload => .ok payload

def keyGenerationStaleMessage : String :=
  "Log-entry keyGeneration is older than the current space generation; " ++
    "re-emit under a new seq and the new keyGeneration."

variable (envelope : LogEntryMessage)

/-- `handleLogEntry`, from the verified JWS up to the hash of its payload: the
    gates.  A payload that passes them goes on. -/
def logEntryVerified (env : Env) : Option LogEntryPayload × Relay :=
  match env.verdict (verifyLogEntryJws envelope.entry) with
  | .error message => (none, w.sendError ws "AUTH_INVALID" message)
  | .ok payload =>
    let messageId := envelope.messageId
    if !w.socketActive ws then
      (none, w.sendThreadedError ws messageId "DEVICE_REVOKED"
        "This device is not active (revoked or not registered).")
    else if w.ownerMismatch ws payload.docId then
      (none, w.sendThreadedError ws messageId "PERSONAL_DOC_OWNER_MISMATCH"
        "Only the personal document owner can write to this doc.")
    else
      match w.checkScope ws payload.docId .write with
      | (.expired, w) =>
        (none, w.sendThreadedError ws messageId "CAPABILITY_EXPIRED"
          ("Cached write capability for this docId has expired. " ++
            "Present a renewed capability first."))
      | (.missing, w) =>
        (none, w.sendThreadedError ws messageId "CAPABILITY_REQUIRED"
          "No cached write capability for this docId. Present a capability first.")
      | (.granted, w) =>
        match w.docLog.didForDevice payload.deviceId with
        | none =>
          (none, w.sendThreadedError ws messageId "DEVICE_NOT_REGISTERED"
            "The log-entry deviceId is not registered in the broker device list.")
        | some ownerDid =>
          if ownerDid ≠ didOrKidToDid payload.authorKid then
            (none, w.sendThreadedError ws messageId "AUTHOR_MISMATCH"
              "Author mismatch: the authorKid DID does not own this deviceId.")
          else if (w.docLog.getSpace payload.docId).any
              (fun space => decide (payload.keyGeneration < space.generation)) then
            (none, w.sendThreadedError ws messageId "KEY_GENERATION_STALE"
              keyGenerationStaleMessage)
          else (some payload, w)

def broadcast : Relay :=
  { w with
    sent := w.sent ++ (envelope.toDids.flatMap fun did => (w.connections did).filter (· ≠ ws)).map
        fun recipientWs => (recipientWs, .message envelope) }

/-- `handleLogEntry`, from the hash on: the durable insert.  A transaction that
    throws writes nothing. -/
def payloadHashed (payload : LogEntryPayload) (env : Env) : Relay :=
  match env.failure with
  | some message => w.sendError ws "INTERNAL_ERROR" message
  | none =>
    let messageId := envelope.messageId
    let result := w.docLog.appendEntry payload envelope.entry w.clock
    match result.1 with
    | .rejectKeyGenerationStale =>
      w.sendThreadedError ws messageId "KEY_GENERATION_STALE" keyGenerationStaleMessage
    | .rejectSeqCollision =>
      w.sendTo ws (.seqCollision messageId
        "Sequence collision: divergent entry at an existing (docId,deviceId,seq)."
        "restore-clone-required")
    | .idempotentRetransmission => w.sendReceipt ws messageId
    | .acceptNewEntry =>
      ({ w with docLog := result.2 }.broadcast ws envelope).sendReceipt ws messageId

def handleSyncRequest (request : SyncRequest) : Relay :=
  if !w.socketActive ws then
    w.sendError ws "DEVICE_REVOKED" "This device is not active (revoked or not registered)."
  else if w.ownerMismatch ws request.docId then
    w.sendError ws "PERSONAL_DOC_OWNER_MISMATCH"
      "Only the personal document owner can read this doc."
  else
    match w.checkScope ws request.docId .read with
    | (.expired, w) =>
      w.sendError ws "CAPABILITY_EXPIRED"
        "Cached read capability for this docId has expired. Present a renewed capability first."
    | (.missing, w) =>
      w.sendError ws "CAPABILITY_REQUIRED"
        "No cached read capability for this docId. Present a capability first."
    | (.granted, w) =>
      let page := w.docLog.getSinceWithTruncation request.docId request.heads
        (request.limit.getD 100)
      w.sendTo ws (.syncResponse request.id request.docId page.1
        (w.docLog.getHeads request.docId) page.2)

end Relay

/-! ## 7. The handlers as programs -/

inductive RelayPoint where
  | register (ws : SocketId) (did : Did) (deviceId : DeviceId)
  | close (ws : SocketId)
  | tick (now : Nat)
  | presentCapability (ws : SocketId) (raw : PresentCapabilityFrame)
  | capabilityVerified (ws : SocketId) (presented : PresentedCapability)
  | reject (ws : SocketId) (message : String)
  | spaceRegisterVerified (ws : SocketId) (jws : SignedJws SpaceRegisterPayload)
  | spaceRotate (ws : SocketId) (jws : SignedJws SpaceRotatePayload)
  | spaceRotateVerified (ws : SocketId) (signerDid : Did) (spaceId : DocId)
      (checked : Except FrameRejection SpaceRotatePayload)
  | adminAdd (ws : SocketId) (jws : SignedJws AdminChangePayload)
  | adminAddVerified (ws : SocketId) (signerDid : Did) (spaceId : DocId)
      (checked : Except FrameRejection AdminChangePayload)
  | adminRemove (ws : SocketId) (jws : SignedJws AdminChangePayload)
  | adminRemoveVerified (ws : SocketId) (signerDid : Did) (spaceId : DocId) (selfRetry : Bool)
      (checked : Except FrameRejection AdminChangePayload)
  | deviceRevoke (ws : SocketId) (jws : SignedJws DeviceRevokePayload)
  | deviceRevokeVerified (ws : SocketId) (checked : Except FrameRejection DeviceRevokePayload)
  | send (ws : SocketId)
  | logEntryVerified (ws : SocketId) (envelope : LogEntryMessage)
  | payloadHashed (ws : SocketId) (envelope : LogEntryMessage) (payload : LogEntryPayload)
  | syncRequest (ws : SocketId) (request : SyncRequest)

abbrev RelayProgram := Async RelayPoint Env Relay Empty

def turn {α : Type} (t : RelayPoint) (f : Env → Relay → α × Relay) : RelayProgram α :=
  atomic t fun env w => (.ok (f env w).1, (f env w).2)

def lastTurn (t : RelayPoint) (f : Env → Relay → Relay) : RelayProgram Unit :=
  turn t fun env w => ((), f env w)

inductive RelayCall where
  | register (ws : SocketId) (did : Did) (deviceId : DeviceId)
  | close (ws : SocketId)
  | tick (now : Nat)
  | presentCapability (ws : SocketId) (raw : PresentCapabilityFrame)
  | spaceRegister (ws : SocketId) (raw : ControlFrame SpaceRegisterPayload)
  | spaceRotate (ws : SocketId) (raw : ControlFrame SpaceRotatePayload)
  | adminAdd (ws : SocketId) (raw : ControlFrame AdminChangePayload)
  | adminRemove (ws : SocketId) (raw : ControlFrame AdminChangePayload)
  | deviceRevoke (ws : SocketId) (raw : ControlFrame DeviceRevokePayload)
  | logEntry (ws : SocketId) (envelope : LogEntryMessage)
  | syncRequest (ws : SocketId) (request : SyncRequest)

def dispatch {α : Type} (ws : SocketId) (raw : ControlFrame α)
    (handler : SignedJws α → RelayProgram Unit) : RelayProgram Unit :=
  match raw with
  | .malformed message =>
      lastTurn (.reject ws message) fun _ w => w.sendError ws "MALFORMED_MESSAGE" message
  | .signed jws => handler jws

def whenSome {α : Type} (found : Option α) (next : α → RelayProgram Unit) : RelayProgram Unit :=
  match found with
  | none => pure ()
  | some a => next a

section

variable (didKeyToPublicKeyBytes : Did → Option PublicKey)

section

variable (ws : SocketId)

def handlePresentCapability (raw : PresentCapabilityFrame) : RelayProgram Unit := do
  let presented ← turn (.presentCapability ws raw) fun _ w =>
    w.handlePresentCapability didKeyToPublicKeyBytes ws raw
  whenSome presented fun presented =>
    lastTurn (.capabilityVerified ws presented) fun env w => w.capabilityVerified ws presented env

def handleSpaceRegister (jws : SignedJws SpaceRegisterPayload) : RelayProgram Unit :=
  lastTurn (.spaceRegisterVerified ws jws) fun env w =>
    w.spaceRegisterVerified didKeyToPublicKeyBytes ws jws env

def handleSpaceRotate (jws : SignedJws SpaceRotatePayload) : RelayProgram Unit := do
  let checked ← turn (.spaceRotate ws jws) fun _ w =>
    w.resolveAdminFrame didKeyToPublicKeyBytes ws jws jws.payload.spaceId
  whenSome checked fun (signerDid, checked) =>
    lastTurn (.spaceRotateVerified ws signerDid jws.payload.spaceId checked) fun env w =>
      w.spaceRotateVerified ws jws.payload.spaceId checked env

variable (jws : SignedJws AdminChangePayload)

def handleAdminAdd : RelayProgram Unit := do
  let checked ← turn (.adminAdd ws jws) fun _ w =>
    w.resolveAdminFrame didKeyToPublicKeyBytes ws jws jws.payload.spaceId
  whenSome checked fun (signerDid, checked) =>
    lastTurn (.adminAddVerified ws signerDid jws.payload.spaceId checked) fun env w =>
      w.adminAddVerified ws jws.payload.spaceId checked env

def handleAdminRemove : RelayProgram Unit := do
  let resolved ← turn (.adminRemove ws jws) fun _ w =>
    w.handleAdminRemove didKeyToPublicKeyBytes ws jws
  whenSome resolved fun (signerDid, selfRetry, checked) =>
    lastTurn (.adminRemoveVerified ws signerDid jws.payload.spaceId selfRetry checked)
      fun env w => w.adminRemoveVerified ws jws.payload.spaceId selfRetry checked env

def handleDeviceRevoke (jws : SignedJws DeviceRevokePayload) : RelayProgram Unit := do
  let checked ← turn (.deviceRevoke ws jws) fun _ w =>
    w.handleDeviceRevoke didKeyToPublicKeyBytes ws jws
  whenSome checked fun checked =>
    lastTurn (.deviceRevokeVerified ws checked) fun env w => w.deviceRevokeVerified ws checked env

def handleLogEntry (envelope : LogEntryMessage) : RelayProgram Unit := do
  let goesOn ← turn (.send ws) fun _ w => w.handleSend ws
  if goesOn then
    let payload ← turn (.logEntryVerified ws envelope) fun env w =>
      w.logEntryVerified ws envelope env
    whenSome payload fun payload =>
      lastTurn (.payloadHashed ws envelope payload) fun env w =>
        w.payloadHashed ws envelope payload env
  else pure ()

def handleSyncRequest (request : SyncRequest) : RelayProgram Unit := do
  let goesOn ← turn (.send ws) fun _ w => w.handleSend ws
  if goesOn then
    lastTurn (.syncRequest ws request) fun _ w => w.handleSyncRequest ws request
  else pure ()

end

def RelayCall.program : RelayCall → RelayProgram Unit
  | .register ws did deviceId =>
      lastTurn (.register ws did deviceId) fun _ w => w.completeRegistration ws did deviceId
  | .close ws => lastTurn (.close ws) fun _ w => w.close ws
  | .tick now => lastTurn (.tick now) fun _ w => w.tick now
  | .presentCapability ws raw =>
      WebOfTrust.handlePresentCapability didKeyToPublicKeyBytes ws raw
  | .spaceRegister ws raw => dispatch ws raw (handleSpaceRegister didKeyToPublicKeyBytes ws)
  | .spaceRotate ws raw => dispatch ws raw (handleSpaceRotate didKeyToPublicKeyBytes ws)
  | .adminAdd ws raw => dispatch ws raw (handleAdminAdd didKeyToPublicKeyBytes ws)
  | .adminRemove ws raw => dispatch ws raw (handleAdminRemove didKeyToPublicKeyBytes ws)
  | .deviceRevoke ws raw => dispatch ws raw (handleDeviceRevoke didKeyToPublicKeyBytes ws)
  | .logEntry ws envelope => handleLogEntry ws envelope
  | .syncRequest ws request => WebOfTrust.handleSyncRequest ws request

def relaySystem : System RelayPoint Env Relay Empty Unit RelayCall where
  call := RelayCall.program didKeyToPublicKeyBytes
  restart w := Relay.start w.docLog w.clock

def Relay.advance (t : RelayPoint) (env : Env) (w : Relay) : Relay :=
  match t with
  | .register ws did deviceId => w.completeRegistration ws did deviceId
  | .close ws => w.close ws
  | .tick now => w.tick now
  | .presentCapability ws raw => (w.handlePresentCapability didKeyToPublicKeyBytes ws raw).2
  | .capabilityVerified ws presented => w.capabilityVerified ws presented env
  | .reject ws message => w.sendError ws "MALFORMED_MESSAGE" message
  | .spaceRegisterVerified ws jws => w.spaceRegisterVerified didKeyToPublicKeyBytes ws jws env
  | .spaceRotate ws jws =>
      (w.resolveAdminFrame didKeyToPublicKeyBytes ws jws jws.payload.spaceId).2
  | .spaceRotateVerified ws _ spaceId checked => w.spaceRotateVerified ws spaceId checked env
  | .adminAdd ws jws =>
      (w.resolveAdminFrame didKeyToPublicKeyBytes ws jws jws.payload.spaceId).2
  | .adminAddVerified ws _ spaceId checked => w.adminAddVerified ws spaceId checked env
  | .adminRemove ws jws => (w.handleAdminRemove didKeyToPublicKeyBytes ws jws).2
  | .adminRemoveVerified ws _ spaceId selfRetry checked =>
      w.adminRemoveVerified ws spaceId selfRetry checked env
  | .deviceRevoke ws jws => (w.handleDeviceRevoke didKeyToPublicKeyBytes ws jws).2
  | .deviceRevokeVerified ws checked => w.deviceRevokeVerified ws checked env
  | .send ws => (w.handleSend ws).2
  | .logEntryVerified ws envelope => (w.logEntryVerified ws envelope env).2
  | .payloadHashed ws envelope payload => w.payloadHashed ws envelope payload env
  | .syncRequest ws request => w.handleSyncRequest ws request

end

abbrev RelayConfig := Config RelayPoint Env Relay Empty Unit

end WebOfTrust
