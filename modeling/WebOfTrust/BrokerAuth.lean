/-
  **The challenge that precedes a registration** (`relay.ts`, `broker-auth-nonce.ts`,
  `broker-challenge-response-frame.ts`).

  A socket asks to register and is handed a nonce; the signature under it is verified across
  an `await`, with the pending challenge of before it; then the nonce is consumed and the
  socket is bound to its device.  Any number of responses can be in verification, also on
  one socket, and a socket can close meanwhile; it then delivers nothing more.  The clock
  is read anew by each handler and may jump.

  `challenges` are the challenge frames that were sent and `completions` the registrations
  that a response completed, both in order.  The delivery of the inbox that follows a
  registration is left out.
-/
import WebOfTrust.Machine
import WebOfTrust.Relay

namespace WebOfTrust

/-! ## 1. Frames -/

structure RegisterFrame where
  did : Did
  deviceId : DeviceId

/-- A `challenge-response` frame that its parser accepts. -/
structure ChallengeResponse where
  did : Did
  deviceId : DeviceId
  nonce : String
  signature : String

structure PendingChallenge where
  did : Did
  deviceId : DeviceId
  nonce : String
  createdAt : Nat

inductive VerificationResult where
  | accepted (frame : ChallengeResponse)
  | rejected (errorCode : String)

/-- `classifyBrokerAuthChallengeResponseBinding`: the response names what is pending. -/
def PendingChallenge.binds (pending : PendingChallenge) (frame : ChallengeResponse) : Bool :=
  decide (frame.did = pending.did) && decide (frame.deviceId = pending.deviceId) &&
    decide (frame.nonce = pending.nonce)

/-- `verifyBrokerChallengeResponseControlFrame`, given what the verifier says about the
    signature.  A frame that its parser refuses is `none`. -/
def verifyChallengeResponse (frame : Option ChallengeResponse) (pending : PendingChallenge)
    (signatureValid : Except String Bool) : Except String VerificationResult :=
  match frame with
  | none => .ok (.rejected "MALFORMED_MESSAGE")
  | some frame =>
    if pending.binds frame then
      match signatureValid with
      | .error message => .error message
      | .ok valid => .ok (if valid then .accepted frame else .rejected "AUTH_INVALID")
    else .ok (.rejected "AUTH_INVALID")

/-! ## 2. Consumed nonces -/

structure ConsumedNonce where
  nonce : String
  expiresAt : Nat

abbrev ConsumedNonces := KeyedTable ConsumedNonce.nonce

def BROKER_AUTH_NONCE_RETENTION_MS : Nat := 24 * 60 * 60 * 1000

def pruneConsumedChallengeNonces (consumed : ConsumedNonces) (nowMs : Nat) : ConsumedNonces :=
  consumed.filter fun row => decide (nowMs < row.expiresAt)

inductive NonceConsumption where
  | reject
  | accept (expiresAt : Nat)

def decideBrokerChallengeNonceConsumption (nonce : String) (consumed : ConsumedNonces)
    (now : Nat) : NonceConsumption :=
  if consumed.has nonce then .reject else .accept (now + BROKER_AUTH_NONCE_RETENTION_MS)

/-! ## 3. The state -/

/-- A response in verification, with the challenge that was pending on its socket. -/
structure Verifying where
  ws : SocketId
  pending : PendingChallenge
  frame : Option ChallengeResponse

structure Completion where
  ws : SocketId
  did : Did
  deviceId : DeviceId
  nonce : String

structure BrokerAuth where
  relay : Relay
  pendingChallenges : SocketId → Option PendingChallenge
  consumedChallengeNonces : ConsumedNonces
  verifying : List (Option Verifying)
  closed : List SocketId
  challenges : List (SocketId × String)
  completions : List Completion

namespace BrokerAuth

def CHALLENGE_TIMEOUT_MS : Nat := 30000

def start (docLog : BrokerStore) (clock : Nat) : BrokerAuth where
  relay := Relay.start docLog clock
  pendingChallenges _ := none
  consumedChallengeNonces := .empty
  verifying := []
  closed := []
  challenges := []
  completions := []

variable (a : BrokerAuth)

def sendError (ws : SocketId) (code message : String) : BrokerAuth :=
  { a with relay := a.relay.sendError ws code message }

def dropPending (ws : SocketId) : BrokerAuth :=
  { a with pendingChallenges := Function.update a.pendingChallenges ws none }

/-! ## 4. Handlers -/

/-- `handleRegister`: the frame, or why it is refused; and the random nonce. -/
def handleRegister (ws : SocketId) (frame : Except String RegisterFrame)
    (nonce : String) (now : Nat) : BrokerAuth :=
  if (a.relay.socketToDid ws).isSome then
    a.sendError ws "AUTH_INVALID"
      "This connection is already registered; open a new connection to authenticate again."
  else
    match frame with
    | .error message => a.sendError ws "MALFORMED_MESSAGE" message
    | .ok frame =>
      { a with
        pendingChallenges := Function.update a.pendingChallenges ws
          (some ⟨frame.did, frame.deviceId, nonce, now⟩)
        challenges := a.challenges ++ [(ws, nonce)] }

variable (didKeyToPublicKeyBytes : Did → Option PublicKey)

/-- `handleChallengeResponse`, up to its `await`. -/
def handleChallengeResponse (a : BrokerAuth)
    (ws : SocketId) (frame : Option ChallengeResponse) (now : Nat) : BrokerAuth :=
  let a := if frame.isSome then
      { a with
        consumedChallengeNonces := pruneConsumedChallengeNonces a.consumedChallengeNonces now }
    else a
  if frame.any fun frame => a.consumedChallengeNonces.has frame.nonce then
    (a.dropPending ws).sendError ws "NONCE_REPLAY" "Challenge nonce has already been consumed."
  else
    match a.pendingChallenges ws with
    | none => a.sendError ws "AUTH_INVALID" "No pending challenge. Send register first."
    | some pending =>
      if now - pending.createdAt > CHALLENGE_TIMEOUT_MS then
        (a.dropPending ws).sendError ws "AUTH_INVALID" "Challenge expired. Send register again."
      else
        match didKeyToPublicKeyBytes pending.did with
        | none =>
          (a.dropPending ws).sendError ws "MALFORMED_MESSAGE"
            "Pending did is not a resolvable did:key"
        | some _ => { a with verifying := a.verifying ++ [some ⟨ws, pending, frame⟩] }

/-- `completeRegistration`, for a response under this nonce. -/
def completeRegistration (ws : SocketId) (frame : ChallengeResponse) : BrokerAuth :=
  let relay := a.relay.completeRegistration ws frame.did frame.deviceId
  { a with
    relay := relay
    completions := a.completions ++
      if (a.relay.socketToDid ws).isNone ∧ (relay.socketToDid ws).isSome then
        [⟨ws, frame.did, frame.deviceId, frame.nonce⟩]
      else [] }

/-- `handleChallengeResponse`, after its `await`: the consumed nonces are pruned at `pruneAt`,
    and the nonce is remembered from `now` on. -/
def challengeVerified (v : Verifying) (signatureValid : Except String Bool)
    (pruneAt now : Nat) : BrokerAuth :=
  match verifyChallengeResponse v.frame v.pending signatureValid with
  | .error message => (a.dropPending v.ws).sendError v.ws "INTERNAL_ERROR" message
  | .ok (.rejected errorCode) =>
    (a.dropPending v.ws).sendError v.ws errorCode (if errorCode = "AUTH_INVALID" then
        "Signature verification failed or challenge binding mismatched."
      else "Malformed challenge-response frame.")
  | .ok (.accepted frame) =>
    let a := { a with
      consumedChallengeNonces := pruneConsumedChallengeNonces a.consumedChallengeNonces pruneAt }
    match decideBrokerChallengeNonceConsumption frame.nonce a.consumedChallengeNonces now with
    | .reject =>
      (a.dropPending v.ws).sendError v.ws "NONCE_REPLAY"
        "Challenge nonce has already been consumed."
    | .accept expiresAt =>
      { a.dropPending v.ws with
        relay := a.relay.tick now
        consumedChallengeNonces :=
          a.consumedChallengeNonces.put ⟨frame.nonce, expiresAt⟩ }.completeRegistration v.ws frame

def close (ws : SocketId) : BrokerAuth :=
  { a.dropPending ws with
    relay := a.relay.close ws
    closed := ws :: a.closed }

/-! ## 5. Steps -/

inductive Input where
  | register (ws : SocketId) (frame : Except String RegisterFrame) (nonce : String) (now : Nat)
  | challengeResponse (ws : SocketId) (frame : Option ChallengeResponse) (now : Nat)
  | challengeVerified (n : Nat) (signatureValid : Except String Bool) (pruneAt now : Nat)
  | close (ws : SocketId)
  /-- What the other handlers of the relay do, which leave the sessions alone. -/
  | elsewhere (docLog : BrokerStore) (scopes : SocketId → DocId → Option CachedScope)
      (sent : List (SocketId × RelayFrame))

def step (a : BrokerAuth) : Input → Option BrokerAuth
  | .register ws frame nonce now =>
    if ws ∈ a.closed then none else some (a.handleRegister ws frame nonce now)
  | .challengeResponse ws frame now =>
    if ws ∈ a.closed then none
    else some (handleChallengeResponse didKeyToPublicKeyBytes a ws frame now)
  | .challengeVerified n signatureValid pruneAt now =>
    a.verifying[n]?.join.map fun v =>
      { a with verifying := a.verifying.set n none }.challengeVerified v signatureValid pruneAt now
  | .close ws => if ws ∈ a.closed then none else some (a.close ws)
  | .elsewhere docLog scopes sent =>
    some { a with
      relay := { a.relay with docLog := docLog, socketToScopes := scopes, sent := sent } }

end BrokerAuth

end WebOfTrust
