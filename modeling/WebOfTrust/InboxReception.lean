/-
  **Receiving inbox messages** (`application/messaging/inbox-reception-workflow.ts`,
  `protocol/messaging/inbox-inner-jws.ts`, the two `MessageIdHistory` adapters).

  An inbox message is decrypted, its inner JWS is checked, and its id is looked up in the
  history of processed ids.  The clock is read for the age of the message, for the look-up,
  and when the id is recorded.  IndexedDB reads the store some time after the clock.
-/
import WebOfTrust.AsyncPool
import WebOfTrust.KeyedTable
import WebOfTrust.RelayFrames

namespace WebOfTrust

open Async

/-! ## 1. Messages -/

/-- `INBOX_INNER_JWS_DEFAULT_MAX_AGE_MS`. -/
def innerJwsMaxAgeMs : Nat := 24 * 60 * 60 * 1000

/-- `INBOX_INNER_JWS_DEFAULT_MAX_CLOCK_SKEW_MS`. -/
def innerJwsMaxClockSkewMs : Nat := 5 * 60 * 1000

/-- `MESSAGE_ID_HISTORY_DEFAULT_RETENTION_MS`. -/
def messageIdRetentionMs : Nat := innerJwsMaxAgeMs + innerJwsMaxClockSkewMs

def encryptedInboxMessageTypes : List String :=
  ["https://web-of-trust.de/protocols/inbox/1.0",
    "https://web-of-trust.de/protocols/space-invite/1.0",
    "https://web-of-trust.de/protocols/member-update/1.0",
    "https://web-of-trust.de/protocols/key-rotation/1.0"]

structure EciesMessage where
  epk : String
  nonce : String
  ciphertext : String

/-- A plaintext envelope as far as the reception reads it.  `ecies` is `none` when a field of
    the container is no Base64url text. -/
structure InboxWireEnvelope where
  id : String
  type : String
  toDids : List Did
  ecies : Option EciesMessage
  extensionFields : List (String × String)

/-- A wire object: `assertPlaintextMessage` throws, or it is an envelope. -/
inductive WireMessage where
  | malformed
  | plaintext (envelope : InboxWireEnvelope)

structure InboxInnerJwsPayload where
  fromDid : Did
  toDid : Did
  type : String
  id : String
  createdTime : Nat
  body : String

/-- A decoded payload before its shape is checked: a field that is no text, no integer or no
    object is `none`. -/
structure RawInnerPayload where
  fromDid : Option Did
  toDid : Option Did
  type : Option String
  id : Option String
  createdTime : Option Int
  body : Option String

/-- A decoded inner JWS; a payload that is no object is `none`. -/
structure DecodedInnerJws where
  alg : Option String
  kid : Option String
  payload : Option RawInnerPayload

/-- What `decryptEcies` yields: `decodeJws` throws with a text, or it yields a JWS. -/
inductive InnerJws where
  | undecodable (text : String)
  | decoded (jws : DecodedInnerJws)

/-- A resolved document; a key that is no Ed25519 multibase text is `none`. -/
structure DidDocument where
  id : Did
  verificationMethod : List (String × Option Bytes)

/-! ## 2. The inner JWS -/

def assertText (field : String) (value : Option String) : Except String String :=
  match value with
  | some text => if text = "" then .error ("Invalid inner JWS payload " ++ field) else .ok text
  | none => .error ("Invalid inner JWS payload " ++ field)

def assertInboxInnerJwsPayloadShape (payload : Option RawInnerPayload) :
    Except String InboxInnerJwsPayload :=
  match payload with
  | none => .error "Invalid inner JWS payload"
  | some p => do
    let fromDid ← assertText "from" p.fromDid
    let toDid ← assertText "to" p.toDid
    let type ← assertText "type" p.type
    let id ← assertText "id" p.id
    match p.createdTime with
    | some (.ofNat createdTime) =>
      match p.body with
      | some body => pure ⟨fromDid, toDid, type, id, createdTime, body⟩
      | none => throw "Invalid inner JWS payload body"
    | _ => throw "Invalid inner JWS payload created_time"

/-- What `verifyInboxInnerJws` checks of a payload. -/
def checkInnerPayload (ownDid : Did) (outerType outerId : String) (nowMs : Nat) (kidDid : Did)
    (payload : InboxInnerJwsPayload) : Except String InboxInnerJwsPayload :=
  if payload.fromDid ≠ kidDid then .error "Inner JWS from does not match signer"
  else if payload.toDid ≠ ownDid then .error "Inner JWS to does not match own DID"
  else if payload.type ≠ outerType then .error "Inner JWS type does not match envelope type"
  else if payload.id ≠ outerId then .error "Inner JWS id does not match envelope id"
  else if (innerJwsMaxAgeMs : Int) < (nowMs : Int) - payload.createdTime * 1000 then
    .error "Inner JWS created_time too old"
  else if (innerJwsMaxClockSkewMs : Int) < payload.createdTime * 1000 - (nowMs : Int) then
    .error "Inner JWS created_time too far in the future"
  else .ok payload

/-- The checks of `verifyInboxInnerJws` before it resolves the signer: the payload, the DID of
    the signer and the `kid`. -/
def checkInnerJws (ownDid : Did) (outerType outerId : String) (nowMs : Nat) (jws : InnerJws) :
    Except String (InboxInnerJwsPayload × Did × String) :=
  match jws with
  | .undecodable text => .error text
  | .decoded jws =>
    if jws.alg ≠ some "EdDSA" then .error "Unsupported JWS alg"
    else
      match jws.kid with
      | none => .error "Missing JWS kid"
      | some kid =>
        if kid = "" then .error "Missing JWS kid"
        else do
          let shaped ← assertInboxInnerJwsPayloadShape jws.payload
          let payload ← checkInnerPayload ownDid outerType outerId nowMs (didOrKidToDid kid) shaped
          pure (payload, didOrKidToDid kid, kid)

def verificationKey (kidDid : Did) (kid : String) (didDocument : Option DidDocument) :
    Except String Bytes :=
  match didDocument with
  | none => .error "Unable to resolve DID"
  | some document =>
    if document.id ≠ kidDid then .error "Resolved DID document does not match DID"
    else
      match document.verificationMethod.find? fun method =>
        method.1 == kid || (method.1.startsWith "#" && kidDid ++ method.1 == kid) with
      | none => .error "Unable to resolve verification method"
      | some (_, none) => .error "Invalid Ed25519 multibase key"
      | some (_, some publicKey) => .ok publicKey

/-! ## 3. The history -/

structure StoredMessageId where
  id : String
  seenAtMs : Nat

abbrev MessageIdHistory := KeyedTable StoredMessageId.id

namespace MessageIdHistory

/-- `has`. -/
def seen (h : MessageIdHistory) (id : String) (nowMs : Nat) : Bool :=
  (h.get? id).any fun r => decide ((nowMs : Int) - messageIdRetentionMs ≤ r.seenAtMs)

/-- `pruneOlderThan`, at the end of the retention. -/
def prune (h : MessageIdHistory) (nowMs : Nat) : MessageIdHistory :=
  h.filter fun r => decide ((nowMs : Int) - messageIdRetentionMs ≤ r.seenAtMs)

/-- `checkAndRecord`: a duplicate does not refresh the time. -/
def checkAndRecord (h : MessageIdHistory) (id : String) (nowMs : Nat) : MessageIdHistory :=
  (h.prune nowMs).add ⟨id, nowMs⟩

end MessageIdHistory

/-! ## 4. The receiver -/

inductive HistoryKind where
  | inMemory
  | indexedDB
deriving DecidableEq

structure InboxConfig where
  kind : HistoryKind
  ownDid : Did
  expectedTypes : List String

/-- What happens, in its order: a reception begins, it is accepted or taken for a replay, and
    the id of an accepted message is recorded, under the time that was read for it. -/
inductive InboxEvent where
  | received (reception : Nat)
  | accepted (reception : Nat) (id : String) (createdTime : Nat)
  | replayed (reception : Nat) (id : String)
  | recorded (id : String) (createdTime stamp : Nat)
deriving DecidableEq

structure InboxWorld where
  clock : Nat
  history : MessageIdHistory
  receptions : Nat
  events : List InboxEvent

def InboxWorld.fresh : InboxWorld := ⟨0, .empty, 0, []⟩

inductive InboxPoint where
  | receive
  | decryptEcies
  | resolveDid
  | verifyEd25519
  | has (id : String)
  | getRecord (id : String)
  | recordProcessed
  | recordTransaction

/-- What the outside contributes to one piece: the time, and the outcome of the awaited call. -/
structure InboxInput where
  now : Nat
  failure : Option String
  innerJws : InnerJws
  didDocument : Option DidDocument
  signatureValid : Bool

inductive RejectReason where
  | malformedEnvelope
  | unexpectedType
  | decryptFailed
  | invalidInnerJws
  | replay

inductive ReceiveInboxMessageResult where
  | accept (reception : Nat) (type : String) (senderDid : Did) (body : String) (outerId : String)
      (extensionFields : List (String × String))
  | reject (reason : RejectReason) (detail : Option String)

abbrev InboxProgram := Async InboxPoint InboxInput InboxWorld String

namespace InboxWorld

variable (w : InboxWorld)

def tick (now : Nat) : InboxWorld := { w with clock := now }

def note (e : InboxEvent) : InboxWorld := { w with events := w.events ++ [e] }

def beginReception : Nat × InboxWorld :=
  (w.receptions, { w.note (.received w.receptions) with receptions := w.receptions + 1 })

def judge (reception : Nat) (payload : InboxInnerJwsPayload) (nowMs : Nat) : Bool × InboxWorld :=
  if w.history.seen payload.id nowMs then (true, w.note (.replayed reception payload.id))
  else (false, w.note (.accepted reception payload.id payload.createdTime))

def acceptedAs (reception : Nat) : Option (String × Nat) :=
  w.events.findSome? fun
    | .accepted reception' id createdTime =>
      if reception' = reception then some (id, createdTime) else none
    | _ => none

/-- The transaction of `checkAndRecord`. -/
def record (id : String) (createdTime stamp : Nat) : InboxWorld :=
  { w with history := w.history.checkAndRecord id stamp }.note (.recorded id createdTime stamp)

end InboxWorld

section

variable (cfg : InboxConfig)

def inspectEnvelope (message : WireMessage) :
    Except RejectReason (InboxWireEnvelope × EciesMessage) :=
  match message with
  | .malformed => .error .malformedEnvelope
  | .plaintext envelope =>
    if envelope.toDids = [] then .error .malformedEnvelope
    else
      match envelope.ecies with
      | none => .error .malformedEnvelope
      | some ecies =>
        if envelope.type ∈ cfg.expectedTypes then .ok (envelope, ecies) else .error .unexpectedType

/-- `verifyInboxInnerJws`, from the piece on in which the plaintext has arrived. -/
def verifyInboxInnerJws (innerJws : InnerJws) (outerType outerId : String) (nowMs : Nat) :
    InboxProgram InboxInnerJwsPayload := do
  let (payload, kidDid, kid) ← Async.ofExcept
    (checkInnerJws cfg.ownDid outerType outerId nowMs innerJws)
  let document ← atomic .resolveDid fun i w =>
    (match i.failure with
      | some text => .error text
      | none => .ok i.didDocument, w.tick i.now)
  let _ ← Async.ofExcept (verificationKey kidDid kid document)
  let valid ← atomic .verifyEd25519 fun i w =>
    (match i.failure with
      | some text => .error text
      | none => .ok i.signatureValid, w.tick i.now)
  if valid then pure payload else throw "Invalid JWS signature"

/-- `messageIdHistory.has`, and the decision of the reception. -/
def lookUp (reception : Nat) (payload : InboxInnerJwsPayload) : InboxProgram Bool :=
  match cfg.kind with
  | .inMemory =>
    atomic (.has payload.id) fun i w =>
      (.ok ((w.tick i.now).judge reception payload i.now).1,
        ((w.tick i.now).judge reception payload i.now).2)
  | .indexedDB => do
    let nowMs ← atomic (.has payload.id) fun i w => (.ok i.now, w.tick i.now)
    atomic (.getRecord payload.id) fun i w =>
      match i.failure with
      | some text => (.error text, w.tick i.now)
      | none =>
        (.ok ((w.tick i.now).judge reception payload nowMs).1,
          ((w.tick i.now).judge reception payload nowMs).2)

def receiveInboxMessage (message : WireMessage) : InboxProgram ReceiveInboxMessageResult := do
  let reception ← atomic .receive fun i w =>
    (.ok (w.tick i.now).beginReception.1, (w.tick i.now).beginReception.2)
  match inspectEnvelope cfg message with
  | .error reason => pure (.reject reason none)
  | .ok (envelope, _) => do
    let decrypted ← atomic .decryptEcies fun i w =>
      (.ok (match i.failure with
        | some _ => none
        | none => some (i.innerJws, i.now)), w.tick i.now)
    match decrypted with
    | none => pure (.reject .decryptFailed none)
    | some (innerJws, nowMs) => do
      let verified : Except String InboxInnerJwsPayload ← tryCatch (do
          let payload ← verifyInboxInnerJws cfg innerJws envelope.type envelope.id nowMs
          pure (.ok payload)) fun detail => pure (.error detail)
      match verified with
      | .error detail => pure (.reject .invalidInnerJws (some detail))
      | .ok payload => do
        let replay ← lookUp cfg reception payload
        if replay then pure (.reject .replay none)
        else
          pure (.accept reception envelope.type payload.fromDid payload.body envelope.id
            envelope.extensionFields)

/-- The `recordProcessed` that a reception was accepted with. -/
def recordProcessed (reception : Nat) : InboxProgram Unit :=
  match cfg.kind with
  | .inMemory =>
    mutate .recordProcessed fun i w =>
      match w.acceptedAs reception with
      | none => w.tick i.now
      | some (id, createdTime) => (w.tick i.now).record id createdTime i.now
  | .indexedDB => do
    let (accepted, stamp) ← atomic .recordProcessed fun i w =>
      (.ok (w.acceptedAs reception, i.now), w.tick i.now)
    match accepted with
    | none => pure ()
    | some (id, createdTime) =>
      atomic .recordTransaction fun i w =>
        match i.failure with
        | some text => (.error text, w.tick i.now)
        | none => (.ok (), (w.tick i.now).record id createdTime stamp)

end

/-! ## 5. The system -/

inductive InboxCall where
  | receive (message : WireMessage)
  | recordProcessed (reception : Nat)

/-- Receptions and recordings over one history.  A restart keeps what is in the database. -/
def inboxSystem (cfg : InboxConfig) : System InboxPoint InboxInput InboxWorld String
    (Option ReceiveInboxMessageResult) InboxCall where
  call
    | .receive message => do
      let result ← receiveInboxMessage cfg message
      pure (some result)
    | .recordProcessed reception => do
      recordProcessed cfg reception
      pure none
  restart w := w

abbrev InboxConfiguration :=
  Config InboxPoint InboxInput InboxWorld String (Option ReceiveInboxMessageResult)

end WebOfTrust
