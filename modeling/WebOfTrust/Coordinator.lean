/-
  **The state of the log-sync coordinator** (`log-sync-coordinator.ts`) and what its code
  does to it between two `await`s.

  A coordinator serves one document over one transport.  Its flags and promises are fields;
  a promise is a number, and `settled` says how it ended.  An awaited call of the outside
  takes effect at one point and the code behind it runs at the next.

  `events` is history: what the coordinator has told the broker and heard from it about the
  pause of a restore-clone, the first publication and the receipts.  `binding` counts how
  often the device id has been bound anew.
-/
import WebOfTrust.AsyncPhases
import WebOfTrust.BrokerErrors
import WebOfTrust.CatchUp
import WebOfTrust.Messaging

namespace WebOfTrust

open Async

/-! ## 1. The outside -/

inductive CallFailure where
  | message (text : String)
  /-- A `ControlFrameRejectedError`, or any error that carries a known code. -/
  | brokerError (code : BrokerErrorCode)
  | capabilityKeysUnavailable

structure CoordInput where
  failure : Option CallFailure
  now : Nat
  uuid : String
  recipients : List Did
  receipt : Option DeliveryReceipt
  response : Option SyncResponse
  newDeviceId : Option DeviceId
  advanced : Bool

def CallFailure.text : CallFailure → String
  | .message text => text
  | .brokerError _ => "control frame rejected"
  | .capabilityKeysUnavailable => "local keys are not available yet"

def CoordInput.env (i : CoordInput) : Env := ⟨i.failure.map CallFailure.text, i.now, i.uuid⟩

inductive CoordError where
  | rejected (text : String)
  | brokerError (code : BrokerErrorCode)
  | capabilityKeysUnavailable
  | authorMismatch (docId : DocId) (deviceId : DeviceId) (authorKid : String)
  | personalDocOwnerMismatch (docId : DocId) (deviceId : DeviceId)
  | seqCollision (docId : DocId) (deviceId : DeviceId) (seq : Option Nat)
  | deviceRevoked (docId : DocId) (deviceId : DeviceId)
  | localAppendFailed (docId : DocId) (deviceId : DeviceId) (reason : DocLogError)
  | sync (e : SyncError)
  /-- The bound of the model on loops and nested publications. -/
  | outOfFuel

def CallFailure.error : CallFailure → CoordError
  | .message text => .rejected text
  | .brokerError code => .brokerError code
  | .capabilityKeysUnavailable => .capabilityKeysUnavailable

/-- What the coordinator is configured with.  The flags say which optional hooks are wired. -/
structure CoordConfig extends SyncConfig where
  kind : StoreKind
  sha256 : String → Bytes
  ownDid : Did
  authorKid : String
  encodeUpdate : Bytes → Bytes
  getRecipients : Bool
  sendSpaceRegister : Bool
  onWriteRejected : Bool
  onAfterRestoreClone : Bool
  awaitKeyGenerationAdvance : Bool

/-! ## 2. The state -/

structure InFlightWrite where
  messageId : String
  deviceId : DeviceId
  seq : Nat
  encoded : Option Bytes

structure ParkedReemit where
  deviceId : DeviceId
  seq : Nat
  encoded : Option Bytes

/-- `appliedKey`. -/
def ParkedReemit.key (r : ParkedReemit) : DeviceId × Nat := (r.deviceId, r.seq)

/-- A `log-entry/1.0` envelope (`from`, `to`), with the coordinate of its entry. -/
structure LogEntryEnvelope where
  id : String
  sender : Did
  recipients : List Did
  createdTime : Nat
  docId : DocId
  deviceId : DeviceId
  seq : Nat
  entryJws : EntryJws
deriving DecidableEq

inductive CoordEvent where
  /-- The transport has a new socket. -/
  | connected
  /-- The answer to the sync-request `thid` came in. -/
  | syncResponse (thid : Nat)
  /-- The restore-clone disposition was computed from it. -/
  | headsCompared (thid : Nat)
  /-- Its entries were applied. -/
  | pageApplied (thid : Nat)
  | logEntry (message : LogEntryEnvelope)
  /-- A coordinator of another document handed one to the same transport. -/
  | otherLogEntry (docId : DocId)
  /-- The broker acknowledged the envelope of this coordinate. -/
  | acknowledged (receipt : DeliveryReceipt) (deviceId : DeviceId) (seq : Nat)
  /-- The broker rejected the envelope of this coordinate. -/
  | writeRejected (code : BrokerErrorCode) (messageId : String) (deviceId : DeviceId) (seq : Nat)
  | rotationBegun
  /-- The rotation's new device is registered, and the coordinator bound to it. -/
  | registered (binding : Nat) (deviceId : DeviceId)
  /-- A capability was accepted that was sent under this binding. -/
  | presented (binding : Nat)
  | rotationEnded
deriving DecidableEq

structure LogSyncCoordinator where
  log : DocLogWorld
  connectionEpoch : Nat
  connection : Nat
  observed : List GapObservation
  deviceId : DeviceId
  applied : List (DeviceId × Nat)
  blockedByKey : KeyedTable BlockedEntry.key
  updates : List Bytes
  /-- What `getContentKey` answers. -/
  contentKey : Option ContentKey
  published : Bool
  publishing : Option Nat
  controlTail : Option Nat
  pendingSyncRequests : List Nat
  catchingUp : Bool
  catchUpInFlight : Option Nat
  inFlightWrites : KeyedTable InFlightWrite.messageId
  restoreCloneInFlight : Bool
  rebinding : Option Nat
  reemitInFlight : List (DeviceId × Nat)
  pendingReemits : KeyedTable ParkedReemit.key
  /-- The calls of `markAcked` that nobody waits for. -/
  unawaitedAcks : List (DeviceId × Nat)
  promises : Nat
  settled : List (Nat × Option CoordError)
  /-- The write-pause gates made so far, and those that are open. -/
  gates : Nat
  openGates : List Nat
  binding : Nat
  events : List CoordEvent

namespace LogSyncCoordinator

def start (store : DocLogStore) (deviceId : DeviceId) (contentKey : Option ContentKey) :
    LogSyncCoordinator where
  log := { DocLogWorld.fresh with store := store }
  connectionEpoch := 0
  connection := 0
  observed := []
  deviceId := deviceId
  applied := []
  blockedByKey := .empty
  updates := []
  contentKey := contentKey
  published := false
  publishing := none
  controlTail := none
  pendingSyncRequests := []
  catchingUp := false
  catchUpInFlight := none
  inFlightWrites := .empty
  restoreCloneInFlight := false
  rebinding := none
  reemitInFlight := []
  pendingReemits := .empty
  unawaitedAcks := []
  promises := 0
  settled := []
  gates := 0
  openGates := []
  binding := 0
  events := []

def docLogPart : Part LogSyncCoordinator DocLogWorld where
  get := log
  set log c := { c with log := log }
  set_get _ := rfl
  get_set _ _ := rfl
  set_set _ _ _ := rfl

def syncPart : Part LogSyncCoordinator SyncWorld where
  get c :=
    { gap :=
        { store := c.log.store, connectionEpoch := c.connectionEpoch, connection := c.connection
          observed := c.observed }
      deviceId := c.deviceId, applied := c.applied, blockedByKey := c.blockedByKey
      updates := c.updates }
  set w c :=
    { c with
      log := { c.log with store := w.gap.store }
      connectionEpoch := w.gap.connectionEpoch, connection := w.gap.connection
      observed := w.gap.observed, deviceId := w.deviceId, applied := w.applied
      blockedByKey := w.blockedByKey, updates := w.updates }
  set_get _ := rfl
  get_set _ _ := rfl
  set_set _ _ _ := rfl

variable (c : LogSyncCoordinator)

def note (event : CoordEvent) : LogSyncCoordinator := { c with events := c.events ++ [event] }

def setStore (store : DocLogStore) : LogSyncCoordinator :=
  { c with log := { c.log with store := store } }

/-! ## 3. Promises -/

def isSettled (promise : Nat) : Bool := (c.settled.lookup promise).isSome

def result (promise : Nat) : Except CoordError Unit :=
  match c.settled.lookup promise with
  | some (some e) => .error e
  | _ => .ok ()

def settle (promise : Nat) (error : Option CoordError) : LogSyncCoordinator :=
  { c with settled := (promise, error) :: c.settled }

/-! ## 4. The sections -/

/-- `enqueueControlFrame`: the ticket of the frame, and the one it waits for. -/
def enqueue : (Nat × Option Nat) × LogSyncCoordinator :=
  ((c.promises, c.controlTail),
    { c with promises := c.promises + 1, controlTail := some c.promises })

inductive PublicationStart where
  | published
  | joined (promise : Nat)
  | own (promise : Nat)

/-- `ensurePublished`, up to its `await`. -/
def beginPublication : PublicationStart × LogSyncCoordinator :=
  if c.published then (.published, c)
  else
    match c.publishing with
    | some promise => (.joined promise, c)
    | none =>
      (.own c.promises, { c with promises := c.promises + 1, publishing := some c.promises })

/-- The end of `ensurePublished`: only the run that still owns the promise leaves a trace. -/
def endPublication (own : Nat) (error : Option CoordError) : LogSyncCoordinator :=
  let c := c.settle own error
  if c.publishing = some own then
    { c with published := c.published || error.isNone, publishing := none }
  else c

inductive HeadAbgleich where
  | restoring
  | joined (promise : Nat)
  | own (promise : Nat)

/-- `runFirstPublication` behind the capability: nothing to do during a restore-clone, wait
    for the catch-up in flight, or start one. -/
def beginHeadAbgleich : HeadAbgleich × LogSyncCoordinator :=
  if c.restoreCloneInFlight then (.restoring, c)
  else
    match c.catchingUp, c.catchUpInFlight with
    | true, some promise => (.joined promise, c)
    | _, _ =>
      (.own c.promises, { c with
          promises := c.promises + 1, catchingUp := true, catchUpInFlight := some c.promises })

/-- `catchUp`, up to its `await`: a second one is coalesced. -/
def beginCatchUp : Option Nat × LogSyncCoordinator :=
  if c.catchingUp then (none, c)
  else
    (some c.promises, { c with
        promises := c.promises + 1, catchingUp := true, catchUpInFlight := some c.promises })

/-- `releaseCatchUpGuard`, as the run ends. -/
def endCatchUp (own : Nat) (error : Option CoordError) : LogSyncCoordinator :=
  let c := c.settle own error
  if c.catchUpInFlight = some own then { c with catchingUp := false, catchUpInFlight := none }
  else c

/-- `rememberInFlight`: a ring of the latest sends. -/
def rememberInFlight (w : InFlightWrite) : LogSyncCoordinator :=
  let kept :=
    if 256 < c.inFlightWrites.rows.length then
      match c.inFlightWrites.rows.head? with
      | some oldest => c.inFlightWrites.erase oldest.messageId
      | none => c.inFlightWrites
    else c.inFlightWrites
  { c with inFlightWrites := kept.put w }

/-- `markAckedOnReceipt`: is this the broker's receipt for this envelope? -/
def isAck (messageId : String) (receipt : DeliveryReceipt) : Bool :=
  decide (receipt.messageId = messageId) &&
    (decide (receipt.status = .delivered) || decide (receipt.status = .accepted)) &&
      decide (receipt.reason ≠ some "queued-in-outbox")

def markAckedOnReceipt (receipt : Option DeliveryReceipt) (messageId : String)
    (deviceId : DeviceId) (seq : Nat) : LogSyncCoordinator :=
  match receipt with
  | none => c
  | some receipt =>
    if isAck messageId receipt then
      { c with
        inFlightWrites := c.inFlightWrites.erase messageId
        unawaitedAcks := c.unawaitedAcks ++ [(deviceId, seq)]
        events := c.events ++ [.acknowledged receipt deviceId seq] }
    else c

def send (message : LogEntryEnvelope) (encoded : Option Bytes) : LogSyncCoordinator :=
  let c := c.rememberInFlight ⟨message.id, message.deviceId, message.seq, encoded⟩
  { c with
    log :=
      { c.log with
        sent := c.log.sent ++ [⟨message.docId, message.deviceId, message.seq, message.entryJws⟩] }
    events := c.events ++ [.logEntry message] }

/-- `onWritePathErrorFrame`: the write that a rejected envelope carried. -/
def correlate (code : BrokerErrorCode) (thid : String) :
    Option InFlightWrite × LogSyncCoordinator :=
  match c.inFlightWrites.get? thid with
  | none => (none, c)
  | some w =>
    (some w, { c with
        inFlightWrites := c.inFlightWrites.erase thid
        events := c.events ++ [.writeRejected code thid w.deviceId w.seq] })

def rebind (newDeviceId : DeviceId) : LogSyncCoordinator :=
  { c with deviceId := newDeviceId, inFlightWrites := .empty, binding := c.binding + 1 }

/-- `restoreClone`, up to its handler: the gate, and the old device id. -/
def beginRestoreClone : Option (Nat × DeviceId) × LogSyncCoordinator :=
  if c.restoreCloneInFlight then (none, c)
  else
    (some (c.gates, c.deviceId), { c with
        restoreCloneInFlight := true, gates := c.gates + 1, rebinding := some c.gates
        events := c.events ++ [.rotationBegun] })

/-- `restoreClone` behind its handler: bind the new device id, and start to publish it. -/
def adopt (newDeviceId : DeviceId) : PublicationStart × LogSyncCoordinator :=
  let c := c.rebind newDeviceId
  beginPublication { c with
      published := false, publishing := none
      events := c.events ++ [.registered c.binding newDeviceId] }

/-- `openWritePauseGate`: idempotent. -/
def openWritePauseGate (gate : Nat) : LogSyncCoordinator :=
  if gate ∈ c.openGates then c
  else { c with openGates := gate :: c.openGates, rebinding := none }

/-- The `finally` of `restoreClone`. -/
def endRestoreClone (gate : Nat) : LogSyncCoordinator :=
  let c := c.openWritePauseGate gate
  { c with restoreCloneInFlight := false, events := c.events ++ [.rotationEnded] }

def resetForReconnect : LogSyncCoordinator :=
  { c with
    published := false, publishing := none, controlTail := none, pendingSyncRequests := []
    catchingUp := false, connectionEpoch := c.connectionEpoch + 1 }

def connect : LogSyncCoordinator :=
  { c with connection := c.connection + 1, events := c.events ++ [.connected] }

/-- The process dies; the next coordinator is made over the same store, with the device id
    that is stored. -/
def restart : LogSyncCoordinator :=
  { start c.log.store (c.log.store.deviceId.getD c.deviceId) c.contentKey with
    log := c.log, connection := c.connection + 1, gates := c.gates, openGates := c.openGates
    binding := c.binding, events := c.events ++ [.connected] }

end LogSyncCoordinator

end WebOfTrust
